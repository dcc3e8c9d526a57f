import AccessGate.Proofs.Radius.Grammar
import AccessGate.Radius.StandardDictionary

/-!
# Which authenticators bind

Three codes put a digest of the packet and the secret into the authenticator field. Whether a reader
holds a packet to it shows in octets that differ in the field alone (`SameBesides`):

* where the reader compares the field, no others of these octets are read by anybody who shares the
  secret (`Enforced`);
* where it does not, all of them are (`genuine_of_sameBesides`): the Message-Authenticator, if there
  is one, was signed over zeros in the field and does not see it either.

`enforced_unless_coa` tells the three codes apart: the field of a change of authorization is filled
by whoever writes the packet and compared by nobody, so a field that was made up is accepted
(`forged_change`).
-/

namespace AccessGate.Radius

variable {ctx : ReadingContext} {requestAuthenticator : Option Block} {bs other : Bytes}

/-! ## 1. The field alone -/

/-- Octets that differ from others in the authenticator field alone. -/
structure SameBesides (bs other : Bytes) : Prop where
  front : other.take authenticatorOffset = bs.take authenticatorOffset
  rest : other.drop headSize = bs.drop headSize
  length : other.length = bs.length

/-- Octets are what stands before the field, in it and behind it. -/
theorem eq_around_field (bs : Bytes) :
    bs = bs.take authenticatorOffset ++ bs.slice authenticatorOffset 16 ++ bs.drop headSize := by
  have hrest : bs.drop headSize = (bs.drop authenticatorOffset).drop 16 := by
    rw [List.drop_drop]
    rfl
  rw [hrest, List.append_assoc]
  unfold Bytes.slice
  rw [List.take_append_drop, List.take_append_drop]

namespace SameBesides

variable (h : SameBesides bs other)

include h

theorem eq_of_field (field : other.slice authenticatorOffset 16 = bs.slice authenticatorOffset 16) :
    other = bs := by
  rw [eq_around_field other, h.front, h.rest, field, ← eq_around_field bs]

theorem same_declaredSize : declaredSize other = declaredSize bs := by
  rw [declaredSize_eq, declaredSize_eq, h.front]

theorem same_head? : other.head? = bs.head? := by
  have hfront (xs : Bytes) : (xs.take authenticatorOffset).head? = xs.head? := by
    unfold authenticatorOffset
    rw [List.head?_take, if_neg (by decide)]
  rw [← hfront, h.front, hfront]

/-- The digest that is compared does not see the field. -/
theorem same_digest (ds : Digests) (secret : Bytes) :
    Authenticator.request ds other secret = Authenticator.request ds bs secret := by
  unfold Authenticator.request Authenticator.response
  rw [h.front, h.rest]

theorem framed (framed : Framed bs) : Framed other := by
  refine ⟨?_, ?_⟩
  · rw [h.length]
    exact framed.long
  · rw [h.same_declaredSize, h.length]
    exact framed.declared

end SameBesides

/-! ## 2. Reading -/

/-- The first octet of what is read is the number of its code. -/
theorem code_of_read {q : Packet} (h : ctx.read requestAuthenticator bs = .ok q) {code : Code}
    (known : bs.head? = some code.number) : q.code = code := by
  obtain ⟨ts, hgenuine, -, -⟩ := genuine_of_read h
  have hnumber : code.number = q.code.number :=
    Option.some.inj (known.symm.trans hgenuine.known)
  have hfound := Code.ofNumber?_eq_some_iff.mpr hnumber
  rw [Code.ofNumber?_number] at hfound
  exact (Option.some.inj hfound).symm

/-- Where the field is compared, it is the digest. -/
theorem field_of_compared {code : Code} (holds : AuthenticatorHolds ctx bs code)
    (compared : code = .accountingRequest ∨ code = .disconnectRequest) :
    bs.slice authenticatorOffset 16 =
      (Authenticator.request ctx.digests bs ctx.secret.bytes).octets :=
  holds compared

/-- **Where a computed field is not compared, anything may stand in it.** -/
theorem genuine_of_sameBesides {ts : List Tlv} {code : Code}
    (h : Genuine ctx requestAuthenticator bs code ts) (same : SameBesides bs other)
    (uncompared : ¬ (code = .accountingRequest ∨ code = .disconnectRequest))
    (computed : code.hasComputedAuthenticator = true) :
    Genuine ctx requestAuthenticator other code ts := by
  -- who signed had another authenticator in the field, which is known without it
  have hfield : signedField requestAuthenticator other code =
      signedField requestAuthenticator bs code := by
    unfold signedField
    rw [if_pos computed, if_pos computed]
  refine ⟨same.framed h.framed, ?_, fun compared => absurd compared uncompared, ?_, h.fit, ?_⟩
  · rw [same.same_head?]
    exact h.known
  · rw [same.rest]
    exact h.attributes
  · have hsigned := h.signed
    unfold SignedBySecret at hsigned ⊢
    rw [same.front, hfield]
    exact hsigned

/-! ## 3. Who is held to the digest -/

/-- The authenticator of octets is enforced: it is the digest of the octets and the secret, and with
another one in its field nobody who knows the secret reads them. -/
structure Enforced (ctx : ReadingContext) (bs : Bytes) : Prop where
  digest : bs.slice authenticatorOffset 16 =
    (Authenticator.request ctx.digests bs ctx.secret.bytes).octets
  unique : ∀ (reader : ReadingContext) requestAuthenticator other q,
    reader.digests = ctx.digests → reader.secret = ctx.secret → SameBesides bs other →
      reader.read requestAuthenticator other = .ok q → other = bs

/-- **The authenticators of accounting and of disconnecting are enforced**, those of a change of
authorization never: whatever stands in their field, the octets are read. -/
theorem enforced_unless_coa {q : Packet} (h : ctx.read requestAuthenticator bs = .ok q)
    (computed : q.code.hasComputedAuthenticator = true) :
    (q.code ≠ .coaRequest → Enforced ctx bs) ∧
      (q.code = .coaRequest → ∀ other, SameBesides bs other →
        ∃ q', ctx.read requestAuthenticator other = .ok q' ∧ q'.code = .coaRequest) := by
  obtain ⟨ts, hgenuine, -, -⟩ := genuine_of_read h
  constructor
  · intro hcode
    have hcompared : q.code = .accountingRequest ∨ q.code = .disconnectRequest := by
      cases hq : q.code <;> simp_all [Code.hasComputedAuthenticator]
    have hdigest := field_of_compared hgenuine.authenticator hcompared
    refine ⟨hdigest, fun reader request other q' digests secret same hread => ?_⟩
    obtain ⟨us, hother, -, -⟩ := genuine_of_read hread
    have hsame : q'.code = q.code := by
      refine code_of_read hread ?_
      rw [same.same_head?]
      exact hgenuine.known
    have hfield := field_of_compared hother.authenticator (hsame ▸ hcompared)
    rw [digests, secret, same.same_digest, ← hdigest] at hfield
    exact same.eq_of_field hfield
  · intro hcode other same
    have huncompared : ¬ (q.code = .accountingRequest ∨ q.code = .disconnectRequest) := by
      rw [hcode]
      decide
    have hother := genuine_of_sameBesides hgenuine same huncompared computed
    obtain ⟨q', hread⟩ := read_of_genuine hother
    exact ⟨q', hread, (code_of_read hread hother.known).trans hcode⟩

/-- A reader that shares the secret "testing123". -/
def testingReader : ReadingContext := ⟨.standard, .standard, .ofString "testing123", .utf8⟩

/-- A packet without attributes, as the reader gets to see it. -/
def bare (code : Code) (a : Block) : Packet := ⟨code, 1, a, none, testingReader.secret, .empty⟩

/-- The digest of a request for accounting without attributes. -/
def accountingDigest : Block :=
  ⟨[202, 44, 14, 222, 226, 149, 111, 245, 229, 190, 214, 73, 121, 255, 225, 10], rfl⟩

/-- A request for a change of authorization, with zeros for its digest. -/
def forgedChange : Bytes := [43, 1, 0, 20] ++ Bytes.zeros 16

/-- A request for accounting with its digest is held to it, and a change of authorization with
another field is read as the forged one is. -/
theorem enforced_accounting :
    testingReader.read none ([4, 1, 0, 20] ++ accountingDigest.octets) =
        .ok (bare .accountingRequest accountingDigest) ∧
      Enforced testingReader ([4, 1, 0, 20] ++ accountingDigest.octets) ∧
      SameBesides forgedChange ([43, 1, 0, 20] ++ accountingDigest.octets) ∧
      ∃ q, testingReader.read none ([43, 1, 0, 20] ++ accountingDigest.octets) = .ok q ∧
        q.code = .coaRequest := by
  have haccounting : testingReader.read none ([4, 1, 0, 20] ++ accountingDigest.octets) =
      .ok (bare .accountingRequest accountingDigest) := by decide +kernel
  have hchange : testingReader.read none forgedChange = .ok (bare .coaRequest .zero) := by
    decide +kernel
  have hsame : SameBesides forgedChange ([43, 1, 0, 20] ++ accountingDigest.octets) :=
    ⟨rfl, rfl, rfl⟩
  exact ⟨haccounting, (enforced_unless_coa haccounting rfl).1 (by decide), hsame,
    (enforced_unless_coa hchange rfl).2 rfl _ hsame⟩

/-- The forged change of authorization is read, although its field is not the digest. -/
theorem forged_change :
    testingReader.read none forgedChange = .ok (bare .coaRequest .zero) ∧
      (bare .coaRequest .zero).code.hasComputedAuthenticator = true ∧
      forgedChange.slice authenticatorOffset 16 ≠
        (Authenticator.request testingReader.digests forgedChange testingReader.secret.bytes).octets := by
  refine ⟨?_, rfl, ?_⟩
  · decide +kernel
  · decide +kernel

end AccessGate.Radius
