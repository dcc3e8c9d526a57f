import AccessGate.Proofs.Radius.Lookups
import AccessGate.Proofs.Radius.Signing

/-!
# What is written is received

Writer and reader take the digests of a packet apart from each other: the writer while the packet
comes together, the reader from the finished octets, where the authenticator field holds another
value. This file says that they agree, for any two digest functions.

* `written_of_write`: all that is known of the octets that a packet was written as;
* `asSigned_assemble`: the reader puts the authenticator into the field that the writer signed with;
* `read_of_written`, `read_write`: the octets are read without a fault, and whoever checks an
  authenticator of theirs finds it right.

A packet with a computed authenticator answers no request; where it did, the writer would sign with
zeros and the reader look for the request's authenticator (`AnswersNone`).
-/

namespace AccessGate.Radius

open WritingContext

variable {ctx : WritingContext} {p : Packet} {bs : Bytes} {ts us : List Tlv}

/-- The octets `bs` are the packet with the attributes `us`, which stand for its values and were
signed from `ts`. -/
structure Written (ctx : WritingContext) (p : Packet) (bs : Bytes) (ts us : List Tlv) : Prop where
  values : List.Forall₂ (fun pair t => ∃ entry, Writes ctx p pair entry t) p.attributes.toList ts
  stamped : List.Forall₂ Tlv.Stamped ts us
  fits : headSize + (Tlv.encodeAll us).length ≤ Packet.maxSize
  octets : bs = assemble p.code p.identifier (finalAuthenticator ctx p us) us
  signature : SignatureHolds ctx.digests p.secret.bytes p.code p.identifier
    (signingAuthenticator p) us

/-- **All that is known of the octets that a packet was written as.** -/
theorem written_of_write (h : ctx.write p = .ok bs) : ∃ ts us, Written ctx p bs ts us := by
  obtain ⟨ts, htlvs, hsize, rfl⟩ := write_ok_iff.mp h
  have hvalues := tlvs_forall htlvs
  have hunsigned : ∀ t ∈ ts, t.code = Attribute.messageAuthenticator →
      t = Tlv.signature (Bytes.zeros 16) := by
    intro t ht
    obtain ⟨pair, -, entry, hwrites⟩ := exists_of_mem_right hvalues ht
    exact hwrites.unsigned
  obtain ⟨us, hstamped, hsigned, hsignature⟩ :=
    signed_assemble ctx p hunsigned (signingAuthenticator p)
  refine ⟨ts, us, hvalues, hstamped, ?_, ?_, hsignature⟩
  · rw [Tlv.length_of_stamped hstamped, ← length_assemble p.code p.identifier .zero ts,
      ← unsealed_eq]
    exact hsize
  · rw [lastWhere_eq hvalues]
    exact sealed_assemble hsigned

namespace Written

variable (w : Written ctx p bs ts us)

include w

/-- No attribute is longer than its length can tell. -/
theorem length_le {u : Tlv} (hu : u ∈ us) : u.value.length ≤ 253 := by
  obtain ⟨t, ht, hstamped⟩ := exists_of_mem_right w.stamped hu
  obtain ⟨pair, -, entry, hwrites⟩ := exists_of_mem_right w.values ht
  rw [hstamped.length]
  exact hwrites.fits

/-- Every Message-Authenticator has its size. -/
theorem length_signature {u : Tlv} (hu : u ∈ us) (code : u.code = Attribute.messageAuthenticator) :
    u.value.length = 16 := by
  obtain ⟨t, ht, hstamped⟩ := exists_of_mem_right w.stamped hu
  obtain ⟨pair, -, entry, hwrites⟩ := exists_of_mem_right w.values ht
  rw [hstamped.length, hwrites.unsigned (hstamped.code ▸ code)]
  exact Bytes.length_zeros 16

/-- The reader finds the attributes that were written. -/
theorem readAll : Tlv.readAll headSize (bs.drop headSize) = .ok us := by
  rw [w.octets, drop_assemble]
  exact Tlv.readAll_encodeAll headSize us (fun _ => w.length_le) fun _ => w.length_signature

end Written

/-- The packet's authenticator is computed only where it answers no request. -/
def Packet.AnswersNone (p : Packet) : Prop :=
  p.code.hasComputedAuthenticator = true → p.requestAuthenticator = none

theorem Packet.AnswersNone.not_computed (h : p.AnswersNone) {a : Block}
    (request : p.requestAuthenticator = some a) : ¬ p.code.hasComputedAuthenticator = true := by
  intro computed
  rw [h computed] at request
  cases request

/-- **The reader puts the authenticator into the field that the writer signed with.** -/
theorem asSigned_assemble (answersNone : p.AnswersNone) :
    ReadingContext.asSigned (assemble p.code p.identifier (finalAuthenticator ctx p us) us) p.code
      p.requestAuthenticator = assemble p.code p.identifier (signingAuthenticator p) us := by
  unfold ReadingContext.asSigned signingAuthenticator
  cases hrequest : p.requestAuthenticator with
  | some a =>
    -- a reply is signed with the authenticator of its request, which the reader knows
    simp only
    rw [replace_assemble, if_neg (answersNone.not_computed hrequest)]
    unfold passwordAuthenticator
    rw [hrequest]
    rfl
  | none =>
    by_cases hcomputed : p.code.hasComputedAuthenticator = true
    · simp only [if_pos hcomputed]
      rw [replace_assemble]
    · -- what is signed is already what is sent
      simp only [if_neg hcomputed]
      unfold finalAuthenticator passwordAuthenticator
      rw [if_neg hcomputed, hrequest]
      rfl

/-- What is compared is computed. -/
theorem hasComputedAuthenticator_of_compared {code : Code}
    (h : code.authenticatorIsCompared = true) : code.hasComputedAuthenticator = true := by
  cases code <;> first | rfl | cases h

/-- A computed authenticator is the packet's own digest. -/
theorem verifyRequest_assemble (computed : p.code.hasComputedAuthenticator = true) :
    Authenticator.verifyRequest ctx.digests
      (assemble p.code p.identifier (finalAuthenticator ctx p us) us) p.secret.bytes = true := by
  unfold Authenticator.verifyRequest finalAuthenticator
  rw [if_pos computed]
  exact verifyResponse_assemble ctx.digests p.code p.identifier .zero us p.secret.bytes

/-- What the reader gets to see of a packet that was written. -/
def received (ctx : WritingContext) (p : Packet) (encoding : PasswordEncoding) (us : List Tlv) :
    Packet :=
  let authenticator := finalAuthenticator ctx p us
  { p with
    authenticator
    attributes := .ofList (us.flatMap
      (ReadingContext.contribution ⟨ctx.digests, ctx.dictionary, p.secret, encoding⟩
        authenticator)) }

/-- **What is written is read without a fault.** -/
theorem read_of_written (w : Written ctx p bs ts us) (answersNone : p.AnswersNone)
    (encoding : PasswordEncoding) :
    ReadingContext.read ⟨ctx.digests, ctx.dictionary, p.secret, encoding⟩
      p.requestAuthenticator bs = .ok (received ctx p encoding us) := by
  have hattributes := w.readAll
  have hbs := w.octets
  subst hbs
  have hhead := head_assemble p.code p.identifier (finalAuthenticator ctx p us) us w.fits
  have hcompared : (p.code.authenticatorIsCompared && !Authenticator.verifyRequest ctx.digests
      (assemble p.code p.identifier (finalAuthenticator ctx p us) us) p.secret.bytes) = false := by
    cases hcode : p.code.authenticatorIsCompared with
    | false => rfl
    | true =>
      rw [verifyRequest_assemble (hasComputedAuthenticator_of_compared hcode)]
      rfl
  have hsigned : ReadingContext.messageAuthenticatorHolds
      ⟨ctx.digests, ctx.dictionary, p.secret, encoding⟩
      (assemble p.code p.identifier (finalAuthenticator ctx p us) us) p.code
      p.requestAuthenticator us = true := by
    unfold ReadingContext.messageAuthenticatorHolds
    split
    · rfl
    · rename_i offset hoffset
      rw [asSigned_assemble answersNone]
      exact w.signature offset hoffset
  unfold ReadingContext.read
  simp only [hhead, hattributes, hcompared, hsigned, bind, Except.bind]
  rfl

/-- **Whatever a writer signs, the receiver accepts**: the octets are read without a fault, a reply
carries its response authenticator, a computed authenticator is the right one, and any other packet
carries its own. -/
theorem read_write (answersNone : p.AnswersNone) (h : ctx.write p = .ok bs)
    (encoding : PasswordEncoding) :
    (∃ q, ReadingContext.read ⟨ctx.digests, ctx.dictionary, p.secret, encoding⟩
      p.requestAuthenticator bs = .ok q) ∧
    (∀ a, p.requestAuthenticator = some a →
      Authenticator.verifyResponse ctx.digests bs a p.secret.bytes = true) ∧
    (p.code.hasComputedAuthenticator = true →
      Authenticator.verifyRequest ctx.digests bs p.secret.bytes = true) ∧
    (p.requestAuthenticator = none → p.code.hasComputedAuthenticator = false →
      bs.slice authenticatorOffset 16 = p.authenticator.octets) := by
  obtain ⟨ts, us, w⟩ := written_of_write h
  refine ⟨⟨_, read_of_written w answersNone encoding⟩, ?_, ?_, ?_⟩
  · intro a hrequest
    rw [w.octets]
    unfold finalAuthenticator
    rw [if_neg (answersNone.not_computed hrequest), hrequest]
    exact verifyResponse_assemble ctx.digests p.code p.identifier a us p.secret.bytes
  · intro hcomputed
    rw [w.octets]
    exact verifyRequest_assemble hcomputed
  · intro hrequest hcomputed
    rw [w.octets, slice_assemble]
    unfold finalAuthenticator
    rw [hcomputed, hrequest]
    rfl

/-- A request with two Message-Authenticators. -/
def signedTwice : Packet :=
  { Packet.new .accessRequest 1 (.ofString "secret") .zero with
    attributes := ⟨[⟨Name.messageAuthenticator, [.octets [], .octets []]⟩], by simp, by simp⟩ }

/-- The definition of a Message-Authenticator. -/
def signatureEntry : Entry :=
  ⟨Attribute.messageAuthenticator, Name.messageAuthenticator, .octets, none⟩

/-- A dictionary of this definition alone. -/
def signatureDictionary : Dictionary := Dictionary.empty.insert signatureEntry

/-- A request that is signed twice is received. -/
theorem read_write_signedTwice : signedTwice.AnswersNone ∧
    ∃ bs, (WritingContext.mk .standard signatureDictionary).write signedTwice = .ok bs ∧
      ∃ q, ReadingContext.read ⟨.standard, signatureDictionary, signedTwice.secret, .utf8⟩
        signedTwice.requestAuthenticator bs = .ok q := by
  have hnone : signedTwice.AnswersNone := fun _ => rfl
  have hvalues : signedTwice.attributes.toList =
      [(Name.messageAuthenticator, .octets []), (Name.messageAuthenticator, .octets [])] := rfl
  have hfound : signatureDictionary.byName? Name.messageAuthenticator = some signatureEntry :=
    (Dictionary.byName?_insert _ _ _).trans (if_pos (Name.same_iff.mpr rfl))
  obtain ⟨bs, hbs⟩ : ∃ bs, (WritingContext.mk .standard signatureDictionary).write signedTwice =
      .ok bs := by
    refine exists_write (fun pair hpair => ⟨signatureEntry, ?_, ?_⟩) (by rw [hvalues]; decide)
    · rw [hvalues] at hpair
      rcases List.mem_cons.mp hpair with rfl | hpair
      · exact hfound
      · rw [List.mem_singleton.mp hpair]
        exact hfound
    · rw [wireValue_messageAuthenticator rfl rfl]
      decide
  exact ⟨hnone, bs, hbs, (read_write hnone hbs .utf8).1⟩

end AccessGate.Radius
