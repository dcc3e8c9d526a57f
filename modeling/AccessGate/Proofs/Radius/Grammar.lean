import AccessGate.Proofs.Radius.Signing

/-!
# Which octets are a packet

The rules of a packet are told here without a reader, each over the octets as they came:

* `Tlv.Spells`: octets are attributes one after the other, each behind a length that counts its
  value and two more; `Tlv.ListFault` is the first place where they are not;
* `Genuine`: octets keep every rule of a packet, and `FirstFault` names the first that they break.

`readAll_ok_iff` and `readAll_error_iff` say that the reader of attributes keeps to these rules, by
induction on the attributes in front; `read_decides` says it of the reader of packets: it accepts
what is genuine and nothing else, and its fault is the first. `genuine_of_read` takes a packet that
was read back to the parts of its octets.
-/

namespace AccessGate.Radius

/-! ## 1. Attributes -/

namespace Tlv

/-- An attribute in front of octets: its code, a length, its value. -/
def Leads (t : Tlv) (bs rest : Bytes) : Prop :=
  ∃ length : UInt8, length.toNat = 2 + t.value.length ∧ bs = t.code :: length :: (t.value ++ rest)

/-- The octets are the attributes one after the other. -/
inductive Spells : Bytes → List Tlv → Prop where
  | nil : Spells [] []
  | cons (t : Tlv) (bs rest : Bytes) (ts : List Tlv) (leads : t.Leads bs rest)
      (spells : Spells rest ts) : Spells bs (t :: ts)

/-- A Message-Authenticator has the size of one. -/
def SignatureFits (t : Tlv) : Prop :=
  t.code = Attribute.messageAuthenticator → t.value.length = 16

/-- Octets that start at the offset are no list of attributes: behind attributes that are all right,
the fault is the first. -/
inductive ListFault (offset : Nat) (bs : Bytes) : Fault → Prop where
  /-- More octets follow, and no attribute is in front of them. -/
  | overrun (front rest : Bytes) (ts : List Tlv) (cut : bs = front ++ rest)
      (spells : Spells front ts) (fit : ∀ t ∈ ts, t.SignatureFits) (more : rest ≠ [])
      (stuck : ∀ t tail, ¬ Leads t rest tail) :
      ListFault offset bs (.attributeOverrun (offset + front.length))
  /-- A Message-Authenticator of another size follows. -/
  | size (front rest tail : Bytes) (ts : List Tlv) (t : Tlv) (cut : bs = front ++ rest)
      (spells : Spells front ts) (fit : ∀ t ∈ ts, t.SignatureFits) (leads : t.Leads rest tail)
      (unfit : ¬ t.SignatureFits) : ListFault offset bs .invalidMessageAuthenticator

/-- An attribute is in front of octets where they start as it is written. -/
theorem leads_iff {t : Tlv} {bs rest : Bytes} :
    t.Leads bs rest ↔ t.value.length ≤ 253 ∧ bs = t.encode ++ rest := by
  unfold Leads encode
  constructor
  · rintro ⟨length, hlength, rfl⟩
    have hlt := length.toNat_lt
    have hoctet : length = UInt8.ofNat (t.value.length + 2) := by
      rw [Nat.add_comm, ← hlength, UInt8.ofNat_toNat]
    refine ⟨by omega, ?_⟩
    rw [hoctet]
    rfl
  · rintro ⟨hfits, rfl⟩
    refine ⟨UInt8.ofNat (t.value.length + 2), ?_, rfl⟩
    rw [UInt8.toNat_ofNat']
    omega

namespace Leads

variable {t : Tlv} {bs rest : Bytes} (leads : t.Leads bs rest)

include leads

theorem eq_append : bs = t.encode ++ rest := (leads_iff.mp leads).2

theorem shorter : rest.length < bs.length := by
  rw [leads.eq_append, List.length_append, length_encode, size]
  omega

/-- It is in front whatever follows. -/
theorem append (more : Bytes) : t.Leads (bs ++ more) (rest ++ more) :=
  leads_iff.mpr ⟨(leads_iff.mp leads).1, by rw [leads.eq_append, List.append_assoc]⟩

/-- It is in front of other attributes as well. -/
theorem spells {front : Bytes} {ts : List Tlv} (h : Spells front ts) :
    Spells (t.encode ++ front) (t :: ts) :=
  .cons t _ front ts (leads_iff.mpr ⟨(leads_iff.mp leads).1, rfl⟩) h

/-- An attribute in front is what a reader cuts off there. -/
theorem cut : ∃ length tail, bs = t.code :: length :: tail ∧ length.toNat = t.size ∧
    ¬ (length.toNat < 2 ∨ tail.length < length.toNat - 2) ∧
    tail.take (length.toNat - 2) = t.value ∧ tail.drop (length.toNat - 2) = rest := by
  obtain ⟨length, hlength, rfl⟩ := leads
  have hvalue : t.value.length = length.toNat - 2 := by rw [hlength, Nat.add_sub_cancel_left]
  refine ⟨length, t.value ++ rest, rfl, ?_, ?_, List.take_left' hvalue, List.drop_left' hvalue⟩
  · rw [hlength, size, Nat.add_comm 2]
  · rw [hlength, List.length_append]
    omega

end Leads

/-- Octets that attributes spell are what the attributes are written as. -/
theorem encodeAll_of_spells {bs : Bytes} {ts : List Tlv} (h : Spells bs ts) :
    bs = encodeAll ts := by
  induction h with
  | nil => rfl
  | cons t bs rest ts leads _ ih =>
    rw [leads.eq_append, ih]
    rfl

/-- Where there is room for its value an attribute is in front. -/
theorem leads_of_fits {code length : UInt8} {rest : Bytes}
    (fits : ¬ (length.toNat < 2 ∨ rest.length < length.toNat - 2)) :
    Leads ⟨code, rest.take (length.toNat - 2)⟩ (code :: length :: rest)
      (rest.drop (length.toNat - 2)) := by
  refine ⟨length, ?_, ?_⟩
  · show length.toNat = 2 + (rest.take (length.toNat - 2)).length
    rw [List.length_take]
    omega
  · rw [List.take_append_drop]

/-- What the reader does with the attribute in front. -/
theorem readAll_of_leads {t : Tlv} {bs rest : Bytes} (leads : t.Leads bs rest) (offset : Nat) :
    readAll offset bs = if t.code = Attribute.messageAuthenticator ∧ t.value.length ≠ 16 then
      .error .invalidMessageAuthenticator
    else (readAll (offset + t.size) rest).map (t :: ·) := by
  obtain ⟨length, tail, rfl, hsize, hfits, htake, hdrop⟩ := leads.cut
  rw [readAll, if_neg hfits]
  simp only [htake, hdrop]
  rw [hsize]
  split
  · rfl
  · cases readAll (offset + t.size) rest <;> rfl

/-- **Attributes that are all right are passed over**, and what follows them decides. -/
theorem readAll_append {front : Bytes} {ts : List Tlv} (h : Spells front ts)
    (fit : ∀ t ∈ ts, t.SignatureFits) (offset : Nat) (rest : Bytes) :
    readAll offset (front ++ rest) =
      (readAll (offset + front.length) rest).map (ts ++ ·) := by
  induction h generalizing offset with
  | nil =>
    show readAll offset rest = (readAll offset rest).map ([] ++ ·)
    cases readAll offset rest <;> rfl
  | cons t bs tail ts leads _ ih =>
    have hgood : ¬ (t.code = Attribute.messageAuthenticator ∧ t.value.length ≠ 16) :=
      fun h => h.2 (fit t List.mem_cons_self h.1)
    have hoffset : offset + t.size + tail.length = offset + bs.length := by
      rw [leads.eq_append, List.length_append, length_encode, Nat.add_assoc]
    rw [readAll_of_leads (leads.append rest), if_neg hgood, ih (fun u hu => fit u (List.mem_cons_of_mem _ hu)),
      hoffset]
    cases readAll (offset + bs.length) rest <;> rfl

/-- Octets without an attribute in front are the reader's overrun. -/
theorem readAll_of_stuck {bs : Bytes} (more : bs ≠ []) (stuck : ∀ t tail, ¬ Leads t bs tail)
    (offset : Nat) : readAll offset bs = .error (.attributeOverrun offset) := by
  match bs with
  | [] => exact absurd rfl more
  | [_] => rw [readAll]
  | code :: length :: rest =>
    -- with room for its value the attribute would be in front
    rw [readAll, if_pos (Classical.byContradiction fun hfits => stuck _ _ (leads_of_fits hfits))]

/-- Behind an attribute that is all right the first fault is the first. -/
theorem ListFault.cons {t : Tlv} {bs rest : Bytes} {offset : Nat} {fault : Fault}
    (leads : t.Leads bs rest) (fits : t.SignatureFits)
    (h : ListFault (offset + t.size) rest fault) : ListFault offset bs fault := by
  cases h with
  | overrun front tail ts cut spells fit more stuck =>
    have hoffset : offset + t.size + front.length = offset + (t.encode ++ front).length := by
      rw [List.length_append, length_encode, Nat.add_assoc]
    rw [hoffset]
    exact .overrun (t.encode ++ front) tail (t :: ts) (by rw [leads.eq_append, cut, List.append_assoc])
      (leads.spells spells) (List.forall_mem_cons.mpr ⟨fits, fit⟩) more stuck
  | size front last tail ts u cut spells fit leads' unfit =>
    exact .size (t.encode ++ front) last tail (t :: ts) u (by rw [leads.eq_append, cut, List.append_assoc])
      (leads.spells spells) (List.forall_mem_cons.mpr ⟨fits, fit⟩) leads' unfit

/-- **The reader of attributes goes by the rules**: what it reads is spelled by the octets, and what
it refuses has the fault. -/
theorem readAll_cases (offset : Nat) (bs : Bytes) :
    (∃ ts, readAll offset bs = .ok ts ∧ Spells bs ts ∧ ∀ t ∈ ts, t.SignatureFits) ∨
      ∃ fault, readAll offset bs = .error fault ∧ ListFault offset bs fault := by
  by_cases hnil : bs = []
  · rw [hnil]
    exact Or.inl ⟨[], by rw [readAll], .nil, fun _ h => nomatch h⟩
  · by_cases hleads : ∃ t rest, Leads t bs rest
    · obtain ⟨t, rest, leads⟩ := hleads
      have hread := readAll_of_leads leads offset
      by_cases hfits : t.SignatureFits
      · rw [if_neg fun h => h.2 (hfits h.1)] at hread
        have hshort := leads.shorter
        rcases readAll_cases (offset + t.size) rest with
          ⟨ts, hok, hspells, hfit⟩ | ⟨fault, herror, hlist⟩
        · refine Or.inl ⟨t :: ts, by rw [hread, hok]; rfl, .cons t bs rest ts leads hspells, ?_⟩
          exact List.forall_mem_cons.mpr ⟨hfits, hfit⟩
        · exact Or.inr ⟨fault, by rw [hread, herror]; rfl, hlist.cons leads hfits⟩
      · have hbad : t.code = Attribute.messageAuthenticator ∧ t.value.length ≠ 16 :=
          Classical.not_imp.mp hfits
        rw [if_pos hbad] at hread
        exact Or.inr ⟨_, hread, .size [] bs rest [] t rfl .nil (fun _ h => nomatch h) leads hfits⟩
    · have hstuck : ∀ t tail, ¬ Leads t bs tail := fun t tail h => hleads ⟨t, tail, h⟩
      exact Or.inr ⟨_, readAll_of_stuck hnil hstuck offset,
        .overrun [] bs [] rfl .nil (fun _ h => nomatch h) hnil hstuck⟩
termination_by bs.length

/-- The attributes that are read are those that the octets spell. -/
theorem readAll_ok_iff {offset : Nat} {bs : Bytes} {ts : List Tlv} :
    readAll offset bs = .ok ts ↔ Spells bs ts ∧ ∀ t ∈ ts, t.SignatureFits := by
  constructor
  · intro h
    rcases readAll_cases offset bs with ⟨us, hok, hspells, hfit⟩ | ⟨fault, herror, -⟩
    · obtain rfl := Except.ok.inj (hok.symm.trans h)
      exact ⟨hspells, hfit⟩
    · rw [herror] at h
      cases h
  · rintro ⟨hspells, hfit⟩
    have happend := readAll_append hspells hfit offset []
    rw [List.append_nil, readAll] at happend
    rw [happend]
    show Except.ok (ts ++ []) = _
    rw [List.append_nil]

/-- The fault of attributes is the first. -/
theorem readAll_error_iff {offset : Nat} {bs : Bytes} {fault : Fault} :
    readAll offset bs = .error fault ↔ ListFault offset bs fault := by
  constructor
  · intro h
    rcases readAll_cases offset bs with ⟨us, hok, -⟩ | ⟨first, herror, hlist⟩
    · rw [hok] at h
      cases h
    · obtain rfl := Except.error.inj (herror.symm.trans h)
      exact hlist
  · intro h
    cases h with
    | overrun front rest ts cut spells fit more stuck =>
      rw [cut, readAll_append spells fit, readAll_of_stuck more stuck]
      rfl
    | size front rest tail ts t cut spells fit leads unfit =>
      rw [cut, readAll_append spells fit, readAll_of_leads leads,
        if_pos (Classical.not_imp.mp unfit)]
      rfl

end Tlv

/-! ## 2. Packets -/

section

variable (ctx : ReadingContext) (requestAuthenticator : Option Block) (bs : Bytes)

/-- The size that octets declare. -/
def declaredSize : Nat := Bytes.toNat (bs.slice 2 2)

/-- It stands before the authenticator. -/
theorem declaredSize_eq :
    declaredSize bs = Bytes.toNat ((bs.take authenticatorOffset).drop 2) := by
  unfold declaredSize Bytes.slice authenticatorOffset
  rw [List.take_drop]

/-- There are a head and as many octets as it declares. -/
structure Framed : Prop where
  long : headSize ≤ bs.length
  declared : declaredSize bs = bs.length

/-- Where the authenticator is compared, it is the digest of the packet, with zeros in its place,
and the secret. -/
def AuthenticatorHolds (code : Code) : Prop :=
  code = .accountingRequest ∨ code = .disconnectRequest →
    bs.slice authenticatorOffset 16 = (ctx.digests.digest (bs.take authenticatorOffset ++
      Bytes.zeros 16 ++ bs.drop headSize ++ ctx.secret.bytes)).octets

/-- What stood in the authenticator field when the packet was signed: the authenticator of the
request that it answers, zeros for one that is computed, or what stands there now. -/
def signedField (code : Code) : Bytes :=
  match requestAuthenticator with
  | some a => a.octets
  | none =>
    if code.hasComputedAuthenticator then Bytes.zeros 16 else bs.slice authenticatorOffset 16

/-- There is no Message-Authenticator, or the last one is the keyed digest of the packet with zeros
in its place and the signer's authenticator in the field. -/
def SignedBySecret (code : Code) (ts : List Tlv) : Prop :=
  (∀ t ∈ ts, t.code ≠ Attribute.messageAuthenticator) ∨
  ∃ before t after, ts = before ++ t :: after ∧ t.code = Attribute.messageAuthenticator ∧
    (∀ u ∈ after, u.code ≠ Attribute.messageAuthenticator) ∧
    t.value = (ctx.digests.mac ctx.secret.bytes (bs.take authenticatorOffset ++
      signedField requestAuthenticator bs code ++
      Tlv.encodeAll (before ++ Tlv.signature (Bytes.zeros 16) :: after))).octets

/-- **The rules of a packet**, in the order in which they are checked. -/
structure Genuine (code : Code) (ts : List Tlv) : Prop where
  framed : Framed bs
  known : bs.head? = some code.number
  authenticator : AuthenticatorHolds ctx bs code
  attributes : Tlv.Spells (bs.drop headSize) ts
  fit : ∀ t ∈ ts, t.SignatureFits
  signed : SignedBySecret ctx requestAuthenticator bs code ts

/-- **The first rule that octets break**, with its fault; all rules before it are kept. -/
inductive FirstFault : Fault → Prop where
  | size (short : bs.length < headSize) : FirstFault (.invalidLength bs.length)
  | length (long : headSize ≤ bs.length) (differs : declaredSize bs ≠ bs.length) :
      FirstFault (.lengthMismatch (declaredSize bs) bs.length)
  | code (framed : Framed bs) (number : UInt8) (first : bs.head? = some number)
      (unknown : ∀ code : Code, number ≠ code.number) : FirstFault (.invalidCode number)
  | authenticator (framed : Framed bs) (code : Code) (known : bs.head? = some code.number)
      (wrong : ¬ AuthenticatorHolds ctx bs code) : FirstFault .invalidRequestAuthenticator
  | attributes (framed : Framed bs) (code : Code) (known : bs.head? = some code.number)
      (authenticator : AuthenticatorHolds ctx bs code) (fault : Fault)
      (listed : Tlv.ListFault headSize (bs.drop headSize) fault) : FirstFault fault
  | signature (framed : Framed bs) (code : Code) (known : bs.head? = some code.number)
      (authenticator : AuthenticatorHolds ctx bs code) (ts : List Tlv)
      (attributes : Tlv.Spells (bs.drop headSize) ts) (fit : ∀ t ∈ ts, t.SignatureFits)
      (wrong : ¬ SignedBySecret ctx requestAuthenticator bs code ts) :
      FirstFault .invalidMessageAuthenticator

end

/-! ## 3. The head -/

/-- Only the numbers of codes are known. -/
theorem Code.ofNumber?_eq_some_iff {n : UInt8} {code : Code} :
    ofNumber? n = some code ↔ n = code.number := by
  constructor
  · intro h
    unfold ofNumber? at h
    split at h <;> cases h <;> rfl
  · rintro rfl
    exact ofNumber?_number code

variable {ctx : ReadingContext} {requestAuthenticator : Option Block} {bs : Bytes} {code : Code}

/-- The authenticator field of octets that have a head. -/
theorem exists_field (long : headSize ≤ bs.length) :
    ∃ a, Authenticator.field? bs = some a ∧ bs.slice authenticatorOffset 16 = a.octets := by
  have hslice : (bs.slice authenticatorOffset 16).length = 16 := by
    unfold Bytes.slice authenticatorOffset
    rw [List.length_take, List.length_drop]
    unfold headSize at long
    omega
  exact ⟨⟨_, hslice⟩, dif_pos hslice, rfl⟩

/-- What stands in a head, and what the reader makes of it. -/
theorem exists_head (long : headSize ≤ bs.length) : ∃ number identifier a,
    bs.head? = some number ∧ Authenticator.field? bs = some a ∧
    bs.slice authenticatorOffset 16 = a.octets ∧
    bs.take authenticatorOffset = number :: identifier :: Bytes.ofNat 2 (declaredSize bs) ∧
    ReadingContext.head bs = if declaredSize bs = bs.length then
      match Code.ofNumber? number with
      | some code => .ok ⟨code, identifier, a⟩
      | none => .error (.invalidCode number)
    else .error (.lengthMismatch (declaredSize bs) bs.length) := by
  obtain ⟨a, hfield, hslice⟩ := exists_field long
  match bs with
  | number :: identifier :: high :: low :: rest =>
    have hdeclared : declaredSize (number :: identifier :: high :: low :: rest) =
        Bytes.toNat [high, low] := by simp [declaredSize, Bytes.slice]
    have hdigits : Bytes.ofNat 2 (Bytes.toNat [high, low]) = [high, low] :=
      Bytes.ofNat_toNat [high, low]
    refine ⟨number, identifier, a, rfl, hfield, hslice, ?_, ?_⟩
    · rw [hdeclared, hdigits]
      rfl
    · have hsize : Bytes.toNat [high, low] = high.toNat * 256 + low.toNat := by
        simp [Bytes.toNat]
      rw [hdeclared, hsize]
      unfold ReadingContext.head
      generalize Authenticator.field? (number :: identifier :: high :: low :: rest) = field
        at hfield ⊢
      subst hfield
      rfl
  | [] | [_] | [_, _] | [_, _, _] =>
    unfold headSize at long
    simp at long

theorem read_of_short (short : bs.length < headSize) :
    ctx.read requestAuthenticator bs = .error (.invalidLength bs.length) := by
  have hslice : (bs.slice authenticatorOffset 16).length ≠ 16 := by
    unfold Bytes.slice authenticatorOffset
    rw [List.length_take, List.length_drop]
    unfold headSize at short
    omega
  have hfield : Authenticator.field? bs = none := dif_neg hslice
  have hhead : ReadingContext.head bs = .error (.invalidLength bs.length) := by
    unfold ReadingContext.head
    rw [hfield]
    split
    · rename_i h
      cases h
    · rfl
  unfold ReadingContext.read
  rw [hhead]
  rfl

theorem read_of_differs (long : headSize ≤ bs.length) (differs : declaredSize bs ≠ bs.length) :
    ctx.read requestAuthenticator bs =
      .error (.lengthMismatch (declaredSize bs) bs.length) := by
  obtain ⟨number, identifier, a, -, -, -, -, hhead⟩ := exists_head long
  rw [if_neg differs] at hhead
  unfold ReadingContext.read
  rw [hhead]
  rfl

theorem read_of_unknown (framed : Framed bs) {number : UInt8} (first : bs.head? = some number)
    (unknown : ∀ code : Code, number ≠ code.number) :
    ctx.read requestAuthenticator bs = .error (.invalidCode number) := by
  obtain ⟨number', identifier, a, hfirst, -, -, -, hhead⟩ := exists_head framed.long
  obtain rfl := Option.some.inj (hfirst.symm.trans first)
  have hnone : Code.ofNumber? number' = none :=
    Option.eq_none_iff_forall_ne_some.mpr fun code h => unknown code (Code.ofNumber?_eq_some_iff.mp h)
  rw [if_pos framed.declared, hnone] at hhead
  unfold ReadingContext.read
  rw [hhead]
  rfl

/-! ## 4. Authenticators -/

/-- Octets with a head that attributes follow are the packet with these parts. -/
theorem exists_assemble (framed : Framed bs) (known : bs.head? = some code.number) :
    ∃ identifier a, ReadingContext.head bs = .ok ⟨code, identifier, a⟩ ∧
      Authenticator.field? bs = some a ∧ bs.slice authenticatorOffset 16 = a.octets ∧
      ∀ ts, Tlv.Spells (bs.drop headSize) ts → bs = assemble code identifier a ts := by
  obtain ⟨number, identifier, a, hfirst, hfield, hslice, htake, hhead⟩ := exists_head framed.long
  obtain rfl := Option.some.inj (hfirst.symm.trans known)
  rw [if_pos framed.declared, Code.ofNumber?_number] at hhead
  refine ⟨identifier, a, hhead, hfield, hslice, fun ts spells => ?_⟩
  have hdrop := Tlv.encodeAll_of_spells spells
  have hlength : headSize + (Tlv.encodeAll ts).length = bs.length := by
    have := framed.long
    rw [← hdrop, List.length_drop]
    omega
  have hrest : bs.drop authenticatorOffset = a.octets ++ Tlv.encodeAll ts := by
    rw [← hslice, ← hdrop, ← List.take_append_drop 16 (bs.drop authenticatorOffset),
      List.drop_drop]
    rfl
  calc bs = bs.take authenticatorOffset ++ bs.drop authenticatorOffset :=
        (List.take_append_drop _ _).symm
    _ = front code identifier bs.length ++ (a.octets ++ Tlv.encodeAll ts) := by
        rw [htake, hrest, framed.declared]
        rfl
    _ = assemble code identifier a ts := by
        unfold assemble
        rw [hlength, List.append_assoc]

theorem authenticatorIsCompared_iff :
    code.authenticatorIsCompared = true ↔ code = .accountingRequest ∨ code = .disconnectRequest := by
  cases code <;> decide

/-- The reader compares the authenticator as the rule says. -/
theorem compared_iff {a : Block} (field : Authenticator.field? bs = some a)
    (octets : bs.slice authenticatorOffset 16 = a.octets) :
    (code.authenticatorIsCompared &&
      !Authenticator.verifyRequest ctx.digests bs ctx.secret.bytes) = false ↔
      AuthenticatorHolds ctx bs code := by
  have hverify : Authenticator.verifyRequest ctx.digests bs ctx.secret.bytes = true ↔
      a.octets = (Authenticator.response ctx.digests bs .zero ctx.secret.bytes).octets := by
    unfold Authenticator.verifyRequest Authenticator.verifyResponse
    rw [field, beq_iff_eq, Option.some.injEq]
    constructor
    · intro h
      rw [h]
    · intro h
      cases a
      cases hresponse : Authenticator.response ctx.digests bs .zero ctx.secret.bytes
      rw [hresponse] at h
      exact Block.mk.injEq .. ▸ h
  unfold AuthenticatorHolds
  rw [octets, ← authenticatorIsCompared_iff, Bool.and_eq_false_imp, Bool.not_eq_false', hverify]
  rfl

/-- **The reader looks for the signature that the rule asks for.** -/
theorem signed_iff {identifier : UInt8} {a : Block} {ts : List Tlv}
    (parts : bs = assemble code identifier a ts) (octets : bs.slice authenticatorOffset 16 = a.octets)
    (fit : ∀ t ∈ ts, t.SignatureFits) :
    ctx.messageAuthenticatorHolds bs code requestAuthenticator ts = true ↔
      SignedBySecret ctx requestAuthenticator bs code ts := by
  -- the packet as its signer saw it has another block in the authenticator field
  obtain ⟨b, hseen, hfield⟩ : ∃ b, ReadingContext.asSigned bs code requestAuthenticator =
      assemble code identifier b ts ∧ signedField requestAuthenticator bs code = b.octets := by
    unfold ReadingContext.asSigned signedField
    cases requestAuthenticator with
    | some b => exact ⟨b, by rw [parts]; exact replace_assemble .., rfl⟩
    | none =>
      by_cases hcomputed : code.hasComputedAuthenticator = true
      · simp only [if_pos hcomputed]
        exact ⟨.zero, by rw [parts]; exact replace_assemble .., rfl⟩
      · simp only [if_neg hcomputed]
        exact ⟨a, parts, octets⟩
  have hlast {before after : List Tlv} {t : Tlv} (cut : ts = before ++ t :: after)
      (ht : t.code = Attribute.messageAuthenticator)
      (hafter : ∀ u ∈ after, u.code ≠ Attribute.messageAuthenticator) :
      ctx.messageAuthenticatorHolds bs code requestAuthenticator ts = true ↔
        t.value = (ctx.digests.mac ctx.secret.bytes (bs.take authenticatorOffset ++
          signedField requestAuthenticator bs code ++
          Tlv.encodeAll (before ++ Tlv.signature (Bytes.zeros 16) :: after))).octets := by
    have hsize : t.value.length = 16 := fit t (by simp [cut]) ht
    have hsignature : t = Tlv.signature t.value := by
      unfold Tlv.signature
      rw [← ht]
    have hlength : (Tlv.encodeAll (before ++ Tlv.signature (Bytes.zeros 16) :: after)).length =
        (Tlv.encodeAll ts).length := by
      simp [cut, Tlv.encodeAll, Tlv.size, Tlv.signature, hsize]
    have hoctets : bs.take authenticatorOffset ++ signedField requestAuthenticator bs code ++
        Tlv.encodeAll (before ++ Tlv.signature (Bytes.zeros 16) :: after) =
          assemble code identifier b (before ++ Tlv.signature (Bytes.zeros 16) :: after) := by
      unfold assemble
      rw [hlength, hfield, parts, take_assemble]
    unfold ReadingContext.messageAuthenticatorHolds
    rw [hseen, hoctets, cut, Tlv.lastOffset?_append ht hafter, hsignature]
    exact verify_assemble_iff ctx.digests code identifier b before after ctx.secret.bytes hsize
  unfold SignedBySecret
  constructor
  · intro h
    rcases Tlv.split_last Attribute.messageAuthenticator ts with
      hnone | ⟨before, t, after, cut, ht, hafter⟩
    · exact Or.inl hnone
    · exact Or.inr ⟨before, t, after, cut, ht, hafter, (hlast cut ht hafter).mp h⟩
  · rintro (hnone | ⟨before, t, after, cut, ht, hafter, hvalue⟩)
    · unfold ReadingContext.messageAuthenticatorHolds
      rw [Tlv.lastOffset?_of_not_mem hnone]
    · exact (hlast cut ht hafter).mpr hvalue

/-! ## 5. The whole packet -/

/-- What the reader does with octets that have a head: each check in turn decides. -/
theorem read_of_head (framed : Framed bs) (known : bs.head? = some code.number) :
    (¬ AuthenticatorHolds ctx bs code →
      ctx.read requestAuthenticator bs = .error .invalidRequestAuthenticator) ∧
    (AuthenticatorHolds ctx bs code → ∀ fault,
      Tlv.readAll headSize (bs.drop headSize) = .error fault →
        ctx.read requestAuthenticator bs = .error fault) ∧
    (AuthenticatorHolds ctx bs code → ∀ ts,
      Tlv.readAll headSize (bs.drop headSize) = .ok ts →
        (SignedBySecret ctx requestAuthenticator bs code ts →
          ∃ q, ctx.read requestAuthenticator bs = .ok q) ∧
        (¬ SignedBySecret ctx requestAuthenticator bs code ts →
          ctx.read requestAuthenticator bs = .error .invalidMessageAuthenticator)) := by
  obtain ⟨identifier, a, hhead, hfield, hslice, hparts⟩ := exists_assemble framed known
  have hcompared : (code.authenticatorIsCompared &&
      !Authenticator.verifyRequest ctx.digests bs ctx.secret.bytes) = false ↔
        AuthenticatorHolds ctx bs code := compared_iff hfield hslice
  refine ⟨fun wrong => ?_, fun holds fault hlist => ?_, fun holds ts hlist => ?_⟩
  · have hdiffers := Bool.of_not_eq_false fun h => wrong (hcompared.mp h)
    unfold ReadingContext.read
    simp only [hhead, hdiffers, bind, Except.bind]
    rfl
  · have hequal := hcompared.mpr holds
    unfold ReadingContext.read
    simp only [hhead, hequal, hlist, bind, Except.bind]
    rfl
  · have hequal := hcompared.mpr holds
    obtain ⟨hspells, hfit⟩ := Tlv.readAll_ok_iff.mp hlist
    have hsigned : ctx.messageAuthenticatorHolds bs code requestAuthenticator ts = true ↔
        SignedBySecret ctx requestAuthenticator bs code ts :=
      signed_iff (hparts ts hspells) hslice hfit
    constructor
    · intro signed
      have hverified := hsigned.mpr signed
      unfold ReadingContext.read
      simp only [hhead, hequal, hlist, hverified, bind, Except.bind]
      exact ⟨_, rfl⟩
    · intro wrong
      have hrefused := Bool.eq_false_iff.mpr fun h => wrong (hsigned.mp h)
      unfold ReadingContext.read
      simp only [hhead, hequal, hlist, hrefused, bind, Except.bind]
      rfl

/-- Octets keep every rule or break a first one. -/
theorem genuine_or_firstFault (ctx : ReadingContext) (requestAuthenticator : Option Block)
    (bs : Bytes) : (∃ code ts, Genuine ctx requestAuthenticator bs code ts) ∨
      ∃ fault, FirstFault ctx requestAuthenticator bs fault := by
  by_cases hlong : headSize ≤ bs.length
  · by_cases hdeclared : declaredSize bs = bs.length
    · have framed : Framed bs := ⟨hlong, hdeclared⟩
      obtain ⟨number, -, -, hfirst, -⟩ := exists_head hlong
      by_cases hcode : ∃ code : Code, number = code.number
      · obtain ⟨code, rfl⟩ := hcode
        by_cases hholds : AuthenticatorHolds ctx bs code
        · rcases Tlv.readAll_cases headSize (bs.drop headSize) with
            ⟨ts, -, hspells, hfit⟩ | ⟨fault, -, hlisted⟩
          · by_cases hsigned : SignedBySecret ctx requestAuthenticator bs code ts
            · exact Or.inl ⟨code, ts, framed, hfirst, hholds, hspells, hfit, hsigned⟩
            · exact Or.inr ⟨_, .signature framed code hfirst hholds ts hspells hfit hsigned⟩
          · exact Or.inr ⟨fault, .attributes framed code hfirst hholds fault hlisted⟩
        · exact Or.inr ⟨_, .authenticator framed code hfirst hholds⟩
      · exact Or.inr ⟨_, .code framed number hfirst fun code h => hcode ⟨code, h⟩⟩
    · exact Or.inr ⟨_, .length hlong hdeclared⟩
  · exact Or.inr ⟨_, .size (Nat.lt_of_not_le hlong)⟩

theorem read_of_genuine {ts : List Tlv} (h : Genuine ctx requestAuthenticator bs code ts) :
    ∃ q, ctx.read requestAuthenticator bs = .ok q := by
  have hattributes : Tlv.readAll headSize (bs.drop headSize) = .ok ts :=
    Tlv.readAll_ok_iff.mpr ⟨h.attributes, h.fit⟩
  exact ((read_of_head h.framed h.known).2.2 h.authenticator ts hattributes).1 h.signed

theorem read_of_firstFault {fault : Fault} (h : FirstFault ctx requestAuthenticator bs fault) :
    ctx.read requestAuthenticator bs = .error fault := by
  cases h with
  | size short => exact read_of_short short
  | length long differs => exact read_of_differs long differs
  | code framed number first unknown => exact read_of_unknown framed first unknown
  | authenticator framed code known wrong => exact (read_of_head framed known).1 wrong
  | attributes framed code known authenticator fault listed =>
    exact (read_of_head framed known).2.1 authenticator _ (Tlv.readAll_error_iff.mpr listed)
  | signature framed code known authenticator ts attributes fit wrong =>
    have hattributes : Tlv.readAll headSize (bs.drop headSize) = .ok ts :=
      Tlv.readAll_ok_iff.mpr ⟨attributes, fit⟩
    exact ((read_of_head framed known).2.2 authenticator ts hattributes).2 wrong

/-- What is read passed every check, and is what was found on the way. -/
theorem read_ok_iff {q : Packet} : ctx.read requestAuthenticator bs = .ok q ↔
    ∃ (h : ReadingContext.Head) (ts : List Tlv), ReadingContext.head bs = .ok h ∧
      (h.code.authenticatorIsCompared &&
        !Authenticator.verifyRequest ctx.digests bs ctx.secret.bytes) = false ∧
      Tlv.readAll headSize (bs.drop headSize) = .ok ts ∧
      ctx.messageAuthenticatorHolds bs h.code requestAuthenticator ts = true ∧
      q = ⟨h.code, h.identifier, h.authenticator, requestAuthenticator, ctx.secret,
        .ofList (ts.flatMap (ctx.contribution h.authenticator))⟩ := by
  simp only [ReadingContext.read, bind, Except.bind]
  constructor
  · intro hread
    split at hread
    · cases hread
    · rename_i h hhead
      split at hread
      · cases hread
      · rename_i hcompared
        split at hread
        · cases hread
        · rename_i ts hts
          split at hread
          · cases hread
          · rename_i hholds
            exact ⟨h, ts, hhead, Bool.eq_false_iff.mpr hcompared, hts,
              by simpa using hholds, (Except.ok.inj hread).symm⟩
  · rintro ⟨h, ts, hhead, hcompared, hts, hholds, rfl⟩
    simp only [hhead, hcompared, hts, hholds]
    rfl

/-- **What is read is genuine**: the octets are the packet's code, identifier and authenticator, and
attributes whose contributions are its values. -/
theorem genuine_of_read {q : Packet} (h : ctx.read requestAuthenticator bs = .ok q) :
    ∃ ts, Genuine ctx requestAuthenticator bs q.code ts ∧
      bs = assemble q.code q.identifier q.authenticator ts ∧
      q.attributes = .ofList (ts.flatMap (ctx.contribution q.authenticator)) := by
  obtain ⟨head, ts, hhead, -, hts, -, hq⟩ := read_ok_iff.mp h
  rcases genuine_or_firstFault ctx requestAuthenticator bs with
    ⟨code, us, hgenuine⟩ | ⟨fault, hfault⟩
  · obtain ⟨identifier, a, hhead', -, -, hparts⟩ :=
      exists_assemble hgenuine.framed hgenuine.known
    obtain rfl := Except.ok.inj (hhead.symm.trans hhead')
    have hus : Tlv.readAll headSize (bs.drop headSize) = .ok us :=
      Tlv.readAll_ok_iff.mpr ⟨hgenuine.attributes, hgenuine.fit⟩
    obtain rfl := Except.ok.inj (hts.symm.trans hus)
    rw [hq]
    exact ⟨ts, hgenuine, hparts ts hgenuine.attributes, rfl⟩
  · rw [read_of_firstFault hfault] at h
    cases h

/-- **The reader accepts what is genuine and nothing else**, and its fault is the first rule that is
broken: for all octets, secrets, encodings and dictionaries, whatever request they may answer. -/
theorem read_decides (ctx : ReadingContext) (requestAuthenticator : Option Block) (bs : Bytes) :
    ((∃ q, ctx.read requestAuthenticator bs = .ok q) ↔
      ∃ code ts, Genuine ctx requestAuthenticator bs code ts) ∧
    ∀ fault, ctx.read requestAuthenticator bs = .error fault ↔
      FirstFault ctx requestAuthenticator bs fault := by
  refine ⟨⟨?_, ?_⟩, fun fault => ⟨?_, read_of_firstFault⟩⟩
  · rintro ⟨q, hread⟩
    rcases genuine_or_firstFault ctx requestAuthenticator bs with hgenuine | ⟨fault, hfault⟩
    · exact hgenuine
    · rw [read_of_firstFault hfault] at hread
      cases hread
  · rintro ⟨code, ts, hgenuine⟩
    exact read_of_genuine hgenuine
  · intro hread
    rcases genuine_or_firstFault ctx requestAuthenticator bs with
      ⟨code, ts, hgenuine⟩ | ⟨first, hfault⟩
    · obtain ⟨q, hok⟩ := read_of_genuine hgenuine
      rw [hok] at hread
      cases hread
    · obtain rfl := Except.error.inj ((read_of_firstFault hfault).symm.trans hread)
      exact hfault

end AccessGate.Radius
