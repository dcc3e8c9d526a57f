import AccessGate.Proofs.Lists
import AccessGate.Proofs.Radius.Layout

/-!
# What a writer signs

The writer works in three strokes: every value becomes an attribute, the last Message-Authenticator
is signed, and the authenticator field is filled. Each stroke has one lemma here, in the terms of
`assemble`:

* `tlvs_forall`: the attributes stand for the values one by one, fit, and are sixteen zeros where
  they are Message-Authenticators (`tlv_cases`);
* `signed_assemble`: signing puts a block in place of zeros (`Tlv.Stamped`), and the last
  Message-Authenticator is then the right one;
* `sealed_assemble`: the field then holds `finalAuthenticator`.
-/

namespace AccessGate.Radius

/-! ## 1. The last attribute of a code -/

namespace Tlv

/-- No attribute of the code, no offset. -/
theorem lastOffset?_of_not_mem {code : UInt8} {ts : List Tlv} (h : ∀ t ∈ ts, t.code ≠ code)
    (offset : Nat) : lastOffset? code offset ts = none := by
  induction ts generalizing offset with
  | nil => rfl
  | cons t rest ih =>
    unfold lastOffset?
    rw [ih (fun u hu => h u (List.mem_cons_of_mem _ hu)), if_neg (h t List.mem_cons_self)]
    rfl

/-- The last attribute of the code decides the offset. -/
theorem lastOffset?_append {code : UInt8} {before after : List Tlv} {t : Tlv} (ht : t.code = code)
    (hafter : ∀ u ∈ after, u.code ≠ code) (offset : Nat) :
    lastOffset? code offset (before ++ t :: after) =
      some (offset + (encodeAll before).length + 2) := by
  induction before generalizing offset with
  | nil =>
    rw [List.nil_append]
    unfold lastOffset?
    rw [lastOffset?_of_not_mem hafter, if_pos ht]
    rfl
  | cons u before ih =>
    rw [List.cons_append]
    unfold lastOffset?
    rw [ih, encodeAll, encodeAll, List.flatMap_cons, List.length_append, length_encode,
      Nat.add_assoc offset]
    rfl

/-- Attributes have none of the code, or a last one. -/
theorem split_last (code : UInt8) (ts : List Tlv) : (∀ t ∈ ts, t.code ≠ code) ∨
    ∃ before t after, ts = before ++ t :: after ∧ t.code = code ∧ ∀ u ∈ after, u.code ≠ code := by
  induction ts with
  | nil => exact Or.inl fun _ h => nomatch h
  | cons t rest ih =>
    rcases ih with hnone | ⟨before, u, after, rfl, hu, hafter⟩
    · by_cases ht : t.code = code
      · exact Or.inr ⟨[], t, rest, rfl, ht, hnone⟩
      · exact Or.inl (List.forall_mem_cons.mpr ⟨ht, hnone⟩)
    · exact Or.inr ⟨t :: before, u, after, rfl, hu, hafter⟩

/-- No attribute takes more than 255 octets. -/
theorem length_encodeAll_le {ts : List Tlv} (h : ∀ t ∈ ts, t.value.length ≤ 253) :
    (encodeAll ts).length ≤ 255 * ts.length := by
  induction ts with
  | nil => exact Nat.le_refl 0
  | cons t rest ih =>
    have ht := h t List.mem_cons_self
    have hrest := ih fun u hu => h u (List.mem_cons_of_mem _ hu)
    rw [encodeAll, List.flatMap_cons, List.length_append, length_encode, ← encodeAll, size,
      List.length_cons]
    omega

/-- An attribute of a packet before and after the packet was signed. -/
def Stamped (t u : Tlv) : Prop :=
  u = t ∨ t = signature (Bytes.zeros 16) ∧ ∃ m : Block, u = signature m.octets

theorem Stamped.code {t u : Tlv} (h : Stamped t u) : u.code = t.code := by
  rcases h with rfl | ⟨rfl, m, rfl⟩
  · rfl
  · rfl

theorem Stamped.length {t u : Tlv} (h : Stamped t u) : u.value.length = t.value.length := by
  rcases h with rfl | ⟨rfl, m, rfl⟩
  · rfl
  · exact m.length_octets

theorem stamped_self (ts : List Tlv) : List.Forall₂ Stamped ts ts :=
  List.forall₂_same.mpr fun _ _ => Or.inl rfl

/-- Signing keeps the length. -/
theorem length_of_stamped {ts us : List Tlv} (h : List.Forall₂ Stamped ts us) :
    (encodeAll us).length = (encodeAll ts).length := by
  induction h with
  | nil => rfl
  | cons hd _ ih =>
    rw [encodeAll, encodeAll, List.flatMap_cons, List.flatMap_cons, List.length_append,
      List.length_append, ← encodeAll, ← encodeAll, ih, length_encode, length_encode, size, size,
      hd.length]

end Tlv

/-! ## 2. The attributes of values -/

namespace WritingContext

variable {ctx : WritingContext} {p : Packet}

/-- An attribute stands for a value under its definition, fits, and is sixteen zeros where it is a
Message-Authenticator. -/
structure Writes (ctx : WritingContext) (p : Packet) (pair : Name × Value) (entry : Entry)
    (t : Tlv) : Prop where
  found : ctx.dictionary.byName? pair.1 = some entry
  wire : t = wrap entry (wireValue ctx p entry pair.2)
  fits : t.value.length ≤ 253
  unsigned : t.code = Attribute.messageAuthenticator → t = Tlv.signature (Bytes.zeros 16)
  marked : isMessageAuthenticator ctx pair.1 = true ↔ t.code = Attribute.messageAuthenticator

/-- Only a definition outside the vendors makes a Message-Authenticator. -/
theorem code_wrap_iff (entry : Entry) (bs : Bytes) :
    (wrap entry bs).code = Attribute.messageAuthenticator ↔
      entry.vendor = none ∧ entry.code = Attribute.messageAuthenticator := by
  unfold wrap
  cases hvendor : entry.vendor with
  | none => simp
  | some key =>
    have hother : Attribute.vendorSpecific ≠ Attribute.messageAuthenticator := by decide
    simp [hother]

theorem wireValue_messageAuthenticator {entry : Entry} (vendor : entry.vendor = none)
    (code : entry.code = Attribute.messageAuthenticator) (v : Value) :
    wireValue ctx p entry v = Bytes.zeros 16 := by
  have hother : Attribute.messageAuthenticator ≠ Attribute.userPassword := by decide
  unfold wireValue
  rw [if_neg fun h => hother (code.symm.trans h.2), if_pos ⟨vendor, code⟩]

/-- What fits its definition fits an attribute. -/
theorem length_wrap {entry : Entry} {bs : Bytes} (h : bs.length ≤ maxValueSize entry) :
    (wrap entry bs).value.length ≤ 253 := by
  unfold maxValueSize Value.maxSize at h
  unfold wrap
  cases hvendor : entry.vendor with
  | none => simpa [hvendor] using h
  | some key =>
    have hbs : bs.length ≤ 247 := by simpa [hvendor] using h
    simp only [List.length_append, Bytes.length_ofNat, Tlv.length_encode, Tlv.size]
    omega

/-- **What a value is written as**, where it can be. -/
theorem tlv_cases {name : Name} {v : Value} {t : Tlv} (h : tlv ctx p name v = .ok t) :
    ∃ entry, Writes ctx p (name, v) entry t := by
  unfold tlv at h
  split at h
  · cases h
  · rename_i entry hfound
    simp only at h
    split at h
    · rename_i hsize
      obtain rfl := Except.ok.inj h
      refine ⟨entry, hfound, rfl, length_wrap hsize, ?_, ?_⟩
      · intro hcode
        obtain ⟨hvendor, hentry⟩ := (code_wrap_iff entry _).mp hcode
        rw [wireValue_messageAuthenticator hvendor hentry]
        unfold wrap Tlv.signature
        rw [hvendor, hentry]
      · rw [code_wrap_iff]
        simp only [isMessageAuthenticator, hfound]
        rw [Bool.and_eq_true, Option.isNone_iff_eq_none, beq_iff_eq]
    · cases h

/-- Conversely, a value that fits its definition is written. -/
theorem tlv_of_fits {name : Name} {v : Value} {entry : Entry}
    (found : ctx.dictionary.byName? name = some entry)
    (fits : (wireValue ctx p entry v).length ≤ maxValueSize entry) :
    tlv ctx p name v = .ok (wrap entry (wireValue ctx p entry v)) := by
  unfold tlv
  rw [found]
  exact if_pos fits

/-- **The attributes of a packet**: one for every value, in order. -/
theorem tlvs_forall {pairs : List (Name × Value)} {ts : List Tlv} (h : tlvs ctx p pairs = .ok ts) :
    List.Forall₂ (fun pair t => ∃ entry, Writes ctx p pair entry t) pairs ts := by
  induction pairs generalizing ts with
  | nil =>
    obtain rfl := Except.ok.inj h
    exact .nil
  | cons pair rest ih =>
    obtain ⟨name, v⟩ := pair
    unfold tlvs at h
    cases hd : tlv ctx p name v with
    | error fault =>
      rw [hd] at h
      cases h
    | ok t =>
      cases htl : tlvs ctx p rest with
      | error fault =>
        rw [hd, htl] at h
        cases h
      | ok rest' =>
        rw [hd, htl] at h
        obtain rfl := Except.ok.inj h
        exact .cons (tlv_cases hd) (ih htl)

/-- The names of the Message-Authenticators mark their attributes. -/
theorem lastWhere_eq {pairs : List (Name × Value)} {ts : List Tlv}
    (h : List.Forall₂ (fun pair t => ∃ entry, Writes ctx p pair entry t) pairs ts) (offset : Nat) :
    lastWhere (isMessageAuthenticator ctx) offset pairs ts =
      Tlv.lastOffset? Attribute.messageAuthenticator offset ts := by
  induction h generalizing offset with
  | nil => rfl
  | cons hd _ ih =>
    obtain ⟨entry, hwrites⟩ := hd
    unfold lastWhere Tlv.lastOffset?
    rw [ih]
    simp only [hwrites.marked]

theorem unsealed_eq (p : Packet) (ts : List Tlv) :
    unsealed p (Tlv.encodeAll ts) = assemble p.code p.identifier .zero ts := by
  unfold unsealed assemble front
  simp [Block.zero]

/-- **A packet is written when every value can be and the whole is not too large.** -/
theorem write_ok_iff {bs : Bytes} : ctx.write p = .ok bs ↔
    ∃ ts, tlvs ctx p p.attributes.toList = .ok ts ∧
      (unsealed p (Tlv.encodeAll ts)).length ≤ Packet.maxSize ∧
      bs = sealed ctx p (lastWhere (isMessageAuthenticator ctx) headSize p.attributes.toList ts)
        (unsealed p (Tlv.encodeAll ts)) := by
  simp only [write, bind, Except.bind]
  constructor
  · intro h
    split at h
    · cases h
    · rename_i ts htlvs
      split at h
      · cases h
      · rename_i hsize
        exact ⟨ts, htlvs, Nat.le_of_not_lt hsize, (Except.ok.inj h).symm⟩
  · rintro ⟨ts, htlvs, hsize, rfl⟩
    simp only [htlvs]
    rw [if_neg (Nat.not_lt_of_le hsize)]
    rfl

theorem exists_tlvs {pairs : List (Name × Value)}
    (fit : ∀ pair ∈ pairs, ∃ e, ctx.dictionary.byName? pair.1 = some e ∧
      (wireValue ctx p e pair.2).length ≤ maxValueSize e) : ∃ ts, tlvs ctx p pairs = .ok ts := by
  induction pairs with
  | nil => exact ⟨[], rfl⟩
  | cons pair rest ih =>
    obtain ⟨e, hfound, hfits⟩ := fit pair List.mem_cons_self
    obtain ⟨ts, hts⟩ := ih fun pair hpair => fit pair (List.mem_cons_of_mem _ hpair)
    refine ⟨wrap e (wireValue ctx p e pair.2) :: ts, ?_⟩
    unfold tlvs
    rw [tlv_of_fits hfound hfits, hts]
    rfl

/-- **A few values that fit are written**, whatever they are. -/
theorem exists_write (fit : ∀ pair ∈ p.attributes.toList, ∃ e,
      ctx.dictionary.byName? pair.1 = some e ∧
      (wireValue ctx p e pair.2).length ≤ maxValueSize e)
    (few : headSize + 255 * p.attributes.toList.length ≤ Packet.maxSize) :
    ∃ bs, ctx.write p = .ok bs := by
  obtain ⟨ts, hts⟩ := exists_tlvs fit
  have hvalues := tlvs_forall hts
  have hlength : (Tlv.encodeAll ts).length ≤ 255 * ts.length := by
    refine Tlv.length_encodeAll_le fun t ht => ?_
    obtain ⟨pair, -, entry, hwrites⟩ := exists_of_mem_right hvalues ht
    exact hwrites.fits
  refine ⟨_, write_ok_iff.mpr ⟨ts, hts, ?_, rfl⟩⟩
  rw [unsealed_eq, length_assemble]
  rw [hvalues.length_eq] at few
  exact Nat.le_trans (Nat.add_le_add_left hlength _) few

/-! ## 3. Signing and sealing -/

/-- The authenticator that a packet is signed with. -/
def signingAuthenticator (p : Packet) : Block :=
  if p.code.hasComputedAuthenticator then .zero else passwordAuthenticator p

/-- The authenticator that a packet is sent with. -/
def finalAuthenticator (ctx : WritingContext) (p : Packet) (us : List Tlv) : Block :=
  if p.code.hasComputedAuthenticator then
    ctx.digests.digest (assemble p.code p.identifier .zero us ++ p.secret.bytes)
  else
    match p.requestAuthenticator with
    | some a => ctx.digests.digest (assemble p.code p.identifier a us ++ p.secret.bytes)
    | none => p.authenticator

/-- The last Message-Authenticator of a packet is right, if there is one. -/
def SignatureHolds (ds : Digests) (secret : Bytes) (code : Code) (identifier : UInt8) (a : Block)
    (us : List Tlv) : Prop :=
  ∀ offset, Tlv.lastOffset? Attribute.messageAuthenticator headSize us = some offset →
    MessageAuthenticator.verify ds (assemble code identifier a us) secret offset = true

/-- **Signing stamps the last Message-Authenticator, which is then the right one.** -/
theorem signed_assemble (ctx : WritingContext) (p : Packet) {ts : List Tlv} (unsigned : ∀ t ∈ ts,
    t.code = Attribute.messageAuthenticator → t = Tlv.signature (Bytes.zeros 16)) (a : Block) :
    ∃ us, List.Forall₂ Tlv.Stamped ts us ∧
      signed ctx p (Tlv.lastOffset? Attribute.messageAuthenticator headSize ts)
        (assemble p.code p.identifier a ts) = assemble p.code p.identifier a us ∧
      SignatureHolds ctx.digests p.secret.bytes p.code p.identifier a us := by
  rcases Tlv.split_last Attribute.messageAuthenticator ts with
    hnone | ⟨before, t, after, rfl, ht, hafter⟩
  · rw [Tlv.lastOffset?_of_not_mem hnone]
    refine ⟨ts, Tlv.stamped_self ts, rfl, ?_⟩
    intro offset hoffset
    rw [Tlv.lastOffset?_of_not_mem hnone] at hoffset
    cases hoffset
  · obtain rfl := unsigned t (by simp) ht
    obtain ⟨m, hm⟩ : ∃ m, m = signatureOf ctx.digests p.code p.identifier a before after
      p.secret.bytes := ⟨_, rfl⟩
    -- the signature has the size of the zeros, so the offset is the same before and after
    refine ⟨before ++ Tlv.signature m.octets :: after, ?_, ?_, ?_⟩
    · have hstamped : Tlv.Stamped (Tlv.signature (Bytes.zeros 16)) (Tlv.signature m.octets) :=
        Or.inr ⟨rfl, m, rfl⟩
      exact List.rel_append (Tlv.stamped_self before) (.cons hstamped (Tlv.stamped_self after))
    · rw [Tlv.lastOffset?_append ht hafter, hm]
      exact sign_assemble ctx.digests p.code p.identifier a before after p.secret.bytes
        (Bytes.length_zeros 16)
    · intro offset hoffset
      have hcode : (Tlv.signature m.octets).code = Attribute.messageAuthenticator := rfl
      rw [Tlv.lastOffset?_append hcode hafter] at hoffset
      obtain rfl := Option.some.inj hoffset
      rw [hm]
      exact verify_assemble ctx.digests p.code p.identifier a before after p.secret.bytes

/-- **Sealing fills the authenticator field** of the signed packet. -/
theorem sealed_assemble {ts us : List Tlv} {offset : Option Nat}
    (h : signed ctx p offset (assemble p.code p.identifier (signingAuthenticator p) ts) =
      assemble p.code p.identifier (signingAuthenticator p) us) :
    sealed ctx p offset (unsealed p (Tlv.encodeAll ts)) =
      assemble p.code p.identifier (finalAuthenticator ctx p us) us := by
  unfold signingAuthenticator at h
  unfold sealed finalAuthenticator
  rw [unsealed_eq]
  by_cases hcomputed : p.code.hasComputedAuthenticator = true
  · simp only [if_pos hcomputed] at h ⊢
    rw [h, replace_assemble]
    unfold Authenticator.request
    rw [response_assemble]
  · simp only [if_neg hcomputed] at h ⊢
    rw [replace_assemble, h]
    cases hrequest : p.requestAuthenticator with
    | some a =>
      simp only
      rw [response_assemble, replace_assemble]
    | none =>
      unfold passwordAuthenticator
      rw [hrequest]
      rfl

end WritingContext

end AccessGate.Radius
