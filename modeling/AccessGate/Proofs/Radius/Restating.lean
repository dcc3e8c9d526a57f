import AccessGate.Proofs.Radius.Values
import AccessGate.Proofs.Text.Utf8

/-!
# What was read is written as it was

Whoever passes on a packet writes what was read. Here is why the next reader reads the same, where
both use the standard dictionary:

* `Value.encode_of_decode`: a value has the octets that it was read of, whatever its kind;
* `readUnder_of_read`: every value of a packet that was read is of some definition (`ReadUnder`),
  and the text of a password has no zero at its end;
* `readBack_of_readUnder`: the name that it was read under leads to that definition, and so such a
  value comes back as it is.
-/

namespace AccessGate.Radius

/-! ## 1. Values -/

namespace Value

theorem encode_ofTextual (bs : Bytes) : (ofTextual bs).encode = bs := by
  unfold ofTextual
  split
  · rename_i cs hcs
    split
    · rfl
    · show Utf8.encodeChars (String.ofList cs).toList = bs
      rw [String.toList_ofList]
      exact Utf8.encodeChars_of_decodeChars? hcs
  · rfl

/-- Four octets are the number that they write. -/
theorem ofNat_toNat_four {bs : Bytes} (four : bs.length = 4) :
    Bytes.ofNat 4 (bs.toNat % 2 ^ 32) = bs := by
  have hback := Bytes.ofNat_toNat bs
  rw [four] at hback
  have hsmall : bs.toNat % 256 ^ 4 = bs.toNat := by
    rw [← Bytes.toNat_ofNat, hback]
  rw [show (2 : Nat) ^ 32 = 256 ^ 4 by decide, hsmall, hback]

/-- **A value has the octets that it was read of.** -/
theorem encode_of_decode {kind : Kind} {bs : Bytes} {v : Value} (h : decode kind bs = .ok v) :
    v.encode = bs := by
  unfold decode at h
  split at h
  case h_1 | h_2 =>
    rw [← Except.ok.inj h]
    exact encode_ofTextual bs
  case h_3 | h_4 =>
    split at h
    · rename_i hfour
      rw [← Except.ok.inj h]
      show Bytes.ofNat 4 (UInt32.ofNat bs.toNat).toNat = bs
      rw [UInt32.toNat_ofNat']
      exact ofNat_toNat_four hfour
    · cases h
  case h_5 =>
    split at h
    · rename_i hfour
      rw [← Except.ok.inj h]
      show Bytes.ofNat 4 (BitVec.ofNat 32 bs.toNat).toNat = bs
      rw [BitVec.toNat_ofNat]
      exact ofNat_toNat_four hfour
    · cases h
  case h_6 | h_7 =>
    rw [← Except.ok.inj h]
    rfl

/-- What a text is read as: octets where a control character stands in it. -/
def heard (s : String) : Value :=
  if s.toList.any Text.isControl then .octets (Utf8.encode s) else .text s

theorem ofTextual_encode (s : String) : ofTextual (Utf8.encode s) = heard s := by
  have hcs : Utf8.decodeChars? (Utf8.encode s) = some s.toList := Utf8.decodeChars?_encodeChars _
  unfold ofTextual heard
  rw [hcs]
  simp only [String.ofList_toList]

/-- Either way it is that text. -/
theorem asString_heard (s : String) : (heard s).asString = s := by
  unfold heard
  split
  · exact Utf8.decodeLossy_encode s
  · rfl

end Value

/-! ## 2. What a reader gets -/

open ReadingContext

/-- A reader with the standard dictionary can get the value under the definition. -/
structure ReadUnder (pair : Name × Value) (e : Entry) : Prop where
  defines : e ∈ Dictionary.standard.entries
  name : pair.1 = e.name
  /-- The attribute of a vendor is taken apart. -/
  plain : e.vendor = none → e.code ≠ Attribute.vendorSpecific
  /-- A password is a text, whatever its definition. -/
  password : e.vendor = none → e.code = Attribute.userPassword →
    ∃ s, pair.2 = .text s ∧ Utf8.Trimmed (Utf8.encode s)
  /-- Any other value is what its octets say. -/
  value : ¬ (e.vendor = none ∧ e.code = Attribute.userPassword) →
    Value.decode e.kind pair.2.encode = .ok pair.2

variable {pair : Name × Value} {e : Entry} {ctx : ReadingContext} {a : Block} {t : Tlv}

theorem readUnder_of_defined {octets : Bytes} (h : pair ∈ defined (some e) octets)
    (defines : e ∈ Dictionary.standard.entries)
    (own : e.vendor = none → e.code ≠ Attribute.vendorSpecific ∧ e.code ≠ Attribute.userPassword) :
    ReadUnder pair e := by
  unfold defined at h
  simp only at h
  split at h
  · rename_i v hv
    rw [List.mem_singleton.mp h]
    refine ⟨defines, rfl, fun hvendor => (own hvendor).1,
      fun hvendor hcode => absurd hcode (own hvendor).2, fun _ => ?_⟩
    show Value.decode e.kind v.encode = .ok v
    rw [Value.encode_of_decode hv, hv]
  · cases h

/-- What is read of octets without a zero at the end is written without one. -/
theorem PasswordEncoding.trimmed_decode (encoding : PasswordEncoding) (bs : Bytes) :
    Utf8.Trimmed (Utf8.encode (encoding.decode bs.trimZeros)) := by
  cases encoding with
  | utf8 => exact Utf8.trimmed_decodeLossy (Utf8.trimmed_trimZeros bs)
  | latin1 => exact Utf8.trimmed_decodeLatin1 (Utf8.trimmed_trimZeros bs)

/-- **Each value that an attribute contributes is of some definition.** -/
theorem readUnder_of_contribution (standard : ctx.dictionary = .standard)
    (h : pair ∈ ctx.contribution a t) : ∃ e, ReadUnder pair e := by
  unfold contribution at h
  rw [standard] at h
  split at h
  · -- a vendor's attribute
    unfold vendorValues at h
    split at h
    · cases h
    · obtain ⟨t', -, h⟩ := List.mem_flatMap.mp h
      obtain ⟨e, he, -⟩ := mem_defined h
      rw [he] at h
      obtain ⟨hmem, hvendor⟩ := Dictionary.of_byVendor? he
      refine ⟨e, readUnder_of_defined h hmem fun hnone => ?_⟩
      rw [hnone] at hvendor
      cases hvendor
  · rename_i hplain
    split at h
    · rename_i hcode
      split at h
      · rename_i plain hreveal
        rw [List.mem_singleton.mp h, hcode, nameOf_userPassword]
        refine ⟨passwordEntry, (Dictionary.of_byCode? byCode?_userPassword).1, rfl,
          fun _ => by decide, fun _ _ => ⟨_, rfl, ?_⟩, fun hother => absurd ⟨rfl, rfl⟩ hother⟩
        unfold HiddenPassword.reveal at hreveal
        split at hreveal
        · cases hreveal
        · rw [← Except.ok.inj hreveal]
          exact ctx.encoding.trimmed_decode _
      · cases h
    · rename_i hpassword
      obtain ⟨e, he, -⟩ := mem_defined h
      rw [he] at h
      obtain ⟨hmem, -, hcode⟩ := Dictionary.of_byCode? he
      refine ⟨e, readUnder_of_defined h hmem fun _ => ?_⟩
      rw [hcode]
      exact ⟨hplain, hpassword⟩

/-- A value under another spelling would be of another definition. -/
theorem readUnder_of_mem_addAll {pairs : List (Name × Value)} {as : Attributes}
    (before : ∀ pair ∈ as.toList, ∃ e, ReadUnder pair e)
    (added : ∀ pair ∈ pairs, ∃ e, ReadUnder pair e) (h : pair ∈ (as.addAll pairs).toList) :
    ∃ e, ReadUnder pair e := by
  induction pairs generalizing as with
  | nil => exact before pair h
  | cons p pairs ih =>
    obtain ⟨e, he⟩ := added p List.mem_cons_self
    have hadd : ∀ pair ∈ (as.add p.1 p.2).toList, ∃ e, ReadUnder pair e := by
      intro pair hpair
      rcases Attributes.mem_toList_add hpair with hpair | rfl | ⟨g, hg, hsame, rfl⟩
      · exact before pair hpair
      · exact ⟨e, he⟩
      · -- the group has a value, so its name is that of a definition too
        obtain ⟨v, hv⟩ := List.exists_mem_of_ne_nil _ (as.filled g hg)
        obtain ⟨e', he'⟩ := before (g.name, v)
          (List.mem_flatMap.mpr ⟨g, hg, List.mem_map.mpr ⟨v, hv, rfl⟩⟩)
        have hname : g.name = e'.name := he'.name
        rw [hname, he.name] at hsame
        obtain rfl := Dictionary.eq_of_same he'.defines he.defines hsame
        refine ⟨e', ?_⟩
        rw [hname, ← he.name]
        exact he
    exact ih hadd (fun pair hpair => added pair (List.mem_cons_of_mem _ hpair)) h

/-- **Every value of a packet that was read is of some definition.** -/
theorem readUnder_of_read {request : Option Block} {bs : Bytes} {q : Packet}
    (standard : ctx.dictionary = .standard) (h : ctx.read request bs = .ok q)
    (hpair : pair ∈ q.attributes.toList) : ∃ e, ReadUnder pair e := by
  obtain ⟨a, ts, -, hattributes⟩ := attributes_of_read h
  rw [hattributes] at hpair
  refine readUnder_of_mem_addAll (fun _ hnone => absurd hnone List.not_mem_nil)
    (fun pair hpair => ?_) hpair
  obtain ⟨t, -, hpair⟩ := List.mem_flatMap.mp hpair
  exact readUnder_of_contribution standard hpair

/-- And its name is spelled as the dictionary spells it. -/
theorem ReadUnder.same_iff (h : ReadUnder pair e) {e' : Entry}
    (he' : e' ∈ Dictionary.standard.entries) :
    Name.same pair.1 e'.name = true ↔ pair.1 = e'.name := by
  rw [h.name]
  refine ⟨fun hsame => ?_, fun heq => Name.same_iff.mpr (congrArg _ heq)⟩
  rw [Dictionary.eq_of_same h.defines he' hsame]

/-- What a value comes back as under the name of its definition. -/
theorem readBack_standard (defines : e ∈ Dictionary.standard.entries) (encoding : PasswordEncoding)
    (v : Value) (wire : Bytes) :
    readBack .standard encoding (e.name, v) wire =
      if e.vendor = none ∧ e.code = Attribute.messageAuthenticator then defined (some e) wire
      else if e.vendor = none ∧ e.code = Attribute.userPassword then
        [(e.name, .text (encoding.decode v.encode.trimZeros))]
      else defined (some e) v.encode := by
  unfold readBack
  rw [Dictionary.byName?_standard defines]

/-- **A value that was read comes back as it is**, unless it is signed. -/
theorem readBack_of_readUnder (h : ReadUnder pair e)
    (unsigned : ¬ (e.vendor = none ∧ e.code = Attribute.messageAuthenticator)) (wire : Bytes) :
    readBack .standard .utf8 pair wire = [pair] := by
  obtain ⟨name, v⟩ := pair
  obtain rfl : name = e.name := h.name
  rw [readBack_standard h.defines, if_neg unsigned]
  split
  · rename_i hpassword
    obtain ⟨s, rfl, htrimmed⟩ := h.password hpassword.1 hpassword.2
    have hback : PasswordEncoding.utf8.decode (Utf8.encode s).trimZeros = s := by
      rw [htrimmed.trimZeros]
      exact Utf8.decodeLossy_encode s
    exact congrArg (fun s => [(e.name, Value.text s)]) hback
  · rename_i hother
    unfold defined
    simp only [h.value hother]

end AccessGate.Radius
