import AccessGate.Proofs.Radius.Grammar
import AccessGate.Proofs.Radius.RoundTrip

/-!
# What a packet is written as

Whether a packet can be written, and as what, is told here without a writer, value by value.

* `Fits`, `Offends`: a value has a definition and room in an attribute, or its fault is one of two;
* `write_of_firstOffence`: the first value that offends decides, then the size of the whole
  (`FirstOffence`); a packet where neither does is written (`exists_write_of_fits`);
* `wired_of_writes`: an attribute carries the octets of its value (`Wired`), behind lengths that
  count them (`Carries`);
* `write_serializes`: so a packet is written as one attribute for each value, in their order, or not
  at all.
-/

namespace AccessGate.Radius

open WritingContext

/-! ## 1. Sizes -/

/-- The octets that a value takes on the wire under a definition. -/
def wireSize (e : Entry) (v : Value) : Nat :=
  if e.vendor = none ∧ e.code = Attribute.userPassword then
    HiddenPassword.paddedSize v.encode.length
  else if e.vendor = none ∧ e.code = Attribute.messageAuthenticator then 16
  else v.encode.length

/-- The most octets that an attribute holds of a value. -/
def limit (e : Entry) : Nat :=
  match e.vendor with
  | none => 253
  | some _ => 247

/-- The octets of an attribute around those of its value. -/
def overhead (e : Entry) : Nat :=
  match e.vendor with
  | none => 2
  | some _ => 8

/-- The size of a value's attribute. -/
def attributeSize (d : Dictionary) (pair : Name × Value) : Nat :=
  match d.byName? pair.1 with
  | none => 0
  | some e => overhead e + wireSize e pair.2

/-- The size of the attributes of several values. -/
def attributesSize (d : Dictionary) : List (Name × Value) → Nat
  | [] => 0
  | pair :: rest => attributeSize d pair + attributesSize d rest

/-- The size of a packet. -/
def packetSize (d : Dictionary) (p : Packet) : Nat :=
  headSize + attributesSize d p.attributes.toList

/-- A value is defined and not too long. -/
def Fits (d : Dictionary) (pair : Name × Value) : Prop :=
  ∃ e, d.byName? pair.1 = some e ∧ wireSize e pair.2 ≤ limit e

/-- A value has no attribute. -/
inductive Offends (d : Dictionary) (pair : Name × Value) : Fault → Prop where
  | unknown (missing : d.byName? pair.1 = none) : Offends d pair (.unknownAttribute pair.1)
  | long (e : Entry) (found : d.byName? pair.1 = some e) (longer : limit e < wireSize e pair.2) :
      Offends d pair (.attributeTooLong pair.1 (wireSize e pair.2))

/-- **Why a packet is not written**: the first value that has no attribute, or the size of the
whole where each has one. -/
inductive FirstOffence (d : Dictionary) (p : Packet) : Fault → Prop where
  | value (before after : List (Name × Value)) (pair : Name × Value) (fault : Fault)
      (cut : p.attributes.toList = before ++ pair :: after) (fit : ∀ u ∈ before, Fits d u)
      (offends : Offends d pair fault) : FirstOffence d p fault
  | total (fit : ∀ pair ∈ p.attributes.toList, Fits d pair)
      (large : Packet.maxSize < packetSize d p) : FirstOffence d p (.packetTooLarge (packetSize d p))

/-- A value fits or offends. -/
theorem fits_or_offends (d : Dictionary) (pair : Name × Value) :
    Fits d pair ∨ ∃ fault, Offends d pair fault := by
  cases hfound : d.byName? pair.1 with
  | none => exact Or.inr ⟨_, .unknown hfound⟩
  | some e =>
    by_cases hsize : wireSize e pair.2 ≤ limit e
    · exact Or.inl ⟨e, hfound, hsize⟩
    · exact Or.inr ⟨_, .long e hfound (Nat.lt_of_not_le hsize)⟩

/-- Values all fit, or a first one offends. -/
theorem fit_or_first (d : Dictionary) (pairs : List (Name × Value)) :
    (∀ pair ∈ pairs, Fits d pair) ∨ ∃ before pair after fault,
      pairs = before ++ pair :: after ∧ (∀ u ∈ before, Fits d u) ∧ Offends d pair fault := by
  induction pairs with
  | nil => exact Or.inl fun _ h => nomatch h
  | cons pair rest ih =>
    rcases fits_or_offends d pair with hfits | ⟨fault, hoffends⟩
    · rcases ih with hall | ⟨before, u, after, fault, rfl, hbefore, hoffends⟩
      · exact Or.inl (List.forall_mem_cons.mpr ⟨hfits, hall⟩)
      · exact Or.inr ⟨pair :: before, u, after, fault, rfl,
          List.forall_mem_cons.mpr ⟨hfits, hbefore⟩, hoffends⟩
    · exact Or.inr ⟨[], pair, rest, fault, rfl, (fun _ h => nomatch h), hoffends⟩

/-- A packet can be written, or something is the matter with it. -/
theorem fit_or_firstOffence (d : Dictionary) (p : Packet) :
    ((∀ pair ∈ p.attributes.toList, Fits d pair) ∧ packetSize d p ≤ Packet.maxSize) ∨
      ∃ fault, FirstOffence d p fault := by
  rcases fit_or_first d p.attributes.toList with
    hall | ⟨before, pair, after, fault, hcut, hbefore, hoffends⟩
  · by_cases hsize : packetSize d p ≤ Packet.maxSize
    · exact Or.inl ⟨hall, hsize⟩
    · exact Or.inr ⟨_, .total hall (Nat.lt_of_not_le hsize)⟩
  · exact Or.inr ⟨fault, .value before after pair fault hcut hbefore hoffends⟩

/-! ## 2. Which packets are written -/

section

variable {ctx : WritingContext} {p : Packet}

theorem length_wireValue (e : Entry) (v : Value) : (wireValue ctx p e v).length = wireSize e v := by
  unfold wireValue wireSize
  split
  · exact HiddenPassword.length_hide ..
  · split
    · exact Bytes.length_zeros 16
    · rfl

/-- A password of 241 octets is hidden in 256, more than an attribute holds. -/
example : wireSize ⟨Attribute.userPassword, Name.userPassword, .text, none⟩
    (.octets (Bytes.zeros 241)) = 256 := by decide +kernel

theorem limit_eq (e : Entry) : limit e = maxValueSize e := by
  unfold limit maxValueSize
  cases e.vendor <;> rfl

theorem size_wrap (e : Entry) (bs : Bytes) : (wrap e bs).size = overhead e + bs.length := by
  unfold overhead
  cases hvendor : e.vendor with
  | none =>
    rw [wrap_of_none hvendor, Tlv.size]
    exact Nat.add_comm ..
  | some key =>
    rw [wrap_of_some hvendor, Tlv.size, List.length_append, Bytes.length_ofNat, Tlv.length_encode,
      Tlv.size]
    simp only
    omega

/-- A value that fits fits its definition. -/
theorem Fits.wireValue {pair : Name × Value} (h : Fits ctx.dictionary pair) (p : Packet) :
    ∃ e, ctx.dictionary.byName? pair.1 = some e ∧
      (wireValue ctx p e pair.2).length ≤ maxValueSize e := by
  obtain ⟨e, hfound, hsize⟩ := h
  exact ⟨e, hfound, by rwa [length_wireValue, ← limit_eq]⟩

theorem tlv_of_offends {pair : Name × Value} {fault : Fault}
    (h : Offends ctx.dictionary pair fault) : tlv ctx p pair.1 pair.2 = .error fault := by
  unfold tlv
  cases h with
  | unknown missing => rw [missing]
  | long e found longer =>
    have hover : ¬ wireSize e pair.2 ≤ maxValueSize e := by
      rw [← limit_eq]
      exact Nat.not_le_of_lt longer
    rw [found]
    simp only [length_wireValue, if_neg hover]

/-- The fault of the first value that offends is the fault of all. -/
theorem tlvs_of_first {before after : List (Name × Value)} {pair : Name × Value} {fault : Fault}
    (fit : ∀ u ∈ before, Fits ctx.dictionary u) (h : Offends ctx.dictionary pair fault) :
    tlvs ctx p (before ++ pair :: after) = .error fault := by
  induction before with
  | nil =>
    rw [List.nil_append, tlvs, tlv_of_offends h]
    rfl
  | cons u before ih =>
    obtain ⟨hu, hbefore⟩ := List.forall_mem_cons.mp fit
    obtain ⟨e, hfound, hsize⟩ := hu.wireValue p
    rw [List.cons_append, tlvs, tlv_of_fits hfound hsize, ih hbefore]
    rfl

/-- The attributes of a packet's values take the room that the values need. -/
theorem length_of_writes {pairs : List (Name × Value)} {ts : List Tlv}
    (h : List.Forall₂ (fun pair t => ∃ e, Writes ctx p pair e t) pairs ts) :
    (Tlv.encodeAll ts).length = attributesSize ctx.dictionary pairs := by
  induction h with
  | nil => rfl
  | @cons pair t _ _ hd _ ih =>
    obtain ⟨e, hwrites⟩ := hd
    have hsize : t.size = attributeSize ctx.dictionary pair := by
      rw [hwrites.wire, size_wrap, length_wireValue]
      unfold attributeSize
      rw [hwrites.found]
    rw [Tlv.encodeAll, List.flatMap_cons, List.length_append, Tlv.length_encode, ← Tlv.encodeAll, ih,
      hsize, attributesSize]

/-- The attributes of values that fit are there, and the packet has its size. -/
theorem exists_unsealed (fit : ∀ pair ∈ p.attributes.toList, Fits ctx.dictionary pair) :
    ∃ ts, tlvs ctx p p.attributes.toList = .ok ts ∧
      (unsealed p (Tlv.encodeAll ts)).length = packetSize ctx.dictionary p := by
  obtain ⟨ts, hts⟩ := exists_tlvs fun pair hpair => (fit pair hpair).wireValue p
  refine ⟨ts, hts, ?_⟩
  rw [unsealed_eq, length_assemble, length_of_writes (tlvs_forall hts)]
  rfl

/-- **A packet whose values fit, and that is not too large, is written.** -/
theorem exists_write_of_fits (fit : ∀ pair ∈ p.attributes.toList, Fits ctx.dictionary pair)
    (small : packetSize ctx.dictionary p ≤ Packet.maxSize) : ∃ bs, ctx.write p = .ok bs := by
  obtain ⟨ts, hts, hsize⟩ := exists_unsealed fit
  exact ⟨_, write_ok_iff.mpr ⟨ts, hts, hsize ▸ small, rfl⟩⟩

/-- **Otherwise the fault is the first.** -/
theorem write_of_firstOffence {fault : Fault} (h : FirstOffence ctx.dictionary p fault) :
    ctx.write p = .error fault := by
  cases h with
  | value before after pair fault cut fit offends =>
    have htlvs : tlvs ctx p p.attributes.toList = .error fault := by
      rw [cut]
      exact tlvs_of_first fit offends
    simp only [write, htlvs, bind, Except.bind]
  | total fit large =>
    obtain ⟨ts, hts, hsize⟩ := exists_unsealed fit
    simp only [write, hts, hsize, bind, Except.bind]
    rw [if_pos large]
    rfl

end

/-! ## 3. What is written -/

/-- The octets that stand for a value under a definition: its own, if it is neither a password nor a
Message-Authenticator. -/
inductive Wired (ctx : WritingContext) (p : Packet) (e : Entry) (v : Value) : Bytes → Prop where
  | password (vendor : e.vendor = none) (code : e.code = Attribute.userPassword) :
      Wired ctx p e v (HiddenPassword.hide ctx.digests p.secret.bytes
        (p.requestAuthenticator.getD p.authenticator) v.encode)
  | signature (vendor : e.vendor = none) (code : e.code = Attribute.messageAuthenticator)
      (m : Block) : Wired ctx p e v m.octets
  | own (password : ¬ (e.vendor = none ∧ e.code = Attribute.userPassword))
      (signature : ¬ (e.vendor = none ∧ e.code = Attribute.messageAuthenticator)) :
      Wired ctx p e v v.encode

/-- An attribute carries octets under a definition: they are its value, or that of the vendor's own
attribute, which stands in it behind the vendor's number. -/
inductive Carries (e : Entry) (bs : Bytes) (u : Tlv) : Prop where
  | plain (vendor : e.vendor = none) (code : u.code = e.code) (value : u.value = bs)
  | vendor (key : VendorKey) (vendor : e.vendor = some key)
      (code : u.code = Attribute.vendorSpecific) (number octets : Bytes)
      (cut : u.value = number ++ octets) (size : number.length = 4)
      (counts : number.toNat = key.vendor.toNat) (own : Tlv.Spells octets [⟨key.code, bs⟩])

section

variable {ctx : WritingContext} {p : Packet} {e : Entry} {bs : Bytes} {pair : Name × Value}
  {t u : Tlv}

/-- An attribute is spelled by itself. -/
theorem Tlv.spells_encode {t : Tlv} (fits : t.value.length ≤ 253) : Tlv.Spells t.encode [t] :=
  .cons t _ [] [] (Tlv.leads_iff.mpr ⟨fits, (List.append_nil _).symm⟩) .nil

theorem carries_wrap (fits : (wrap e bs).value.length ≤ 253) : Carries e bs (wrap e bs) := by
  cases hvendor : e.vendor with
  | none =>
    rw [wrap_of_none hvendor]
    exact .plain hvendor rfl rfl
  | some key =>
    rw [wrap_of_some hvendor] at fits ⊢
    have hnumber : (Bytes.ofNat 4 key.vendor.toNat).toNat = key.vendor.toNat := by
      rw [Bytes.toNat_ofNat]
      exact Nat.mod_eq_of_lt key.vendor.toNat_lt
    have hown : (Tlv.mk key.code bs).value.length ≤ 253 := by
      simp only [List.length_append, Bytes.length_ofNat, Tlv.length_encode, Tlv.size] at fits
      show bs.length ≤ 253
      omega
    exact .vendor key hvendor rfl _ _ rfl (Bytes.length_ofNat ..) hnumber (Tlv.spells_encode hown)

/-- **An attribute of a packet carries the octets of its value.** -/
theorem wired_of_writes (w : Writes ctx p pair e t) (stamped : t.Stamped u) :
    ∃ bs, Wired ctx p e pair.2 bs ∧ Carries e bs u := by
  have hmarked : t.code = Attribute.messageAuthenticator ↔
      e.vendor = none ∧ e.code = Attribute.messageAuthenticator := by
    rw [w.wire]
    exact code_wrap_iff e _
  by_cases hsignature : e.vendor = none ∧ e.code = Attribute.messageAuthenticator
  · have hsize : u.value.length = 16 := by
      rw [stamped.length, w.unsigned (hmarked.mpr hsignature)]
      exact Bytes.length_zeros 16
    exact ⟨_, .signature hsignature.1 hsignature.2 ⟨u.value, hsize⟩,
      .plain hsignature.1 (code_of_plain w stamped hsignature.1) rfl⟩
  · -- signing left the attribute as it was
    obtain rfl := eq_of_stamped stamped fun h => hsignature (hmarked.mp h)
    have hcarries : Carries e (wireValue ctx p e pair.2) u := by
      have hfits := w.fits
      rw [w.wire] at hfits ⊢
      exact carries_wrap hfits
    by_cases hpassword : e.vendor = none ∧ e.code = Attribute.userPassword
    · have hhidden : wireValue ctx p e pair.2 = HiddenPassword.hide ctx.digests p.secret.bytes
          (p.requestAuthenticator.getD p.authenticator) pair.2.encode := if_pos hpassword
      rw [hhidden] at hcarries
      exact ⟨_, .password hpassword.1 hpassword.2, hcarries⟩
    · rw [wireValue_of_ne _ hpassword hsignature] at hcarries
      exact ⟨_, .own hpassword hsignature, hcarries⟩

end

/-- **The octets that a packet is written as**: a head with its code, its identifier and the size,
then one attribute for each value, in their order. -/
structure Serializes (ctx : WritingContext) (p : Packet) (bs : Bytes) (us : List Tlv) : Prop where
  start : bs.take 2 = [p.code.number, p.identifier]
  declared : declaredSize bs = bs.length
  size : bs.length = packetSize ctx.dictionary p
  spelled : Tlv.Spells (bs.drop headSize) us
  each : List.Forall₂ (fun pair u => ∃ e octets, ctx.dictionary.byName? pair.1 = some e ∧
    Wired ctx p e pair.2 octets ∧ Carries e octets u) p.attributes.toList us

theorem serializes_of_written {ctx : WritingContext} {p : Packet} {bs : Bytes} {ts us : List Tlv}
    (w : Written ctx p bs ts us) : Serializes ctx p bs us := by
  have hlength : bs.length = headSize + (Tlv.encodeAll us).length := by
    rw [w.octets, length_assemble]
  have hfront : bs.take authenticatorOffset = front p.code p.identifier bs.length := by
    rw [hlength, w.octets, take_assemble]
  refine ⟨?_, ?_, ?_, ?_, ?_⟩
  · have htake : bs.take 2 = (bs.take authenticatorOffset).take 2 := by
      rw [List.take_take]
      rfl
    rw [htake, hfront]
    rfl
  · -- two octets are enough for the size of a packet
    have hlt : bs.length < 256 ^ 2 := by
      rw [hlength]
      exact Nat.lt_of_le_of_lt w.fits (by decide)
    rw [declaredSize_eq, hfront]
    show (Bytes.ofNat 2 bs.length).toNat = _
    rw [Bytes.toNat_ofNat, Nat.mod_eq_of_lt hlt]
  · rw [hlength, Tlv.length_of_stamped w.stamped, length_of_writes w.values]
    rfl
  · exact (Tlv.readAll_ok_iff.mp w.readAll).1
  · refine w.wire.imp fun pair u hwire => ?_
    obtain ⟨-, t, ⟨e, hwrites⟩, hstamped⟩ := hwire
    obtain ⟨octets, hwired, hcarries⟩ := wired_of_writes hwrites hstamped
    exact ⟨e, octets, hwrites.found, hwired, hcarries⟩

/-- **A packet is written as its serialization, or its fault is the first**: it is written if every
value has a definition and room, and the whole is not too large; otherwise the first value that has
not is the fault, or the size is. -/
theorem write_serializes (ctx : WritingContext) (p : Packet) :
    ((∃ bs, ctx.write p = .ok bs) ↔ (∀ pair ∈ p.attributes.toList, Fits ctx.dictionary pair) ∧
      packetSize ctx.dictionary p ≤ Packet.maxSize) ∧
    (∀ bs, ctx.write p = .ok bs → ∃ us, Serializes ctx p bs us) ∧
    ∀ fault, ctx.write p = .error fault ↔ FirstOffence ctx.dictionary p fault := by
  refine ⟨⟨?_, fun h => exists_write_of_fits h.1 h.2⟩, ?_, fun fault => ⟨?_, write_of_firstOffence⟩⟩
  · intro hwritten
    obtain ⟨bs, hwrite⟩ := hwritten
    rcases fit_or_firstOffence ctx.dictionary p with hfit | ⟨fault, hfirst⟩
    · exact hfit
    · rw [write_of_firstOffence hfirst] at hwrite
      cases hwrite
  · intro bs hwrite
    obtain ⟨ts, us, hwritten⟩ := written_of_write hwrite
    exact ⟨us, serializes_of_written hwritten⟩
  · intro hwrite
    rcases fit_or_firstOffence ctx.dictionary p with ⟨hfit, hsize⟩ | ⟨first, hfirst⟩
    · obtain ⟨bs, hok⟩ := exists_write_of_fits hfit hsize
      rw [hok] at hwrite
      cases hwrite
    · obtain rfl := Except.error.inj ((write_of_firstOffence hfirst).symm.trans hwrite)
      exact hfirst

end AccessGate.Radius
