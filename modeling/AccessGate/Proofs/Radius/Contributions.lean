import AccessGate.Proofs.Radius.Passwords
import AccessGate.Proofs.Radius.Values

/-!
# What each attribute contributes

What an attribute on the wire adds to a packet is told here without a reader, and of the attribute
alone: nothing that its neighbours hold has a part in it (`Contributes`).

* `decodes_iff`: octets under a definition are one value or none;
* `Tlv.readWhile_eq_iff`: in a vendor's attribute those of the vendor's own count that stand in front
  of the first octets that are none (`Tlv.Front`);
* `contributes_iff`: so every attribute contributes one list of values, and it is what the reader
  takes;
* `read_gathers`: a packet that was read holds these lists one after the other, so an attribute that
  contributes nothing might as well not be there.
-/

namespace AccessGate.Radius

open ReadingContext

/-! ## 1. Octets under a definition -/

/-- What octets contribute under a definition: a value, if there is one and the octets fit it. -/
inductive Decodes : Option Entry → Bytes → List (Name × Value) → Prop where
  | undefined (bs : Bytes) : Decodes none bs []
  | unfit (e : Entry) (bs : Bytes) (fault : ValueFault)
      (decode : Value.decode e.kind bs = .error fault) : Decodes (some e) bs []
  | value (e : Entry) (bs : Bytes) (v : Value) (decode : Value.decode e.kind bs = .ok v) :
      Decodes (some e) bs [(e.name, v)]

theorem decodes_iff {entry : Option Entry} {bs : Bytes} {part : List (Name × Value)} :
    Decodes entry bs part ↔ part = defined entry bs := by
  unfold defined
  constructor
  · intro h
    cases h with
    | undefined bs => rfl
    | unfit e bs fault decode => simp only [decode]
    | value e bs v decode => simp only [decode]
  · rintro rfl
    cases entry with
    | none => exact .undefined bs
    | some e =>
      cases hdecode : Value.decode e.kind bs with
      | ok v =>
        simp only [hdecode]
        exact .value e bs v hdecode
      | error fault =>
        simp only [hdecode]
        exact .unfit e bs fault hdecode

/-! ## 2. Attributes in front of octets -/

namespace Tlv

/-- The octets start with the attributes, and what follows them does not start with another. -/
def Front (bs : Bytes) (ts : List Tlv) : Prop :=
  ∃ front rest, bs = front ++ rest ∧ Spells front ts ∧ ∀ t tail, ¬ Leads t rest tail

/-- The attribute in front is read first. -/
theorem readWhile_of_leads {t : Tlv} {bs rest : Bytes} (leads : t.Leads bs rest) :
    readWhile bs = t :: readWhile rest := by
  obtain ⟨length, tail, rfl, -, hfits, htake, hdrop⟩ := leads.cut
  rw [readWhile, if_neg hfits, htake, hdrop]

/-- Where no attribute is in front, reading stops. -/
theorem readWhile_of_stuck {bs : Bytes} (stuck : ∀ t tail, ¬ Leads t bs tail) :
    readWhile bs = [] := by
  match bs with
  | [] | [_] => rw [readWhile]; simp
  | code :: length :: rest =>
    rw [readWhile, if_pos (Classical.byContradiction fun hfits => stuck _ _ (leads_of_fits hfits))]

theorem readWhile_append {front : Bytes} {ts : List Tlv} (h : Spells front ts) (rest : Bytes) :
    readWhile (front ++ rest) = ts ++ readWhile rest := by
  induction h with
  | nil => rfl
  | cons t bs tail ts leads _ ih =>
    rw [readWhile_of_leads (leads.append rest), ih]
    rfl

/-- What is read stands in front. -/
theorem front_readWhile (bs : Bytes) : Front bs (readWhile bs) := by
  by_cases hleads : ∃ t rest, Leads t bs rest
  · obtain ⟨t, rest, leads⟩ := hleads
    have hshort := leads.shorter
    obtain ⟨front, last, hrest, hspells, hstuck⟩ := front_readWhile rest
    rw [readWhile_of_leads leads]
    exact ⟨t.encode ++ front, last, by rw [leads.eq_append, hrest, List.append_assoc],
      leads.spells hspells, hstuck⟩
  · have hstuck : ∀ t tail, ¬ Leads t bs tail := fun t tail h => hleads ⟨t, tail, h⟩
    rw [readWhile_of_stuck hstuck]
    exact ⟨[], bs, rfl, .nil, hstuck⟩
termination_by bs.length

/-- **Attributes are read as far as they go**: the octets have one front. -/
theorem readWhile_eq_iff {bs : Bytes} {ts : List Tlv} : readWhile bs = ts ↔ Front bs ts := by
  constructor
  · rintro rfl
    exact front_readWhile bs
  · rintro ⟨front, rest, rfl, hspells, hstuck⟩
    rw [readWhile_append hspells, readWhile_of_stuck hstuck, List.append_nil]

end Tlv

/-! ## 3. One attribute -/

/-- **What an attribute contributes** to a packet with the given authenticator. -/
inductive Contributes (ctx : ReadingContext) (a : Block) (t : Tlv) : List (Name × Value) → Prop where
  /-- A vendor's attribute has no room for one of the vendor's own. -/
  | short (code : t.code = Attribute.vendorSpecific) (size : t.value.length < 6) :
      Contributes ctx a t []
  /-- A vendor's attribute holds the vendor's number and attributes of the vendor's own, up to the
  first octets that are none. Each of them stands for itself. -/
  | vendor (code : t.code = Attribute.vendorSpecific) (number octets : Bytes)
      (long : 6 ≤ t.value.length) (cut : t.value = number ++ octets) (size : number.length = 4)
      (subs : List Tlv) (front : Tlv.Front octets subs) (parts : List (List (Name × Value)))
      (each : List.Forall₂ (fun sub part => Decodes
        (ctx.dictionary.byVendor? ⟨UInt32.ofNat number.toNat, sub.code⟩) sub.value part) subs parts) :
      Contributes ctx a t parts.flatten
  /-- A password is no whole number of blocks. -/
  | broken (code : t.code = Attribute.userPassword)
      (size : t.value.length = 0 ∨ ¬ 16 ∣ t.value.length) : Contributes ctx a t []
  /-- A password is the text of what its blocks conceal. -/
  | password (code : t.code = Attribute.userPassword) (plain : Bytes)
      (conceals : HiddenPassword.Conceals ctx.digests ctx.secret.bytes a t.value plain) :
      Contributes ctx a t
        [(nameOf ctx.dictionary Attribute.userPassword, .text (ctx.encoding.decode plain))]
  /-- Any other attribute is a value under the definition of its code. -/
  | other (vendor : t.code ≠ Attribute.vendorSpecific) (password : t.code ≠ Attribute.userPassword)
      (part : List (Name × Value)) (decodes : Decodes (ctx.dictionary.byCode? t.code) t.value part) :
      Contributes ctx a t part

section

variable {ctx : ReadingContext} {a : Block} {t : Tlv} {part : List (Name × Value)}

/-- The attributes of a vendor's own contribute what the reader takes of them. -/
theorem forall_decodes_iff {d : Dictionary} {vendor : UInt32} {subs : List Tlv}
    {parts : List (List (Name × Value))} :
    List.Forall₂ (fun sub part => Decodes (d.byVendor? ⟨vendor, sub.code⟩) sub.value part) subs parts ↔
      parts = subs.map fun sub => defined (d.byVendor? ⟨vendor, sub.code⟩) sub.value := by
  simp only [decodes_iff]
  exact forall_eq_iff

theorem contribution_of_contributes (h : Contributes ctx a t part) :
    part = ctx.contribution a t := by
  have hother : Attribute.userPassword ≠ Attribute.vendorSpecific := by decide
  unfold contribution
  cases h with
  | short code size =>
    rw [if_pos code]
    unfold vendorValues
    rw [if_pos size]
  | vendor code number octets long cut size subs front parts each =>
    have htake : t.value.take 4 = number := by rw [cut, List.take_left' size]
    have hdrop : t.value.drop 4 = octets := by rw [cut, List.drop_left' size]
    rw [if_pos code]
    unfold vendorValues
    rw [if_neg (Nat.not_lt_of_le long), forall_decodes_iff.mp each]
    simp only [htake, hdrop, Tlv.readWhile_eq_iff.mpr front]
    rfl
  | broken code size =>
    have hbad : HiddenPassword.reveal ctx.digests ctx.secret.bytes a t.value =
        .error ⟨t.value.length⟩ :=
      (HiddenPassword.reveal_error_iff _ _).mpr ⟨size.imp List.length_eq_zero_iff.mp id, rfl⟩
    rw [if_neg (code ▸ hother), if_pos code, hbad]
  | password code plain conceals =>
    rw [if_neg (code ▸ hother), if_pos code, (HiddenPassword.reveal_ok_iff _ _).mpr conceals, code]
  | other vendor password part decodes =>
    rw [if_neg vendor, if_neg password]
    exact decodes_iff.mp decodes

theorem contributes_contribution (ctx : ReadingContext) (a : Block) (t : Tlv) :
    Contributes ctx a t (ctx.contribution a t) := by
  unfold contribution
  by_cases hvendor : t.code = Attribute.vendorSpecific
  · rw [if_pos hvendor]
    unfold vendorValues
    by_cases hshort : t.value.length < 6
    · rw [if_pos hshort]
      exact .short hvendor hshort
    · rw [if_neg hshort]
      have hlong := Nat.le_of_not_lt hshort
      have hsize : (t.value.take 4).length = 4 := by
        rw [List.length_take]
        omega
      exact .vendor hvendor (t.value.take 4) (t.value.drop 4) hlong
        (List.take_append_drop 4 t.value).symm hsize _ (Tlv.front_readWhile _) _
        (forall_decodes_iff.mpr rfl)
  · rw [if_neg hvendor]
    by_cases hpassword : t.code = Attribute.userPassword
    · rw [if_pos hpassword]
      cases hreveal : HiddenPassword.reveal ctx.digests ctx.secret.bytes a t.value with
      | ok plain =>
        rw [hpassword]
        exact .password hpassword plain ((HiddenPassword.reveal_ok_iff _ _).mp hreveal)
      | error fault =>
        have hbad := ((HiddenPassword.reveal_error_iff _ _).mp hreveal).1
        exact .broken hpassword (hbad.imp List.length_eq_zero_iff.mpr id)
    · rw [if_neg hpassword]
      exact .other hvendor hpassword _ (decodes_iff.mpr rfl)

/-- **Every attribute contributes one list of values**, and the reader takes it. -/
theorem contributes_iff : Contributes ctx a t part ↔ part = ctx.contribution a t := by
  constructor
  · exact contribution_of_contributes
  · rintro rfl
    exact contributes_contribution ctx a t

end

/-! ## 4. The packet -/

/-- **A packet gathers what the attributes of its octets contribute**, each by itself. -/
structure Gathers (ctx : ReadingContext) (bs : Bytes) (q : Packet) (ts : List Tlv)
    (parts : List (List (Name × Value))) : Prop where
  authenticator : bs.slice authenticatorOffset 16 = q.authenticator.octets
  spelled : Tlv.Spells (bs.drop headSize) ts
  each : List.Forall₂ (Contributes ctx q.authenticator) ts parts
  gathered : q.attributes = parts.flatten.foldl (fun as pair => as.add pair.1 pair.2) .empty
  /-- Under every name stand the values that were contributed for it, in their order. -/
  values : ∀ name, q.attributes.getAll name =
    (parts.flatten.filter fun pair => Name.same pair.1 name).map (·.2)
  /-- Octets without an attribute that contributes nothing are the same attributes. -/
  skipped : ∀ before bad after, ts = before ++ bad :: after →
    Contributes ctx q.authenticator bad [] → ∀ requestAuthenticator bs' q',
      ctx.read requestAuthenticator bs' = .ok q' → q'.authenticator = q.authenticator →
        Tlv.Spells (bs'.drop headSize) (before ++ after) → q'.attributes = q.attributes

section

variable {ctx : ReadingContext} {requestAuthenticator : Option Block} {bs : Bytes} {q : Packet}

/-- Octets that spell attributes are read as a packet with their contributions. -/
theorem attributes_of_spells (h : ctx.read requestAuthenticator bs = .ok q) {ts : List Tlv}
    (spells : Tlv.Spells (bs.drop headSize) ts) (fit : ∀ t ∈ ts, t.SignatureFits) :
    q.attributes = .ofList (ts.flatMap (ctx.contribution q.authenticator)) := by
  obtain ⟨us, hgenuine, -, hattributes⟩ := genuine_of_read h
  have hts : Tlv.readAll headSize (bs.drop headSize) = .ok ts :=
    Tlv.readAll_ok_iff.mpr ⟨spells, fit⟩
  have hus : Tlv.readAll headSize (bs.drop headSize) = .ok us :=
    Tlv.readAll_ok_iff.mpr ⟨hgenuine.attributes, hgenuine.fit⟩
  rw [hattributes, Except.ok.inj (hus.symm.trans hts)]

/-- **Faults of attributes stay with them.** A packet that is read holds, in the order of the wire,
what each attribute contributes: every attribute contributes one list of values that nothing but the
attribute, the dictionary, the secret, the encoding of passwords and the packet's authenticator
decides, and one that contributes nothing takes nothing from the others. -/
theorem read_gathers (h : ctx.read requestAuthenticator bs = .ok q) :
    (∀ t, ∃! part, Contributes ctx q.authenticator t part) ∧
      ∃ ts parts, Gathers ctx bs q ts parts := by
  obtain ⟨ts, hgenuine, hparts, hattributes⟩ := genuine_of_read h
  have hflatten : (ts.map (ctx.contribution q.authenticator)).flatten =
      ts.flatMap (ctx.contribution q.authenticator) := rfl
  refine ⟨fun t => ⟨_, contributes_contribution ctx q.authenticator t, fun part =>
    contribution_of_contributes⟩, ts, ts.map (ctx.contribution q.authenticator), ?_, ?_, ?_, ?_,
    ?_, ?_⟩
  · rw [hparts]
    exact slice_assemble q.code q.identifier q.authenticator ts
  · exact hgenuine.attributes
  · have heach : List.Forall₂ (fun t part => part = ctx.contribution q.authenticator t) ts
        (ts.map (ctx.contribution q.authenticator)) := forall_eq_iff.mpr rfl
    exact heach.imp fun t part => contributes_iff.mpr
  · rw [hflatten, hattributes]
    rfl
  · intro name
    rw [hflatten, hattributes, Attributes.getAll_ofList]
    rfl
  · intro before bad after cut nothing request bs' q' hread same spells
    have hfit : ∀ t ∈ before ++ after, t.SignatureFits := by
      intro t ht
      refine hgenuine.fit t ?_
      rw [cut]
      exact ((List.sublist_cons_self bad after).append_left before).subset ht
    rw [attributes_of_spells hread spells hfit, same, hattributes, cut, List.flatMap_append,
      List.flatMap_append, List.flatMap_cons, ← contributes_iff.mp nothing]
    rfl

end

/-- A reader with the standard dictionary. -/
def standardReader : ReadingContext := ⟨.standard, .standard, .ofString "secret", .utf8⟩

/-- A request in which a code that is not defined, a number of one octet, a vendor's code that is not
defined, octets that are no attribute of the vendor and a password of three octets stand among other
attributes. -/
def mixedDatagram : Bytes :=
  [1, 7, 0, 56] ++ Bytes.zeros 16 ++ [200, 4, 1, 2] ++ [25, 3, 97] ++ [5, 3, 1] ++
    ([26, 16, 0, 0, 0, 9] ++ [1, 5, 112, 61, 49] ++ [251, 3, 1] ++ [1, 1]) ++ [2, 5, 1, 2, 3] ++
      ([1, 5] ++ Utf8.encode "bob")

/-- The packet that it is read as. -/
def mixedPacket : Packet :=
  ⟨.accessRequest, 7, .zero, none, .ofString "secret", .ofList
    [("Class", .octets [97]), ("Cisco-AVPair", .text "p=1"), (Name.userName, .text "bob")]⟩

/-- The good attributes of the request are gathered. -/
theorem gathered_mixed : standardReader.read none mixedDatagram = .ok mixedPacket ∧
    (∀ t, ∃! part, Contributes standardReader mixedPacket.authenticator t part) ∧
      ∃ ts parts, Gathers standardReader mixedDatagram mixedPacket ts parts := by
  have hread : standardReader.read none mixedDatagram = .ok mixedPacket := by decide +kernel
  exact ⟨hread, read_gathers hread⟩

end AccessGate.Radius
