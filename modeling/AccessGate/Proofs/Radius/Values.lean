import AccessGate.Proofs.Radius.Grammar
import AccessGate.Proofs.Radius.RoundTrip

/-!
# The values of one name

A packet keeps the values of each name in order, so what is said of one name need not look at the
others. Here is what becomes of such values on the wire and back, where the dictionary gives the name
to one code of its own (`Own`), and above all where its values are octets (`Raw`):

* `getAll_addAll`, `getAll_ofList`, `getAll_eq`: the values of a name are those among all values
  (`valuesOf`), and what is added stands behind them;
* `valuesOf_filter`, `valuesOf_placed`, `valuesOf_placed_of_ne`: leaving out or placing a value of
  another name changes nothing for the name;
* `octetsOf_write`, `length_octetsOf_write`: the attributes of the code on the wire are the values of
  the name, as they are, or as many where they are signed;
* `getAll_read`: the values of the name in a packet are the attributes of the code on the wire;
* `getAll_delivered`: so whoever reads what was written has the values that were written.
-/

namespace AccessGate.Radius

open WritingContext ReadingContext

/-! ## 1. The values of one name -/

namespace Name

theorem same_congr {a b : Name} (h : same a b = true) (c : Name) : same a c = same b c := by
  unfold same Text.sameIgnoringCase at h ⊢
  rw [beq_iff_eq.mp h]

/-- Of two names of which one spelling is the one, it is not the other. -/
theorem same_false_of_left {a b c : Name} (h : same a b = false) (hc : same a c = true) :
    same b c = false := by
  rw [same_congr hc, same_comm] at h
  exact h

end Name

namespace Attributes

variable {name : Name}

/-- The values of the name among pairs. -/
def valuesOf (name : Name) (pairs : List (Name × Value)) : List Value :=
  (pairs.filter fun p => Name.same p.1 name).map (·.2)

theorem valuesOf_append (name : Name) (xs ys : List (Name × Value)) :
    valuesOf name (xs ++ ys) = valuesOf name xs ++ valuesOf name ys := by
  unfold valuesOf
  rw [List.filter_append, List.map_append]

theorem valuesOf_cons (name : Name) (p : Name × Value) (pairs : List (Name × Value)) :
    valuesOf name (p :: pairs) = valuesOf name [p] ++ valuesOf name pairs :=
  valuesOf_append name [p] pairs

theorem valuesOf_of_ne {pairs : List (Name × Value)}
    (other : ∀ p ∈ pairs, Name.same p.1 name = false) : valuesOf name pairs = [] := by
  unfold valuesOf
  rw [List.filter_eq_nil_iff.mpr fun p hp => Bool.eq_false_iff.mp (other p hp)]
  rfl

theorem valuesOf_of_same {pairs : List (Name × Value)}
    (same : ∀ p ∈ pairs, Name.same p.1 name = true) :
    valuesOf name pairs = pairs.map (·.2) := by
  unfold valuesOf
  rw [List.filter_eq_self.mpr same]

theorem valuesOf_pair (name : Name) (v : Value) : valuesOf name [(name, v)] = [v] :=
  valuesOf_of_same fun p hp => by
    rw [List.mem_singleton.mp hp]
    exact Name.same_iff.mpr rfl

theorem valuesOf_pair_of_ne {added : Name} (other : Name.same added name = false) (v : Value) :
    valuesOf name [(added, v)] = [] :=
  valuesOf_of_ne fun p hp => by
    rw [List.mem_singleton.mp hp]
    exact other

/-- Leaving out values of other names leaves those of the name. -/
theorem valuesOf_filter {keep : Name × Value → Bool} {pairs : List (Name × Value)}
    (kept : ∀ p ∈ pairs, Name.same p.1 name = true → keep p = true) :
    valuesOf name (pairs.filter keep) = valuesOf name pairs := by
  have hboth : ∀ p ∈ pairs, (Name.same p.1 name && keep p) = Name.same p.1 name := by
    intro p hp
    cases hname : Name.same p.1 name with
    | true => exact kept p hp hname
    | false => rfl
  unfold valuesOf
  rw [List.filter_filter, List.filter_congr hboth]

/-- A value that was placed is the only one of its name. -/
theorem valuesOf_placed (name : Name) (v : Value) (pairs : List (Name × Value)) :
    valuesOf name (placed name v pairs) = [v] := by
  obtain ⟨before, behind, hothers, hplaced⟩ := placed_split name pairs
  rw [hplaced, valuesOf_append, valuesOf_cons, valuesOf_pair,
    valuesOf_of_ne fun p hp => (hothers p (List.mem_append_left _ hp)).2,
    valuesOf_of_ne fun p hp => (hothers p (List.mem_append_right _ hp)).2]
  rfl

/-- And values of other names stay. -/
theorem valuesOf_placed_of_ne {added : Name} (other : Name.same added name = false) (v : Value)
    (pairs : List (Name × Value)) :
    valuesOf name (placed added v pairs) = valuesOf name pairs := by
  have hkept : ∀ p ∈ pairs.dropWhile fun a => !Name.same a.1 added,
      Name.same p.1 name = true → (!Name.same p.1 added) = true := by
    intro p _ hname
    refine (Bool.not_eq_true' _).mpr (Bool.eq_false_iff.mpr fun hadded => ?_)
    rw [Name.same_iff] at hname hadded
    refine Bool.eq_false_iff.mp other ?_
    rw [Name.same_iff, ← hadded, hname]
  unfold placed
  rw [valuesOf_append, valuesOf_cons, valuesOf_pair_of_ne other, valuesOf_filter hkept, List.nil_append,
    ← valuesOf_append, List.takeWhile_append_dropWhile]

/-- The values of the name in groups. -/
def groupValues (name : Name) (gs : List Group) : List Value :=
  match gs.find? fun g => Name.same g.name name with
  | some g => g.values
  | none => []

theorem groupValues_cons (name : Name) (g : Group) (gs : List Group) :
    groupValues name (g :: gs) =
      if Name.same g.name name then g.values else groupValues name gs := by
  unfold groupValues
  rw [List.find?_cons]
  cases Name.same g.name name <;> rfl

/-- The values of a name change as its group does, and those of other names do not. -/
theorem groupValues_upsert (name added : Name) (change : List Value → List Value)
    (gs : List Group) : groupValues name (upsert added change gs) =
      if Name.same added name then change (groupValues name gs) else groupValues name gs := by
  induction gs with
  | nil =>
    unfold upsert
    rw [groupValues_cons]
    rfl
  | cons g gs ih =>
    unfold upsert
    cases hadded : Name.same g.name added with
    | true =>
      rw [if_pos rfl, groupValues_cons, groupValues_cons, Name.same_congr hadded name]
      cases Name.same added name <;> rfl
    | false =>
      rw [if_neg Bool.false_ne_true, groupValues_cons, groupValues_cons, ih]
      cases hname : Name.same g.name name with
      | true =>
        rw [Name.same_false_of_left hadded hname]
        rfl
      | false => rfl

theorem getAll_add (as : Attributes) (added : Name) (v : Value) :
    (as.add added v).getAll name = as.getAll name ++ valuesOf name [(added, v)] := by
  refine (groupValues_upsert name added (· ++ [v]) as.groups).trans ?_
  cases hname : Name.same added name with
  | true =>
    have hpair : ∀ p ∈ [(added, v)], Name.same p.1 name = true := fun p hp => by
      rw [List.mem_singleton.mp hp]
      exact hname
    rw [valuesOf_of_same hpair]
    rfl
  | false =>
    rw [valuesOf_pair_of_ne hname, List.append_nil]
    rfl

/-- **Values that are added stand behind those of their name.** -/
theorem getAll_addAll (as : Attributes) (pairs : List (Name × Value)) :
    (as.addAll pairs).getAll name = as.getAll name ++ valuesOf name pairs := by
  induction pairs generalizing as with
  | nil => exact (List.append_nil _).symm
  | cons p pairs ih =>
    show ((as.add p.1 p.2).addAll pairs).getAll name = _
    rw [ih, getAll_add, valuesOf_cons name p pairs, List.append_assoc]

theorem getAll_ofList (pairs : List (Name × Value)) :
    (ofList pairs).getAll name = valuesOf name pairs := getAll_addAll empty pairs

/-- **The values of a name are those among all values.** -/
theorem getAll_eq (as : Attributes) (name : Name) : as.getAll name = valuesOf name as.toList := by
  have hgroup (g : Group) : valuesOf name (g.values.map fun v => (g.name, v)) =
      if Name.same g.name name then g.values else [] := by
    cases hname : Name.same g.name name with
    | true =>
      have hall : ∀ p ∈ g.values.map fun v => (g.name, v), Name.same p.1 name = true := by
        intro p hp
        obtain ⟨v, -, rfl⟩ := List.mem_map.mp hp
        exact hname
      rw [valuesOf_of_same hall, List.map_map]
      exact List.map_id _
    | false =>
      refine valuesOf_of_ne fun p hp => ?_
      obtain ⟨v, -, rfl⟩ := List.mem_map.mp hp
      exact hname
  have hgroups {gs : List Group}
      (distinct : (gs.map (·.name)).Pairwise fun a b => Name.same a b = false) :
      groupValues name gs = valuesOf name (gs.flatMap fun g => g.values.map fun v => (g.name, v)) := by
    induction gs with
    | nil => rfl
    | cons g gs ih =>
      rw [List.map_cons, List.pairwise_cons] at distinct
      rw [groupValues_cons, List.flatMap_cons, valuesOf_append, ← ih distinct.2, hgroup]
      cases hname : Name.same g.name name with
      | false => rfl
      | true =>
        -- no other group has this name
        have hnone : groupValues name gs = [] := by
          unfold groupValues
          rw [List.find?_eq_none.mpr]
          intro g' hg' hsame
          have hne := distinct.1 g'.name (List.mem_map_of_mem hg')
          refine Bool.eq_false_iff.mp hne ?_
          rw [Name.same_iff] at hname hsame ⊢
          rw [hname, hsame]
        simp [hnone]
  exact hgroups as.distinct

theorem mem_names_of_mem_toList {as : Attributes} {pair : Name × Value} (h : pair ∈ as.toList) :
    pair.1 ∈ as.names := by
  obtain ⟨g, hg, hpair⟩ := List.mem_flatMap.mp h
  obtain ⟨v, -, rfl⟩ := List.mem_map.mp hpair
  exact List.mem_map_of_mem hg

/-- A name stands in a list of attributes as it was spelled there or in what was added. -/
theorem mem_names_addAll {as : Attributes} {pairs : List (Name × Value)}
    (h : name ∈ (as.addAll pairs).names) : name ∈ as.names ∨ ∃ p ∈ pairs, p.1 = name := by
  induction pairs generalizing as with
  | nil => exact Or.inl h
  | cons p pairs ih =>
    rcases ih h with h | ⟨p', hp', hname⟩
    · have hnames : (as.add p.1 p.2).names = _ := names_upsert p.1 (· ++ [p.2]) as.groups
      rw [hnames] at h
      split at h
      · exact Or.inl h
      · rcases List.mem_append.mp h with h | h
        · exact Or.inl h
        · exact Or.inr ⟨p, List.mem_cons_self, (List.mem_singleton.mp h).symm⟩
    · exact Or.inr ⟨p', List.mem_cons_of_mem p hp', hname⟩

/-- A name without a value is not there. -/
theorem not_contains_of_getAll {as : Attributes} (h : as.getAll name = []) :
    as.contains name = false := by
  refine Bool.eq_false_iff.mpr fun hcontains => ?_
  obtain ⟨g, hg⟩ := Option.isSome_iff_exists.mp hcontains
  unfold getAll at h
  rw [hg] at h
  exact as.filled g (List.mem_of_find?_eq_some hg) h

end Attributes

/-! ## 2. Names of octets -/

/-- In the dictionary the name is that of one code, of no vendor, whose values are octets. -/
structure Raw (d : Dictionary) (name : Name) (code : UInt8) : Prop where
  named : ∀ e ∈ d.entries, Name.same e.name name = true ↔ e.vendor = none ∧ e.code = code
  octets : ∃ e, d.byCode? code = some e ∧ e.kind = .octets
  notVendor : code ≠ Attribute.vendorSpecific
  notPassword : code ≠ Attribute.userPassword
  /-- Nor is a password one, which is read whether or not the dictionary names it. -/
  otherPassword : Name.same (nameOf d Attribute.userPassword) name = false

/-- In the dictionary the name is that of one definition, of no vendor, whatever its values are. -/
structure Own (d : Dictionary) (name : Name) (e : Entry) : Prop where
  named : ∀ e' ∈ d.entries, Name.same e'.name name = true ↔ e'.vendor = none ∧ e'.code = e.code
  found : d.byCode? e.code = some e
  notVendor : e.code ≠ Attribute.vendorSpecific
  notPassword : e.code ≠ Attribute.userPassword
  otherPassword : Name.same (nameOf d Attribute.userPassword) name = false

theorem Raw.own {d : Dictionary} {name : Name} {code : UInt8} (raw : Raw d name code) :
    ∃ e, Own d name e ∧ e.code = code ∧ e.kind = .octets := by
  obtain ⟨e, he, hkind⟩ := raw.octets
  obtain ⟨-, -, rfl⟩ := Dictionary.of_byCode? he
  exact ⟨e, ⟨raw.named, he, raw.notVendor, raw.notPassword, raw.otherPassword⟩, rfl, hkind⟩

/-- Names of octets that the gateway itself writes and reads, with their codes. -/
def rawNames : List (Name × UInt8) :=
  [(Name.state, 24), (Name.proxyState, 33), (Name.messageAuthenticator, Attribute.messageAuthenticator)]

/-- The standard dictionary defines the password. -/
theorem byCode?_userPassword :
    Dictionary.standard.byCode? Attribute.userPassword = some passwordEntry := by
  have hmem : passwordEntry ∈ Dictionary.standardEntries := by decide +kernel
  exact Dictionary.byCode?_standard (Dictionary.mem_standard_iff.mpr hmem) rfl

theorem nameOf_userPassword : nameOf .standard Attribute.userPassword = passwordEntry.name := by
  unfold nameOf
  rw [byCode?_userPassword]

theorem byCode?_of_raw {name : Name} {code : UInt8} (h : (name, code) ∈ rawNames) :
    Dictionary.standard.byCode? code = some ⟨code, name, .octets, none⟩ := by
  have hall : ∀ raw ∈ rawNames, ⟨raw.2, raw.1, .octets, none⟩ ∈ Dictionary.standardEntries := by
    decide +kernel
  exact Dictionary.byCode?_standard (Dictionary.mem_standard_iff.mpr (hall (name, code) h)) rfl

/-- **In the standard dictionary these names are those of octets.** -/
theorem raw_standard {name : Name} {code : UInt8} (h : (name, code) ∈ rawNames) :
    Raw .standard name code where
  named := by
    have hall : ∀ e ∈ Dictionary.standardEntries, ∀ raw ∈ rawNames,
        e.name.toList.map Char.toLower = raw.1.toList.map Char.toLower ↔
          e.vendor = none ∧ e.code = raw.2 := by decide +kernel
    intro e he
    rw [Name.same_iff_letters]
    exact hall e (Dictionary.mem_standard_iff.mp he) (name, code) h
  octets := ⟨_, byCode?_of_raw h, rfl⟩
  notVendor := by
    have hall : ∀ raw ∈ rawNames, raw.2 ≠ Attribute.vendorSpecific := by decide
    exact hall (name, code) h
  notPassword := by
    have hall : ∀ raw ∈ rawNames, raw.2 ≠ Attribute.userPassword := by decide
    exact hall (name, code) h
  otherPassword := by
    have hall : ∀ raw ∈ rawNames, passwordEntry.name.toList.map Char.toLower ≠
        raw.1.toList.map Char.toLower := by decide +kernel
    rw [nameOf_userPassword]
    exact Bool.eq_false_iff.mpr fun hsame => hall (name, code) h (Name.same_iff_letters.mp hsame)

theorem raw_signature :
    Raw .standard Name.messageAuthenticator Attribute.messageAuthenticator :=
  raw_standard (by decide)

/-- And it spells them as they are spelled here. -/
theorem spelled_standard {name : Name} {code : UInt8} (h : (name, code) ∈ rawNames) {e : Entry}
    (he : e ∈ Dictionary.standard.entries) (same : Name.same e.name name = true) :
    e.name = name := by
  obtain ⟨hvendor, hcode⟩ := ((raw_standard h).named e he).mp same
  have hfound := Dictionary.byCode?_standard he hvendor
  rw [hcode] at hfound
  rw [Option.some.inj (hfound.symm.trans (byCode?_of_raw h))]

/-- The attributes of one code. -/
def octetsOf (code : UInt8) (ts : List Tlv) : List Bytes :=
  (ts.filter fun t => t.code = code).map (·.value)

theorem octetsOf_append (code : UInt8) (ts us : List Tlv) :
    octetsOf code (ts ++ us) = octetsOf code ts ++ octetsOf code us := by
  unfold octetsOf
  rw [List.filter_append, List.map_append]

theorem octetsOf_of_ne {code : UInt8} {t : Tlv} (other : t.code ≠ code) : octetsOf code [t] = [] := by
  unfold octetsOf
  simp [other]

section Writing

variable {ctx : WritingContext} {p : Packet} {bs : Bytes} {ts us : List Tlv} {name : Name}
  {code : UInt8} {pair : Name × Value} {e : Entry} {t u : Tlv}

/-- The name is defined. -/
theorem Raw.byName? {d : Dictionary} (raw : Raw d name code) :
    ∃ e, d.byName? name = some e ∧ e.vendor = none ∧ e.code = code := by
  obtain ⟨e, he, -⟩ := raw.octets
  obtain ⟨hmem, hcode⟩ := Dictionary.of_byCode? he
  obtain ⟨e', he'⟩ := Dictionary.exists_byName? hmem
  rw [Dictionary.byName?_congr ((raw.named e hmem).mpr hcode)] at he'
  obtain ⟨hmem', hsame⟩ := Dictionary.of_byName? he'
  exact ⟨e', he', (raw.named e' hmem').mp hsame⟩

/-- A short value fits under the name. -/
theorem Raw.fits (raw : Raw ctx.dictionary name code) (p : Packet) {v : Value}
    (short : v.encode.length ≤ Value.maxSize) : ∃ e, ctx.dictionary.byName? name = some e ∧
      (wireValue ctx p e v).length ≤ maxValueSize e := by
  obtain ⟨e, hfound, hvendor, hcode⟩ := raw.byName?
  refine ⟨e, hfound, ?_⟩
  rw [maxValueSize, hvendor]
  by_cases hsignature : e.code = Attribute.messageAuthenticator
  · rw [wireValue_messageAuthenticator hvendor hsignature, Bytes.length_zeros]
    decide
  · rw [wireValue_of_ne _ (fun h => raw.notPassword (hcode.symm.trans h.2))
      (fun h => hsignature h.2)]
    exact short

/-- **A value is written with the code exactly under the name.** -/
theorem Raw.code_iff (raw : Raw ctx.dictionary name code) (w : Writes ctx p pair e t)
    (stamped : t.Stamped u) : u.code = code ↔ Name.same pair.1 name = true := by
  obtain ⟨hmem, hspelled⟩ := Dictionary.of_byName? w.found
  rw [← Name.same_congr hspelled, raw.named e hmem, stamped.code, w.wire]
  cases hvendor : e.vendor with
  | none =>
    rw [wrap_of_none hvendor]
    simp
  | some key =>
    rw [wrap_of_some hvendor]
    simpa using raw.notVendor.symm

theorem Raw.length_octetsOf_writes (raw : Raw ctx.dictionary name code) (w : Writes ctx p pair e t)
    (stamped : t.Stamped u) :
    (octetsOf code [u]).length = (Attributes.valuesOf name [pair]).length := by
  have hcode := raw.code_iff w stamped
  unfold octetsOf Attributes.valuesOf
  by_cases hsame : Name.same pair.1 name = true
  · simp [hcode.mpr hsame, hsame]
  · simp [mt hcode.mp hsame, hsame]

/-- What is not signed is written as it is. -/
theorem Raw.octetsOf_writes (raw : Raw ctx.dictionary name code)
    (unsigned : code ≠ Attribute.messageAuthenticator) (w : Writes ctx p pair e t)
    (stamped : t.Stamped u) :
    octetsOf code [u] = (Attributes.valuesOf name [pair]).map Value.encode := by
  have hcode := raw.code_iff w stamped
  by_cases hsame : Name.same pair.1 name = true
  · have hu : u.code = code := hcode.mpr hsame
    obtain rfl := eq_of_stamped stamped (by rw [← stamped.code, hu]; exact unsigned)
    obtain ⟨hmem, hspelled⟩ := Dictionary.of_byName? w.found
    obtain ⟨hvendor, hentry⟩ := (raw.named e hmem).mp ((Name.same_congr hspelled name).trans hsame)
    have hvalue : u = ⟨code, pair.2.encode⟩ := by
      rw [w.wire, wrap_of_none hvendor, hentry,
        wireValue_of_ne _ (fun h => raw.notPassword (hentry.symm.trans h.2))
          (fun h => unsigned (hentry.symm.trans h.2))]
    rw [hvalue]
    unfold octetsOf Attributes.valuesOf
    simp [hsame]
  · rw [octetsOf_of_ne (mt hcode.mp hsame)]
    unfold Attributes.valuesOf
    simp [hsame]

/-- **The attributes of the code on the wire are the packet's values of the name.** -/
theorem Raw.octetsOf_write (raw : Raw ctx.dictionary name code)
    (unsigned : code ≠ Attribute.messageAuthenticator) (w : Written ctx p bs ts us) :
    octetsOf code us = (p.attributes.getAll name).map Value.encode := by
  have hall {pairs : List (Name × Value)} {us : List Tlv}
      (h : List.Forall₂ (fun pair u => pair ∈ p.attributes.toList ∧
        ∃ t, (∃ e, Writes ctx p pair e t) ∧ t.Stamped u) pairs us) :
      octetsOf code us = (Attributes.valuesOf name pairs).map Value.encode := by
    induction h with
    | nil => rfl
    | cons hd _ ih =>
      obtain ⟨-, t, ⟨e, hwrites⟩, hstamped⟩ := hd
      rw [Attributes.valuesOf_cons, List.map_append, ← ih,
        ← raw.octetsOf_writes unsigned hwrites hstamped]
      exact octetsOf_append code [_] _
  rw [Attributes.getAll_eq]
  exact hall w.wire

/-- **And there are as many of them**, also where they are signed. -/
theorem Raw.length_octetsOf_write (raw : Raw ctx.dictionary name code)
    (w : Written ctx p bs ts us) :
    (octetsOf code us).length = (p.attributes.getAll name).length := by
  have hall {pairs : List (Name × Value)} {us : List Tlv}
      (h : List.Forall₂ (fun pair u => pair ∈ p.attributes.toList ∧
        ∃ t, (∃ e, Writes ctx p pair e t) ∧ t.Stamped u) pairs us) :
      (octetsOf code us).length = (Attributes.valuesOf name pairs).length := by
    induction h with
    | nil => rfl
    | @cons pair u pairs us hd _ ih =>
      obtain ⟨-, t, ⟨e, hwrites⟩, hstamped⟩ := hd
      rw [Attributes.valuesOf_cons, List.length_append, ← ih,
        ← raw.length_octetsOf_writes hwrites hstamped, ← List.length_append]
      exact congrArg List.length (octetsOf_append code [u] us)
  rw [Attributes.getAll_eq]
  exact hall w.wire

end Writing

section Reading

variable {ctx : ReadingContext} {requestAuthenticator : Option Block} {bs : Bytes} {q : Packet}
  {name : Name} {code : UInt8} {e : Entry}

/-- What a packet holds is what its attributes contribute. -/
theorem attributes_of_read (h : ctx.read requestAuthenticator bs = .ok q) :
    ∃ a ts, Tlv.readAll headSize (bs.drop headSize) = .ok ts ∧
      q.attributes = .ofList (ts.flatMap (ctx.contribution a)) := by
  obtain ⟨head, ts, -, -, hts, -, rfl⟩ := read_ok_iff.mp h
  exact ⟨head.authenticator, ts, hts, rfl⟩

theorem mem_defined {entry : Option Entry} {octets : Bytes} {pair : Name × Value}
    (h : pair ∈ defined entry octets) : ∃ e, entry = some e ∧ pair.1 = e.name := by
  unfold defined at h
  cases entry with
  | none => cases h
  | some e =>
    simp only at h
    split at h
    · rw [List.mem_singleton.mp h]
      exact ⟨e, rfl, rfl⟩
    · cases h

/-- A vendor's attribute has another name. -/
theorem Own.valuesOf_vendorValues {d : Dictionary} (own : Own d name e) (octets : Bytes) :
    Attributes.valuesOf name (vendorValues d octets) = [] := by
  refine Attributes.valuesOf_of_ne fun pair hpair => ?_
  unfold vendorValues at hpair
  split at hpair
  · cases hpair
  · obtain ⟨t, -, ht⟩ := List.mem_flatMap.mp hpair
    obtain ⟨e', he', hname⟩ := mem_defined ht
    obtain ⟨hmem, hvendor⟩ := Dictionary.of_byVendor? he'
    rw [hname]
    refine Bool.eq_false_iff.mpr fun hsame => ?_
    rw [((own.named e' hmem).mp hsame).1] at hvendor
    cases hvendor

/-- An attribute with another code has another name. -/
theorem Own.valuesOf_defined {d : Dictionary} (own : Own d name e) {other : UInt8}
    (ne : other ≠ e.code) (octets : Bytes) :
    Attributes.valuesOf name (defined (d.byCode? other) octets) = [] := by
  refine Attributes.valuesOf_of_ne fun pair hpair => ?_
  obtain ⟨e', he', hname⟩ := mem_defined hpair
  obtain ⟨hmem, -, hcode⟩ := Dictionary.of_byCode? he'
  rw [hname]
  refine Bool.eq_false_iff.mpr fun hsame => ne ?_
  rw [← hcode]
  exact ((own.named e' hmem).mp hsame).2

/-- The values that an attribute of the definition has: one, or none where its octets do not fit. -/
def heardAs (e : Entry) (octets : Bytes) : List Value := (defined (some e) octets).map (·.2)

/-- **Only an attribute with the code contributes to the name**, and its octets by their kind. -/
theorem Own.valuesOf_contribution (own : Own ctx.dictionary name e) (a : Block) (t : Tlv) :
    Attributes.valuesOf name (ctx.contribution a t) = (octetsOf e.code [t]).flatMap (heardAs e) := by
  unfold contribution
  by_cases hvendor : t.code = Attribute.vendorSpecific
  · rw [if_pos hvendor, own.valuesOf_vendorValues,
      octetsOf_of_ne (by rw [hvendor]; exact own.notVendor.symm)]
    rfl
  · rw [if_neg hvendor]
    by_cases hpassword : t.code = Attribute.userPassword
    · rw [if_pos hpassword, octetsOf_of_ne (by rw [hpassword]; exact own.notPassword.symm)]
      split
      · refine Attributes.valuesOf_of_ne fun pair hpair => ?_
        rw [List.mem_singleton.mp hpair, hpassword]
        exact own.otherPassword
      · rfl
    · rw [if_neg hpassword]
      by_cases hcode : t.code = e.code
      · obtain ⟨hmem, hentry⟩ := Dictionary.of_byCode? own.found
        have hsame : ∀ pair ∈ defined (some e) t.value, Name.same pair.1 name = true := by
          intro pair hpair
          obtain ⟨e', he', hname⟩ := mem_defined hpair
          rw [hname, ← Option.some.inj he']
          exact (own.named e hmem).mpr hentry
        rw [hcode, own.found, Attributes.valuesOf_of_same hsame]
        unfold octetsOf
        simp [hcode, heardAs]
      · rw [own.valuesOf_defined hcode, octetsOf_of_ne hcode]
        rfl

theorem Own.valuesOf_contributions (own : Own ctx.dictionary name e) (a : Block) (ts : List Tlv) :
    Attributes.valuesOf name (ts.flatMap (ctx.contribution a)) =
      (octetsOf e.code ts).flatMap (heardAs e) := by
  induction ts with
  | nil => rfl
  | cons t ts ih =>
    rw [List.flatMap_cons, Attributes.valuesOf_append, ih, own.valuesOf_contribution,
      ← List.flatMap_append, ← octetsOf_append]
    rfl

/-- **The values of the name in a packet are the attributes of the code on the wire.** -/
theorem Own.getAll_read (own : Own ctx.dictionary name e)
    (h : ctx.read requestAuthenticator bs = .ok q) :
    ∃ ts, Tlv.readAll headSize (bs.drop headSize) = .ok ts ∧
      q.attributes.getAll name = (octetsOf e.code ts).flatMap (heardAs e) := by
  obtain ⟨a, ts, hts, hattributes⟩ := attributes_of_read h
  refine ⟨ts, hts, ?_⟩
  rw [hattributes, Attributes.getAll_ofList, own.valuesOf_contributions]

/-- Where they are octets, they are the octets as they are. -/
theorem Raw.getAll_read (raw : Raw ctx.dictionary name code)
    (h : ctx.read requestAuthenticator bs = .ok q) :
    ∃ ts, Tlv.readAll headSize (bs.drop headSize) = .ok ts ∧
      q.attributes.getAll name = (octetsOf code ts).map Value.octets := by
  obtain ⟨e, own, rfl, hkind⟩ := raw.own
  obtain ⟨ts, hts, hvalues⟩ := own.getAll_read h
  have hoctets : heardAs e = fun octets => [Value.octets octets] := by
    funext octets
    unfold heardAs defined
    simp only [hkind, Value.decode]
    rfl
  exact ⟨ts, hts, by rw [hvalues, hoctets, List.map_eq_flatMap]⟩

/-- **The values of the name are delivered**: who reads what was written has them as octets. -/
theorem Raw.getAll_delivered {w : WritingContext} {p : Packet} {ts us : List Tlv}
    (raw : Raw ctx.dictionary name code) (same : w.dictionary = ctx.dictionary)
    (unsigned : code ≠ Attribute.messageAuthenticator) (written : Written w p bs ts us)
    (h : ctx.read requestAuthenticator bs = .ok q) :
    q.attributes.getAll name = (p.attributes.getAll name).map (Value.octets ∘ Value.encode) := by
  obtain ⟨us', hus, hvalues⟩ := raw.getAll_read h
  obtain rfl := Except.ok.inj (written.readAll.symm.trans hus)
  rw [← same] at raw
  rw [hvalues, raw.octetsOf_write unsigned written, List.map_map]

/-- And so is their number, where they are signed. -/
theorem Raw.length_getAll_delivered {w : WritingContext} {p : Packet} {ts us : List Tlv}
    (raw : Raw ctx.dictionary name code) (same : w.dictionary = ctx.dictionary)
    (written : Written w p bs ts us) (h : ctx.read requestAuthenticator bs = .ok q) :
    (q.attributes.getAll name).length = (p.attributes.getAll name).length := by
  obtain ⟨us', hus, hvalues⟩ := raw.getAll_read h
  obtain rfl := Except.ok.inj (written.readAll.symm.trans hus)
  rw [← same] at raw
  rw [hvalues, List.length_map, raw.length_octetsOf_write written]

/-- **The names of a packet that was read** are the dictionary's, or that of a password. -/
theorem name_of_read (h : ctx.read requestAuthenticator bs = .ok q) {pair : Name × Value}
    (mem : pair ∈ q.attributes.toList) :
    (∃ e ∈ ctx.dictionary.entries, pair.1 = e.name) ∨
      pair.1 = nameOf ctx.dictionary Attribute.userPassword := by
  obtain ⟨a, ts, -, hattributes⟩ := attributes_of_read h
  rw [hattributes] at mem
  obtain hnone | ⟨pair', hpair', hname⟩ :=
    Attributes.mem_names_addAll (Attributes.mem_names_of_mem_toList mem)
  · cases hnone
  · rw [← hname]
    obtain ⟨t, -, ht⟩ := List.mem_flatMap.mp hpair'
    unfold contribution at ht
    split at ht
    · unfold vendorValues at ht
      split at ht
      · cases ht
      · obtain ⟨t', -, ht'⟩ := List.mem_flatMap.mp ht
        obtain ⟨e, he, hentry⟩ := mem_defined ht'
        exact Or.inl ⟨e, (Dictionary.of_byVendor? he).1, hentry⟩
    · split at ht
      · rename_i hpassword
        split at ht
        · rw [List.mem_singleton.mp ht, hpassword]
          exact Or.inr rfl
        · cases ht
      · obtain ⟨e, he, hentry⟩ := mem_defined ht
        exact Or.inl ⟨e, (Dictionary.of_byCode? he).1, hentry⟩

theorem secret_of_read (h : ctx.read requestAuthenticator bs = .ok q) : q.secret = ctx.secret := by
  obtain ⟨head, ts, -, -, -, -, rfl⟩ := read_ok_iff.mp h
  rfl

theorem identifier_of_head {head : Head} (h : ReadingContext.head bs = .ok head) :
    bs[1]? = some head.identifier := by
  unfold ReadingContext.head at h
  split at h
  · simp only at h
    split at h
    · split at h
      · rw [← Except.ok.inj h]
        rfl
      · cases h
    · cases h
  · cases h

/-- The identifier of a packet is its second octet. -/
theorem identifier_of_read (h : ctx.read requestAuthenticator bs = .ok q) :
    bs[1]? = some q.identifier := by
  obtain ⟨head, ts, hhead, -, -, -, rfl⟩ := read_ok_iff.mp h
  exact identifier_of_head hhead

end Reading

end AccessGate.Radius
