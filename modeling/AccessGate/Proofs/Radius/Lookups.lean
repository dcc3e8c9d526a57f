import Mathlib.Data.Finset.Card
import Mathlib.Data.List.Induction
import AccessGate.Proofs.Lists
import AccessGate.Proofs.Radius.Groups
import AccessGate.Radius.StandardDictionary

/-!
# What look-ups find

A definition is written under its keys, and each look-up reads one table.

* `of_byCode?`, `of_byVendor?`, `of_byName?`: what is found stands under its own key, and its name
  is defined too (`exists_byName?`);
* `byCode?_insert`, `byVendor?_insert`, `byName?_insert`: what one more definition changes;
* `byCode?_insertAll`, `byVendor?_insertAll`, `byName?_insertAll`, `size_insertAll`: and so what many
  leave, one after the other: the last of each key, and every name once;
* `refinds_standard`, `byName?_standard`: no two of the standard definitions share a key, so each of
  them is found.
-/

namespace AccessGate.Radius

/-- Where a definition is looked for by what is on the wire. -/
inductive Place where
  | code (code : UInt8)
  | vendor (key : VendorKey)
  deriving DecidableEq

/-- The place of a definition: under the vendor's code, or under its own. -/
def Entry.place (e : Entry) : Place :=
  match e.vendor with
  | some key => .vendor key
  | none => .code e.code

namespace Dictionary

variable {d : Dictionary} {e e' : Entry} {name : Name} {es : List Entry}

/-! ## 1. What is found -/

theorem of_byCode? {code : UInt8} (h : d.byCode? code = some e) :
    e ∈ d.entries ∧ e.vendor = none ∧ e.code = code :=
  ⟨List.mem_append_left _ (List.mem_append_left _ (Table.mem_values_iff.mpr ⟨code, h⟩)),
    d.sound.coded code e h⟩

theorem of_byVendor? {key : VendorKey} (h : d.byVendor? key = some e) :
    e ∈ d.entries ∧ e.vendor = some key :=
  ⟨List.mem_append_left _ (List.mem_append_right _ (Table.mem_values_iff.mpr ⟨key, h⟩)),
    d.sound.vended key e h⟩

theorem of_byName? (h : d.byName? name = some e) : e ∈ d.entries ∧ Name.same e.name name = true :=
  ⟨List.mem_append_right _ (Table.mem_values_iff.mpr ⟨name.toLower, h⟩),
    Name.same_iff.mpr (d.sound.named _ e h)⟩

/-- A look-up by name goes by any spelling. -/
theorem byName?_congr {a b : Name} (h : Name.same a b = true) : d.byName? a = d.byName? b := by
  unfold byName?
  rw [Name.same_iff.mp h]

theorem byName?_of_mem_names (h : e ∈ d.names.values) : d.byName? e.name = some e := by
  obtain ⟨key, he⟩ := Table.mem_values_iff.mp h
  unfold byName?
  rw [d.sound.named key e he, he]

theorem mem_entries_iff : e ∈ d.entries ↔ (∃ code, d.byCode? code = some e) ∨
    (∃ key, d.byVendor? key = some e) ∨ ∃ name, d.byName? name = some e := by
  constructor
  · intro h
    rcases List.mem_append.mp h with h | h
    · rcases List.mem_append.mp h with h | h
      · exact Or.inl (Table.mem_values_iff.mp h)
      · exact Or.inr (Or.inl (Table.mem_values_iff.mp h))
    · exact Or.inr (Or.inr ⟨e.name, byName?_of_mem_names h⟩)
  · intro h
    rcases h with ⟨code, h⟩ | ⟨key, h⟩ | ⟨name, h⟩
    · exact (of_byCode? h).1
    · exact (of_byVendor? h).1
    · exact (of_byName? h).1

/-- **Under the name of a definition some definition is found.** -/
theorem exists_byName? (he : e ∈ d.entries) : ∃ e', d.byName? e.name = some e' := by
  rcases List.mem_append.mp he with he | he
  · exact Table.mem_keys_iff.mp (d.sound.listed e he)
  · exact ⟨e, byName?_of_mem_names he⟩

/-! ## 2. One more definition -/

theorem byCode?_insert (d : Dictionary) (e : Entry) (code : UInt8) : (d.insert e).byCode? code =
    if e.vendor = none ∧ e.code = code then some e else d.byCode? code :=
  Tables.codes_insert d.toTables e code

theorem byVendor?_insert (d : Dictionary) (e : Entry) (key : VendorKey) :
    (d.insert e).byVendor? key = if e.vendor = some key then some e else d.byVendor? key :=
  Tables.vendors_insert d.toTables e key

theorem names_insert (d : Dictionary) (e : Entry) :
    (d.insert e).names = d.names.insert e.name.toLower e := Tables.names_insert d.toTables e

theorem byName?_insert (d : Dictionary) (e : Entry) (name : Name) :
    (d.insert e).byName? name = if Name.same e.name name then some e else d.byName? name := by
  unfold byName?
  rw [names_insert, Table.get?_insert]
  simp only [Name.same_iff]

/-! ## 3. Definitions one after the other -/

/-- The definitions added in turn. -/
def insertAll (d : Dictionary) (es : List Entry) : Dictionary := es.foldl insert d

theorem insertAll_concat (d : Dictionary) (es : List Entry) (e : Entry) :
    d.insertAll (es ++ [e]) = (d.insertAll es).insert e := List.foldl_concat ..

theorem insertAll_append (d : Dictionary) (es es' : List Entry) :
    d.insertAll (es ++ es') = (d.insertAll es).insertAll es' := List.foldl_append

/-- **The last definition wins** of those that take over a look-up, the one before them first. -/
theorem isLast_insertAll (look : Dictionary → Option Entry) {P : Entry → Prop} [DecidablePred P]
    (step : ∀ d e, look (d.insert e) = if P e then some e else look d)
    (own : ∀ e, look d = some e → P e) :
    look (d.insertAll es) = some e ↔ IsLast P ((look d).toList ++ es) e := by
  -- from the end: either the newest takes over the look-up, or it stays as it was
  induction es using List.reverseRecOn with
  | nil =>
    rw [List.append_nil]
    exact (isLast_toList_iff own).symm
  | append_singleton es new ih =>
    rw [insertAll_concat, step, ← List.append_assoc, isLast_concat_iff]
    split
    · rename_i hnew
      rw [Option.some.injEq]
      exact ⟨fun heq => Or.inl ⟨hnew, heq⟩, fun h => h.elim And.right fun h => absurd hnew h.1⟩
    · rename_i hnew
      rw [ih]
      exact ⟨fun h => Or.inr ⟨hnew, h⟩, fun h => h.elim (fun h => absurd h.1 hnew) And.right⟩

theorem byCode?_insertAll (d : Dictionary) (es : List Entry) (code : UInt8) (e : Entry) :
    (d.insertAll es).byCode? code = some e ↔
      IsLast (fun e => e.vendor = none ∧ e.code = code) ((d.byCode? code).toList ++ es) e :=
  isLast_insertAll (fun d => d.byCode? code) (fun d e => byCode?_insert d e code)
    fun _ h => (of_byCode? h).2

theorem byVendor?_insertAll (d : Dictionary) (es : List Entry) (key : VendorKey) (e : Entry) :
    (d.insertAll es).byVendor? key = some e ↔
      IsLast (fun e => e.vendor = some key) ((d.byVendor? key).toList ++ es) e :=
  isLast_insertAll (fun d => d.byVendor? key) (fun d e => byVendor?_insert d e key)
    fun _ h => (of_byVendor? h).2

theorem byName?_insertAll (d : Dictionary) (es : List Entry) (name : Name) (e : Entry) :
    (d.insertAll es).byName? name = some e ↔
      IsLast (fun e => Name.same e.name name = true) ((d.byName? name).toList ++ es) e :=
  isLast_insertAll (fun d => d.byName? name) (fun d e => byName?_insert d e name)
    fun _ h => (of_byName? h).2

theorem mem_names_insertAll (d : Dictionary) (es : List Entry) (name : Name) :
    name ∈ (d.insertAll es).names.keys ↔
      name ∈ d.names.keys ++ es.map fun e => e.name.toLower := by
  induction es using List.reverseRecOn with
  | nil =>
    rw [List.map_nil, List.append_nil]
    rfl
  | append_singleton es e ih =>
    rw [insertAll_concat, names_insert, Table.mem_keys_insert, ih, List.map_append,
      ← List.append_assoc, List.mem_append (s := d.names.keys ++ _), List.map_singleton,
      List.mem_singleton]
    exact or_comm

/-- **Every name counts once**, in whatever spelling it is defined. -/
theorem size_insertAll (d : Dictionary) (es : List Entry) : (d.insertAll es).size =
    (d.names.keys ++ es.map fun e => e.name.toLower).toFinset.card := by
  have hkeys : (d.names.keys ++ es.map fun e => e.name.toLower).toFinset =
      (d.insertAll es).names.keys.toFinset := by
    ext name
    rw [List.mem_toFinset, List.mem_toFinset, mem_names_insertAll]
  rw [hkeys, List.toFinset_card_of_nodup (Table.nodup_keys _)]
  exact (List.length_map _).symm

/-! ## 4. Definitions that are found again -/

/-- The definition is found again by what its values are written under. -/
def Refinds (d : Dictionary) (e : Entry) : Prop :=
  match e.vendor with
  | some key => d.byVendor? key = some e
  | none => d.byCode? e.code = some e

theorem Refinds.mem (h : d.Refinds e) : e ∈ d.entries := by
  unfold Refinds at h
  cases hvendor : e.vendor with
  | some key =>
    rw [hvendor] at h
    exact (of_byVendor? h).1
  | none =>
    rw [hvendor] at h
    exact (of_byCode? h).1

/-- **Where no two definitions share a place, each is found again.** -/
theorem refinds_of_distinct (distinct : es.Pairwise fun a b => a.place ≠ b.place) (he : e ∈ es) :
    (empty.insertAll es).Refinds e := by
  unfold Refinds
  cases hvendor : e.vendor with
  | some key =>
    refine (byVendor?_insertAll empty es key e).mpr (isLast_of_pairwise he hvendor ?_)
    refine distinct.imp fun hne hboth => hne ?_
    unfold Entry.place
    rw [hboth.1, hboth.2]
  | none =>
    refine (byCode?_insertAll empty es e.code e).mpr (isLast_of_pairwise he ⟨hvendor, rfl⟩ ?_)
    refine distinct.imp fun hne hboth => hne ?_
    unfold Entry.place
    rw [hboth.1.1, hboth.2.1, hboth.1.2, hboth.2.2]

/-- What is found of definitions was one of them. -/
theorem mem_of_mem_entries (h : e ∈ (empty.insertAll es).entries) : e ∈ es := by
  rcases mem_entries_iff.mp h with ⟨code, h⟩ | ⟨key, h⟩ | ⟨name, h⟩
  · exact ((byCode?_insertAll empty es code e).mp h).mem
  · exact ((byVendor?_insertAll empty es key e).mp h).mem
  · exact ((byName?_insertAll empty es name e).mp h).mem

/-! ## 5. The standard definitions -/

theorem places_distinct : standardEntries.Pairwise fun a b => a.place ≠ b.place := by
  have hplaces : (standardEntries.map Entry.place).Nodup := by decide +kernel
  exact List.pairwise_map.mp hplaces

/-- **No two standard definitions share a name.** -/
theorem names_distinct : standardEntries.Pairwise fun a b => Name.same a.name b.name = false := by
  have hletters : (standardEntries.map fun e => e.name.toList.map Char.toLower).Nodup := by
    decide +kernel
  refine (List.pairwise_map.mp hletters).imp fun hne => Bool.eq_false_iff.mpr fun hsame => hne ?_
  exact Name.same_iff_letters.mp hsame

/-- **Each of them is found**, and nothing else is. -/
theorem mem_standard_iff : e ∈ standard.entries ↔ e ∈ standardEntries :=
  ⟨mem_of_mem_entries, fun he => (refinds_of_distinct places_distinct he).mem⟩

/-- **The standard dictionary finds each of its definitions again.** -/
theorem refinds_standard {e : Entry} (he : e ∈ standard.entries) : standard.Refinds e :=
  refinds_of_distinct places_distinct (mem_standard_iff.mp he)

theorem byCode?_standard {e : Entry} (he : e ∈ standard.entries) (plain : e.vendor = none) :
    standard.byCode? e.code = some e := by
  have hfound := refinds_standard he
  unfold Refinds at hfound
  rwa [plain] at hfound

theorem byName?_of_same (he : e ∈ standard.entries) (same : Name.same e.name name = true) :
    standard.byName? name = some e := by
  refine (byName?_insertAll empty standardEntries name e).mpr
    (isLast_of_pairwise (mem_standard_iff.mp he) same (names_distinct.imp ?_))
  intro a b hne hboth
  rw [Name.same_iff, Name.same_iff] at hboth
  refine Bool.eq_false_iff.mp hne ?_
  rw [Name.same_iff, hboth.1, hboth.2]

/-- **The name of a definition leads to it.** -/
theorem byName?_standard (he : e ∈ standard.entries) : standard.byName? e.name = some e :=
  byName?_of_same he (Name.same_iff.mpr rfl)

/-- Definitions of one name are one definition. -/
theorem eq_of_same (he : e ∈ standard.entries) (he' : e' ∈ standard.entries)
    (same : Name.same e.name e'.name = true) : e = e' :=
  Option.some.inj ((byName?_of_same he same).symm.trans (byName?_standard he'))

end Dictionary

end AccessGate.Radius
