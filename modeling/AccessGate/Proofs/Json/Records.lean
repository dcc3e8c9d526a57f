import AccessGate.Json.Record
import AccessGate.Proofs.Json.Reading

/-!
# Records are read as they are written

Writer and reader of a record share the list of its fields, so each field is found under its own name
and no other, whatever the values are:

* `slots?_fieldsOf`, `record?_fieldsOf`: what is left to show of a record is that its values are read
  as they are written;
* `list?_map`, `nullable?_section` and the scalars: so are values of the common forms;
* `plain_fieldsOf`: and their texts say all of them.
-/

namespace AccessGate.Json

/-! ## 1. The fields of a record -/

theorem mapM_of_forall {α β : Type} {f : α → Option β} {g : α → β} {l : List α}
    (h : ∀ a ∈ l, f a = some (g a)) : l.mapM f = some (l.map g) := by
  induction l with
  | nil => rfl
  | cons a rest ih =>
    rw [List.mapM_cons, h a List.mem_cons_self, ih fun a ha => h a (List.mem_cons_of_mem _ ha)]
    rfl

/-- Of pairs with names of their own one alone has a given name. -/
theorem filterMap_of_nodup (accepts : String → Bool) {pairs : List (String × Json)}
    (distinct : (pairs.map Prod.fst).Nodup) {pair : String × Json} (mem : pair ∈ pairs)
    (own : ∀ p ∈ pairs, accepts p.1 = true ↔ p.1 = pair.1) :
    pairs.filterMap (fun p => if accepts p.1 then some p.2 else none) = [pair.2] := by
  induction pairs with
  | nil => cases mem
  | cons p rest ih =>
    rw [List.map_cons, List.nodup_cons] at distinct
    have hown := own p List.mem_cons_self
    have hrest : ∀ q ∈ rest, accepts q.1 = true ↔ q.1 = pair.1 :=
      fun q hq => own q (List.mem_cons_of_mem _ hq)
    rcases List.mem_cons.mp mem with rfl | hmem
    · -- the names behind differ from this one
      have hnone : rest.filterMap (fun p => if accepts p.1 then some p.2 else none) = [] := by
        refine List.filterMap_eq_nil_iff.mpr fun q hq => if_neg fun haccepts => distinct.1 ?_
        rw [← (hrest q hq).mp haccepts]
        exact List.mem_map_of_mem hq
      rw [List.filterMap_cons, if_pos (hown.mpr rfl), hnone]
    · have hother : ¬ accepts p.1 = true := by
        intro haccepts
        exact distinct.1 (hown.mp haccepts ▸ List.mem_map_of_mem hmem)
      rw [List.filterMap_cons, if_neg hother]
      exact ih distinct.2 hmem hrest

/-- A field is found under its own name where none of its spellings names another. -/
theorem slotOf?_of_nodup {spellings : List String} {pairs : List (String × Json)}
    (distinct : (pairs.map Prod.fst).Nodup) {pair : String × Json} (mem : pair ∈ pairs)
    (own : ∀ p ∈ pairs, p.1 ∈ spellings ↔ p.1 = pair.1) :
    slotOf? (pairs.map fun p => (some p.1, p.2)) spellings = some (.given pair.2) := by
  have hvalue : valuesOf spellings (pairs.map fun p => (some p.1, p.2)) = [pair.2] := by
    unfold valuesOf
    rw [List.filterMap_map]
    refine filterMap_of_nodup (fun name => spellings.contains name) distinct mem fun p hp => ?_
    rw [List.contains_iff_mem]
    exact own p hp
  unfold slotOf?
  rw [hvalue]

/-- **Every field is found under its own name**, where no spelling of a field is the name of
another. -/
theorem slots?_fieldsOf {spellings : String → List String} {names : List String}
    {values : List Json} (distinct : names.Nodup) (same : names.length = values.length)
    (own : ∀ a ∈ names, ∀ b ∈ names, b ∈ spellings a ↔ b = a) :
    slots? (names.map spellings) (fieldsOf names values) = some (values.map .given) := by
  have hnames : (names.zip values).map Prod.fst = names := List.map_fst_zip (Nat.le_of_eq same)
  have hvalues : (names.zip values).map Prod.snd = values :=
    List.map_snd_zip (Nat.le_of_eq same.symm)
  obtain ⟨fields, hfields⟩ : ∃ fields, fields =
      (names.zip values).map fun p => (some p.1, p.2) := ⟨_, rfl⟩
  have hrecord : fieldsOf names values = .object fields := by
    rw [hfields]
    rfl
  have hslot : ∀ p ∈ names.zip values, slotOf? fields (spellings p.1) = some (.given p.2) := by
    intro p hp
    rw [hfields]
    exact slotOf?_of_nodup (hnames.symm ▸ distinct) hp fun q hq =>
      own p.1 (List.of_mem_zip hp).1 q.1 (List.of_mem_zip hq).1
  have hslots : (names.map spellings).mapM (slotOf? fields) = some (values.map .given) := by
    calc (names.map spellings).mapM (slotOf? fields)
        = ((names.zip values).map fun p => spellings p.1).mapM (slotOf? fields) := by
          rw [← hnames, List.map_map, hnames]
          rfl
      _ = some ((names.zip values).map fun p => .given p.2) := by
          rw [List.mapM_map]
          exact mapM_of_forall hslot
      _ = some (values.map .given) := by
          rw [← hvalues, List.map_map, hvalues]
          rfl
  have hnamed : fields.all (fun f => f.1.isSome) = true := by
    rw [hfields]
    simp
  rw [hrecord]
  show (if fields.all (fun f => f.1.isSome) then (names.map spellings).mapM (slotOf? fields)
    else none) = _
  rw [if_pos hnamed, hslots]

/-- **A record is read field by field**, in the order in which it is written. -/
theorem record?_fieldsOf {α : Type} {spellings : String → List String} {names : List String}
    {values : List Json} {fields : Fields α} {a : α} (distinct : names.Nodup)
    (same : names.length = values.length)
    (own : ∀ a ∈ names, ∀ b ∈ names, b ∈ spellings a ↔ b = a)
    (read : fields.run (values.map .given) = some (a, [])) :
    record? (names.map spellings) fields (fieldsOf names values) = some a := by
  unfold record?
  rw [slots?_fieldsOf distinct same own]
  show (fields.run (values.map .given)).map (·.1) = _
  rw [read]
  rfl

/-- The same where every field has one spelling. -/
theorem record?_spelled {α : Type} {names : List String} {values : List Json} {fields : Fields α}
    {a : α} (distinct : names.Nodup) (same : names.length = values.length)
    (read : fields.run (values.map .given) = some (a, [])) :
    record? (spelled names) fields (fieldsOf names values) = some a :=
  record?_fieldsOf distinct same (fun _ _ _ _ => List.mem_singleton) read

/-- A field that has to be given is read before the fields behind it. -/
theorem run_required {α β : Type} (read : Json → Option α) (next : α → Fields β) (v : Json)
    (rest : List Slot) :
    (required read >>= next).run (.given v :: rest) = (read v).bind fun a => (next a).run rest := by
  show ((read v).bind _).bind _ = _
  cases read v <;> rfl

/-- So is a field with a default, which is not called for. -/
theorem run_defaulted {α β : Type} (default : α) (read : Json → Option α) (next : α → Fields β)
    (v : Json) (rest : List Slot) :
    (defaulted default read >>= next).run (.given v :: rest) =
      (read v).bind fun a => (next a).run rest := by
  show ((read v).bind _).bind _ = _
  cases read v <;> rfl

/-! ## 2. Values -/

@[simp] theorem text?_ofString (s : String) : text? (ofString s) = some s := rfl

@[simp] theorem bool?_bool (b : Bool) : bool? (.bool b) = some b := rfl

@[simp] theorem choice?_ofString {α : Type} (read : String → Option α) (s : String) :
    choice? read (ofString s) = read s := rfl

@[simp] theorem word?_ofWord (n : UInt64) : word? (ofWord n) = some n := by
  have hle : n.toNat ≤ Numeral.max64 := Nat.le_of_lt_succ n.toNat_lt
  unfold ofWord word?
  simp [Numeral.parseChars_toDigits hle]

@[simp] theorem nullable?_ofOption (s : Option String) :
    nullable? text? (ofOption s) = some s := by
  cases s <;> rfl

/-- A list of values is read item by item. -/
theorem list?_map {α : Type} {read : Json → Option α} {write : α → Json}
    (inverse : ∀ a, read (write a) = some a) (l : List α) :
    list? read (.array (l.map write)) = some l := by
  have hitems : l.mapM (read ∘ write) = some (l.map id) := mapM_of_forall fun a _ => inverse a
  show (l.map write).mapM read = _
  rw [List.mapM_map, hitems, List.map_id]

@[simp] theorem list?_ofStrings (ss : List String) : list? text? (ofStrings ss) = some ss :=
  list?_map text?_ofString ss

/-- A section that may be missing is read as it is written, as no section is written as null. -/
theorem nullable?_section {α : Type} {read : Json → Option α} {write : α → Json}
    (inverse : ∀ a, read (write a) = some a) (some_ : ∀ a, write a ≠ .null) (s : Option α) :
    nullable? read ((s.map write).getD .null) = some s := by
  cases s with
  | none => rfl
  | some a =>
    have hread : nullable? read (write a) = (read (write a)).map some := by
      unfold nullable?
      split
      · rename_i hnull
        exact absurd hnull (some_ a)
      · rfl
    rw [Option.map_some, Option.getD_some, hread, inverse]
    rfl

/-! ## 3. What is written in plain -/

@[simp] theorem plain_ofString (s : String) : Plain (ofString s) := .text s

@[simp] theorem plain_bool (b : Bool) : Plain (.bool b) := .bool b

@[simp] theorem plain_ofWord (n : UInt64) : Plain (ofWord n) := .number n.toNat

@[simp] theorem plain_ofOption (s : Option String) : Plain (ofOption s) := by
  cases s with
  | none => exact .null
  | some s => exact .text s

theorem plain_map {α : Type} {write : α → Json} (plain : ∀ a, Plain (write a)) (l : List α) :
    Plain (.array (l.map write)) := by
  refine .array _ fun v hv => ?_
  obtain ⟨a, -, rfl⟩ := List.mem_map.mp hv
  exact plain a

@[simp] theorem plain_ofStrings (ss : List String) : Plain (ofStrings ss) :=
  plain_map plain_ofString ss

theorem plain_section {α : Type} {write : α → Json} (plain : ∀ a, Plain (write a))
    (s : Option α) : Plain ((s.map write).getD .null) := by
  cases s with
  | none => exact .null
  | some a => exact plain a

theorem plain_fieldsOf (names : List String) {values : List Json}
    (plain : ∀ v ∈ values, Plain v) : Plain (fieldsOf names values) := by
  refine .object _ (fun f hf => ?_) fun f hf => ?_
  · obtain ⟨p, -, rfl⟩ := List.mem_map.mp hf
    exact Option.some_ne_none _
  · obtain ⟨p, hp, rfl⟩ := List.mem_map.mp hf
    exact plain p.2 (List.of_mem_zip hp).2

end AccessGate.Json
