/-!
# Tables

A table holds one value under each of its keys. What is inserted under a key takes the place of what
was there, so no key stands there twice; that is part of the type, and every operation shows that it
keeps it.

* `get?_insert`: an insertion changes what is found under its key, and nothing else;
* `get?_eq_some_iff`: what is found is what stands there;
* `mem_keys_insert`: an insertion adds its key and takes none out.
-/

namespace AccessGate

/-- Values under keys. -/
structure Table (κ ν : Type) where
  rows : List (κ × ν)
  /-- No key stands there twice. -/
  distinct : rows.Pairwise fun a b => a.1 ≠ b.1

namespace Table

variable {κ ν : Type}

/-- No rows. -/
def empty : Table κ ν := ⟨[], .nil⟩

/-- The keys. -/
def keys (t : Table κ ν) : List κ := t.rows.map (·.1)

/-- The values. -/
def values (t : Table κ ν) : List ν := t.rows.map (·.2)

/-- The number of keys. -/
def size (t : Table κ ν) : Nat := t.rows.length

/-- There is no key. -/
def isEmpty (t : Table κ ν) : Bool := t.rows.isEmpty

theorem nodup_keys (t : Table κ ν) : t.keys.Nodup := List.pairwise_map.mpr t.distinct

variable [DecidableEq κ]

/-- The value under the key. -/
def get? (t : Table κ ν) (key : κ) : Option ν :=
  (t.rows.find? fun row => row.1 = key).map (·.2)

/-- The value under the key, in the place of one that is there. -/
def insert (t : Table κ ν) (key : κ) (value : ν) : Table κ ν where
  rows := (key, value) :: t.rows.filter fun row => row.1 ≠ key
  distinct := by
    refine List.pairwise_cons.mpr ⟨fun row hrow heq => ?_, t.distinct.filter _⟩
    exact of_decide_eq_true (List.mem_filter.mp hrow).2 heq.symm

variable {t : Table κ ν} {key : κ} {value : ν} {row : κ × ν}

/-- **An insertion changes what is found under its key.** -/
theorem get?_insert (t : Table κ ν) (key other : κ) (value : ν) :
    (t.insert key value).get? other = if key = other then some value else t.get? other := by
  show (((key, value) :: t.rows.filter fun row => row.1 ≠ key).find? fun row => row.1 = other).map
    (·.2) = _
  by_cases hkey : key = other
  · rw [List.find?_cons_of_pos (by simpa using hkey), if_pos hkey]
    rfl
  · rw [List.find?_cons_of_neg (by simpa using hkey), if_neg hkey, List.find?_filter]
    -- a row of the other key is none of those that go
    unfold get?
    congr 2
    funext row
    by_cases hrow : row.1 = other
    · simp [hrow, Ne.symm hkey]
    · simp [hrow]

/-- **What is found is what stands there.** -/
theorem get?_eq_some_iff : t.get? key = some value ↔ (key, value) ∈ t.rows := by
  obtain ⟨rows, distinct⟩ := t
  show (rows.find? fun row => row.1 = key).map (·.2) = some value ↔ (key, value) ∈ rows
  induction rows with
  | nil => exact ⟨nofun, nofun⟩
  | cons row rest ih =>
    rw [List.pairwise_cons] at distinct
    by_cases hkey : row.1 = key
    · rw [List.find?_cons_of_pos (by simpa using hkey), List.mem_cons]
      constructor
      · intro h
        exact Or.inl (Prod.ext hkey.symm (Option.some.inj h).symm)
      · intro h
        rcases h with rfl | h
        · rfl
        · exact absurd hkey (distinct.1 _ h)
    · rw [List.find?_cons_of_neg (by simpa using hkey), ih distinct.2, List.mem_cons]
      refine ⟨Or.inr, fun h => h.resolve_left fun heq => hkey ?_⟩
      rw [← heq]

theorem mem_keys_iff : key ∈ t.keys ↔ ∃ value, t.get? key = some value := by
  unfold keys
  rw [List.mem_map]
  constructor
  · intro ⟨row, hrow, hkey⟩
    exact ⟨row.2, get?_eq_some_iff.mpr (hkey ▸ hrow)⟩
  · intro ⟨value, hvalue⟩
    exact ⟨(key, value), get?_eq_some_iff.mp hvalue, rfl⟩

theorem mem_values_iff : value ∈ t.values ↔ ∃ key, t.get? key = some value := by
  unfold values
  rw [List.mem_map]
  constructor
  · intro ⟨row, hrow, hvalue⟩
    exact ⟨row.1, get?_eq_some_iff.mpr (hvalue ▸ hrow)⟩
  · intro ⟨key, hkey⟩
    exact ⟨(key, value), get?_eq_some_iff.mp hkey, rfl⟩

/-- **An insertion adds its key and takes none out.** -/
theorem mem_keys_insert {other : κ} :
    other ∈ (t.insert key value).keys ↔ other = key ∨ other ∈ t.keys := by
  rw [mem_keys_iff, get?_insert]
  split
  · rename_i hkey
    exact ⟨fun _ => Or.inl hkey.symm, fun _ => ⟨value, rfl⟩⟩
  · rename_i hkey
    rw [← mem_keys_iff]
    exact ⟨Or.inr, fun h => h.resolve_left (Ne.symm hkey)⟩

end Table

end AccessGate
