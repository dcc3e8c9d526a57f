import AccessGate.Store.TimedMap

/-!
# Which entries can stand in a timed map

An operation on a timed map takes entries out, and only an insertion puts one in. This file says so
entry by entry, for statements about everything that a store has ever held:

* `mem_of_mem_purge`, `mem_of_mem_makeRoom`, `mem_erase`: nothing new stands there;
* `mem_insert`: after an insertion the key's only entry is the new one;
* `live?_insert`, `contains_fst`: what was inserted is found, and a look-up answers by the live entry
  of its key.
-/

namespace AccessGate.TimedMap

variable {κ ν : Type}

/-! ## 1. Making room -/

theorem mem_of_mem_purge {m : TimedMap κ ν} {now : Time} {e : TimedEntry κ ν}
    (h : e ∈ (m.purge now).entries) : e ∈ m.entries := (List.mem_filter.mp h).1

theorem mem_of_mem_sweep {m : TimedMap κ ν} {now : Time} {e : TimedEntry κ ν}
    (h : e ∈ (m.sweep now).entries) : e ∈ m.entries := by
  simp only [sweep] at h
  split at h
  · exact mem_of_mem_purge h
  · exact h

theorem mem_of_mem_makeRoom {m : TimedMap κ ν} {now : Time} {e : TimedEntry κ ν}
    (h : e ∈ (m.makeRoom now).entries) : e ∈ m.entries := by
  simp only [makeRoom] at h
  split at h
  · exact mem_of_mem_sweep h
  · split at h
    · exact mem_of_mem_sweep (List.mem_of_mem_tail h)
    · exact mem_of_mem_sweep (mem_of_mem_purge h)

/-! ## 2. Entries -/

variable [DecidableEq κ]

theorem mem_erase {m : TimedMap κ ν} {key : κ} {e : TimedEntry κ ν} :
    e ∈ (m.erase key).entries ↔ e ∈ m.entries ∧ e.key ≠ key := by simp [erase]

/-- After an insertion the entry of the key is the new one, and the others were there before. -/
theorem mem_insert {m : TimedMap κ ν} {now : Time} {key : κ} {value : ν} {e : TimedEntry κ ν}
    (h : e ∈ (m.insert now key value).entries) :
    e = ⟨key, value, now⟩ ∨ e ∈ m.entries ∧ e.key ≠ key := by
  rcases List.mem_append.mp h with h | h
  · obtain ⟨hmem, hkey⟩ := mem_erase.mp h
    exact Or.inr ⟨mem_of_mem_makeRoom hmem, hkey⟩
  · exact Or.inl (List.mem_singleton.mp h)

theorem find?_insert (m : TimedMap κ ν) (now : Time) (key : κ) (value : ν) :
    (m.insert now key value).find? key = some ⟨key, value, now⟩ := by
  have hnone : (((m.makeRoom now).erase key).entries.find? fun e => e.key = key) = none := by
    refine List.find?_eq_none.mpr fun e he => ?_
    simpa using (mem_erase.mp he).2
  unfold insert put find?
  rw [List.find?_append, hnone]
  simp

/-- What was just inserted is found. -/
theorem live?_insert (m : TimedMap κ ν) (now : Time) (key : κ) (value : ν) :
    (m.insert now key value).live? now key = some ⟨key, value, now⟩ := by
  simp [live?, find?_insert, isLive]

theorem mem_of_mem_get? {m : TimedMap κ ν} {now : Time} {key : κ} {e : TimedEntry κ ν}
    (h : e ∈ (m.get? now key).2.entries) : e ∈ m.entries := by
  unfold get? at h
  split at h
  · exact h
  · exact (mem_erase.mp h).1

theorem get?_of_live {m : TimedMap κ ν} {now : Time} {key : κ} {e : TimedEntry κ ν}
    (h : m.live? now key = some e) : m.get? now key = (some e.value, m) := by
  unfold get?
  rw [h]

theorem get?_of_none {m : TimedMap κ ν} {now : Time} {key : κ} (h : m.live? now key = none) :
    m.get? now key = (none, m.erase key) := by
  unfold get?
  rw [h]

theorem get?_fst (m : TimedMap κ ν) (now : Time) (key : κ) :
    (m.get? now key).1 = (m.live? now key).map (·.value) := by
  unfold get?
  split <;> simp_all

/-- A look-up answers by the live entry of its key. -/
theorem contains_fst (m : TimedMap κ ν) (now : Time) (key : κ) :
    (m.contains now key).1 = (m.live? now key).isSome := by
  simp [contains, get?_fst]

/-- The live entry of a key stands in the map under that key. -/
theorem mem_of_live? {m : TimedMap κ ν} {now : Time} {key : κ} {e : TimedEntry κ ν}
    (h : m.live? now key = some e) : e ∈ m.entries ∧ e.key = key := by
  have hfind : m.find? key = some e := (Option.filter_eq_some_iff.mp h).1
  exact ⟨List.mem_of_find?_eq_some hfind, by simpa using List.find?_some hfind⟩

end AccessGate.TimedMap
