import AccessGate.Proofs.Store.Live

/-!
# A timed map that is full

A timed map holds no more entries than it may, and the entries stand in the order of their
insertion, so the first is the oldest (`Keeping`). This file says what follows for a map that has to
make room:

* `Keeping.size_makeRoom`: there is room for one more afterwards;
* `Keeping.evicted`: a live entry is only lost for room where the map is full of live entries, it is
  the oldest of them, and it alone is lost;
* `Keeping.thinned`, `Keeping.insert`, `Keeping.update`: every change of the map keeps it so.
-/

namespace AccessGate.TimedMap

variable {κ ν : Type} {m m' : TimedMap κ ν} {before now : Time} {e : TimedEntry κ ν}

/-! ## 1. Entries in order -/

/-- The entries stand in the order of their insertion, none of a key twice, none later than the
instant, and no more than the map may hold. -/
structure Keeping (now : Time) (m : TimedMap κ ν) : Prop where
  distinct : m.Distinct
  inOrder : m.entries.Pairwise fun a b => a.since ≤ b.since
  past : ∀ e ∈ m.entries, e.since ≤ now
  bounded : m.size ≤ m.maxEntries
  roomForOne : 0 < m.maxEntries

theorem keeping_make (ttl : Time) (maxEntries : Nat) (created now : Time) :
    Keeping now (make ttl maxEntries created : TimedMap κ ν) where
  distinct := .nil
  inOrder := .nil
  past := fun _ he => nomatch he
  bounded := Nat.zero_le _
  roomForOne := Nat.le_max_right maxEntries 1

theorem Keeping.thinned (h : Keeping now m) (thin : Thinned m m') : Keeping now m' where
  distinct := thin.distinct h.distinct
  inOrder := h.inOrder.sublist thin.entries
  past := fun e he => h.past e (thin.entries.subset he)
  bounded := by
    rw [thin.maxEntries]
    exact Nat.le_trans thin.entries.length_le h.bounded
  roomForOne := by
    rw [thin.maxEntries]
    exact h.roomForOne

theorem Keeping.later (h : Keeping before m) (order : before ≤ now) : Keeping now m :=
  { h with past := fun e he => Nat.le_trans (h.past e he) order }

/-- The first entry is the oldest. -/
theorem Keeping.oldest (h : Keeping now m) {rest : List (TimedEntry κ ν)}
    (first : m.entries = e :: rest) : ∀ a ∈ m.entries, e.since ≤ a.since := by
  intro a ha
  have horder := h.inOrder
  rw [first] at ha horder
  rcases List.mem_cons.mp ha with rfl | ha
  · exact Nat.le_refl _
  · exact (List.pairwise_cons.mp horder).1 a ha

/-! ## 2. Making room -/

/-- **There is room for one more after making room.** -/
theorem Keeping.size_makeRoom (h : Keeping now m) :
    (m.makeRoom now).size < (m.makeRoom now).maxEntries := by
  have hswept := h.thinned (thinned_sweep m now)
  have hbounded := hswept.bounded
  have hroom := hswept.roomForOne
  unfold makeRoom
  simp only
  split
  · assumption
  · split
    · show (m.sweep now).entries.tail.length < (m.sweep now).maxEntries
      rw [List.length_tail]
      show (m.sweep now).size - 1 < (m.sweep now).maxEntries
      omega
    · rename_i hexpired
      unfold expired at hexpired
      show ((m.sweep now).purge now).size < (m.sweep now).maxEntries
      omega

/-- What a sweep leaves is purged of the same entries. -/
theorem purge_sweep (m : TimedMap κ ν) (now : Time) :
    ((m.sweep now).purge now).entries = (m.purge now).entries := by
  unfold sweep
  simp only
  split
  · show (m.entries.filter (isLive m.ttl now)).filter (isLive m.ttl now) = _
    rw [List.filter_filter]
    simp only [Bool.and_self]
    rfl
  · rfl

/-- **Making room costs no live entry**, unless the map is full of them: then it costs the first. -/
theorem makeRoom_cases (m : TimedMap κ ν) (now : Time) :
    (∀ e ∈ m.entries, isLive m.ttl now e = true → e ∈ (m.makeRoom now).entries) ∨
    (m.maxEntries ≤ (m.purge now).size ∧
      (m.makeRoom now).entries = (m.purge now).entries.tail) := by
  have hthin := thinned_sweep m now
  unfold makeRoom
  simp only
  split
  · exact Or.inl fun e he hlive => mem_sweep_of_live he hlive
  · split
    · rename_i full none_
      -- nothing has expired in the swept map, so it holds the live entries and no others
      have hall : (m.sweep now).size ≤ ((m.sweep now).purge now).size :=
        Nat.sub_eq_zero_iff_le.mp none_
      have hself : ((m.sweep now).purge now).entries = (m.sweep now).entries :=
        (thinned_purge (m.sweep now) now).entries.eq_of_length_le hall
      have hswept : (m.sweep now).entries = (m.purge now).entries :=
        hself.symm.trans (purge_sweep m now)
      refine Or.inr ⟨?_, congrArg List.tail hswept⟩
      unfold size
      rw [← hswept, ← hthin.maxEntries]
      exact Nat.le_of_not_lt full
    · refine Or.inl fun e he hlive => List.mem_filter.mpr ⟨mem_sweep_of_live he hlive, ?_⟩
      rw [hthin.ttl]
      exact hlive

/-- The entry is evicted for room: the map is full of live entries, it is the oldest of them, and
it alone goes. -/
structure Evicted (now : Time) (m : TimedMap κ ν) (e : TimedEntry κ ν) : Prop where
  full : (m.purge now).size = m.maxEntries
  oldest : ∀ a ∈ m.entries, isLive m.ttl now a = true → e.since ≤ a.since
  alone : ∀ a ∈ m.entries, isLive m.ttl now a = true → a ≠ e → a ∈ (m.makeRoom now).entries

/-- **A live entry that is lost for room is the oldest one of a full map.** -/
theorem Keeping.evicted (h : Keeping now m) (he : e ∈ m.entries) (live : isLive m.ttl now e = true)
    (lost : e ∉ (m.makeRoom now).entries) : Evicted now m e := by
  rcases makeRoom_cases m now with hall | ⟨hfull, htail⟩
  · exact absurd (hall e he live) lost
  · have hpurged := h.thinned (thinned_purge m now)
    have hmem {a : TimedEntry κ ν} (ha : a ∈ m.entries) (hlive : isLive m.ttl now a = true) :
        a ∈ (m.purge now).entries := List.mem_filter.mpr ⟨ha, hlive⟩
    obtain ⟨first, rest, hsplit⟩ := List.exists_cons_of_ne_nil (List.ne_nil_of_mem (hmem he live))
    rw [hsplit, List.tail_cons] at htail
    have hrest {a : TimedEntry κ ν} (ha : a ∈ m.entries) (hlive : isLive m.ttl now a = true) :
        a = first ∨ a ∈ rest := by
      have := hmem ha hlive
      rwa [hsplit, List.mem_cons] at this
    obtain rfl : e = first := by
      rcases hrest he live with heq | hin
      · exact heq
      · rw [htail] at lost
        exact absurd hin lost
    refine ⟨Nat.le_antisymm hpurged.bounded hfull, ?_, ?_⟩
    · exact fun a ha hlive => hpurged.oldest hsplit a (hmem ha hlive)
    · intro a ha hlive hne
      rw [htail]
      exact (hrest ha hlive).resolve_left hne

/-! ## 3. Changing entries -/

variable [DecidableEq κ]

/-- An entry that is put in is the youngest. -/
theorem Keeping.put (h : Keeping now m) (room : m.size < m.maxEntries) (key : κ) (value : ν) :
    Keeping now (m.put now key value) := by
  have herased := h.thinned (thinned_erase m key)
  have hlast {a : TimedEntry κ ν} (ha : a ∈ [(⟨key, value, now⟩ : TimedEntry κ ν)]) :
      a = ⟨key, value, now⟩ := List.mem_singleton.mp ha
  refine ⟨?_, ?_, ?_, ?_, h.roomForOne⟩
  · refine List.pairwise_append.mpr ⟨herased.distinct, List.pairwise_singleton _ _, ?_⟩
    intro a ha b hb
    rw [hlast hb]
    exact (mem_erase.mp ha).2
  · refine List.pairwise_append.mpr ⟨herased.inOrder, List.pairwise_singleton _ _, ?_⟩
    intro a ha b hb
    rw [hlast hb]
    exact herased.past a ha
  · intro a ha
    rcases List.mem_append.mp ha with ha | ha
    · exact herased.past a ha
    · exact Nat.le_of_eq (congrArg TimedEntry.since (hlast ha))
  · have hle : (m.erase key).size ≤ m.size := (thinned_erase m key).entries.length_le
    have hsize : (m.put now key value).size = (m.erase key).size + 1 := List.length_append
    rw [hsize]
    exact Nat.lt_of_le_of_lt hle room

theorem Keeping.insert (h : Keeping now m) (key : κ) (value : ν) :
    Keeping now (m.insert now key value) :=
  (h.thinned (thinned_makeRoom m now)).put h.size_makeRoom key value

theorem Keeping.insertIfAbsent (h : Keeping now m) (key : κ) (value : ν) :
    Keeping now (m.insertIfAbsent now key value).2 := by
  have hroom := h.thinned (thinned_makeRoom m now)
  unfold TimedMap.insertIfAbsent
  simp only
  split
  · exact hroom
  · exact hroom.put h.size_makeRoom key value

theorem Keeping.update (h : Keeping now m) (key : κ) (change : ν → ν) :
    Keeping now (m.update now key change).2 := by
  rcases update_cases change m now key with ⟨-, hsame⟩ | hchanged
  · rw [hsame]
    exact h
  · have hdistinct : (m.update now key change).2.Distinct := distinct_update change h.distinct
    rw [hchanged] at hdistinct ⊢
    refine ⟨hdistinct, List.pairwise_map.mpr (h.inOrder.imp fun hle => ?_), ?_, ?_, h.roomForOne⟩
    · rw [changeAt_since, changeAt_since]
      exact hle
    · intro a ha
      obtain ⟨a', ha', rfl⟩ := List.mem_map.mp ha
      rw [changeAt_since]
      exact h.past a' ha'
    · show (m.entries.map (changeAt change key)).length ≤ m.maxEntries
      rw [List.length_map]
      exact h.bounded

end AccessGate.TimedMap
