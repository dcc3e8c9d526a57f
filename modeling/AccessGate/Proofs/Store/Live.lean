import AccessGate.Proofs.Store.Entries
import AccessGate.Proofs.Lists

/-!
# What a timed map shows from an instant on

A map is only ever looked at through its live entries, and time only goes on. So this file says what
an operation at the instant `now` does to the look-ups from `now` on, for a map in which no key
stands twice (`Distinct`):

* looking up and making room change no look-up (`live?_get?`, `live?_makeRoom`), the second as long
  as there are fewer live entries than the map may hold (`HasRoom`);
* `live?_insert_self`, `live?_erase_self`, `live?_update_self`: the key of an operation is found as
  the operation leaves it;
* `live?_insert_of_ne`, `live?_erase_of_ne`, `live?_update_of_ne`: every other key is found as
  before;
* `insertIfAbsent_cases`: an insertion under a live key is no insertion.
-/

namespace AccessGate.TimedMap

variable {κ ν : Type} {m m' m'' : TimedMap κ ν} {now t : Time} {key other : κ} {e : TimedEntry κ ν}

/-- An entry that is live later was live before. -/
theorem isLive_of_le {ttl : Time} (order : now ≤ t) (h : isLive ttl t e = true) :
    isLive ttl now e = true := by
  have hage : t - e.since ≤ ttl := of_decide_eq_true h
  exact decide_eq_true (Nat.le_trans (Nat.sub_le_sub_right order e.since) hage)

/-! ## 1. Taking entries out -/

/-- No key stands twice. -/
def Distinct (m : TimedMap κ ν) : Prop := m.entries.Pairwise fun a b => a.key ≠ b.key

/-- Fewer entries are live than the map may hold. -/
def HasRoom (m : TimedMap κ ν) (now : Time) : Prop := (m.purge now).size < m.maxEntries

instance (m : TimedMap κ ν) (now : Time) : Decidable (m.HasRoom now) := Nat.decLt _ _

/-- The second map is the first one without some of its entries. -/
structure Thinned (m m' : TimedMap κ ν) : Prop where
  ttl : m'.ttl = m.ttl
  maxEntries : m'.maxEntries = m.maxEntries
  entries : m'.entries.Sublist m.entries

theorem Thinned.refl (m : TimedMap κ ν) : Thinned m m := ⟨rfl, rfl, .refl _⟩

theorem Thinned.trans (h : Thinned m m') (h' : Thinned m' m'') : Thinned m m'' :=
  ⟨h'.ttl.trans h.ttl, h'.maxEntries.trans h.maxEntries, h'.entries.trans h.entries⟩

theorem Thinned.distinct (h : Thinned m m') (distinct : m.Distinct) : m'.Distinct :=
  List.Pairwise.sublist h.entries distinct

theorem Thinned.hasRoom (h : Thinned m m') (room : m.HasRoom now) : m'.HasRoom now := by
  have hlive : (m'.purge now).size ≤ (m.purge now).size := by
    show (m'.entries.filter (isLive m'.ttl now)).length ≤ _
    rw [h.ttl]
    exact (h.entries.filter _).length_le
  unfold HasRoom
  rw [h.maxEntries]
  exact Nat.lt_of_le_of_lt hlive room

theorem thinned_purge (m : TimedMap κ ν) (now : Time) : Thinned m (m.purge now) :=
  ⟨rfl, rfl, List.filter_sublist⟩

theorem thinned_sweep (m : TimedMap κ ν) (now : Time) : Thinned m (m.sweep now) := by
  unfold sweep
  simp only
  split
  · exact ⟨rfl, rfl, List.filter_sublist⟩
  · exact .refl m

theorem thinned_makeRoom (m : TimedMap κ ν) (now : Time) : Thinned m (m.makeRoom now) := by
  have hsweep := thinned_sweep m now
  unfold makeRoom
  simp only
  split
  · exact hsweep
  · split
    · exact hsweep.trans ⟨rfl, rfl, List.tail_sublist _⟩
    · exact hsweep.trans (thinned_purge _ now)

theorem mem_sweep_of_live (he : e ∈ m.entries) (live : isLive m.ttl now e = true) :
    e ∈ (m.sweep now).entries := by
  unfold sweep
  simp only
  split
  · exact List.mem_filter.mpr ⟨he, live⟩
  · exact he

/-- **A map with room loses no live entry** when it makes room for one more. -/
theorem mem_makeRoom_of_live (room : m.HasRoom now) (he : e ∈ m.entries)
    (live : isLive m.ttl now e = true) : e ∈ (m.makeRoom now).entries := by
  have hthin := thinned_sweep m now
  have hswept := mem_sweep_of_live he live
  unfold makeRoom
  simp only
  split
  · exact hswept
  · rename_i full
    split
    · rename_i none_
      -- a full map without expired entries has no room
      have hlive : ((m.sweep now).purge now).size < (m.sweep now).maxEntries := hthin.hasRoom room
      have hall : (m.sweep now).size ≤ ((m.sweep now).purge now).size := Nat.sub_eq_zero_iff_le.mp none_
      omega
    · exact List.mem_filter.mpr ⟨hswept, by rw [hthin.ttl]; exact live⟩

/-! ## 2. Look-ups -/

variable [DecidableEq κ]

theorem thinned_erase (m : TimedMap κ ν) (key : κ) : Thinned m (m.erase key) :=
  ⟨rfl, rfl, List.filter_sublist⟩

theorem thinned_get? (m : TimedMap κ ν) (now : Time) (key : κ) : Thinned m (m.get? now key).2 := by
  unfold get?
  split
  · exact .refl m
  · exact thinned_erase m key

/-- **A look-up finds the live entry of its key.** -/
theorem live?_iff (distinct : m.Distinct) :
    m.live? t key = some e ↔ e ∈ m.entries ∧ e.key = key ∧ isLive m.ttl t e = true := by
  constructor
  · intro h
    obtain ⟨hmem, hkey⟩ := mem_of_live? h
    exact ⟨hmem, hkey, (Option.filter_eq_some_iff.mp h).2⟩
  · rintro ⟨hmem, hkey, hlive⟩
    have hfind : m.find? key = some e := by
      refine find?_of_pairwise hmem (by simpa using hkey) (distinct.imp fun hne hboth => hne ?_)
      rw [of_decide_eq_true hboth.1, of_decide_eq_true hboth.2]
    exact Option.filter_eq_some_iff.mpr ⟨hfind, hlive⟩

/-- A key is found as before if nothing live was taken out under it. -/
theorem live?_of_thinned (distinct : m.Distinct) (thin : Thinned m m')
    (kept : ∀ e ∈ m.entries, e.key = key → isLive m.ttl t e = true → e ∈ m'.entries) :
    m'.live? t key = m.live? t key := by
  refine Option.ext fun e => ?_
  rw [live?_iff distinct, live?_iff (thin.distinct distinct), thin.ttl]
  constructor
  · rintro ⟨hmem, hrest⟩
    exact ⟨thin.entries.subset hmem, hrest⟩
  · rintro ⟨hmem, hkey, hlive⟩
    exact ⟨kept e hmem hkey hlive, hkey, hlive⟩

theorem live?_none_of_le (order : now ≤ t) (h : m.live? now key = none) :
    m.live? t key = none := by
  have hnow := Option.filter_eq_none_iff.mp h
  exact Option.filter_eq_none_iff.mpr fun e he hlive => hnow e he (isLive_of_le order hlive)

/-- What is found later was found before. -/
theorem live?_of_le (order : now ≤ t) (h : m.live? t key = some e) : m.live? now key = some e := by
  obtain ⟨hfind, hlive⟩ := Option.filter_eq_some_iff.mp h
  exact Option.filter_eq_some_iff.mpr ⟨hfind, isLive_of_le order hlive⟩

theorem age_of_live? (h : m.live? t key = some e) : t - e.since ≤ m.ttl :=
  of_decide_eq_true (Option.filter_eq_some_iff.mp h).2

theorem live?_makeRoom (distinct : m.Distinct) (room : m.HasRoom now) (order : now ≤ t) :
    (m.makeRoom now).live? t key = m.live? t key :=
  live?_of_thinned distinct (thinned_makeRoom m now) fun _ he _ hlive =>
    mem_makeRoom_of_live room he (isLive_of_le order hlive)

theorem live?_erase_self (m : TimedMap κ ν) (t : Time) (key : κ) :
    (m.erase key).live? t key = none := by
  have hfind : (m.erase key).find? key = none := by
    refine List.find?_eq_none.mpr fun e he => ?_
    simpa using (mem_erase.mp he).2
  unfold live?
  rw [hfind]
  rfl

theorem live?_erase_of_ne (distinct : m.Distinct) (ne : other ≠ key) :
    (m.erase key).live? t other = m.live? t other :=
  live?_of_thinned distinct (thinned_erase m key) fun _ he hkey _ =>
    mem_erase.mpr ⟨he, fun h => ne (hkey.symm.trans h)⟩

/-- **Looking up changes no look-up.** -/
theorem live?_get? (distinct : m.Distinct) (order : now ≤ t) :
    (m.get? now key).2.live? t other = m.live? t other := by
  unfold get?
  split
  · rfl
  · rename_i hnone
    by_cases hkey : other = key
    · rw [hkey, live?_erase_self, live?_none_of_le order hnone]
    · exact live?_erase_of_ne distinct hkey

/-- The second map is the first one after look-ups at the instant: from then on it shows the same. -/
structure Looked (now : Time) (m m' : TimedMap κ ν) : Prop where
  thinned : Thinned m m'
  live : ∀ t key, now ≤ t → m'.live? t key = m.live? t key

theorem Looked.refl (now : Time) (m : TimedMap κ ν) : Looked now m m :=
  ⟨.refl m, fun _ _ _ => rfl⟩

theorem looked_get? (distinct : m.Distinct) (now : Time) (key : κ) :
    Looked now m (m.get? now key).2 :=
  ⟨thinned_get? m now key, fun _ _ order => live?_get? distinct order⟩

theorem looked_makeRoom (distinct : m.Distinct) (room : m.HasRoom now) :
    Looked now m (m.makeRoom now) :=
  ⟨thinned_makeRoom m now, fun _ _ order => live?_makeRoom distinct room order⟩

/-- **There is room where few keys are live.** -/
theorem hasRoom_of_keys (distinct : m.Distinct) (keys : List κ)
    (named : ∀ key, (m.live? now key).isSome = true → key ∈ keys)
    (few : keys.length < m.maxEntries) : m.HasRoom now := by
  have hnodup : ((m.purge now).entries.map (·.key)).Nodup :=
    List.pairwise_map.mpr ((thinned_purge m now).distinct distinct)
  have hsub : (m.purge now).entries.map (·.key) ⊆ keys := by
    intro key hkey
    obtain ⟨e, he, rfl⟩ := List.mem_map.mp hkey
    obtain ⟨hmem, hlive⟩ := List.mem_filter.mp he
    refine named e.key ?_
    rw [(live?_iff distinct).mpr ⟨hmem, rfl, hlive⟩]
    rfl
  have hle := hnodup.length_le_of_subset hsub
  rw [List.length_map] at hle
  exact Nat.lt_of_le_of_lt hle few

/-! ## 3. Putting in -/

theorem insert_ttl (m : TimedMap κ ν) (now : Time) (key : κ) (value : ν) :
    (m.insert now key value).ttl = m.ttl := (thinned_makeRoom m now).ttl

theorem distinct_insert (distinct : m.Distinct) (value : ν) :
    (m.insert now key value).Distinct := by
  have hthin := (thinned_makeRoom m now).trans (thinned_erase _ key)
  refine List.pairwise_append.mpr ⟨hthin.distinct distinct, List.pairwise_singleton _ _, ?_⟩
  intro a ha b hb
  rw [List.mem_singleton.mp hb]
  exact (mem_erase.mp ha).2

theorem live?_insert_self (m : TimedMap κ ν) (now t : Time) (key : κ) (value : ν) :
    (m.insert now key value).live? t key =
      if t - now ≤ m.ttl then some ⟨key, value, now⟩ else none := by
  unfold live?
  rw [find?_insert, insert_ttl]
  unfold Option.filter isLive
  simp only [decide_eq_true_eq]

/-- **An insertion changes no look-up of another key**, as long as there is room. -/
theorem live?_insert_of_ne (distinct : m.Distinct) (room : m.HasRoom now) (order : now ≤ t)
    (ne : other ≠ key) (value : ν) :
    (m.insert now key value).live? t other = m.live? t other := by
  have hthin := thinned_makeRoom m now
  have hlast : (m.insert now key value).find? other = ((m.makeRoom now).erase key).find? other := by
    unfold insert put find?
    rw [List.find?_append]
    simp [ne.symm]
  calc (m.insert now key value).live? t other
      = ((m.makeRoom now).erase key).live? t other := by
        unfold live?
        rw [hlast]
        rfl
    _ = (m.makeRoom now).live? t other := live?_erase_of_ne (hthin.distinct distinct) ne
    _ = m.live? t other := live?_makeRoom distinct room order

/-- **An insertion under a live key is no insertion**, and under any other key it is one. -/
theorem insertIfAbsent_cases (distinct : m.Distinct) (room : m.HasRoom now) (value : ν) :
    (m.live? now key).isSome = true ∧ (m.insertIfAbsent now key value).1 = false ∧
      Looked now m (m.insertIfAbsent now key value).2 ∨
    (m.live? now key).isSome = false ∧
      m.insertIfAbsent now key value = (true, m.insert now key value) := by
  have hlook : (m.makeRoom now).live? now key = m.live? now key :=
    live?_makeRoom distinct room (Nat.le_refl now)
  unfold insertIfAbsent
  simp only [hlook]
  cases m.live? now key with
  | some e => exact Or.inl ⟨rfl, rfl, looked_makeRoom distinct room⟩
  | none => exact Or.inr ⟨rfl, rfl⟩

/-! ## 4. Changing a value -/

section Update

variable (change : ν → ν)

/-- The entry with its value changed if it is the one of the key. -/
def changeAt (key : κ) (e : TimedEntry κ ν) : TimedEntry κ ν :=
  if e.key = key then { e with value := change e.value } else e

theorem changeAt_key (e : TimedEntry κ ν) : (changeAt change key e).key = e.key := by
  unfold changeAt
  split <;> rfl

theorem changeAt_since (e : TimedEntry κ ν) : (changeAt change key e).since = e.since := by
  unfold changeAt
  split <;> rfl

theorem update_cases (m : TimedMap κ ν) (now : Time) (key : κ) :
    (m.live? now key = none ∧ (m.update now key change).2 = m) ∨
    (m.update now key change).2 = { m with entries := m.entries.map (changeAt change key) } := by
  unfold update
  split
  · exact Or.inr rfl
  · rename_i hnone
    exact Or.inl ⟨hnone, rfl⟩

theorem update_ttl (m : TimedMap κ ν) (now : Time) (key : κ) :
    (m.update now key change).2.ttl = m.ttl := by
  rcases update_cases change m now key with ⟨-, h⟩ | h
  · rw [h]
  · rw [h]

theorem distinct_update (distinct : m.Distinct) : (m.update now key change).2.Distinct := by
  rcases update_cases change m now key with ⟨-, h⟩ | h
  · rw [h]
    exact distinct
  · rw [h]
    refine List.pairwise_map.mpr (distinct.imp fun hne => ?_)
    rw [changeAt_key, changeAt_key]
    exact hne

/-- A change keeps the keys and the ages, so it is seen in the values alone. -/
theorem live?_changed (m : TimedMap κ ν) (t : Time) (key other : κ) :
    live? { m with entries := m.entries.map (changeAt change key) } t other =
      (m.live? t other).map (changeAt change key) := by
  have hfind : find? { m with entries := m.entries.map (changeAt change key) } other =
      (m.find? other).map (changeAt change key) := by
    have hsame : ((fun e : TimedEntry κ ν => decide (e.key = other)) ∘ changeAt change key) =
        fun e => decide (e.key = other) := by
      funext e
      rw [Function.comp_apply, changeAt_key]
    unfold find?
    rw [List.find?_map, hsame]
  unfold live?
  rw [hfind]
  cases m.find? other with
  | none => rfl
  | some e =>
    have hage : isLive m.ttl t (changeAt change key e) = isLive m.ttl t e := by
      unfold isLive
      rw [changeAt_since]
    simp only [Option.map_some, Option.filter_some, hage]
    split <;> rfl

/-- **The key of a change is found with its new value and its old age.** -/
theorem live?_update_self (order : now ≤ t) : (m.update now key change).2.live? t key =
    (m.live? t key).map fun e => { e with value := change e.value } := by
  rcases update_cases change m now key with ⟨hnone, h⟩ | h
  · rw [h, live?_none_of_le order hnone]
    rfl
  · rw [h, live?_changed]
    cases hlive : m.live? t key with
    | none => rfl
    | some e =>
      have hkey : e.key = key := (mem_of_live? hlive).2
      simp only [Option.map_some, changeAt, if_pos hkey]

/-- **A change is not seen under another key.** -/
theorem live?_update_of_ne (ne : other ≠ key) :
    (m.update now key change).2.live? t other = m.live? t other := by
  rcases update_cases change m now key with ⟨-, h⟩ | h
  · rw [h]
  · rw [h, live?_changed]
    cases hlive : m.live? t other with
    | none => rfl
    | some e =>
      have hkey : e.key ≠ key := fun h => ne ((mem_of_live? hlive).2.symm.trans h)
      simp only [Option.map_some, changeAt, if_neg hkey]

end Update

end AccessGate.TimedMap
