import AccessGate.Proofs.Store.Capacity

/-!
# A timed map is an ideal one

In an ideal map an entry is there exactly while its age does not exceed the time to live: nothing is
swept, nothing is left over, and nothing makes room. Here is every sequence of operations on a timed
map beside the same sequence on an ideal one:

* `Shows.perform`, `Shows.answers`: every operation answers as it does on the ideal map that the
  timed one shows, as long as there is room whenever one puts an entry in;
* `keeping_perform`, `keeping_after`: the entries always stand in the order of their insertion, no
  key twice, and never more than the map may hold;
* `fate_of_live`: with room or without, a live entry is only ever taken out, overwritten, or evicted
  from a map full of live entries, of which it is the oldest.

`refines_ideal` joins the two for whole sequences.
-/

namespace AccessGate.TimedMap

variable {κ ν : Type}

/-! ## 1. Operations -/

/-- What is done with a map of entries. -/
inductive Operation (κ ν : Type) where
  | insert (key : κ) (value : ν)
  | insertIfAbsent (key : κ) (value : ν)
  | get (key : κ)
  | contains (key : κ)
  | remove (key : κ)
  | update (key : κ) (change : ν → ν)
  | purge
  | clear

/-- The operation may put an entry in. -/
def Operation.inserts : Operation κ ν → Bool
  | insert _ _ | insertIfAbsent _ _ => true
  | _ => false

/-- What an operation says of the entries that are there. -/
inductive Answer (ν : Type) where
  | nothing
  | flag (b : Bool)
  | value (v : Option ν)
  deriving DecidableEq

/-- An operation at its instant. -/
structure Visit (κ ν : Type) where
  now : Time
  operation : Operation κ ν

/-- The clock does not go back from one visit to a later one. -/
def InOrder (visits : List (Visit κ ν)) : Prop := visits.Pairwise fun y x => y.now ≤ x.now

section Operations

variable [DecidableEq κ]

def perform (m : TimedMap κ ν) (x : Visit κ ν) : Answer ν × TimedMap κ ν :=
  match x.operation with
  | .insert key value => (.nothing, m.insert x.now key value)
  | .insertIfAbsent key value =>
    (.flag (m.insertIfAbsent x.now key value).1, (m.insertIfAbsent x.now key value).2)
  | .get key => (.value (m.get? x.now key).1, (m.get? x.now key).2)
  | .contains key => (.flag (m.contains x.now key).1, (m.contains x.now key).2)
  | .remove key => (.value (m.remove x.now key).1, (m.remove x.now key).2)
  | .update key change => (.flag (m.update x.now key change).1, (m.update x.now key change).2)
  | .purge => (.nothing, m.purge x.now)
  | .clear => (.nothing, m.clear)

/-- The answers to a sequence of operations. -/
def answers : TimedMap κ ν → List (Visit κ ν) → List (Answer ν)
  | _, [] => []
  | m, x :: rest => (m.perform x).1 :: answers (m.perform x).2 rest

/-- The map after a sequence of operations. -/
def after (m : TimedMap κ ν) (visits : List (Visit κ ν)) : TimedMap κ ν :=
  visits.foldl (fun m x => (m.perform x).2) m

/-- Fewer entries are live than the map may hold, whenever one may be put in. -/
def Roomy : TimedMap κ ν → List (Visit κ ν) → Prop
  | _, [] => True
  | m, x :: rest =>
    (x.operation.inserts = true → m.HasRoom x.now) ∧ Roomy (m.perform x).2 rest

end Operations

/-- For every key, what is there and since when. -/
abbrev Ideal (κ ν : Type) := κ → Option (ν × Time)

namespace Ideal

/-- Nothing is there. -/
def empty : Ideal κ ν := fun _ => none

/-- The age of the entry does not exceed the time to live. -/
def isYoung (ttl now : Time) (e : ν × Time) : Bool := now - e.2 ≤ ttl

/-- An entry is there exactly while it is young. -/
def present (ttl now : Time) (i : Ideal κ ν) : Ideal κ ν :=
  fun key => (i key).filter (isYoung ttl now)

variable [DecidableEq κ]

/-- One key gets an entry, or loses it. -/
def assign (i : Ideal κ ν) (key : κ) (e : Option (ν × Time)) : Ideal κ ν :=
  fun other => if other = key then e else i other

/-- The operation on the entries that are there at its instant. -/
def act (now : Time) (i : Ideal κ ν) : Operation κ ν → Answer ν × Ideal κ ν
  | .insert key value => (.nothing, i.assign key (some (value, now)))
  | .insertIfAbsent key value =>
    if (i key).isSome then (.flag false, i) else (.flag true, i.assign key (some (value, now)))
  | .get key => (.value ((i key).map (·.1)), i)
  | .contains key => (.flag (i key).isSome, i)
  | .remove key => (.value ((i key).map (·.1)), i.assign key none)
  | .update key change =>
    (.flag (i key).isSome, i.assign key ((i key).map fun e => (change e.1, e.2)))
  | .purge => (.nothing, i)
  | .clear => (.nothing, empty)

def perform (ttl : Time) (i : Ideal κ ν) (x : Visit κ ν) : Answer ν × Ideal κ ν :=
  act x.now (i.present ttl x.now) x.operation

/-- The answers to a sequence of operations. -/
def answers (ttl : Time) : Ideal κ ν → List (Visit κ ν) → List (Answer ν)
  | _, [] => []
  | i, x :: rest => (i.perform ttl x).1 :: answers ttl (i.perform ttl x).2 rest

variable {ttl now t : Time} {i : Ideal κ ν} {key other : κ}

omit [DecidableEq κ] in
/-- What is there later is what is there of what was there before. -/
theorem present_present (order : now ≤ t) (i : Ideal κ ν) :
    (i.present ttl now).present ttl t = i.present ttl t := by
  funext key
  unfold present
  rw [Option.filter_filter]
  congr 1
  funext e
  cases hlater : isYoung ttl t e with
  | false => exact Bool.and_false _
  | true =>
    have hbefore : now - e.2 ≤ ttl :=
      Nat.le_trans (Nat.sub_le_sub_right order e.2) (of_decide_eq_true hlater)
    rw [Bool.and_true]
    exact decide_eq_true hbefore

theorem present_assign_self (e : Option (ν × Time)) :
    (i.assign key e).present ttl t key = e.filter (isYoung ttl t) := by
  unfold present assign
  rw [if_pos rfl]

theorem present_assign_of_ne (e : Option (ν × Time)) (ne : other ≠ key) :
    (i.assign key e).present ttl t other = i.present ttl t other := by
  unfold present assign
  rw [if_neg ne]

end Ideal

/-! ## 2. One operation beside the ideal one -/

variable [DecidableEq κ] {ttl before now t : Time} {m m' : TimedMap κ ν} {i : Ideal κ ν}
  {key other : κ} {e : TimedEntry κ ν} {x : Visit κ ν}

/-- What an ideal map holds of an entry. -/
def content (e : TimedEntry κ ν) : ν × Time := (e.value, e.since)

/-- From the instant on, the live entries of the timed map are those of the ideal one. -/
structure Shows (ttl now : Time) (m : TimedMap κ ν) (i : Ideal κ ν) : Prop where
  sameTtl : m.ttl = ttl
  distinct : m.Distinct
  live : ∀ t key, now ≤ t → (m.live? t key).map content = i.present ttl t key

theorem shows_make (ttl : Time) (maxEntries : Nat) (created now : Time) :
    Shows ttl now (make ttl maxEntries created : TimedMap κ ν) .empty :=
  ⟨rfl, List.Pairwise.nil, fun _ _ _ => rfl⟩

namespace Shows

/-- An ideal map that is only looked at later may already be rid of what is too old by then. -/
theorem later (h : Shows ttl before m i) (order : before ≤ now) :
    Shows ttl now m (i.present ttl now) := by
  refine ⟨h.sameTtl, h.distinct, fun t key past => ?_⟩
  rw [Ideal.present_present past]
  exact h.live t key (Nat.le_trans order past)

/-- What is live now is what is there now. -/
theorem found (h : Shows ttl before m i) (order : before ≤ now) (key : κ) :
    (m.live? now key).map content = i.present ttl now key := h.live now key order

theorem isSome (h : Shows ttl before m i) (order : before ≤ now) (key : κ) :
    (m.live? now key).isSome = (i.present ttl now key).isSome := by
  rw [← h.found order, Option.isSome_map]

theorem value (h : Shows ttl before m i) (order : before ≤ now) (key : κ) :
    (m.live? now key).map (·.value) = (i.present ttl now key).map (·.1) := by
  rw [← h.found order, Option.map_map]
  rfl

/-- **Looking and sweeping are not seen.** -/
theorem look (h : Shows ttl now m i) (looked : Looked now m m') : Shows ttl now m' i := by
  refine ⟨looked.thinned.ttl.trans h.sameTtl, looked.thinned.distinct h.distinct, ?_⟩
  intro t key past
  rw [looked.live t key past]
  exact h.live t key past

/-- An insertion gives its key a new entry and no other key, as long as there is room. -/
theorem insert (h : Shows ttl now m i) (room : m.HasRoom now) (key : κ) (value : ν) :
    Shows ttl now (m.insert now key value) (i.assign key (some (value, now))) := by
  refine ⟨(insert_ttl ..).trans h.sameTtl, distinct_insert h.distinct value, ?_⟩
  intro t other past
  by_cases hkey : other = key
  · rw [hkey, live?_insert_self, Ideal.present_assign_self, h.sameTtl, Option.filter_some]
    unfold Ideal.isYoung
    simp only [decide_eq_true_eq]
    split <;> rfl
  · rw [live?_insert_of_ne h.distinct room past hkey, Ideal.present_assign_of_ne _ hkey]
    exact h.live t other past

theorem erase (h : Shows ttl now m i) (key : κ) :
    Shows ttl now (m.erase key) (i.assign key none) := by
  refine ⟨h.sameTtl, (thinned_erase m key).distinct h.distinct, ?_⟩
  intro t other past
  by_cases hkey : other = key
  · rw [hkey, live?_erase_self, Ideal.present_assign_self]
    rfl
  · rw [live?_erase_of_ne h.distinct hkey, Ideal.present_assign_of_ne _ hkey]
    exact h.live t other past

/-- **A change keeps the age of its entry.** -/
theorem update (h : Shows ttl now m i) (key : κ) (change : ν → ν) :
    Shows ttl now (m.update now key change).2
      (i.assign key ((i key).map fun e => (change e.1, e.2))) := by
  refine ⟨(update_ttl ..).trans h.sameTtl, distinct_update change h.distinct, ?_⟩
  intro t other past
  by_cases hkey : other = key
  · have hchanged : (i.present ttl t key).map (fun e => (change e.1, e.2)) =
        ((i key).map fun e => (change e.1, e.2)).filter (Ideal.isYoung ttl t) := by
      unfold Ideal.present
      rw [Option.filter_map]
      rfl
    rw [hkey, live?_update_self change past, Ideal.present_assign_self, ← hchanged,
      ← h.live t key past, Option.map_map, Option.map_map]
    rfl
  · rw [live?_update_of_ne change hkey, Ideal.present_assign_of_ne _ hkey]
    exact h.live t other past

theorem clear (h : Shows ttl now m i) : Shows ttl now m.clear .empty :=
  ⟨h.sameTtl, List.Pairwise.nil, fun _ _ _ => rfl⟩

end Shows

/-- Sweeping is looking. -/
theorem looked_purge (distinct : m.Distinct) (now : Time) : Looked now m (m.purge now) :=
  ⟨thinned_purge m now, fun _ _ order => live?_of_thinned distinct (thinned_purge m now)
    fun _ he _ hlive => List.mem_filter.mpr ⟨he, isLive_of_le order hlive⟩⟩

theorem looked_contains (distinct : m.Distinct) (now : Time) (key : κ) :
    Looked now m (m.contains now key).2 := looked_get? distinct now key

theorem update_fst (m : TimedMap κ ν) (now : Time) (key : κ) (change : ν → ν) :
    (m.update now key change).1 = (m.live? now key).isSome := by
  unfold update
  split <;> simp_all

/-- **An operation answers as it does on the ideal map**, and the maps stay alike. -/
theorem Shows.perform (h : Shows ttl before m i) (order : before ≤ x.now)
    (room : x.operation.inserts = true → m.HasRoom x.now) :
    (m.perform x).1 = (i.perform ttl x).1 ∧
      Shows ttl x.now (m.perform x).2 (i.perform ttl x).2 := by
  have hnow := h.later order
  obtain ⟨now, operation⟩ := x
  unfold TimedMap.perform Ideal.perform
  cases operation with
  | insert key value => exact ⟨rfl, hnow.insert (room rfl) key value⟩
  | insertIfAbsent key value =>
    have hfound := h.isSome order key
    simp only [Ideal.act]
    rcases insertIfAbsent_cases h.distinct (room rfl) value with
      ⟨hsome, hfalse, hlooked⟩ | ⟨hnone, hinserted⟩
    · rw [if_pos (hfound.symm.trans hsome), hfalse]
      exact ⟨rfl, hnow.look hlooked⟩
    · rw [if_neg (Bool.eq_false_iff.mp (hfound.symm.trans hnone)), hinserted]
      exact ⟨rfl, hnow.insert (room rfl) key value⟩
  | get key =>
    exact ⟨congrArg Answer.value ((get?_fst m now key).trans (h.value order key)),
      hnow.look (looked_get? h.distinct now key)⟩
  | contains key =>
    exact ⟨congrArg Answer.flag ((contains_fst m now key).trans (h.isSome order key)),
      hnow.look (looked_contains h.distinct now key)⟩
  | remove key => exact ⟨congrArg Answer.value (h.value order key), hnow.erase key⟩
  | update key change =>
    exact ⟨congrArg Answer.flag ((update_fst m now key change).trans (h.isSome order key)),
      hnow.update key change⟩
  | purge => exact ⟨rfl, hnow.look (looked_purge h.distinct now)⟩
  | clear => exact ⟨rfl, hnow.clear⟩

/-- So does a sequence of operations. -/
theorem Shows.answers {visits : List (Visit κ ν)} (h : Shows ttl before m i)
    (start : ∀ x ∈ visits, before ≤ x.now) (order : InOrder visits) (room : m.Roomy visits) :
    m.answers visits = i.answers ttl visits := by
  induction visits generalizing before m i with
  | nil => rfl
  | cons x visits ih =>
    obtain ⟨hlater, hrest⟩ := List.pairwise_cons.mp order
    obtain ⟨hanswer, hshows⟩ := h.perform (start x List.mem_cons_self) room.1
    unfold TimedMap.answers Ideal.answers
    rw [hanswer, ih hshows hlater hrest room.2]

/-! ## 3. What becomes of an entry -/

/-- **Every operation keeps the entries in order and within bounds.** -/
theorem keeping_perform (h : Keeping before m) (order : before ≤ x.now) :
    Keeping x.now (m.perform x).2 := by
  have hnow := h.later order
  obtain ⟨now, operation⟩ := x
  unfold perform
  cases operation with
  | insert key value => exact hnow.insert key value
  | insertIfAbsent key value => exact hnow.insertIfAbsent key value
  | get key => exact hnow.thinned (thinned_get? m now key)
  | contains key => exact hnow.thinned (thinned_get? m now key)
  | remove key => exact hnow.thinned (thinned_erase m key)
  | update key change => exact hnow.update key change
  | purge => exact hnow.thinned (thinned_purge m now)
  | clear => exact hnow.thinned ⟨rfl, rfl, List.nil_sublist _⟩

/-- So does a sequence of operations. -/
theorem keeping_after {visits : List (Visit κ ν)} (h : Keeping before m) (order : InOrder visits)
    (start : ∀ x ∈ visits, before ≤ x.now) (finish : ∀ x ∈ visits, x.now ≤ now)
    (past : before ≤ now) : Keeping now (m.after visits) := by
  induction visits generalizing before m with
  | nil => exact h.later past
  | cons x visits ih =>
    obtain ⟨hlater, hrest⟩ := List.pairwise_cons.mp order
    exact ih (keeping_perform h (start x List.mem_cons_self)) hrest hlater
      (fun y hy => finish y (List.mem_cons_of_mem x hy)) (finish x List.mem_cons_self)

/-- What one operation can make of a live entry. -/
inductive Fate (m : TimedMap κ ν) (x : Visit κ ν) (e : TimedEntry κ ν) : Prop where
  | kept (found : (m.perform x).2.live? x.now e.key = some e)
  | changed {change : ν → ν} (update : x.operation = .update e.key change)
      (found : (m.perform x).2.live? x.now e.key = some ⟨e.key, change e.value, e.since⟩)
  | overwritten {value : ν} (insert : x.operation = .insert e.key value)
      (found : (m.perform x).2.live? x.now e.key = some ⟨e.key, value, x.now⟩)
  | removed (remove : x.operation = .remove e.key)
  | cleared (clear : x.operation = .clear)
  | evicted (inserts : x.operation.inserts = true) (evicted : Evicted x.now m e)

/-- What stays while room is made stays when an entry is put in under another key. -/
theorem live?_put_of_ne (distinct : m.Distinct) (stays : e ∈ (m.makeRoom now).entries)
    (live : isLive m.ttl now e = true) (ne : e.key ≠ key) (value : ν) :
    (m.insert now key value).live? now e.key = some e := by
  refine (live?_iff (distinct_insert distinct value)).mpr ⟨?_, rfl, ?_⟩
  · exact List.mem_append_left _ (mem_erase.mpr ⟨stays, ne⟩)
  · rw [insert_ttl]
    exact live

/-- **A live entry stays, unless it is taken out, overwritten, or the oldest one of a full map.** -/
theorem fate_of_live (h : Keeping x.now m) (live : m.live? x.now e.key = some e) : Fate m x e := by
  obtain ⟨hmem, -, hlive⟩ := (live?_iff h.distinct).mp live
  have stays {m' : TimedMap κ ν} (looked : Looked x.now m m') : m'.live? x.now e.key = some e :=
    (looked.live _ _ (Nat.le_refl _)).trans live
  obtain ⟨now, operation⟩ := x
  cases operation with
  | insert key value =>
    by_cases hkey : e.key = key
    · subst hkey
      exact .overwritten rfl (live?_insert m now e.key value)
    · by_cases hroom : e ∈ (m.makeRoom now).entries
      · exact .kept (live?_put_of_ne h.distinct hroom hlive hkey value)
      · exact .evicted rfl (h.evicted hmem hlive hroom)
  | insertIfAbsent key value =>
    by_cases hroom : e ∈ (m.makeRoom now).entries
    · have hthin := thinned_makeRoom m now
      have hfound : (m.makeRoom now).live? now e.key = some e := by
        refine (live?_iff (hthin.distinct h.distinct)).mpr ⟨hroom, rfl, ?_⟩
        rw [hthin.ttl]
        exact hlive
      refine .kept ?_
      show (m.insertIfAbsent now key value).2.live? now e.key = some e
      unfold insertIfAbsent
      simp only
      split
      · exact hfound
      · rename_i hnone
        have hkey : e.key ≠ key := by
          rintro rfl
          rw [hfound] at hnone
          cases hnone
        exact live?_put_of_ne h.distinct hroom hlive hkey value
    · exact .evicted rfl (h.evicted hmem hlive hroom)
  | get key => exact .kept (stays (looked_get? h.distinct now key))
  | contains key => exact .kept (stays (looked_contains h.distinct now key))
  | remove key =>
    by_cases hkey : e.key = key
    · subst hkey
      exact .removed rfl
    · exact .kept ((live?_erase_of_ne h.distinct hkey).trans live)
  | update key change =>
    by_cases hkey : e.key = key
    · subst hkey
      refine .changed rfl ?_
      show (m.update now e.key change).2.live? now e.key = _
      rw [live?_update_self change (Nat.le_refl now), live, Option.map_some]
    · exact .kept ((live?_update_of_ne change hkey).trans live)
  | purge => exact .kept (stays (looked_purge h.distinct now))
  | clear => exact .cleared rfl

/-! ## 4. Every sequence of operations -/

/-- **A timed map answers like an ideal one while there is room**: what is swept, taken out at a
look-up or left over is never seen. Where there is no room, an insertion evicts one live entry, the
oldest. -/
theorem refines_ideal (ttl : Time) (maxEntries : Nat) (created : Time) {visits : List (Visit κ ν)}
    (order : InOrder visits) :
    ((make ttl maxEntries created).Roomy visits →
      (make ttl maxEntries created).answers visits = Ideal.empty.answers ttl visits) ∧
    ∀ {earlier x later e}, visits = earlier ++ x :: later →
      ((make ttl maxEntries created).after earlier).live? x.now e.key = some e →
      Fate ((make ttl maxEntries created).after earlier) x e := by
  refine ⟨fun room => ?_, fun {earlier x later e} hvisits hlive => ?_⟩
  · exact (shows_make ttl maxEntries created 0).answers (fun _ _ => Nat.zero_le _) order room
  · rw [hvisits] at order
    obtain ⟨hearlier, -, hcross⟩ := List.pairwise_append.mp order
    refine fate_of_live ?_ hlive
    exact keeping_after (keeping_make ttl maxEntries created 0) hearlier
      (fun _ _ => Nat.zero_le _) (fun y hy => hcross y hy x List.mem_cons_self) (Nat.zero_le _)

/-! ## 5. Two entries at most -/

instance (visits : List (Visit κ ν)) : Decidable (InOrder visits) :=
  inferInstanceAs (Decidable (visits.Pairwise _))

instance decidableRoomy : (m : TimedMap κ ν) → (visits : List (Visit κ ν)) →
    Decidable (m.Roomy visits)
  | _, [] => .isTrue trivial
  | m, x :: rest =>
    have := decidableRoomy (m.perform x).2 rest
    inferInstanceAs (Decidable (_ ∧ _))

/-- An entry is changed, read at the very end of its life, and gone a moment later. -/
def lifetime : List (Visit Nat Nat) :=
  [⟨0, .insert 1 10⟩, ⟨4, .update 1 (· + 1)⟩, ⟨10, .get 1⟩, ⟨11, .contains 1⟩,
    ⟨11, .insertIfAbsent 1 12⟩, ⟨12, .insertIfAbsent 1 13⟩, ⟨13, .remove 1⟩]

/-- A third entry comes while two live. -/
def overflow : List (Visit Nat Nat) := [⟨0, .insert 1 10⟩, ⟨3, .insert 2 20⟩, ⟨5, .insert 3 30⟩]

/-- A life of ten ticks ends after its tenth, and the third of two entries evicts the first. -/
theorem refines_ideal_two_entries :
    (make 10 2 0).answers lifetime = Ideal.empty.answers 10 lifetime ∧
    Ideal.empty.answers 10 lifetime = [.nothing, .flag true, .value (some 11), .flag false,
      .flag true, .flag false, .value (some 12)] ∧
    Fate ((make 10 2 0).after (overflow.take 2)) ⟨5, .insert 3 30⟩ ⟨1, 10, 0⟩ ∧
    ((make 10 2 0).after overflow).entries.map (·.key) = [2, 3] :=
  ⟨(refines_ideal 10 2 0 (by decide)).1 (by decide), by decide,
    (refines_ideal 10 2 0 (by decide : InOrder overflow)).2 rfl rfl, rfl⟩

end AccessGate.TimedMap
