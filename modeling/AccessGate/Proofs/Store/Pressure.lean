import AccessGate.Proofs.Store.Ideal

/-!
# An insertion under a key that is there

Every insertion makes room before it looks for its key. Where a map is full of live entries the first
of them goes, whosever it is, and this may be the entry that the insertion would have found.

* `Keeping.mem_makeRoom_iff`: a live entry is lost for room exactly where it is the next to go
  (`IsNext`);
* `insertIfAbsent_of_stays`, `insertIfAbsent_of_goes`: what becomes of an insertion under its key;
* `insertIfAbsent_of_live`: so an insertion under a live key is refused and leaves the entry as it is,
  unless the entry is the next to go. Then it is forgotten, and the key counts as a new one
  (`live_key_forgotten`).
-/

namespace AccessGate.TimedMap

variable {κ ν : Type} {m : TimedMap κ ν} {now : Time} {key : κ} {e : TimedEntry κ ν}

/-! ## 1. The next to go -/

/-- The entry is the next to go: the map is full of live entries, and none of them stands before
it. -/
structure IsNext (now : Time) (m : TimedMap κ ν) (e : TimedEntry κ ν) : Prop where
  full : (m.purge now).size = m.maxEntries
  first : (m.purge now).entries.head? = some e

theorem Distinct.nodup (distinct : m.Distinct) : m.entries.Nodup :=
  distinct.imp fun hne heq => hne (congrArg TimedEntry.key heq)

/-- Where no live entry was lost for room, there had been room. -/
theorem Keeping.hasRoom_of_kept (h : Keeping now m)
    (kept : ∀ e ∈ m.entries, isLive m.ttl now e = true → e ∈ (m.makeRoom now).entries) :
    m.HasRoom now := by
  have hpurged := (thinned_purge m now).distinct h.distinct
  have hsub : (m.purge now).entries ⊆ (m.makeRoom now).entries := by
    intro e he
    obtain ⟨hmem, hlive⟩ := List.mem_filter.mp he
    exact kept e hmem hlive
  have hle : (m.purge now).size ≤ (m.makeRoom now).size :=
    hpurged.nodup.length_le_of_subset hsub
  have hroom := h.size_makeRoom
  rw [(thinned_makeRoom m now).maxEntries] at hroom
  exact Nat.lt_of_le_of_lt hle hroom

/-- **A live entry is lost for room exactly if it is the next to go.** -/
theorem Keeping.mem_makeRoom_iff (h : Keeping now m) (he : e ∈ m.entries)
    (live : isLive m.ttl now e = true) : e ∈ (m.makeRoom now).entries ↔ ¬ IsNext now m e := by
  have hpurged := h.thinned (thinned_purge m now)
  have hmem : e ∈ (m.purge now).entries := List.mem_filter.mpr ⟨he, live⟩
  rcases makeRoom_cases m now with hall | ⟨hfull, htail⟩
  · have hroom := h.hasRoom_of_kept hall
    exact ⟨fun _ hnext => Nat.ne_of_lt hroom hnext.full, fun _ => hall e he live⟩
  · obtain ⟨first, rest, hsplit⟩ := List.exists_cons_of_ne_nil (List.ne_nil_of_mem hmem)
    have hnodup := hpurged.distinct.nodup
    rw [hsplit, List.nodup_cons] at hnodup
    rw [hsplit, List.mem_cons] at hmem
    have hnext : IsNext now m e ↔ e = first := by
      constructor
      · intro hnext
        have hfirst := hnext.first
        rw [hsplit, List.head?_cons] at hfirst
        exact (Option.some.inj hfirst).symm
      · intro heq
        exact ⟨Nat.le_antisymm hpurged.bounded hfull, by rw [hsplit, List.head?_cons, heq]⟩
    rw [htail, hsplit, List.tail_cons, hnext]
    constructor
    · intro hrest heq
      rw [heq] at hrest
      exact hnodup.1 hrest
    · exact hmem.resolve_left

/-! ## 2. An insertion under its key -/

variable [DecidableEq κ]

/-- An entry that stays is found, and the insertion is refused. -/
theorem insertIfAbsent_of_stays (distinct : m.Distinct) (live : m.live? now key = some e)
    (stays : e ∈ (m.makeRoom now).entries) (value : ν) :
    m.insertIfAbsent now key value = (false, m.makeRoom now) ∧
      (m.makeRoom now).live? now key = some e := by
  obtain ⟨-, hkey, hlive⟩ := (live?_iff distinct).mp live
  have hthin := thinned_makeRoom m now
  have hfound : (m.makeRoom now).live? now key = some e := by
    refine (live?_iff (hthin.distinct distinct)).mpr ⟨stays, hkey, ?_⟩
    rw [hthin.ttl]
    exact hlive
  refine ⟨?_, hfound⟩
  unfold insertIfAbsent
  simp only [hfound]

/-- One that goes is not found, and the insertion is like any other. -/
theorem insertIfAbsent_of_goes (distinct : m.Distinct) (live : m.live? now key = some e)
    (goes : e ∉ (m.makeRoom now).entries) (value : ν) :
    m.insertIfAbsent now key value = (true, m.insert now key value) := by
  have hthin := thinned_makeRoom m now
  have hnone : (m.makeRoom now).live? now key = none := by
    refine Option.eq_none_iff_forall_ne_some.mpr fun other hother => goes ?_
    -- another entry of the key would have stood in the map beside this one
    obtain ⟨hmem, hkey, hlive⟩ := (live?_iff (hthin.distinct distinct)).mp hother
    rw [hthin.ttl] at hlive
    have hbefore := (live?_iff distinct).mpr ⟨hthin.entries.subset hmem, hkey, hlive⟩
    rw [live] at hbefore
    rw [Option.some.inj hbefore]
    exact hmem
  unfold insertIfAbsent
  simp only [hnone]
  rfl

/-- **An insertion under a live key is refused unless the entry of the key is the next to go.**
However a map has come about: as long as the entry is not the next to go, it stays with its value and
its age. If it is, it is forgotten, the insertion is taken for one under a new key, and the entry that
it puts in has the new value and no age. -/
theorem insertIfAbsent_of_live (ttl : Time) (maxEntries : Nat) (created : Time)
    {visits : List (Visit κ ν)} (order : InOrder visits) (past : ∀ x ∈ visits, x.now ≤ now)
    (live : ((make ttl maxEntries created).after visits).live? now key = some e) (value : ν) :
    let m := (make ttl maxEntries created).after visits
    (¬ IsNext now m e → (m.insertIfAbsent now key value).1 = false ∧
      (m.insertIfAbsent now key value).2.live? now key = some e) ∧
    (IsNext now m e → (m.insertIfAbsent now key value).1 = true ∧
      (m.insertIfAbsent now key value).2.live? now key = some ⟨key, value, now⟩) := by
  intro m
  have hkeeping : Keeping now m := keeping_after (keeping_make ttl maxEntries created 0) order
    (fun _ _ => Nat.zero_le _) past (Nat.zero_le _)
  obtain ⟨hmem, -, hlive⟩ := (live?_iff hkeeping.distinct).mp live
  have hstays := hkeeping.mem_makeRoom_iff hmem hlive
  constructor
  · intro hnext
    obtain ⟨hinsert, hfound⟩ :=
      insertIfAbsent_of_stays hkeeping.distinct live (hstays.mpr hnext) value
    rw [hinsert]
    exact ⟨rfl, hfound⟩
  · intro hnext
    have hinsert := insertIfAbsent_of_goes hkeeping.distinct live (mt hstays.mp (not_not_intro hnext))
      value
    rw [hinsert]
    exact ⟨rfl, live?_insert m now key value⟩

/-! ## 3. Two entries at most -/

/-- Two entries that live. -/
def twoLive : List (Visit Nat Nat) := [⟨0, .insert 1 10⟩, ⟨3, .insert 2 20⟩]

/-- Of two entries, as many as the map may hold, the second stays under its key and the first is
replaced. -/
theorem insertIfAbsent_twoLive :
    ((make 10 2 0).after twoLive).live? 5 2 = some ⟨2, 20, 3⟩ ∧
    ¬ IsNext 5 ((make 10 2 0).after twoLive) ⟨2, 20, 3⟩ ∧
    (((make 10 2 0).after twoLive).insertIfAbsent 5 2 21).1 = false ∧
    (((make 10 2 0).after twoLive).insertIfAbsent 5 2 21).2.live? 5 2 = some ⟨2, 20, 3⟩ ∧
    ((make 10 2 0).after twoLive).live? 5 1 = some ⟨1, 10, 0⟩ ∧
    IsNext 5 ((make 10 2 0).after twoLive) ⟨1, 10, 0⟩ ∧
    (((make 10 2 0).after twoLive).insertIfAbsent 5 1 11).1 = true ∧
    (((make 10 2 0).after twoLive).insertIfAbsent 5 1 11).2.live? 5 1 = some ⟨1, 11, 5⟩ := by
  have horder : InOrder twoLive := by decide
  have hpast : ∀ x ∈ twoLive, x.now ≤ 5 := by decide
  have hsecond : ((make 10 2 0).after twoLive).live? 5 2 = some ⟨2, 20, 3⟩ := rfl
  have hfirst : ((make 10 2 0).after twoLive).live? 5 1 = some ⟨1, 10, 0⟩ := rfl
  have hstays : ¬ IsNext 5 ((make 10 2 0).after twoLive) ⟨2, 20, 3⟩ :=
    fun h => absurd (congrArg (Option.map TimedEntry.key) h.first) (by decide)
  have hgoes : IsNext 5 ((make 10 2 0).after twoLive) ⟨1, 10, 0⟩ := ⟨rfl, rfl⟩
  obtain ⟨hrefused, hkept⟩ := (insertIfAbsent_of_live 10 2 0 horder hpast hsecond 21).1 hstays
  obtain ⟨htaken, hnew⟩ := (insertIfAbsent_of_live 10 2 0 horder hpast hfirst 11).2 hgoes
  exact ⟨hsecond, hstays, hrefused, hkept, hfirst, hgoes, htaken, hnew⟩

/-- **A live key is forgotten**: the only entry that a map may hold lives and is found, and an
insertion under its key is not refused but replaces it. -/
theorem live_key_forgotten :
    ((make 10 1 0).after [⟨0, .insert 1 10⟩] : TimedMap Nat Nat).live? 3 1 = some ⟨1, 10, 0⟩ ∧
    (((make 10 1 0).after [⟨0, .insert 1 10⟩] : TimedMap Nat Nat).insertIfAbsent 3 1 11).1 = true ∧
    (((make 10 1 0).after [⟨0, .insert 1 10⟩] : TimedMap Nat Nat).insertIfAbsent 3 1 11).2.live? 3 1 =
      some ⟨1, 11, 3⟩ :=
  ⟨rfl, rfl, rfl⟩

end AccessGate.TimedMap
