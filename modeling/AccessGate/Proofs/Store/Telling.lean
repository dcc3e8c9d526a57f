import AccessGate.Proofs.Store.Live

/-!
# What a history tells of a timed map

A store of what happened is right when it can be told from what happened: a key is live exactly when
one of the events put it there and is not too old (`Tells`). Two things can happen to such a map in
an event:

* `Tells.look`: nothing is put into it;
* `Tells.put`: one key is, and its age starts anew.
-/

namespace AccessGate.TimedMap

variable {ε κ ν : Type} {time : ε → Time} {puts : ε → κ → Prop} {lifetime : Time} {events : List ε}
  {x : ε}

/-- One of the events put the key in, and is not too old at the instant. -/
def Told (time : ε → Time) (puts : ε → κ → Prop) (lifetime : Time) (events : List ε) (t : Time)
    (key : κ) : Prop :=
  ∃ y ∈ events, puts y key ∧ t - time y ≤ lifetime

theorem told_snoc_of_silent {t : Time} {key : κ} (silent : ¬ puts x key) :
    Told time puts lifetime (events ++ [x]) t key ↔ Told time puts lifetime events t key := by
  constructor
  · rintro ⟨y, hy, hputs, hage⟩
    rcases List.mem_append.mp hy with hy | hy
    · exact ⟨y, hy, hputs, hage⟩
    · rw [List.mem_singleton.mp hy] at hputs
      exact absurd hputs silent
  · rintro ⟨y, hy, hrest⟩
    exact ⟨y, List.mem_append_left _ hy, hrest⟩

/-- What the latest event put in is as young as anything. -/
theorem told_snoc_of_puts {t : Time} {key : κ} (order : ∀ y ∈ events, time y ≤ time x)
    (here : puts x key) :
    Told time puts lifetime (events ++ [x]) t key ↔ t - time x ≤ lifetime := by
  constructor
  · rintro ⟨y, hy, -, hage⟩
    have hle : time y ≤ time x := by
      rcases List.mem_append.mp hy with hy | hy
      · exact order y hy
      · exact Nat.le_of_eq (congrArg time (List.mem_singleton.mp hy))
    exact Nat.le_trans (Nat.sub_le_sub_left hle t) hage
  · intro hage
    exact ⟨x, by simp, here, hage⟩

variable [DecidableEq κ] {m m' : TimedMap κ ν}

/-- The live keys of the map are those that the events have put there, at most the time to live
ago. -/
structure Tells (time : ε → Time) (puts : ε → κ → Prop) (lifetime : Time) (events : List ε)
    (m : TimedMap κ ν) : Prop where
  ttl : m.ttl = lifetime
  distinct : m.Distinct
  live : ∀ t key, (∀ y ∈ events, time y ≤ t) →
    ((m.live? t key).isSome = true ↔ Told time puts lifetime events t key)

theorem tells_make (maxEntries : Nat) (started : Time) :
    Tells time puts lifetime [] (make lifetime maxEntries started : TimedMap κ ν) := by
  refine ⟨rfl, List.Pairwise.nil, fun t key _ => ?_⟩
  constructor
  · intro h
    cases h
  · rintro ⟨y, hy, -⟩
    cases hy

theorem Tells.live_looked (h : Tells time puts lifetime events m) {now : Time}
    (looked : Looked now m m') (order : ∀ y ∈ events, time y ≤ now) (t : Time) (key : κ)
    (past : now ≤ t) : (m'.live? t key).isSome = true ↔ Told time puts lifetime events t key := by
  rw [looked.live t key past]
  exact h.live t key fun y hy => Nat.le_trans (order y hy) past

/-- **An event that puts nothing in leaves the map right.** -/
theorem Tells.look (h : Tells time puts lifetime events m) (order : ∀ y ∈ events, time y ≤ time x)
    (looked : Looked (time x) m m') (silent : ∀ key, ¬ puts x key) :
    Tells time puts lifetime (events ++ [x]) m' := by
  refine ⟨looked.thinned.ttl.trans h.ttl, looked.thinned.distinct h.distinct, ?_⟩
  intro t key past
  rw [told_snoc_of_silent (silent key)]
  exact h.live_looked looked order t key (past x (by simp))

/-- **So does one that puts one key in**, as long as there is room. -/
theorem Tells.put (h : Tells time puts lifetime events m) (order : ∀ y ∈ events, time y ≤ time x)
    (looked : Looked (time x) m m') (room : m.HasRoom (time x)) {key : κ} (here : puts x key)
    (only : ∀ other, puts x other → other = key) (value : ν) :
    Tells time puts lifetime (events ++ [x]) (m'.insert (time x) key value) := by
  have httl : m'.ttl = lifetime := looked.thinned.ttl.trans h.ttl
  have hdistinct : m'.Distinct := looked.thinned.distinct h.distinct
  refine ⟨(insert_ttl ..).trans httl, distinct_insert hdistinct value, ?_⟩
  intro t other past
  have hnow : time x ≤ t := past x (by simp)
  by_cases hother : other = key
  · rw [hother, told_snoc_of_puts order here, live?_insert_self, httl]
    by_cases hage : t - time x ≤ lifetime
    · simp [hage]
    · simp [hage]
  · rw [told_snoc_of_silent fun h => hother (only other h), ← h.live_looked looked order t other hnow,
      live?_insert_of_ne hdistinct (looked.thinned.hasRoom room) hnow hother]

end AccessGate.TimedMap
