import AccessGate.Proofs.Store.Ideal

/-!
# How old entries get, and how many

Nothing watches a timed map: an entry that nobody asks for again stays until an insertion sweeps, and
that is done once in a quarter of the time to live. Here is why such entries do not pile up:

* `Swept`: at the last sweep, by the map's clock of whole milliseconds, none of the entries of now had
  expired; every operation keeps it so (`Swept.perform`);
* `Swept.young_makeRoom`: so making room leaves no entry behind that is older than the time to live
  and a quarter;
* `Swept.apart`: the clock of the last sweep never goes back, so sweeps that are due lie a quarter
  apart;
* `expired_eq_countP`, `mem_purge`: a purge takes out the expired entries and counts them.

`bounded_of_run` joins these with the bound on the number of entries.
-/

namespace AccessGate.TimedMap

variable {κ ν : Type} {m m' m'' : TimedMap κ ν} {before now : Time} {e : TimedEntry κ ν}

/-! ## 1. The last sweep -/

/-- The whole milliseconds since the map was made. -/
def clock (m : TimedMap κ ν) (now : Time) : Nat := Time.millis (now - m.created)

theorem clock_mono (m : TimedMap κ ν) (order : before ≤ now) : m.clock before ≤ m.clock now :=
  Nat.div_le_div_right (Nat.sub_le_sub_right order m.created)

/-- Where the whole milliseconds of two instants differ by less than those of a span, the instants lie
no further apart than the span. -/
theorem le_add_of_millis {created earlier later span : Nat} (born : created ≤ earlier)
    (less : ¬ Time.millis span ≤ Time.millis (later - created) - Time.millis (earlier - created)) :
    later ≤ earlier + span := by
  unfold Time.millis at less
  omega

/-- A sweep is due: a quarter of the time to live has passed on the clock since the last one. -/
def SweepDue (m : TimedMap κ ν) (now : Time) : Prop :=
  Time.millis (m.ttl / 4) ≤ m.clock now - m.lastSweep

theorem sweep_cases (m : TimedMap κ ν) (now : Time) :
    m.SweepDue now ∧ m.sweep now = { m.purge now with lastSweep := m.clock now } ∨
      ¬ m.SweepDue now ∧ m.sweep now = m := by
  unfold sweep SweepDue clock
  simp only
  split
  · rename_i hdue
    exact Or.inl ⟨hdue, rfl⟩
  · rename_i hearly
    exact Or.inr ⟨hearly, rfl⟩

/-- At the last sweep, or when the map was made, none of the entries had expired. -/
structure Swept (now : Time) (m : TimedMap κ ν) : Prop where
  born : m.created ≤ now
  last : ∃ swept, m.created ≤ swept ∧ swept ≤ now ∧ m.clock swept = m.lastSweep ∧
    ∀ e ∈ m.entries, swept ≤ e.since + m.ttl

theorem swept_make (ttl : Time) (maxEntries : Nat) (created : Time) :
    Swept created (make ttl maxEntries created : TimedMap κ ν) := by
  refine ⟨Nat.le_refl _, created, Nat.le_refl _, Nat.le_refl _, ?_, fun _ he => nomatch he⟩
  show Time.millis (created - created) = 0
  rw [Nat.sub_self]
  rfl

theorem Swept.later (h : Swept before m) (order : before ≤ now) : Swept now m := by
  obtain ⟨swept, hborn, hpast, hclock, hentries⟩ := h.last
  exact ⟨Nat.le_trans h.born order, swept, hborn, Nat.le_trans hpast order, hclock, hentries⟩

theorem Swept.lastSweep_le (h : Swept now m) : m.lastSweep ≤ m.clock now := by
  obtain ⟨swept, -, hpast, hclock, -⟩ := h.last
  rw [← hclock]
  exact m.clock_mono hpast

/-- The second map has what the first was made with. -/
structure SameLimits (m m' : TimedMap κ ν) : Prop where
  ttl : m'.ttl = m.ttl
  maxEntries : m'.maxEntries = m.maxEntries
  created : m'.created = m.created

theorem SameLimits.refl (m : TimedMap κ ν) : SameLimits m m := ⟨rfl, rfl, rfl⟩

theorem SameLimits.trans (h : SameLimits m m') (h' : SameLimits m' m'') : SameLimits m m'' :=
  ⟨h'.ttl.trans h.ttl, h'.maxEntries.trans h.maxEntries, h'.created.trans h.created⟩

theorem SameLimits.clock (h : SameLimits m m') (now : Time) : m'.clock now = m.clock now := by
  unfold TimedMap.clock
  rw [h.created]

/-- The second map has the limits and the last sweep of the first, and no entry in it is older than
one of the first, unless it is put in now. -/
structure Succeeds (now : Time) (m m' : TimedMap κ ν) : Prop where
  limits : SameLimits m m'
  lastSweep : m'.lastSweep = m.lastSweep
  since : ∀ e ∈ m'.entries, e.since = now ∨ ∃ a ∈ m.entries, a.since = e.since

/-- Taking entries out makes no entry older. -/
theorem succeeds_of_sublist {entries : List (TimedEntry κ ν)} (sub : entries.Sublist m.entries) :
    Succeeds now m { m with entries := entries } :=
  ⟨⟨rfl, rfl, rfl⟩, rfl, fun e he => Or.inr ⟨e, sub.subset he, rfl⟩⟩

theorem succeeds_self (now : Time) (m : TimedMap κ ν) : Succeeds now m m :=
  succeeds_of_sublist (.refl m.entries)

theorem Swept.succeeds (h : Swept now m) (succeeds : Succeeds now m m') : Swept now m' := by
  obtain ⟨swept, hborn, hpast, hclock, hentries⟩ := h.last
  have hlimits := succeeds.limits
  refine ⟨?_, swept, ?_, hpast, ?_, fun e he => ?_⟩
  · rw [hlimits.created]
    exact h.born
  · rw [hlimits.created]
    exact hborn
  · rw [hlimits.clock, hclock, succeeds.lastSweep]
  · rw [hlimits.ttl]
    rcases succeeds.since e he with hnow | ⟨a, ha, hsince⟩
    · rw [hnow]
      exact Nat.le_trans hpast (Nat.le_add_right now m.ttl)
    · rw [← hsince]
      exact hentries a ha

theorem limits_sweep (m : TimedMap κ ν) (now : Time) : SameLimits m (m.sweep now) := by
  rcases sweep_cases m now with ⟨-, hswept⟩ | ⟨-, hsame⟩
  · rw [hswept]
    exact ⟨rfl, rfl, rfl⟩
  · rw [hsame]
    exact .refl m

theorem Swept.sweep (h : Swept now m) : Swept now (m.sweep now) := by
  rcases sweep_cases m now with ⟨-, hswept⟩ | ⟨-, hsame⟩
  · rw [hswept]
    refine ⟨h.born, now, h.born, Nat.le_refl now, rfl, fun e he => ?_⟩
    exact Nat.sub_le_iff_le_add'.mp (of_decide_eq_true (List.mem_filter.mp he).2)
  · rw [hsame]
    exact h

/-- **After a sweep, or before one is due, no entry is older than the time to live and a quarter.** -/
theorem Swept.young_sweep (h : Swept now m) :
    ∀ e ∈ (m.sweep now).entries, now ≤ e.since + (m.ttl + m.ttl / 4) := by
  intro e he
  rcases sweep_cases m now with ⟨-, hswept⟩ | ⟨hearly, hsame⟩
  · rw [hswept] at he
    have hlive : now - e.since ≤ m.ttl := of_decide_eq_true (List.mem_filter.mp he).2
    exact Nat.le_trans (Nat.sub_le_iff_le_add'.mp hlive)
      (Nat.add_le_add_left (Nat.le_add_right _ _) e.since)
  · rw [hsame] at he
    obtain ⟨swept, hborn, hpast, hclock, hentries⟩ := h.last
    unfold SweepDue at hearly
    rw [← hclock] at hearly
    calc now ≤ swept + m.ttl / 4 := le_add_of_millis hborn hearly
      _ ≤ e.since + m.ttl + m.ttl / 4 := Nat.add_le_add_right (hentries e he) _
      _ = e.since + (m.ttl + m.ttl / 4) := Nat.add_assoc _ _ _

/-! ## 2. Making room -/

/-- Making room is sweeping, and then at most taking entries out. -/
theorem succeeds_makeRoom (m : TimedMap κ ν) (now : Time) :
    Succeeds now (m.sweep now) (m.makeRoom now) := by
  unfold makeRoom
  simp only
  split
  · exact succeeds_self now _
  · split
    · exact succeeds_of_sublist (List.tail_sublist _)
    · exact succeeds_of_sublist List.filter_sublist

theorem limits_makeRoom (m : TimedMap κ ν) (now : Time) : SameLimits m (m.makeRoom now) :=
  (limits_sweep m now).trans (succeeds_makeRoom m now).limits

theorem Swept.makeRoom (h : Swept now m) : Swept now (m.makeRoom now) :=
  h.sweep.succeeds (succeeds_makeRoom m now)

theorem mem_sweep_of_mem_makeRoom (he : e ∈ (m.makeRoom now).entries) :
    e ∈ (m.sweep now).entries := by
  unfold TimedMap.makeRoom at he
  simp only at he
  split at he
  · exact he
  · split at he
    · exact List.mem_of_mem_tail he
    · exact mem_of_mem_purge he

/-- **Making room leaves no entry behind that is older than the time to live and a quarter.** -/
theorem Swept.young_makeRoom (h : Swept now m) :
    ∀ e ∈ (m.makeRoom now).entries, now ≤ e.since + (m.ttl + m.ttl / 4) :=
  fun e he => h.young_sweep e (mem_sweep_of_mem_makeRoom he)

theorem Swept.lastSweep_makeRoom (h : Swept now m) :
    m.lastSweep ≤ (m.makeRoom now).lastSweep ∧
      (m.SweepDue now → (m.makeRoom now).lastSweep = m.clock now) := by
  rw [(succeeds_makeRoom m now).lastSweep]
  rcases sweep_cases m now with ⟨-, hswept⟩ | ⟨hearly, hsame⟩
  · rw [hswept]
    exact ⟨h.lastSweep_le, fun _ => rfl⟩
  · rw [hsame]
    exact ⟨Nat.le_refl _, fun hdue => absurd hdue hearly⟩

/-! ## 3. Purging -/

/-- A purge takes out the expired entries and no others. -/
theorem mem_purge : e ∈ (m.purge now).entries ↔ e ∈ m.entries ∧ now - e.since ≤ m.ttl :=
  List.mem_filter.trans (and_congr_right' decide_eq_true_iff)

/-- **A purge counts what it takes out**: the entries that are older than the time to live. -/
theorem expired_eq_countP (m : TimedMap κ ν) (now : Time) :
    m.expired now = m.entries.countP fun e => m.ttl < now - e.since := by
  have hcount : m.entries.length = m.entries.countP (isLive m.ttl now) +
      m.entries.countP fun e => decide ¬ isLive m.ttl now e = true :=
    List.length_eq_countP_add_countP _
  have hexpired : (m.entries.countP fun e => decide ¬ isLive m.ttl now e = true) =
      m.entries.countP fun e => m.ttl < now - e.since :=
    List.countP_congr fun e _ => by
      unfold isLive
      simp only [decide_eq_true_iff]
      exact Nat.not_le
  rw [hexpired, List.countP_eq_length_filter] at hcount
  show m.entries.length - (m.entries.filter (isLive m.ttl now)).length = _
  omega

/-! ## 4. Every operation -/

variable [DecidableEq κ] {x : Visit κ ν} {visits : List (Visit κ ν)}

theorem succeeds_put (m : TimedMap κ ν) (now : Time) (key : κ) (value : ν) :
    Succeeds now m (m.put now key value) := by
  refine ⟨⟨rfl, rfl, rfl⟩, rfl, fun e he => ?_⟩
  rcases List.mem_append.mp he with he | he
  · exact Or.inr ⟨e, (mem_erase.mp he).1, rfl⟩
  · exact Or.inl (congrArg TimedEntry.since (List.mem_singleton.mp he))

theorem succeeds_insertIfAbsent (m : TimedMap κ ν) (now : Time) (key : κ) (value : ν) :
    Succeeds now (m.makeRoom now) (m.insertIfAbsent now key value).2 := by
  unfold insertIfAbsent
  simp only
  split
  · exact succeeds_self now _
  · exact succeeds_put _ now key value

theorem succeeds_get? (m : TimedMap κ ν) (now : Time) (key : κ) :
    Succeeds now m (m.get? now key).2 := by
  unfold get?
  split
  · exact succeeds_self now m
  · exact succeeds_of_sublist List.filter_sublist

theorem succeeds_update (m : TimedMap κ ν) (now : Time) (key : κ) (change : ν → ν) :
    Succeeds now m (m.update now key change).2 := by
  rcases update_cases change m now key with ⟨-, hsame⟩ | hchanged
  · rw [hsame]
    exact succeeds_self now m
  · rw [hchanged]
    refine ⟨⟨rfl, rfl, rfl⟩, rfl, fun e he => Or.inr ?_⟩
    obtain ⟨a, ha, rfl⟩ := List.mem_map.mp he
    exact ⟨a, ha, (changeAt_since change a).symm⟩

/-- The map that an operation finds: one that may put an entry in finds it with room. -/
def prepared (m : TimedMap κ ν) (x : Visit κ ν) : TimedMap κ ν :=
  if x.operation.inserts then m.makeRoom x.now else m

/-- **An operation makes no entry older**, and sweeps only for room. -/
theorem succeeds_perform (m : TimedMap κ ν) (x : Visit κ ν) :
    Succeeds x.now (m.prepared x) (m.perform x).2 := by
  obtain ⟨now, operation⟩ := x
  cases operation with
  | insert key value => exact succeeds_put _ now key value
  | insertIfAbsent key value => exact succeeds_insertIfAbsent m now key value
  | get key => exact succeeds_get? m now key
  | contains key => exact succeeds_get? m now key
  | remove key => exact succeeds_of_sublist List.filter_sublist
  | update key change => exact succeeds_update m now key change
  | purge => exact succeeds_of_sublist List.filter_sublist
  | clear => exact succeeds_of_sublist (List.nil_sublist _)

omit [DecidableEq κ] in
theorem Swept.prepared (h : Swept x.now m) : Swept x.now (m.prepared x) := by
  unfold TimedMap.prepared
  split
  · exact h.makeRoom
  · exact h

/-- **Every operation keeps the map swept.** -/
theorem Swept.perform (h : Swept before m) (order : before ≤ x.now) :
    Swept x.now (m.perform x).2 :=
  (h.later order).prepared.succeeds (succeeds_perform m x)

theorem limits_perform (m : TimedMap κ ν) (x : Visit κ ν) : SameLimits m (m.perform x).2 := by
  refine SameLimits.trans ?_ (succeeds_perform m x).limits
  unfold prepared
  split
  · exact limits_makeRoom m x.now
  · exact .refl m

/-- After an operation that may put an entry in no entry is older than the time to live and a
quarter. -/
theorem Swept.young_perform (h : Swept x.now m) (inserts : x.operation.inserts = true) :
    ∀ e ∈ (m.perform x).2.entries, x.now ≤ e.since + (m.ttl + m.ttl / 4) := by
  have hsucceeds := succeeds_perform m x
  unfold TimedMap.prepared at hsucceeds
  rw [if_pos inserts] at hsucceeds
  intro e he
  rcases hsucceeds.since e he with hnow | ⟨a, ha, hsince⟩
  · rw [hnow]
    exact Nat.le_add_right _ _
  · rw [← hsince]
    exact h.young_makeRoom a ha

/-- The visit sweeps the map because a sweep is due. -/
def SweptBy (m : TimedMap κ ν) (x : Visit κ ν) : Prop :=
  x.operation.inserts = true ∧ m.SweepDue x.now

/-- The last sweep is never an earlier one than before, and it is now where one was due. -/
theorem Swept.lastSweep_perform (h : Swept x.now m) :
    m.lastSweep ≤ (m.perform x).2.lastSweep ∧
      (m.SweptBy x → (m.perform x).2.lastSweep = m.clock x.now) := by
  rw [(succeeds_perform m x).lastSweep]
  unfold TimedMap.prepared SweptBy
  split
  · obtain ⟨hmono, hdue⟩ := h.lastSweep_makeRoom
    exact ⟨hmono, fun hswept => hdue hswept.2⟩
  · rename_i hinserts
    exact ⟨Nat.le_refl _, fun hswept => absurd hswept.1 hinserts⟩

/-! ## 5. Every sequence of operations -/

theorem after_snoc (m : TimedMap κ ν) (visits : List (Visit κ ν)) (x : Visit κ ν) :
    m.after (visits ++ [x]) = ((m.after visits).perform x).2 := by
  unfold after
  rw [List.foldl_append]
  rfl

theorem limits_after (m : TimedMap κ ν) (visits : List (Visit κ ν)) :
    SameLimits m (m.after visits) := by
  induction visits generalizing m with
  | nil => exact .refl m
  | cons x visits ih => exact (limits_perform m x).trans (ih (m.perform x).2)

/-- A sequence of operations keeps the map swept, and its last sweep is none before. -/
theorem Swept.after (h : Swept before m) (order : InOrder visits)
    (start : ∀ x ∈ visits, before ≤ x.now) (finish : ∀ x ∈ visits, x.now ≤ now)
    (past : before ≤ now) : Swept now (m.after visits) ∧ m.lastSweep ≤ (m.after visits).lastSweep := by
  induction visits generalizing before m with
  | nil => exact ⟨h.later past, Nat.le_refl _⟩
  | cons x visits ih =>
    obtain ⟨hlater, hrest⟩ := List.pairwise_cons.mp order
    have hnow := h.later (start x List.mem_cons_self)
    obtain ⟨hswept, hmono⟩ := ih (hnow.perform (Nat.le_refl _)) hrest hlater
      (fun y hy => finish y (List.mem_cons_of_mem x hy)) (finish x List.mem_cons_self)
    exact ⟨hswept, Nat.le_trans hnow.lastSweep_perform.1 hmono⟩

/-- **Sweeps that are due lie a quarter of the time to live apart**, on the clock of the map. -/
theorem Swept.apart {between : List (Visit κ ν)} {y : Visit κ ν} (h : Swept x.now m)
    (order : InOrder (x :: between ++ [y])) (first : m.SweptBy x)
    (second : (m.after (x :: between)).SweptBy y) :
    m.clock x.now + Time.millis (m.ttl / 4) ≤ m.clock y.now := by
  obtain ⟨hlater, hrest⟩ := List.pairwise_cons.mp order
  obtain ⟨hbetween, -, hcross⟩ := List.pairwise_append.mp hrest
  have hlimits := limits_after m (x :: between)
  have hnow : (m.perform x).2.lastSweep = m.clock x.now := h.lastSweep_perform.2 first
  obtain ⟨hswept, hmono⟩ := (h.perform (Nat.le_refl _)).after hbetween
    (fun z hz => hlater z (List.mem_append_left _ hz))
    (fun z hz => hcross z hz y List.mem_cons_self) (hlater y (by simp))
  have hpast : (m.after (x :: between)).lastSweep ≤ (m.after (x :: between)).clock y.now :=
    hswept.lastSweep_le
  have hdue := second.2
  unfold SweepDue at hdue
  rw [hlimits.ttl, hlimits.clock] at hdue
  rw [hlimits.clock] at hpast
  have hsince : m.clock x.now ≤ (m.after (x :: between)).lastSweep := hnow ▸ hmono
  omega

variable {ttl : Time} {maxEntries : Nat} {created : Time}

/-- Whoever comes to a map finds it swept. -/
theorem swept_of_run {earlier later : List (Visit κ ν)} (order : InOrder (earlier ++ x :: later))
    (born : ∀ y ∈ earlier ++ x :: later, created ≤ y.now) :
    Swept x.now ((make ttl maxEntries created).after earlier : TimedMap κ ν) := by
  obtain ⟨hearlier, -, hcross⟩ := List.pairwise_append.mp order
  exact ((swept_make ttl maxEntries created).after hearlier
    (fun y hy => born y (List.mem_append_left _ hy))
    (fun y hy => hcross y hy x List.mem_cons_self)
    (born x (List.mem_append_right _ List.mem_cons_self))).1

theorem keeping_of_run (order : InOrder visits) :
    ∃ now, Keeping now ((make ttl maxEntries created).after visits : TimedMap κ ν) := by
  have hmade := keeping_make (κ := κ) (ν := ν) ttl maxEntries created 0
  rcases List.eq_nil_or_concat visits with rfl | ⟨earlier, x, rfl⟩
  · exact ⟨0, hmade⟩
  · rw [List.concat_eq_append] at order ⊢
    refine ⟨x.now, keeping_after hmade order (fun _ _ => Nat.zero_le _) (fun y hy => ?_)
      (Nat.zero_le _)⟩
    rcases List.mem_append.mp hy with hy | hy
    · exact (List.pairwise_append.mp order).2.2 y hy x List.mem_cons_self
    · exact Nat.le_of_eq (congrArg Visit.now (List.mem_singleton.mp hy))

/-- **What a map holds is bounded** after the visits, in number and in age. -/
structure Bounded (ttl : Time) (maxEntries : Nat) (created : Time) (visits : List (Visit κ ν)) :
    Prop where
  /-- There are no more entries than the map may hold, expired ones included. -/
  few : ((make ttl maxEntries created).after visits).size ≤ max maxEntries 1
  /-- Right after an insertion, made or refused, no entry is older than the time to live and a
  quarter. -/
  young : ∀ earlier x, visits = earlier ++ [x] → x.operation.inserts = true →
    ∀ e ∈ ((make ttl maxEntries created).after visits).entries,
      x.now ≤ e.since + (ttl + ttl / 4)
  /-- Sweeps that are due lie a quarter of the time to live apart, in whole milliseconds since the
  map was made. -/
  rare : ∀ earlier x between y, visits = earlier ++ (x :: between ++ [y]) →
    ((make ttl maxEntries created).after earlier).SweptBy x →
    ((make ttl maxEntries created).after (earlier ++ x :: between)).SweptBy y →
      Time.millis (x.now - created) + Time.millis (ttl / 4) ≤ Time.millis (y.now - created)
  /-- A purge at any time takes out the expired entries, all of them and no others, and counts
  them. -/
  purged : ∀ now, ((make ttl maxEntries created).after visits).expired now =
      (((make ttl maxEntries created).after visits).entries.countP fun e => ttl < now - e.since) ∧
    ∀ e, e ∈ (((make ttl maxEntries created).after visits).purge now).entries ↔
      e ∈ ((make ttl maxEntries created).after visits).entries ∧ now - e.since ≤ ttl

/-- **A map does not grow beyond its bounds.** Whatever is done with it from the instant when it is
made, as long as the clock does not go back: the entries are never more than it may hold, and although
it is swept only once in a quarter of the time to live, an insertion leaves none behind that is older
than the time to live and a quarter. -/
theorem bounded_of_run (ttl : Time) (maxEntries : Nat) (created : Time) {visits : List (Visit κ ν)}
    (order : InOrder visits) (born : ∀ x ∈ visits, created ≤ x.now) :
    Bounded ttl maxEntries created visits := by
  have hlimits := limits_after (make ttl maxEntries created : TimedMap κ ν)
  constructor
  · obtain ⟨now, hkeeping⟩ : ∃ now,
        Keeping now ((make ttl maxEntries created).after visits : TimedMap κ ν) :=
      keeping_of_run order
    have hbounded := hkeeping.bounded
    rwa [(hlimits visits).maxEntries] at hbounded
  · intro earlier x hvisits hinserts e he
    subst hvisits
    rw [after_snoc] at he
    have hyoung := (swept_of_run order born).young_perform hinserts e he
    rwa [(hlimits earlier).ttl] at hyoung
  · intro earlier x between y hvisits hfirst hsecond
    subst hvisits
    have happend : (make ttl maxEntries created : TimedMap κ ν).after (earlier ++ x :: between) =
        ((make ttl maxEntries created).after earlier).after (x :: between) := List.foldl_append
    rw [happend] at hsecond
    have hswept : Swept x.now ((make ttl maxEntries created).after earlier : TimedMap κ ν) :=
      swept_of_run order born
    have hapart := hswept.apart (List.pairwise_append.mp order).2.1 hfirst hsecond
    rwa [(hlimits earlier).ttl, (hlimits earlier).clock, (hlimits earlier).clock] at hapart
  · intro now
    have httl : ((make ttl maxEntries created : TimedMap κ ν).after visits).ttl = ttl :=
      (hlimits visits).ttl
    rw [expired_eq_countP, httl]
    refine ⟨rfl, fun e => ?_⟩
    rw [mem_purge, httl]

/-! ## 6. An entry past its time -/

/-- Nine milliseconds and a half of a map whose entries live for eight. -/
def lingering : List (Visit Nat Nat) :=
  [⟨0, .insert 1 10⟩, ⟨.ofMillis 8, .insert 2 20⟩, ⟨9500000, .insertIfAbsent 2 21⟩]

/-- The first entry has expired, and at an insertion that was refused it is still there. -/
theorem bounded_lingering : InOrder lingering ∧ (∀ x ∈ lingering, 0 ≤ x.now) ∧
    Bounded (.ofMillis 8) 3 0 lingering ∧
    ((make (.ofMillis 8) 3 0).after lingering).entries.map (·.key) = [1, 2] := by
  have horder : InOrder lingering := by decide
  have hborn : ∀ x ∈ lingering, 0 ≤ x.now := fun _ _ => Nat.zero_le _
  exact ⟨horder, hborn, bounded_of_run (.ofMillis 8) 3 0 horder hborn, by decide⟩

end AccessGate.TimedMap
