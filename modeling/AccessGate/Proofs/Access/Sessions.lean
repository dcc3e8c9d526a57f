import AccessGate.Proofs.Access.Acceptance
import AccessGate.Proofs.Histories
import AccessGate.Proofs.Store.Live

/-!
# Whom a session lets pass

A session is a memory of the service's word, so a user whom the service is not asked about must have
had that word before. Here are all runs of the second factor, starts and answers to challenges of any
clients, users and stations, while there is room for one more session:

* `settle_sessions`: only an answer that grants of the service's own accord opens a session;
* `remembers_of_run`: the sessions that are live are those that such an answer opened at most the
  lifetime ago;
* `bypass_iff_remembered`: a session lets a user pass exactly when there is such an answer, for a
  client of the same name, from the same station and for the same user in lower case.
-/

namespace AccessGate

open Dialogue Verification

/-! ## 1. The table of sessions -/

namespace Sessions

variable {s : Sessions} {now t : Time} {client user : String} {station : Option String}

theorem isEnabled_iff : s.isEnabled = true ↔ s.table.ttl ≠ 0 := by
  unfold isEnabled
  rw [decide_eq_true_iff]

/-- To look for a session is to look a key up, or not to look at all. -/
theorem looked_check (distinct : s.table.Distinct) :
    TimedMap.Looked now s.table (s.check now client station user).2.table := by
  cases station with
  | none => exact .refl now s.table
  | some place =>
    unfold check
    simp only
    split
    · exact TimedMap.looked_get? distinct now (key client place user)
    · exact .refl now s.table

/-- A session is opened where there is a station and sessions are kept. -/
theorem record_cases (s : Sessions) (now : Time) (client : String) (station : Option String)
    (user : String) :
    (station = none ∨ s.isEnabled = false) ∧ s.record now client station user = s ∨
    ∃ place, station = some place ∧ s.isEnabled = true ∧
      s.record now client station user = ⟨s.table.insert now (key client place user) ()⟩ := by
  cases station with
  | none => exact Or.inl ⟨Or.inl rfl, rfl⟩
  | some place =>
    unfold record
    simp only
    by_cases hon : s.isEnabled = true
    · rw [if_pos hon]
      exact Or.inr ⟨place, rfl, hon, rfl⟩
    · rw [if_neg hon]
      exact Or.inl ⟨Or.inr (Bool.eq_false_iff.mpr hon), rfl⟩

end Sessions

/-! ## 2. What opens a session -/

namespace SecondFactor

/-- The answer grants, and not because the service itself passed the user over. -/
def GrantsOutright (answer : Except Failure Model) : Prop :=
  ∃ model, answer = .ok model ∧ model.status = .granted ∧ model.bypassed = false

section Settle

variable {s : SecondFactor} {now : Time} {request : Request} {answer : Except Failure Model}

/-- **Only an answer that grants outright opens a session.** -/
theorem settle_sessions (s : SecondFactor) (now : Time) (request : Request)
    (answer : Except Failure Model) :
    GrantsOutright answer ∧ (s.settle now request answer).after.sessions =
      s.sessions.record now request.client.name request.station request.user ∨
    ¬ GrantsOutright answer ∧ (s.settle now request answer).after.sessions = s.sessions := by
  cases answer with
  | error failure =>
    refine Or.inr ⟨?_, rfl⟩
    rintro ⟨model, hmodel, -⟩
    cases hmodel
  | ok model =>
    have houtright : GrantsOutright (.ok model) ↔
        model.status = .granted ∧ model.bypassed = false := by simp [GrantsOutright]
    rw [houtright]
    unfold settle apply
    cases hstatus : model.status with
    | granted =>
      by_cases hby : model.bypassed = true
      · refine Or.inr ⟨fun h => ?_, ?_⟩
        · rw [hby] at h
          cases h.2
        · simp only [hstatus, hby, if_true]
      · refine Or.inl ⟨⟨rfl, Bool.eq_false_iff.mpr hby⟩, ?_⟩
        simp only [hstatus, hby, Bool.false_eq_true, ↓reduceIte]
    | denied =>
      refine Or.inr ⟨fun h => absurd h.1 nofun, ?_⟩
      simp only [hstatus]
    | awaiting =>
      refine Or.inr ⟨fun h => absurd h.1 nofun, ?_⟩
      simp only [hstatus]
    | unknown =>
      refine Or.inr ⟨fun h => absurd h.1 nofun, ?_⟩
      simp only [hstatus]

theorem restore_sessions {token : String} {restored : Request} {s' : SecondFactor}
    (h : s.restore now request token = (restored, s')) : s'.sessions = s.sessions := by
  unfold restore at h
  split at h
  · obtain ⟨-, rfl⟩ := Prod.mk.inj h
    rfl
  · obtain ⟨-, rfl⟩ := Prod.mk.inj h
    rfl

@[simp] theorem closing_sessions (t : Settled) (token : String) :
    (t.closing now token).after.sessions = t.after.sessions := by
  unfold Settled.closing
  split <;> rfl

end Settle

/-! ## 3. Runs -/

/-- One use of the second factor: a start, or the answer to the challenge of a token, with what was
exchanged and how it ended. -/
structure Turn (V : Type) where
  now : Time
  request : Request
  challenge : Option String
  exchanges : Exchanges V
  settled : Settled

namespace Turn

variable {V : Type}

/-- What the factor does for the turn. -/
def talk (x : Turn V) (s : SecondFactor) : Talk V Settled :=
  match x.challenge with
  | none => s.create x.now x.request
  | some token => s.answer x.now x.request token

/-- The service granted outright. -/
def Granted (x : Turn V) : Prop :=
  ∃ client call answer, ⟨.service client call, answer⟩ ∈ x.exchanges ∧ GrantsOutright answer

/-- A session lets the user pass. -/
def Bypassed (x : Turn V) : Prop := x.settled.factor = .bypass ∧ x.exchanges = []

/-- The turn opens a session under the key, where sessions last for the lifetime. -/
def Opens (lifetime : Time) (x : Turn V) (k : SessionKey) : Prop :=
  lifetime ≠ 0 ∧ x.Granted ∧ ∃ place, x.request.station = some place ∧
    k = Sessions.key x.request.client.name place x.request.user

theorem Opens.unique {lifetime : Time} {x : Turn V} {k k' : SessionKey} (h : x.Opens lifetime k)
    (h' : x.Opens lifetime k') : k = k' := by
  obtain ⟨-, -, place, hplace, hkey⟩ := h
  obtain ⟨-, -, place', hplace', hkey'⟩ := h'
  obtain rfl : place = place' := Option.some.inj (hplace.symm.trans hplace')
  exact hkey.trans hkey'.symm

theorem granted_iff {client : Client} {call : Call} {answer : Except Failure Model} {x : Turn V}
    (asked : x.exchanges = [⟨.service client call, answer⟩]) :
    x.Granted ↔ GrantsOutright answer := by
  unfold Granted
  rw [asked]
  constructor
  · rintro ⟨client', call', answer', hmem, h⟩
    obtain ⟨⟩ := List.mem_singleton.mp hmem
    exact h
  · intro h
    exact ⟨client, call, answer, List.mem_singleton_self _, h⟩

theorem not_granted {x : Turn V} (unasked : x.exchanges = []) : ¬ x.Granted := by
  rintro ⟨client, call, answer, hmem, -⟩
  rw [unasked] at hmem
  cases hmem

/-- The service granted outright to the user of the turn: to a client of the same name, from the
same station, under the same name in lower case, and at most the lifetime ago. -/
def Remembered (lifetime : Time) (earlier : List (Turn V)) (x : Turn V) : Prop :=
  ∃ station, x.request.station = some station ∧ ∃ y ∈ earlier, y.Granted ∧
    y.request.client.name = x.request.client.name ∧ y.request.station = some station ∧
    Text.lower y.request.user = Text.lower x.request.user ∧ x.now - y.now ≤ lifetime

end Turn

variable {V : Type} {s : SecondFactor} {x : Turn V} {turns : List (Turn V)}
  {lifetime challengeTtl started : Time}

/-- What the factor does for a turn while there is room for one more session. -/
structure Serves (s : SecondFactor) (x : Turn V) : Prop where
  trace : Trace (x.talk s) x.exchanges x.settled
  room : s.sessions.table.HasRoom x.now

/-- The turns led from no sessions to this, and the clock never went back. -/
abbrev Run (lifetime challengeTtl started : Time) : List (Turn V) → SecondFactor → Prop :=
  History (fun y x : Turn V => y.now ≤ x.now) Serves (fun x => x.settled.after)
    (make lifetime challengeTtl started)

/-- A turn looks for a session, and opens one where the service grants outright. -/
theorem Serves.sessions (h : s.Serves x) (distinct : s.sessions.table.Distinct) :
    ∃ looked : Sessions, TimedMap.Looked x.now s.sessions.table looked.table ∧
      (x.Granted ∧ x.settled.after.sessions =
          looked.record x.now x.request.client.name x.request.station x.request.user ∨
        ¬ x.Granted ∧ x.settled.after.sessions = looked) := by
  have htrace := h.trace
  unfold Turn.talk at htrace
  cases hchallenge : x.challenge with
  | none =>
    rw [hchallenge] at htrace
    obtain ⟨-, hes, ht⟩ | ⟨found, sessions, hcheck, hways⟩ := create_cases htrace
    · refine ⟨s.sessions, .refl _ _, Or.inr ⟨Turn.not_granted hes, ?_⟩⟩
      rw [ht]
    · have hlooked : TimedMap.Looked x.now s.sessions.table sessions.table := by
        obtain rfl : (s.sessions.check x.now x.request.client.name x.request.station
            x.request.user).2 = sessions := congrArg Prod.snd hcheck
        exact Sessions.looked_check distinct
      refine ⟨sessions, hlooked, ?_⟩
      rcases hways with ⟨-, hes, ht⟩ | ⟨-, answer, hes, ht⟩
      · refine Or.inr ⟨Turn.not_granted hes, ?_⟩
        rw [ht]
      · rw [Turn.granted_iff hes, ht]
        exact settle_sessions _ _ _ _
  | some token =>
    rw [hchallenge] at htrace
    obtain ⟨-, hes, ht⟩ | ⟨restored, s', hrestore, answer, hes, ht⟩ := answer_cases htrace
    · refine ⟨s.sessions, .refl _ _, Or.inr ⟨Turn.not_granted hes, ?_⟩⟩
      rw [ht]
    · have same := restore_submission hrestore
      refine ⟨s.sessions, .refl _ _, ?_⟩
      rw [Turn.granted_iff hes, ht, closing_sessions, ← restore_sessions hrestore, ← same.client,
        ← same.station, ← same.user]
      exact settle_sessions _ _ _ _

/-- **What a turn does to the table**: after a look-up one session goes in, or none. -/
theorem Serves.table (h : s.Serves x) (distinct : s.sessions.table.Distinct) :
    ∃ m, TimedMap.Looked x.now s.sessions.table m ∧
      ((∃ k, x.Opens s.sessions.table.ttl k ∧
          x.settled.after.sessions.table = m.insert x.now k ()) ∨
        (∀ k, ¬ x.Opens s.sessions.table.ttl k) ∧ x.settled.after.sessions.table = m) := by
  obtain ⟨looked, hlooked, ⟨hgranted, hafter⟩ | ⟨hnot, hafter⟩⟩ := h.sessions distinct
  · have hon : looked.isEnabled = true ↔ s.sessions.table.ttl ≠ 0 := by
      rw [Sessions.isEnabled_iff, hlooked.thinned.ttl]
    rw [hafter]
    refine ⟨looked.table, hlooked, ?_⟩
    obtain ⟨hoff, hsame⟩ | ⟨place, hplace, henabled, hinsert⟩ := Sessions.record_cases looked x.now
      x.request.client.name x.request.station x.request.user
    · rw [hsame]
      refine Or.inr ⟨?_, rfl⟩
      rintro k ⟨hlifetime, -, place, hplace, -⟩
      rcases hoff with hnone | hoff
      · rw [hnone] at hplace
        cases hplace
      · exact absurd (hon.mpr hlifetime) (Bool.eq_false_iff.mp hoff)
    · rw [hinsert]
      exact Or.inl ⟨_, ⟨hon.mp henabled, hgranted, place, hplace, rfl⟩, rfl⟩
  · rw [hafter]
    exact ⟨looked.table, hlooked, Or.inr ⟨fun k h => hnot h.2.1, rfl⟩⟩

/-- One of the turns opened a session under the key that is not too old at the instant. -/
def Told (lifetime : Time) (turns : List (Turn V)) (t : Time) (k : SessionKey) : Prop :=
  ∃ y ∈ turns, y.Opens lifetime k ∧ t - y.now ≤ lifetime

theorem told_snoc_of_silent {t : Time} {k : SessionKey} (silent : ¬ x.Opens lifetime k) :
    Told lifetime (turns ++ [x]) t k ↔ Told lifetime turns t k := by
  constructor
  · rintro ⟨y, hy, hopens, hage⟩
    rcases List.mem_append.mp hy with hy | hy
    · exact ⟨y, hy, hopens, hage⟩
    · rw [List.mem_singleton.mp hy] at hopens
      exact absurd hopens silent
  · rintro ⟨y, hy, hrest⟩
    exact ⟨y, List.mem_append_left _ hy, hrest⟩

/-- What the latest turn opened is as young as anything. -/
theorem told_snoc_of_opens {t : Time} {k : SessionKey} (order : ∀ y ∈ turns, y.now ≤ x.now)
    (opens : x.Opens lifetime k) :
    Told lifetime (turns ++ [x]) t k ↔ t - x.now ≤ lifetime := by
  constructor
  · rintro ⟨y, hy, -, hage⟩
    have hle : y.now ≤ x.now := by
      rcases List.mem_append.mp hy with hy | hy
      · exact order y hy
      · exact Nat.le_of_eq (congrArg Turn.now (List.mem_singleton.mp hy))
    exact Nat.le_trans (Nat.sub_le_sub_left hle t) hage
  · intro hage
    exact ⟨x, by simp, opens, hage⟩

/-- The live sessions of the table are those that the turns so far have told of. -/
structure Remembers (lifetime : Time) (turns : List (Turn V)) (m : TimedMap SessionKey Unit) :
    Prop where
  ttl : m.ttl = lifetime
  distinct : m.Distinct
  live : ∀ t k, (∀ y ∈ turns, y.now ≤ t) →
    ((m.live? t k).isSome = true ↔ Told lifetime turns t k)

theorem Remembers.look {m m' : TimedMap SessionKey Unit} (h : Remembers lifetime turns m)
    {now : Time} (looked : TimedMap.Looked now m m') (order : ∀ y ∈ turns, y.now ≤ now) (t : Time)
    (k : SessionKey) (past : now ≤ t) :
    (m'.live? t k).isSome = true ↔ Told lifetime turns t k := by
  rw [looked.live t k past]
  exact h.live t k fun y hy => Nat.le_trans (order y hy) past

/-- **A turn keeps the sessions what the turns have told.** -/
theorem Remembers.turn (h : Remembers lifetime turns s.sessions.table)
    (order : ∀ y ∈ turns, y.now ≤ x.now) (serves : s.Serves x) :
    Remembers lifetime (turns ++ [x]) x.settled.after.sessions.table := by
  obtain ⟨m, hlooked, hturn⟩ := serves.table h.distinct
  have httl : m.ttl = lifetime := hlooked.thinned.ttl.trans h.ttl
  have hdistinct : m.Distinct := hlooked.thinned.distinct h.distinct
  have hbefore := h.look hlooked order
  rw [h.ttl] at hturn
  rcases hturn with ⟨k, hopens, hafter⟩ | ⟨hsilent, hafter⟩
  · rw [hafter]
    refine ⟨(TimedMap.insert_ttl ..).trans httl, TimedMap.distinct_insert hdistinct (), ?_⟩
    intro t other past
    have hnow : x.now ≤ t := past x (by simp)
    by_cases hother : other = k
    · rw [hother, told_snoc_of_opens order hopens, TimedMap.live?_insert_self, httl]
      by_cases hage : t - x.now ≤ lifetime
      · simp [hage]
      · simp [hage]
    · have hsilent : ¬ x.Opens lifetime other := fun h => hother (h.unique hopens)
      rw [told_snoc_of_silent hsilent, ← hbefore t other hnow,
        TimedMap.live?_insert_of_ne hdistinct (hlooked.thinned.hasRoom serves.room) hnow hother]
  · rw [hafter]
    refine ⟨httl, hdistinct, fun t k past => ?_⟩
    rw [told_snoc_of_silent (hsilent k)]
    exact hbefore t k (past x (by simp))

/-- **Live sessions are those that an answer of the run opened**, at most the lifetime ago. -/
theorem remembers_of_run (run : Run lifetime challengeTtl started turns s) :
    Remembers lifetime turns s.sessions.table := by
  refine run.preserves (P := fun turns s => Remembers lifetime turns s.sessions.table) ?_ ?_
  · refine ⟨rfl, List.Pairwise.nil, fun t k _ => ?_⟩
    constructor
    · intro h
      cases h
    · rintro ⟨y, hy, -⟩
      cases hy
  · intro turns s x _ ih order serves
    exact ih.turn order serves

/-- A user passes without a call exactly where a session is found. -/
theorem bypassed_iff_check (h : Trace (s.create x.now x.request) x.exchanges x.settled)
    (user : x.request.user ≠ "") : x.Bypassed ↔ (s.sessions.check x.now x.request.client.name
      x.request.station x.request.user).1 = true := by
  obtain ⟨hempty, -, -⟩ | ⟨found, sessions, hcheck, hways⟩ := create_cases h
  · exact absurd (String.isEmpty_iff.mp hempty) user
  · rw [hcheck]
    rcases hways with ⟨hfound, hes, ht⟩ | ⟨hnone, answer, hes, -⟩
    · exact ⟨fun _ => hfound, fun _ => ⟨by rw [ht], hes⟩⟩
    · constructor
      · rintro ⟨-, hunasked⟩
        rw [hes] at hunasked
        cases hunasked
      · intro hfound
        rw [hnone] at hfound
        cases hfound

/-- **A session lets a user pass exactly when the service granted outright before**, at most the
lifetime ago, for a client of the same name, from the same station and for the same user in lower
case; and no other word of the service opens a session. -/
theorem bypass_iff_remembered (run : Run lifetime challengeTtl started turns s)
    (order : ∀ y ∈ turns, y.now ≤ x.now) (serves : s.Serves x) :
    (x.challenge = none → x.request.user ≠ "" →
      (x.Bypassed ↔ lifetime ≠ 0 ∧ x.Remembered lifetime turns)) ∧
    (¬ x.Granted → ∀ e ∈ x.settled.after.sessions.table.entries,
      e ∈ s.sessions.table.entries) := by
  have remembers := remembers_of_run run
  constructor
  · intro starts user
    have htrace := serves.trace
    unfold Turn.talk at htrace
    rw [starts] at htrace
    rw [bypassed_iff_check htrace user, Sessions.check_fst_iff, Sessions.isEnabled_iff,
      remembers.ttl]
    constructor
    · rintro ⟨station, hstation, -, hlive⟩
      obtain ⟨y, hy, ⟨hon, hgranted, place, hplace, hkey⟩, hage⟩ :=
        (remembers.live x.now _ order).mp hlive
      obtain ⟨hclient, rfl, huser⟩ := SessionKey.mk.inj hkey
      exact ⟨hon, station, hstation, y, hy, hgranted, hclient.symm, hplace, huser.symm, hage⟩
    · rintro ⟨hon, station, hstation, y, hy, hgranted, hclient, hplace, huser, hage⟩
      refine ⟨station, hstation, hon, (remembers.live x.now _ order).mpr ?_⟩
      refine ⟨y, hy, ⟨hon, hgranted, station, hplace, ?_⟩, hage⟩
      unfold Sessions.key
      rw [hclient, huser]
  · intro hnot e he
    obtain ⟨m, hlooked, ⟨k, ⟨-, hgranted, -⟩, -⟩ | ⟨-, hafter⟩⟩ := serves.table remembers.distinct
    · exact absurd hgranted hnot
    · rw [hafter] at he
      exact hlooked.thinned.entries.subset he

end SecondFactor

/-! ## 4. Two turns of the sample -/

namespace Login

open SecondFactor

/-- What the device sends for a user of its only station. -/
def atStation (user : String) : Request :=
  let request := request user none
  { request with packet := request.packet.add Radius.Name.callingStationId (.text "station") }

/-- The second factor after it has looked for the user's session. -/
def lookedFor (s : SecondFactor) (now : Time) (user : String) : SecondFactor :=
  let request := atStation user
  { s with sessions :=
    (s.sessions.check now request.client.name request.station request.user).2 }

/-- Alice comes, and the service grants. -/
def aliceGranted : Turn FirstFactor.Verifier where
  now := 1
  request := atStation "Alice"
  challenge := none
  exchanges := [⟨.service (atStation "Alice").client (.access (accessBody (atStation "Alice"))),
    reply .granted "req-1"⟩]
  settled := (lookedFor (.make (.ofSeconds 60) (.ofSeconds 60) 0) 1 "Alice").settle 1
    (atStation "Alice") (reply .granted "req-1")

/-- Alice comes again and writes her name otherwise. -/
def aliceAgain : Turn FirstFactor.Verifier where
  now := 2
  request := atStation "ALICE"
  challenge := none
  exchanges := []
  settled := ⟨.bypass, atStation "ALICE", lookedFor aliceGranted.settled.after 2 "ALICE"⟩

/-- Whoever comes again within a minute passes without a call, however the name is written. -/
theorem alice_passes_again :
    Run (.ofSeconds 60) (.ofSeconds 60) 0 [aliceGranted] aliceGranted.settled.after ∧
      (∀ y ∈ [aliceGranted], y.now ≤ aliceAgain.now) ∧
      aliceGranted.settled.after.Serves aliceAgain ∧ aliceAgain.challenge = none ∧
      aliceAgain.request.user ≠ "" ∧ aliceAgain.Bypassed := by
  have run : Run (.ofSeconds 60) (.ofSeconds 60) 0 [aliceGranted] aliceGranted.settled.after := by
    refine .event [] _ aliceGranted .start (fun y hy => nomatch hy) ⟨?_, by decide⟩
    exact trace_create (by decide +kernel) (by decide +kernel) (reply .granted "req-1")
  have order : ∀ y ∈ [aliceGranted], y.now ≤ aliceAgain.now := by
    intro y hy
    rw [List.mem_singleton.mp hy]
    decide
  have user : aliceAgain.request.user ≠ "" := by decide +kernel
  have named : aliceAgain.request.user.isEmpty = false :=
    Bool.eq_false_iff.mpr fun h => user (String.isEmpty_iff.mp h)
  have serves : aliceGranted.settled.after.Serves aliceAgain :=
    ⟨trace_create_found named (by decide +kernel), by decide +kernel⟩
  refine ⟨run, order, serves, rfl, user, ?_⟩
  refine ((bypass_iff_remembered run order serves).1 rfl user).mpr ⟨by decide, "station", ?_⟩
  refine ⟨by decide +kernel, aliceGranted, List.mem_singleton_self _, ?_, rfl, by decide +kernel,
    by decide +kernel, by decide⟩
  exact (Turn.granted_iff rfl).mpr ⟨_, rfl, rfl, rfl⟩

end Login

end AccessGate
