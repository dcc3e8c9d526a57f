import AccessGate.Proofs.Access.Acceptance
import AccessGate.Proofs.Access.Runs

/-!
# Whose first factor lets a user in

A request that brings back the token of a challenge runs no first factor: the gateway takes the
token's word for it. The store of challenges knows tokens and profiles, and neither users nor
clients, so the token's word is as good as the device that brings it.

* `challenge_opened`: every open challenge was opened by a visit of the run, and by no later one
  anew;
* `rests_of_reached`: from an accepted request one comes, from token to token, to a visit whose
  first factor was passed in its own call;
* `Faithful`: devices bring each token back for the user and from the client that it was given to;
  then that visit was of the same user and client (`holder_of_rests`), and else it need not be.
-/

namespace AccessGate

open Dialogue

variable {V : Type}

/-! ## 1. Tokens between visits -/

/-- The service was asked, and its answer opened a challenge under the token. -/
def Opening (es : Exchanges V) (token : String) : Prop :=
  ∃ client call answer, ⟨.service client call, answer⟩ ∈ es ∧ SecondFactor.Opens answer token

theorem Opening.mono {es es' : Exchanges V} {token : String} (h : Opening es token)
    (sub : es ⊆ es') : Opening es' token := by
  obtain ⟨client, call, answer, hmem, hopens⟩ := h
  exact ⟨client, call, answer, sub hmem, hopens⟩

theorem Opening.not_unasked {es : Exchanges V} {token : String} (h : Opening es token) :
    ¬ Unasked es := by
  obtain ⟨client, call, answer, hmem, -⟩ := h
  intro unasked
  exact absurd (unasked _ hmem) nofun

namespace Visit

/-- A challenge was opened under the token. -/
def Opened (x : Visit V) (token : String) : Prop := Opening x.exchanges token

/-- The visit's first factor was passed in its own call. -/
def PassedFirst (x : Visit V) : Prop := FirstPassed x.request x.exchanges

/-- The visits are of the same user and the same client. -/
def SameHolder (x y : Visit V) : Prop :=
  x.request.user = y.request.user ∧ x.request.client = y.request.client

/-- The visit got past the first factor: it was let in, or the service was asked for it. -/
def Reached (x : Visit V) : Prop :=
  x.routed.outcome = .decision .accept ∨ ¬ Unasked x.exchanges

/-- Of the visits, `opener` was the last that opened a challenge under the token; the visits
`before` came first. -/
def LastOpener (visits : List (Visit V)) (token : String) (before : List (Visit V))
    (opener : Visit V) : Prop :=
  ∃ between, visits = before ++ opener :: between ∧ opener.Opened token ∧
    ∀ y ∈ between, ¬ y.Opened token

/-- After the visits `earlier`, `x` brings back the token of a challenge that `opener` opened. -/
def Answers (x : Visit V) (earlier before : List (Visit V)) (opener : Visit V) : Prop :=
  ∃ token, x.request.token = some token ∧ LastOpener earlier token before opener

/-- After the visits `earlier`, `x` leads from token to token back to `origin`. -/
inductive Rests : List (Visit V) → Visit V → Visit V → Prop where
  | own (earlier : List (Visit V)) (x : Visit V) : Rests earlier x x
  | answer (earlier before : List (Visit V)) (x opener origin : Visit V)
      (answers : x.Answers earlier before opener) (rest : Rests before opener origin) :
      Rests earlier x origin

end Visit

open Visit

/-- Each token is brought back for the user and from the client that got it last. -/
def Faithful (visits : List (Visit V)) : Prop :=
  ∀ earlier x later before opener, visits = earlier ++ x :: later →
    x.Answers earlier before opener → x.SameHolder opener

/-- The first visits of a faithful run are faithful. -/
theorem faithful_append {visits more : List (Visit V)} (h : Faithful (visits ++ more)) :
    Faithful visits := by
  intro earlier x later before opener cut answers
  refine h earlier x (later ++ more) before opener ?_ answers
  rw [cut, List.append_assoc, List.cons_append]

/-- Visits that are all of one user and one client are faithful. -/
theorem faithful_of_holder {visits : List (Visit V)} (y : Visit V)
    (h : ∀ x ∈ visits, x.SameHolder y) : Faithful visits := by
  rintro earlier x later before opener rfl ⟨token, -, between, rfl, -⟩
  have hx := h x (by simp)
  have hopener := h opener (by simp)
  exact ⟨hx.1.trans hopener.1.symm, hx.2.trans hopener.2.symm⟩

/-- The visit that another rests on is that one or came before it. -/
theorem mem_of_rests {earlier : List (Visit V)} {x origin : Visit V}
    (h : Rests earlier x origin) : origin = x ∨ origin ∈ earlier := by
  induction h with
  | own => exact Or.inl rfl
  | answer earlier before x opener origin answers rest ih =>
    obtain ⟨token, -, between, rfl, -⟩ := answers
    rcases ih with rfl | hmem
    · exact Or.inr (List.mem_append_right _ List.mem_cons_self)
    · exact Or.inr (List.mem_append_left _ hmem)

/-- **In a faithful run a visit rests on one of its own user and client.** -/
theorem holder_of_rests {earlier : List (Visit V)} {x origin : Visit V}
    (h : Rests earlier x origin) (faithful : Faithful (earlier ++ [x])) : origin.SameHolder x := by
  induction h with
  | own => exact ⟨rfl, rfl⟩
  | answer earlier before x opener origin answers rest ih =>
    obtain ⟨huser, hclient⟩ := faithful earlier x [] before opener rfl answers
    obtain ⟨token, -, between, rfl, -⟩ := answers
    -- the visits up to the opener are the first of this run, and so faithful themselves
    rw [List.append_assoc, ← List.singleton_append, List.append_assoc, ← List.append_assoc]
      at faithful
    obtain ⟨huser', hclient'⟩ := ih (faithful_append faithful)
    exact ⟨huser'.trans huser.symm, hclient'.trans hclient.symm⟩

/-! ## 2. Open challenges -/

namespace SecondFactor

variable {s : SecondFactor} {now : Time} {request : Request} {es : Exchanges V} {t : Settled}
  {e : TimedEntry String Profile}

/-- A challenge that the start of a second factor did not open was open before. -/
theorem mem_create (h : Trace (s.create now request) es t) (he : e ∈ t.after.challenges.entries)
    (old : ¬ Opening es e.key) : e ∈ s.challenges.entries := by
  obtain ⟨-, -, rfl⟩ | ⟨found, sessions, -, ⟨-, -, rfl⟩ | ⟨-, answer, rfl, rfl⟩⟩ := create_cases h
  · exact he
  · exact he
  · rcases mem_settle he with hopens | ⟨hmem, -⟩
    · exact absurd ⟨_, _, answer, List.mem_singleton_self _, hopens⟩ old
    · exact hmem

/-- A challenge that the answer to one did not open was open before. -/
theorem mem_answer {token : String} (h : Trace (s.answer now request token) es t)
    (he : e ∈ t.after.challenges.entries) (old : ¬ Opening es e.key) :
    e ∈ s.challenges.entries := by
  obtain ⟨-, -, rfl⟩ | ⟨restored, s', hrestore, reply, rfl, rfl⟩ := answer_cases h
  · exact he
  · rcases mem_settle (mem_closing he) with hopens | ⟨hmem, -⟩
    · exact absurd ⟨_, _, reply, List.mem_singleton_self _, hopens⟩ old
    · exact mem_restore hrestore hmem

end SecondFactor

namespace Router

variable {r₀ r : Router V} {visits : List (Visit V)} {x : Visit V}

section Step

variable {now : Time} {request : Request} {es : Exchanges V} {d : Routed V}
  {e : TimedEntry String Profile}

theorem mem_accepted (h : Trace (r.accepted now request) es d)
    (he : e ∈ d.router.secondFactor.challenges.entries) (old : ¬ Opening es e.key) :
    e ∈ r.secondFactor.challenges.entries := by
  obtain ⟨-, -, rfl⟩ | ⟨-, s, hs, rfl⟩ := accepted_cases h
  · exact he
  · exact SecondFactor.mem_create hs he old

theorem halted_secondFactor (r : Router V) (p : PasswordChanges.Progress) :
    (r.halted p).router.secondFactor = r.secondFactor := by
  unfold halted
  split <;> rfl

/-- **A challenge that a visit did not open was open before**, whatever way the visit took. -/
theorem Way.mem_challenges (h : r.Way now request es d)
    (he : e ∈ d.router.secondFactor.challenges.entries) (old : ¬ Opening es e.key) :
    e ∈ r.secondFactor.challenges.entries := by
  cases h with
  | unserved r' fault looked find => exact looked.challenges e he
  | passed r' verifier report reply looked pass => exact looked.challenges e he
  | refused r' verifier report looked pass outcome => exact looked.challenges e he
  | asked r' verifier report domain es p looked pass outcome start =>
    rw [halted_secondFactor] at he
    exact looked.challenges e he
  | verified r' verifier report es d looked pass outcome rest =>
    have hopen := mem_accepted rest he fun h => old (h.mono (List.subset_cons_self _ _))
    exact looked.challenges e hopen
  | resumed r' verifier token es p looked holds carries answer step =>
    rw [halted_secondFactor] at he
    exact looked.challenges e he
  | changed r' verifier token es es' p d looked holds carries answer step rest =>
    have hopen := mem_accepted rest he fun h => old (h.mono (List.subset_append_right _ _))
    exact looked.challenges e hopen
  | answered r' token es s looked holds carries answer =>
    exact looked.challenges e (SecondFactor.mem_answer answer he old)

end Step

theorem mem_challenges_of_serves (serves : r.Serves x) {e : TimedEntry String Profile}
    (he : e ∈ x.routed.router.secondFactor.challenges.entries) (old : ¬ x.Opened e.key) :
    e ∈ r.secondFactor.challenges.entries := by
  cases hstatus : x.request.isStatusServer with
  | true =>
    obtain ⟨-, hsame⟩ := trace_status hstatus serves.trace
    rwa [hsame] at he
  | false => exact (way_of_trace hstatus serves.trace).mem_challenges he old

/-- **Every open challenge was opened by a visit of the run.** -/
theorem challenge_opened (none : r₀.secondFactor.challenges.entries = [])
    (run : Run r₀ visits r) : ∀ e ∈ r.secondFactor.challenges.entries,
      ∃ before opener, LastOpener visits e.key before opener := by
  refine run_preserves (P := fun visits r => ∀ e ∈ r.secondFactor.challenges.entries,
    ∃ before opener, LastOpener visits e.key before opener) ?_ ?_ run
  · intro e he
    rw [none] at he
    cases he
  · intro visits r x _ ih serves e he
    by_cases hopened : x.Opened e.key
    · exact ⟨visits, x, [], rfl, hopened, fun _ h => nomatch h⟩
    · obtain ⟨before, opener, between, rfl, hopener, hbetween⟩ :=
        ih e (mem_challenges_of_serves serves he hopened)
      refine ⟨before, opener, between ++ [x], by simp, hopener, ?_⟩
      intro y hy
      rcases List.mem_append.mp hy with hy | hy
      · exact hbetween y hy
      · rw [List.mem_singleton.mp hy]
        exact hopened

/-! ## 3. What an acceptance rests on -/

/-- A visit that got past the first factor passed it, or answers a challenge. -/
theorem passedFirst_or_answers (none : r₀.secondFactor.challenges.entries = [])
    (run : Run r₀ visits r) (serves : r.Serves x) (status : x.request.isStatusServer = false)
    (reached : x.Reached) :
    x.PassedFirst ∨ ∃ before opener, x.Answers visits before opener := by
  rcases (way_of_trace status serves.trace).firstPassed serves.new reached with
    hfirst | ⟨token, carries, -, hlive⟩
  · exact Or.inl hfirst
  · obtain ⟨e, he⟩ := Option.isSome_iff_exists.mp hlive
    obtain ⟨hmem, rfl⟩ := TimedMap.mem_of_live? he
    obtain ⟨before, opener, hlast⟩ := challenge_opened none run e hmem
    exact Or.inr ⟨before, opener, e.key, carries, hlast⟩

/-- **Whoever got past the first factor rests on a visit that passed it**: along a run, from token
to token. -/
theorem rests_of_reached (none : r₀.secondFactor.challenges.entries = [])
    (run : Run r₀ visits r) : ∀ earlier x later, visits = earlier ++ x :: later →
      x.request.isStatusServer = false → x.Reached →
        ∃ origin, Rests earlier x origin ∧ origin.PassedFirst := by
  induction run with
  | start =>
    intro earlier x later cut
    exact absurd cut (by simp)
  | visit visits r y run serves ih =>
    intro earlier x later cut status reached
    obtain ⟨rfl, rfl, -⟩ | ⟨later', hcut, -⟩ := cut_snoc cut
    · rcases passedFirst_or_answers none run serves status reached with hfirst | hanswers
      · exact ⟨y, .own visits y, hfirst⟩
      · obtain ⟨before, opener, token, carries, between, rfl, hopened, hbetween⟩ := hanswers
        -- the visit that opened the challenge had the service asked, so it got that far itself
        obtain ⟨r', -, hserves⟩ := run_split run rfl
        have hstatus : opener.request.isStatusServer = false := by
          refine Bool.eq_false_iff.mpr fun h => hopened.not_unasked ?_
          rw [(trace_status h hserves.trace).1]
          exact fun _ h => nomatch h
        obtain ⟨origin, hrests, hfirst⟩ :=
          ih before opener between rfl hstatus (Or.inr hopened.not_unasked)
        refine ⟨origin, ?_, hfirst⟩
        exact .answer _ before y opener origin ⟨token, carries, between, rfl, hopened, hbetween⟩
          hrests
    · exact ih earlier x later' hcut status reached

/-- **Nobody is let in whose first factor nobody passed**: an accepted request rests on a visit of
the run that passed the first factor in its own call, and in a faithful run that visit was of the
same user and client. -/
theorem accept_rests_on_first (none : r₀.secondFactor.challenges.entries = [])
    (run : Run r₀ visits r) (earlier later : List (Visit V)) (x : Visit V)
    (cut : visits = earlier ++ x :: later) (status : x.request.isStatusServer = false)
    (accept : x.routed.outcome = .decision .accept) :
    ∃ origin, (origin = x ∨ origin ∈ earlier) ∧ origin.PassedFirst ∧ Rests earlier x origin ∧
      (Faithful (earlier ++ [x]) → origin.SameHolder x) := by
  obtain ⟨origin, hrests, hfirst⟩ :=
    rests_of_reached none run earlier x later cut status (Or.inl accept)
  exact ⟨origin, mem_of_rests hrests, hfirst, hrests, holder_of_rests hrests⟩

end Router

/-! ## 4. Two visits of the sample -/

namespace Login

open Router Verification

/-- The directory accepts alice, and the service awaits her answer to a challenge. -/
def challenged (call : Call) (d : Routed FirstFactor.Verifier) : Visit FirstFactor.Verifier :=
  ⟨0, request "alice" none, [⟨.verify (.directory .activeDirectory) (request "alice" none),
    FirstFactor.Report.bare (.ok .accept)⟩, ⟨.service (request "alice" none).client call,
    reply .awaiting "req-1"⟩], d⟩

/-- A user brings the challenge's token, and the service grants. -/
def granted (user : String) (call : Call) (d : Routed FirstFactor.Verifier) :
    Visit FirstFactor.Verifier :=
  ⟨0, request user (some "req-1"), [⟨.service (request user (some "req-1")).client call,
    reply .granted "req-1"⟩], d⟩

/-- Whoever has a name and brings alice's token is let in when the service grants. -/
theorem run_granted (user : String) (carries : (request user (some "req-1")).token = some "req-1")
    (named : (request user (some "req-1")).user.isEmpty = false) :
    ∃ call d call' d', Run router [challenged call d, granted user call' d'] d'.router ∧
      d'.outcome = .decision .accept := by
  have alice : (request "alice" none).user.isEmpty = false := by decide +kernel
  have second : ((FirstFactor.Report.bare (.ok .accept)).applyTo
      (request "alice" none)).factors.second ≠ .bypass := nofun
  obtain ⟨call, d, htrace, hchanges, -, hopens⟩ := trace_route_verified router 0
    (request "alice" none) rfl (by decide +kernel) rfl rfl rfl second alice (by decide +kernel)
    (reply .awaiting "req-1")
  have holds : d.router.HoldsChallenge 0 "req-1" := by
    refine ⟨?_, (hopens _ rfl rfl).2.1⟩
    unfold HoldsChange
    rw [hchanges]
    exact nofun
  obtain ⟨call', d', htrace', hgrants⟩ := trace_route_answered d.router 0
    (request user (some "req-1")) rfl carries holds named (reply .granted "req-1")
  refine ⟨call, d, call', d', ?_, hgrants rfl⟩
  exact .visit [challenged call d] d.router (granted user call' d')
    (.visit [] router (challenged call d) .start ⟨rfl, htrace⟩) ⟨rfl, htrace'⟩

/-- **A token lets another user in**: bob is let in, and no request of his had its first factor
passed. -/
theorem bob_without_first_factor : ∃ visits r, Run router visits r ∧ ∃ x ∈ visits,
    x.request.isStatusServer = false ∧ x.routed.outcome = .decision .accept ∧
      ∀ y ∈ visits, y.SameHolder x → ¬ y.PassedFirst := by
  obtain ⟨call, d, call', d', hrun, haccept⟩ :=
    run_granted "bob" (by decide +kernel) (by decide +kernel)
  refine ⟨_, _, hrun, granted "bob" call' d', List.mem_cons_of_mem _ List.mem_cons_self, rfl,
    haccept, ?_⟩
  intro y hy same
  rcases List.mem_cons.mp hy with rfl | hy
  · have other : (request "alice" none).user ≠ (request "bob" (some "req-1")).user := by
      decide +kernel
    exact absurd same.1 other
  · rw [List.mem_singleton.mp hy]
    rintro (⟨verifier, report, hmem, -⟩ | ⟨verifier, change, hmem⟩)
    · cases List.mem_singleton.mp hmem
    · cases List.mem_singleton.mp hmem

/-- Alice brings her own token back: she is let in, and by her own first factor. -/
theorem alice_by_first_factor : ∃ visits r, router.secondFactor.challenges.entries = [] ∧
    Run router visits r ∧ ∃ earlier x, visits = earlier ++ [x] ∧
      x.request.isStatusServer = false ∧ x.routed.outcome = .decision .accept ∧
      ∃ origin, (origin = x ∨ origin ∈ earlier) ∧ origin.PassedFirst ∧ origin.SameHolder x := by
  obtain ⟨call, d, call', d', hrun, haccept⟩ :=
    run_granted "alice" (by decide +kernel) (by decide +kernel)
  obtain ⟨origin, hmem, hfirst, -, hsame⟩ := accept_rests_on_first rfl hrun [challenged call d] []
    (granted "alice" call' d') rfl rfl haccept
  refine ⟨_, _, rfl, hrun, [challenged call d], granted "alice" call' d', rfl, rfl, haccept,
    origin, hmem, hfirst, hsame ?_⟩
  have user : (request "alice" (some "req-1")).user = (request "alice" none).user := by
    decide +kernel
  refine faithful_of_holder (challenged call d) fun y hy => ?_
  rcases List.mem_cons.mp hy with rfl | hy
  · exact ⟨rfl, rfl⟩
  · rw [List.mem_singleton.mp hy]
    exact ⟨user, rfl⟩

end Login

end AccessGate
