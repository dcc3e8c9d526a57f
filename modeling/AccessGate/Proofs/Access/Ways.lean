import AccessGate.Access.Router
import AccessGate.Proofs.Access.Changing

/-!
# The ways a request can take

`Router.route` branches on the token, on who verifies, on the verifier's report and on every answer
that follows. `Router.Way` lists the ways once, each with all that was exchanged on it and with the
router and the request that come out, and `way_of_trace` says that there are no others. Every
statement about one request or about runs of requests starts from this list.

Looking a token up takes expired entries out of the stores and changes nothing else
(`Router.Looked`).
-/

namespace AccessGate.Router

open Dialogue Radius

variable {V : Type} {r r' : Router V} {now : Time} {request : Request} {es : Exchanges V}
  {d : Routed V}

/-! ## 1. Whom a token belongs to -/

/-- The router after a token was looked up. -/
structure Looked (r r' : Router V) : Prop where
  verifiers : r'.verifiers = r.verifiers
  sessions : r'.secondFactor.sessions = r.secondFactor.sessions
  challenges : ∀ e ∈ r'.secondFactor.challenges.entries, e ∈ r.secondFactor.challenges.entries

theorem looked_self (r : Router V) : r.Looked r := ⟨rfl, rfl, fun _ h => h⟩

/-- The token is that of an open password change. -/
def HoldsChange (r : Router V) (now : Time) (token : String) : Prop :=
  (r.changes.conversations.live? now token).isSome = true

/-- The token is that of an open challenge and of no password change. -/
def HoldsChallenge (r : Router V) (now : Time) (token : String) : Prop :=
  ¬ r.HoldsChange now token ∧ (r.secondFactor.challenges.live? now token).isSome = true

theorem owns_fst (c : PasswordChanges) (now : Time) (token : String) :
    (c.owns now token).1 = (c.conversations.live? now token).isSome :=
  TimedMap.contains_fst c.conversations now token

theorem hasChallenge_fst (s : SecondFactor) (now : Time) (token : String) :
    (s.hasChallenge now token).1 = (s.challenges.live? now token).isSome :=
  TimedMap.contains_fst s.challenges now token

theorem mem_hasChallenge {s : SecondFactor} {token : String} {e : TimedEntry String Profile}
    (h : e ∈ (s.hasChallenge now token).2.challenges.entries) : e ∈ s.challenges.entries :=
  TimedMap.mem_of_mem_get? h

/-- **A password change comes before a challenge**, and a token of neither is not the gateway's. -/
theorem owner_cases (r : Router V) (now : Time) (token : String) :
    ∃ o r', r.owner now token = (o, r') ∧ r.Looked r' ∧
      (o = some .passwordChange ∧ r.HoldsChange now token ∨
        o = some .challenge ∧ r.HoldsChallenge now token ∨
        o = none ∧ ¬ r.HoldsChange now token ∧ ¬ r.HoldsChallenge now token) := by
  have howns := owns_fst r.changes now token
  have hheld := hasChallenge_fst r.secondFactor now token
  unfold owner
  simp only
  split
  · rename_i hown
    exact ⟨_, _, rfl, ⟨rfl, rfl, fun _ h => h⟩, Or.inl ⟨rfl, howns.symm.trans hown⟩⟩
  · rename_i hown
    have hnot : ¬ r.HoldsChange now token := fun h => hown (howns.trans h)
    refine ⟨_, _, rfl, ⟨rfl, rfl, fun _ => mem_hasChallenge⟩, Or.inr ?_⟩
    split
    · rename_i hopen
      exact Or.inl ⟨rfl, hnot, hheld.symm.trans hopen⟩
    · rename_i hopen
      exact Or.inr ⟨rfl, hnot, fun h => hopen (hheld.trans h.2)⟩

/-! ## 2. The ways -/

/-- What follows a step of a password change that did not change the password. -/
def halted (r : Router V) (p : PasswordChanges.Progress) : Routed V :=
  if p.step = .challenge then r.decided p.request else r.refuse p.request

theorem afterChange_of_ne {p : PasswordChanges.Progress} (h : p.step ≠ .changed) :
    r.afterChange now p = .done (halted { r with changes := p.after } p) := by
  unfold afterChange halted
  split <;> simp_all

theorem afterChange_of_eq {p : PasswordChanges.Progress} (h : p.step = .changed) :
    r.afterChange now p = accepted { r with changes := p.after } now p.request := by
  unfold afterChange
  split <;> simp_all

/-- **The ways of a request that does not ask for the gateway's status.** -/
inductive Way (r : Router V) (now : Time) (request : Request) : Exchanges V → Routed V → Prop where
  /-- Nobody verifies requests of this client. -/
  | unserved (r' : Router V) (fault : FirstFactor.Fault) (looked : r.Looked r')
      (find : r.verifiers.find request.client.source = .error fault) :
      Way r now request [] (r'.refuse request)
  /-- The reply of a remote server goes on as it is. -/
  | passed (r' : Router V) (verifier : V) (report : FirstFactor.Report) (reply : Packet)
      (looked : r.Looked r') (pass : passThrough? (report.applyTo request) = some reply) :
      Way r now request [⟨.verify verifier request, report⟩]
        ⟨.passThrough reply, report.applyTo request, r'⟩
  /-- The verifier rejects or fails. -/
  | refused (r' : Router V) (verifier : V) (report : FirstFactor.Report) (looked : r.Looked r')
      (pass : passThrough? (report.applyTo request) = none)
      (outcome : report.outcome = .ok .reject ∨ ∃ fault, report.outcome = .error fault) :
      Way r now request [⟨.verify verifier request, report⟩]
        (r'.refuse (report.applyTo request))
  /-- The verifier wants a new password. -/
  | asked (r' : Router V) (verifier : V) (report : FirstFactor.Report) (domain : String)
      (es : Exchanges V) (p : PasswordChanges.Progress) (looked : r.Looked r')
      (pass : passThrough? (report.applyTo request) = none)
      (outcome : report.outcome = .ok (.mustChangePassword domain))
      (start : Trace (r'.changes.initiate now (report.applyTo request) domain) es p) :
      Way r now request (⟨.verify verifier request, report⟩ :: es)
        (halted { r' with changes := p.after } p)
  /-- The verifier accepts. -/
  | verified (r' : Router V) (verifier : V) (report : FirstFactor.Report) (es : Exchanges V)
      (d : Routed V) (looked : r.Looked r')
      (pass : passThrough? (report.applyTo request) = none)
      (outcome : report.outcome = .ok .accept)
      (rest : Trace (r'.accepted now (report.applyTo request)) es d) :
      Way r now request (⟨.verify verifier request, report⟩ :: es) d
  /-- An answer in a password change that does not change the password. -/
  | resumed (r' : Router V) (verifier : V) (token : String) (es : Exchanges V)
      (p : PasswordChanges.Progress) (looked : r.Looked r') (holds : r.HoldsChange now token)
      (carries : request.token = some token)
      (answer : Trace (r'.changes.resume now request token verifier) es p)
      (step : p.step ≠ .changed) :
      Way r now request es (halted { r' with changes := p.after } p)
  /-- The answer that changes the password. -/
  | changed (r' : Router V) (verifier : V) (token : String) (es es' : Exchanges V)
      (p : PasswordChanges.Progress) (d : Routed V) (looked : r.Looked r')
      (holds : r.HoldsChange now token) (carries : request.token = some token)
      (answer : Trace (r'.changes.resume now request token verifier) es p)
      (step : p.step = .changed)
      (rest : Trace (accepted { r' with changes := p.after } now p.request) es' d) :
      Way r now request (es ++ es') d
  /-- The answer to a challenge. -/
  | answered (r' : Router V) (token : String) (es : Exchanges V) (s : SecondFactor.Settled)
      (looked : r.Looked r') (holds : r.HoldsChallenge now token)
      (carries : request.token = some token)
      (answer : Trace (r'.secondFactor.answer now (withFirst request .accept) token) es s) :
      Way r now request es (r'.settled s)

theorem way_of_fresh (hr : r.Looked r') (h : Trace (r'.fresh now request) es d) :
    r.Way now request es d := by
  unfold fresh at h
  rw [hr.verifiers] at h
  split at h
  · rename_i fault hfind
    obtain ⟨rfl, rfl⟩ := trace_done_iff.mp h
    exact .unserved r' fault hr hfind
  · rename_i verifier hfind
    obtain ⟨report, rest, rfl, hrest⟩ := trace_ask_iff.mp h
    simp only [afterReport] at hrest
    split at hrest
    · rename_i reply hpass
      obtain ⟨rfl, rfl⟩ := trace_done_iff.mp hrest
      exact .passed r' verifier report reply hr hpass
    · rename_i hpass
      split at hrest
      · rename_i hout
        exact .verified r' verifier report rest d hr hpass hout hrest
      · rename_i domain hout
        obtain ⟨xs, p, ys, rfl, hxs, hys⟩ := trace_bind_iff.mp hrest
        -- the start of a password change only asks for a new password
        have hstep : p.step ≠ .changed := by
          obtain ⟨_, _, ⟨_, rfl⟩ | ⟨_, _, rfl⟩⟩ := PasswordChanges.initiate_cases hxs
          · exact nofun
          · exact nofun
        rw [afterChange_of_ne hstep] at hys
        obtain ⟨rfl, rfl⟩ := trace_done_iff.mp hys
        rw [List.append_nil]
        exact .asked r' verifier report domain xs p hr hpass hout hxs
      · rename_i hout
        obtain ⟨rfl, rfl⟩ := trace_done_iff.mp hrest
        exact .refused r' verifier report hr hpass (Or.inl hout)
      · rename_i fault hout
        obtain ⟨rfl, rfl⟩ := trace_done_iff.mp hrest
        exact .refused r' verifier report hr hpass (Or.inr ⟨fault, hout⟩)

theorem way_of_resumeChange {token : String} (hr : r.Looked r') (holds : r.HoldsChange now token)
    (carries : request.token = some token) (h : Trace (r'.resumeChange now request token) es d) :
    r.Way now request es d := by
  unfold resumeChange at h
  rw [hr.verifiers] at h
  split at h
  · rename_i fault hfind
    obtain ⟨rfl, rfl⟩ := trace_done_iff.mp h
    exact .unserved r' fault hr hfind
  · rename_i verifier hfind
    obtain ⟨xs, p, ys, rfl, hxs, hys⟩ := trace_bind_iff.mp h
    by_cases hstep : p.step = .changed
    · rw [afterChange_of_eq hstep] at hys
      exact .changed r' verifier token xs ys p d hr holds carries hxs hstep hys
    · rw [afterChange_of_ne hstep] at hys
      obtain ⟨rfl, rfl⟩ := trace_done_iff.mp hys
      rw [List.append_nil]
      exact .resumed r' verifier token xs p hr holds carries hxs hstep

theorem way_of_answerChallenge {token : String} (hr : r.Looked r')
    (holds : r.HoldsChallenge now token) (carries : request.token = some token)
    (h : Trace (r'.answerChallenge now request token) es d) : r.Way now request es d := by
  obtain ⟨xs, s, ys, rfl, hxs, hys⟩ := trace_bind_iff.mp h
  obtain ⟨rfl, rfl⟩ := trace_done_iff.mp hys
  rw [List.append_nil]
  exact .answered r' token xs s hr holds carries hxs

/-- **There are no other ways.** -/
theorem way_of_trace (status : request.isStatusServer = false)
    (h : Trace (r.route now request) es d) : r.Way now request es d := by
  unfold route at h
  rw [status] at h
  simp only [Bool.false_eq_true, ↓reduceIte] at h
  cases htoken : request.token with
  | none =>
    rw [htoken] at h
    exact way_of_fresh (looked_self r) h
  | some token =>
    rw [htoken] at h
    obtain ⟨o, r', howner, hr, ⟨rfl, holds⟩ | ⟨rfl, holds⟩ | ⟨rfl, -, -⟩⟩ :=
      owner_cases r now token
    all_goals
      simp only [howner] at h
    · exact way_of_resumeChange hr holds htoken h
    · exact way_of_answerChallenge hr holds htoken h
    · exact way_of_fresh hr h

/-- **What follows an accepted first factor**: nothing where the second is left out, else its
start. -/
theorem accepted_cases (h : Trace (r.accepted now request) es d) :
    (request.factors.second = .bypass ∧ es = [] ∧ d = r.decided (withFirst request .accept)) ∨
    request.factors.second ≠ .bypass ∧
      ∃ s, Trace (r.secondFactor.create now (withFirst request .accept)) es s ∧
        d = r.settled s := by
  unfold accepted at h
  simp only at h
  split at h
  · rename_i hby
    obtain ⟨rfl, rfl⟩ := trace_done_iff.mp h
    exact Or.inl ⟨hby, rfl, rfl⟩
  · rename_i hby
    obtain ⟨xs, s, ys, rfl, hxs, hys⟩ := trace_bind_iff.mp h
    obtain ⟨rfl, rfl⟩ := trace_done_iff.mp hys
    rw [List.append_nil]
    exact Or.inr ⟨hby, s, hxs, rfl⟩

/-! ## 3. Two ways in full -/

/-- What the second factor leads to, when nothing was rejected before it: acceptance if the answer
lets the user pass. -/
theorem accept_of_settled {s : SecondFactor.Settled} (first : s.request.factors.first = .accept)
    (second : s.factor.isAccepted = true) : (r.settled s).outcome = .decision .accept := by
  show Outcome.decision (Factors.mk s.request.factors.first s.factor).decision = _
  rw [first]
  cases hfactor : s.factor <;> rw [hfactor] at second <;> first | rfl | cases second

/-- **A request that the verifier accepts is put before the service**, whose word is followed: the
user is let in, or has a challenge to answer. -/
theorem trace_route_verified (r : Router V) (now : Time) (request : Request)
    (status : request.isStatusServer = false) (fresh : request.token = none) {verifier : V}
    (find : r.verifiers.find request.client.source = .ok verifier) {report : FirstFactor.Report}
    (pass : passThrough? (report.applyTo request) = none) (outcome : report.outcome = .ok .accept)
    (second : (report.applyTo request).factors.second ≠ .bypass)
    (user : request.user.isEmpty = false)
    (closed : (r.secondFactor.sessions.check now request.client.name request.station
      request.user).1 = false) (answer : Except Verification.Failure Verification.Model) :
    ∃ call d, Trace (r.route now request)
      [⟨.verify verifier request, report⟩, ⟨.service request.client call, answer⟩] d ∧
      d.router.changes = r.changes ∧
      (SecondFactor.Grants request answer → d.outcome = .decision .accept) ∧
      ∀ model, answer = .ok model → model.status = .awaiting →
        d.outcome = .decision .challenge ∧
          (d.router.secondFactor.challenges.live? now model.id).isSome = true ∧
            d.request.state = some model.id ∧ d.request.replyMessage = model.replyMessage := by
  -- the service is asked about the request as the verifier left it
  obtain ⟨asked, hasked⟩ : ∃ asked, asked = withFirst (report.applyTo request) .accept := ⟨_, rfl⟩
  have huser : asked.user.isEmpty = false := by rw [hasked]; exact user
  have hclosed : (r.secondFactor.sessions.check now asked.client.name asked.station
      asked.user).1 = false := by rw [hasked]; exact closed
  have hgrants : SecondFactor.Grants request answer ↔ SecondFactor.Grants asked answer := by
    rw [hasked]
    rfl
  have hfirst : asked.factors.first = .accept := by rw [hasked]; rfl
  have hclient : asked.client = request.client := by rw [hasked]; rfl
  obtain ⟨s', hs'⟩ : ∃ s', Trace (Q := Question V) (r.secondFactor.create now asked)
      [⟨.service asked.client (.access (SecondFactor.accessBody asked)), answer⟩]
      (SecondFactor.settle s' now asked answer) := ⟨_, SecondFactor.trace_create huser hclosed answer⟩
  rw [hclient] at hs'
  refine ⟨.access (SecondFactor.accessBody asked), r.settled (s'.settle now asked answer), ?_, rfl,
    ?_, ?_⟩
  · unfold route
    rw [status, fresh]
    show Trace (r.fresh now request) _ _
    unfold Router.fresh
    rw [find]
    refine trace_ask_iff.mpr ⟨report, _, rfl, ?_⟩
    unfold afterReport
    simp only [pass, outcome]
    unfold accepted
    simp only [← hasked]
    have hby : asked.factors.second ≠ .bypass := by rw [hasked]; exact second
    rw [if_neg hby]
    exact trace_bind_iff.mpr ⟨_, _, [], rfl, hs', trace_done_iff.mpr ⟨rfl, rfl⟩⟩
  · intro h
    refine accept_of_settled ?_ (SecondFactor.isAccepted_settle.mpr (hgrants.mp h))
    rw [SecondFactor.settle_factors]
    exact hfirst
  · intro model hmodel hstatus
    have hfirst' : (s'.settle now asked answer).request.factors.first = .accept := by
      rw [SecondFactor.settle_factors]
      exact hfirst
    have hawaiting : s'.settle now asked answer = ⟨.awaiting,
        { asked with state := some model.id, replyMessage := model.replyMessage },
        { s' with challenges := s'.challenges.insert now model.id asked.profile }⟩ := by
      rw [hmodel]
      unfold SecondFactor.settle SecondFactor.apply
      simp only [hstatus]
    refine ⟨?_, SecondFactor.live?_settle ⟨model, hmodel, hstatus, rfl⟩, ?_⟩
    · show Outcome.decision (Factors.mk (s'.settle now asked answer).request.factors.first
        (s'.settle now asked answer).factor).decision = _
      rw [hfirst', hawaiting]
      rfl
    · rw [hawaiting]
      exact ⟨rfl, rfl⟩

/-- **Whoever answers an open challenge is put before the service**, and let in if the service lets
the user pass. -/
theorem trace_route_answered (r : Router V) (now : Time) (request : Request)
    (status : request.isStatusServer = false) {token : String}
    (carries : request.token = some token) (holds : r.HoldsChallenge now token)
    (user : request.user.isEmpty = false)
    (reply : Except Verification.Failure Verification.Model) :
    ∃ call d, Trace (r.route now request) [⟨.service request.client call, reply⟩] d ∧
      (SecondFactor.Grants request reply → d.outcome = .decision .accept) := by
  obtain ⟨o, r', howner, -, ⟨-, hchange⟩ | ⟨rfl, -⟩ | ⟨-, -, hnone⟩⟩ := owner_cases r now token
  · exact absurd hchange holds.1
  · have huser : (withFirst request .accept).user.isEmpty = false := user
    obtain ⟨restored, s', same, hfactors, hs'⟩ := SecondFactor.trace_answer (V := V)
      r'.secondFactor now huser token reply
    rw [same.client] at hs'
    refine ⟨.challenge (SecondFactor.challengeBody restored token),
      r'.settled ((s'.settle now restored reply).closing now token), ?_, ?_⟩
    · unfold route
      rw [status, carries]
      simp only [Bool.false_eq_true, ↓reduceIte, howner]
      unfold answerChallenge
      exact trace_bind_iff.mpr ⟨_, _, [], rfl, hs', trace_done_iff.mpr ⟨rfl, rfl⟩⟩
    · intro h
      have hgrants : SecondFactor.Grants restored reply := by
        unfold SecondFactor.Grants at h ⊢
        rw [same.client]
        exact h
      refine accept_of_settled ?_ ?_
      · rw [SecondFactor.closing_request, SecondFactor.settle_factors, hfactors]
        rfl
      · rw [SecondFactor.closing_factor]
        exact SecondFactor.isAccepted_settle.mpr hgrants
  · exact absurd holds hnone

end AccessGate.Router
