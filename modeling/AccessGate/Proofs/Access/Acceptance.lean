import AccessGate.Gateway
import AccessGate.Proofs.Access.Ways

/-!
# Nobody is let in past a factor

Acceptance is read off two fields that every way of a request writes in its own order. This file
says what must have been exchanged when the decision is to accept:

* `FirstPassed`, `Router.HoldsChallenge`: the first factor was passed in this very call, or the
  request answers a challenge that is still open;
* `SecondPassed`: the service granted, or was not there and the client lets users pass then, or a
  session was open, or the verifier left the second factor out and nobody asked the service;
* a remote server's acceptance is handed on only to who asks for an access list;
* a verifier that rejects or fails ends the matter, and no call asks anybody twice.
-/

namespace AccessGate

open Dialogue Verification

variable {V : Type}

/-! ## 1. What was exchanged -/

/-- Whom a call to the service is about. -/
def Verification.Call.identity : Call → String
  | .access body => body.identity
  | .challenge body => body.identity

namespace Question

/-- The question goes to the service. -/
def isService : Question V → Bool
  | .service _ _ => true
  | _ => false

/-- The question is about the first factor. -/
def isVerify : Question V → Bool
  | .verify _ _ => true
  | _ => false

/-- The question is to change a password. -/
def isChange : Question V → Bool
  | .changePassword _ _ _ => true
  | _ => false

end Question

/-- The service was not asked. -/
def Unasked (es : Exchanges V) : Prop := ∀ e ∈ es, e.1.isService = false

@[simp] theorem unasked_nil : Unasked ([] : Exchanges V) := fun _ h => nomatch h

@[simp] theorem unasked_cons {e : Exchange (Question V) Question.Answer} {es : Exchanges V} :
    Unasked (e :: es) ↔ e.1.isService = false ∧ Unasked es := List.forall_mem_cons

/-- At most the service was asked, once and about the user of this client. -/
def AsksService (request : Request) (es : Exchanges V) : Prop :=
  es = [] ∨ ∃ call answer, es = [⟨.service request.client call, answer⟩] ∧
    call.identity = request.user

/-- The first factor was passed: a verifier accepted the request or changed its password. -/
def FirstPassed (request : Request) (es : Exchanges V) : Prop :=
  (∃ verifier report, ⟨.verify verifier request, report⟩ ∈ es ∧ report.outcome = .ok .accept) ∨
  ∃ verifier change, ⟨.changePassword verifier request change, .changed⟩ ∈ es

/-- The service let the user of this client pass, or a session did. -/
def Admitted (sessions : Sessions) (now : Time) (request : Request) (es : Exchanges V) : Prop :=
  (∃ call answer, ⟨.service request.client call, answer⟩ ∈ es ∧ call.identity = request.user ∧
    SecondFactor.Grants request answer) ∨
  ∃ place, request.station = some place ∧
    (sessions.table.live? now (Sessions.key request.client.name place request.user)).isSome = true

/-- The second factor was passed, or the verifier left it out and the service was not asked. -/
def SecondPassed (sessions : Sessions) (now : Time) (request : Request) (es : Exchanges V) : Prop :=
  Admitted sessions now request es ∨
  (∃ verifier report, ⟨.verify verifier request, report⟩ ∈ es ∧ report.bypass = true) ∧ Unasked es

/-- What was submitted decides, and more exchanges take nothing away. -/
theorem Admitted.mono {sessions : Sessions} {now : Time} {a b : Request} {es es' : Exchanges V}
    (h : Admitted sessions now a es) (same : a.SameSubmission b) (sub : es ⊆ es') :
    Admitted sessions now b es' := by
  unfold Admitted SecondFactor.Grants at h ⊢
  rw [same.client, same.station, same.user] at h
  rcases h with ⟨call, answer, hmem, hcall, hgrants⟩ | hsession
  · exact Or.inl ⟨call, answer, sub hmem, hcall, hgrants⟩
  · exact Or.inr hsession

/-- Both factors must be accepted. -/
theorem Factors.decision_eq_accept_iff (f : Factors) :
    f.decision = .accept ↔ f.first.isAccepted = true ∧ f.second.isAccepted = true := by
  obtain ⟨first, second⟩ := f
  cases first <;> cases second <;> decide

/-- A rejected factor rejects the request. -/
theorem Factors.decision_of_reject (second : Factor) :
    (Factors.mk .reject second).decision = .reject := by simp [decision]

/-! ## 2. The second factor -/

namespace SecondFactor

variable {s : SecondFactor} {now : Time} {request : Request} {es : Exchanges V} {t : Settled}

theorem create_exchanges (h : Trace (s.create now request) es t) : AsksService request es := by
  obtain ⟨-, rfl, -⟩ | ⟨_, _, _, ⟨-, rfl, -⟩ | ⟨-, answer, rfl, -⟩⟩ := create_cases h
  · exact Or.inl rfl
  · exact Or.inl rfl
  · exact Or.inr ⟨_, answer, rfl, rfl⟩

/-- **Who is accepted at the start was admitted.** -/
theorem admitted_of_create (h : Trace (s.create now request) es t)
    (accepted : t.factor.isAccepted = true) : Admitted s.sessions now request es := by
  obtain ⟨-, -, rfl⟩ | ⟨found, sessions, hcheck, ⟨hfound, -, rfl⟩ | ⟨-, answer, rfl, rfl⟩⟩ :=
    create_cases h
  · cases accepted
  · have hopen := (Sessions.check_fst_iff s.sessions now request.client.name request.station
      request.user).mp (by rw [hcheck]; exact hfound)
    obtain ⟨place, hplace, -, hlive⟩ := hopen
    exact Or.inr ⟨place, hplace, hlive⟩
  · exact Or.inl ⟨_, answer, List.mem_singleton_self _, rfl, isAccepted_settle.mp accepted⟩

theorem answer_exchanges {token : String} (h : Trace (s.answer now request token) es t) :
    AsksService request es := by
  obtain ⟨-, rfl, -⟩ | ⟨restored, s', hrestore, reply, rfl, -⟩ := answer_cases h
  · exact Or.inl rfl
  · have same := restore_submission hrestore
    rw [same.client]
    exact Or.inr ⟨_, reply, rfl, same.user⟩

/-- **Who is accepted by the answer to a challenge was admitted.** -/
theorem admitted_of_answer {token : String} (h : Trace (s.answer now request token) es t)
    (accepted : t.factor.isAccepted = true) : Admitted s.sessions now request es := by
  obtain ⟨-, -, rfl⟩ | ⟨restored, s', hrestore, reply, rfl, rfl⟩ := answer_cases h
  · cases accepted
  · rw [closing_factor] at accepted
    have here : Admitted (V := V) s.sessions now restored
        [⟨.service restored.client (.challenge (challengeBody restored token)), reply⟩] :=
      Or.inl ⟨_, reply, List.mem_singleton_self _, rfl, isAccepted_settle.mp accepted⟩
    exact here.mono (restore_submission hrestore) (List.Subset.refl _)

end SecondFactor

/-! ## 3. The way of a request -/

namespace Router

variable {r : Router V} {now : Time} {request : Request} {es : Exchanges V} {d : Routed V}

/-- A decision accepts only with the first factor. -/
theorem isAccepted_of_decided (h : (r.decided request).outcome = .decision .accept) :
    request.factors.first.isAccepted = true :=
  ((Factors.decision_eq_accept_iff _).mp (Outcome.decision.inj h)).1

/-- The decision after the second factor accepts only with it. -/
theorem isAccepted_of_settled {s : SecondFactor.Settled}
    (h : (r.settled s).outcome = .decision .accept) : s.factor.isAccepted = true :=
  ((Factors.decision_eq_accept_iff _).mp (Outcome.decision.inj h)).2

theorem outcome_refuse (r : Router V) (request : Request) :
    (r.refuse request).outcome = .decision .reject :=
  congrArg Outcome.decision (Factors.decision_of_reject _)

theorem not_accept_of_refused (r : Router V) (request : Request) :
    (r.refuse request).outcome ≠ .decision .accept := by
  rw [outcome_refuse]
  nofun

theorem accepted_exchanges (h : Trace (r.accepted now request) es d) : AsksService request es := by
  obtain ⟨-, rfl, -⟩ | ⟨-, s, hs, -⟩ := accepted_cases h
  · exact Or.inl rfl
  · have hasks : AsksService (withFirst request .accept) es := SecondFactor.create_exchanges hs
    exact hasks

/-- **After an accepted first factor** the request is accepted by a second factor that was left out,
or the user was admitted. -/
theorem admitted_of_accepted (h : Trace (r.accepted now request) es d)
    (accept : d.outcome = .decision .accept) :
    request.factors.second = .bypass ∧ es = [] ∨
      Admitted r.secondFactor.sessions now request es := by
  obtain ⟨hby, rfl, -⟩ | ⟨-, s, hs, rfl⟩ := accepted_cases h
  · exact Or.inl ⟨hby, rfl⟩
  · exact Or.inr ((SecondFactor.admitted_of_create hs (isAccepted_of_settled accept)).mono
      ⟨rfl, rfl, rfl, rfl⟩ (List.Subset.refl _))

/-- A password change that did not change the password accepts nobody. -/
theorem not_accept_of_halted {p : PasswordChanges.Progress}
    (h : p.request.factors.first.isAccepted = false) :
    (r.halted p).outcome ≠ .decision .accept := by
  unfold halted
  split
  · intro accept
    rw [isAccepted_of_decided accept] at h
    cases h
  · exact not_accept_of_refused r p.request

/-- What a verifier reports leaves the submission as it is. -/
theorem applyTo_submission (report : FirstFactor.Report) (request : Request) :
    (report.applyTo request).SameSubmission request := ⟨rfl, rfl, rfl, rfl⟩

theorem first_applyTo (report : FirstFactor.Report) (request : Request) :
    (report.applyTo request).factors.first = request.factors.first := by
  unfold FirstFactor.Report.applyTo
  simp only
  split <;> rfl

/-- Only a report can leave the second factor out. -/
theorem second_applyTo {report : FirstFactor.Report} {request : Request}
    (h : (report.applyTo request).factors.second = .bypass)
    (new : request.factors.second ≠ .bypass) : report.bypass = true := by
  unfold FirstFactor.Report.applyTo at h
  simp only at h
  split at h
  · assumption
  · exact absurd h new

/-- What was asked while a password change starts or goes on. -/
theorem resume_exchanges {c : PasswordChanges} {token : String} {verifier : V}
    {p : PasswordChanges.Progress} (h : Trace (c.resume now request token verifier) es p) :
    p.LeavesFactors request ∧ (es = [] ∧ p.step ≠ .changed ∨
      ∃ change outcome, es = [⟨.changePassword verifier request change, outcome⟩] ∧
        (p.step = .changed ↔ outcome = .changed)) := by
  obtain ⟨rfl, hstep, hp⟩ | ⟨change, outcome, rfl, rfl⟩ := PasswordChanges.resume_cases h
  · exact ⟨hp, Or.inl ⟨rfl, hstep⟩⟩
  · exact ⟨PasswordChanges.conclude_leavesFactors token outcome,
      Or.inr ⟨change, outcome, rfl, PasswordChanges.step_conclude token outcome⟩⟩

theorem initiate_exchanges {c : PasswordChanges} {domain : String}
    {p : PasswordChanges.Progress} (h : Trace (c.initiate now request domain) es p) :
    p.LeavesFactors request ∧ ∃ random, es = [⟨.token, random⟩] := by
  obtain ⟨random, rfl, ⟨-, rfl⟩ | ⟨current, -, rfl⟩⟩ := PasswordChanges.initiate_cases h
  · exact ⟨PasswordChanges.leavesFactors_same _ _, random, rfl⟩
  · exact ⟨PasswordChanges.leavesFactors_prompted _ _ _ _, random, rfl⟩

/-- **The second factor is reached only past the first**: a request that was accepted, or for which
the service was asked, passed the first factor in this call or answers an open challenge. -/
theorem Way.firstPassed (h : r.Way now request es d) (new : request.factors = .awaiting)
    (reached : d.outcome = .decision .accept ∨ ¬ Unasked es) :
    FirstPassed request es ∨ ∃ token, request.token = some token ∧ r.HoldsChallenge now token := by
  have notFirst : request.factors.first.isAccepted = false := by
    rw [new]
    rfl
  -- only the last three ways get past the first factor; the others end before the service is asked
  cases h with
  | unserved r' fault looked find =>
    rcases reached with accept | asked
    · exact absurd accept (not_accept_of_refused r' request)
    · exact absurd unasked_nil asked
  | passed r' verifier report reply looked pass =>
    rcases reached with accept | asked
    · cases accept
    · exact absurd (by simp [Question.isService]) asked
  | refused r' verifier report looked pass outcome =>
    rcases reached with accept | asked
    · exact absurd accept (not_accept_of_refused r' _)
    · exact absurd (by simp [Question.isService]) asked
  | asked r' verifier report domain es p looked pass outcome start =>
    obtain ⟨hp, random, rfl⟩ := initiate_exchanges start
    rcases reached with accept | asked
    · refine absurd accept (not_accept_of_halted ?_)
      rw [hp.factors, first_applyTo]
      exact notFirst
    · exact absurd (by simp [Question.isService]) asked
  | verified r' verifier report es d looked pass outcome rest =>
    exact Or.inl (Or.inl ⟨verifier, report, List.mem_cons_self, outcome⟩)
  | resumed r' verifier token es p looked holds carries answer step =>
    obtain ⟨hp, hes⟩ := resume_exchanges answer
    rcases reached with accept | asked
    · refine absurd accept (not_accept_of_halted ?_)
      rw [hp.factors]
      exact notFirst
    · obtain ⟨rfl, -⟩ | ⟨change, outcome, rfl, -⟩ := hes
      · exact absurd unasked_nil asked
      · exact absurd (by simp [Question.isService]) asked
  | changed r' verifier token es es' p d looked holds carries answer step rest =>
    obtain ⟨-, ⟨rfl, hstep⟩ | ⟨change, outcome, rfl, hstep⟩⟩ := resume_exchanges answer
    · exact absurd step hstep
    · obtain rfl := hstep.mp step
      exact Or.inl (Or.inr ⟨verifier, change, List.mem_append_left _ (List.mem_singleton_self _)⟩)
  | answered r' token es s looked holds carries answer =>
    exact Or.inr ⟨token, carries, holds⟩

/-- **An accepted request passed the second factor.** -/
theorem Way.secondPassed (h : r.Way now request es d) (new : request.factors = .awaiting)
    (accept : d.outcome = .decision .accept) :
    SecondPassed r.secondFactor.sessions now request es := by
  have notBypass : request.factors.second ≠ .bypass := by
    rw [new]
    nofun
  have notFirst : request.factors.first.isAccepted = false := by
    rw [new]
    rfl
  cases h with
  | unserved r' fault looked find => exact absurd accept (not_accept_of_refused r' request)
  | passed r' verifier report reply looked pass => cases accept
  | refused r' verifier report looked pass outcome =>
    exact absurd accept (not_accept_of_refused r' _)
  | asked r' verifier report domain es p looked pass outcome start =>
    obtain ⟨hp, -⟩ := initiate_exchanges start
    refine absurd accept (not_accept_of_halted ?_)
    rw [hp.factors, first_applyTo]
    exact notFirst
  | verified r' verifier report es d looked pass outcome rest =>
    rcases admitted_of_accepted rest accept with ⟨hby, rfl⟩ | hadmitted
    · refine Or.inr ⟨⟨verifier, report, List.mem_cons_self, second_applyTo hby notBypass⟩, ?_⟩
      simp [Question.isService]
    · rw [looked.sessions] at hadmitted
      exact Or.inl (hadmitted.mono (applyTo_submission report request) (List.subset_cons_self _ _))
  | resumed r' verifier token es p looked holds carries answer step =>
    obtain ⟨hp, -⟩ := resume_exchanges answer
    refine absurd accept (not_accept_of_halted ?_)
    rw [hp.factors]
    exact notFirst
  | changed r' verifier token es es' p d looked holds carries answer step rest =>
    obtain ⟨hp, -⟩ := resume_exchanges answer
    rcases admitted_of_accepted rest accept with ⟨hby, -⟩ | hadmitted
    · -- no verifier reported in this call, so nobody can have left the second factor out
      rw [hp.factors] at hby
      exact absurd hby notBypass
    · simp only [looked.sessions] at hadmitted
      exact Or.inl (hadmitted.mono hp.submission (List.subset_append_right _ _))
  | answered r' token es s looked holds carries answer =>
    have hadmitted := SecondFactor.admitted_of_answer answer (isAccepted_of_settled accept)
    rw [looked.sessions] at hadmitted
    exact Or.inl (hadmitted.mono ⟨rfl, rfl, rfl, rfl⟩ (List.Subset.refl _))

/-- A reply is handed on under its own code, for EAP or for an access list. -/
theorem code_passThrough {reply : Radius.Packet} (h : passThrough? request = some reply) :
    ∃ remote, request.remoteReply = some remote ∧ reply.code = remote.code ∧
      (remote.code = .accessChallenge ∨ asksForAccessList request = true) := by
  unfold passThrough? at h
  split at h
  · cases h
  · rename_i remote hremote
    split at h
    · rename_i hpass
      obtain rfl := Option.some.inj h
      exact ⟨remote, hremote, rfl, hpass.imp And.left id⟩
    · cases h

/-- **A remote acceptance is handed on only to who asks for an access list.** -/
theorem Way.accessList (h : r.Way now request es d) {reply : Radius.Packet}
    (passed : d.outcome = .passThrough reply) (code : reply.code = .accessAccept) :
    asksForAccessList request = true ∧
      ∃ verifier report remote, ⟨.verify verifier request, report⟩ ∈ es ∧
        (report.remoteReply <|> request.remoteReply) = some remote ∧
        remote.code = .accessAccept := by
  cases h with
  | passed r' verifier report reply' looked pass =>
    obtain rfl := Outcome.passThrough.inj passed
    obtain ⟨remote, hremote, hcode, hasks⟩ := code_passThrough pass
    rw [code] at hcode
    refine ⟨hasks.resolve_left fun h => ?_, verifier, report, remote, List.mem_singleton_self _,
      hremote, hcode.symm⟩
    rw [← hcode] at h
    cases h
  | asked r' verifier report domain es p looked pass outcome start =>
    unfold halted at passed
    split at passed <;> cases passed
  | verified r' verifier report es d looked pass outcome rest =>
    obtain ⟨-, -, rfl⟩ | ⟨-, s, -, rfl⟩ := accepted_cases rest <;> cases passed
  | resumed r' verifier token es p looked holds carries answer step =>
    unfold halted at passed
    split at passed <;> cases passed
  | changed r' verifier token es es' p d looked holds carries answer step rest =>
    obtain ⟨-, -, rfl⟩ | ⟨-, s, -, rfl⟩ := accepted_cases rest <;> cases passed
  | _ => cases passed

/-- **A verifier that rejects or fails ends the matter**, unless a remote reply is handed on. -/
theorem Way.reject_of_refusal (h : r.Way now request es d) {verifier : V} {asked : Request}
    {report : FirstFactor.Report} (mem : ⟨.verify verifier asked, report⟩ ∈ es)
    (refusal : report.outcome = .ok .reject ∨ ∃ fault, report.outcome = .error fault)
    (kept : ∀ reply, d.outcome ≠ .passThrough reply) :
    d.outcome = .decision .reject ∧ Unasked es := by
  have other {out : FirstFactor.Outcome} (hout : report.outcome = .ok out)
      (ne : out ≠ .reject) : False := by
    rw [hout] at refusal
    rcases refusal with h | ⟨fault, h⟩
    · exact ne (Except.ok.inj h)
    · cases h
  cases h with
  | unserved => cases mem
  | passed r' verifier' report' reply looked pass => exact absurd rfl (kept reply)
  | refused r' verifier' report' looked pass outcome =>
    exact ⟨outcome_refuse r' _, by simp [Question.isService]⟩
  | asked r' verifier' report' domain es p looked pass outcome start =>
    obtain ⟨-, random, rfl⟩ := initiate_exchanges start
    rcases List.mem_cons.mp mem with heq | mem
    · cases heq
      exact (other outcome nofun).elim
    · cases List.mem_singleton.mp mem
  | verified r' verifier' report' es d looked pass outcome rest =>
    rcases List.mem_cons.mp mem with heq | mem
    · cases heq
      exact (other outcome nofun).elim
    · obtain rfl | ⟨call, answer, rfl, -⟩ := accepted_exchanges rest
      · cases mem
      · cases List.mem_singleton.mp mem
  | resumed r' verifier' token es p looked holds carries answer step =>
    obtain ⟨-, ⟨rfl, -⟩ | ⟨change, outcome, rfl, -⟩⟩ := resume_exchanges answer
    · cases mem
    · cases List.mem_singleton.mp mem
  | changed r' verifier' token es es' p d looked holds carries answer step rest =>
    rcases List.mem_append.mp mem with mem | mem
    · obtain ⟨-, ⟨rfl, -⟩ | ⟨change, outcome, rfl, -⟩⟩ := resume_exchanges answer
      · cases mem
      · cases List.mem_singleton.mp mem
    · obtain rfl | ⟨call, reply, rfl, -⟩ := accepted_exchanges rest
      · cases mem
      · cases List.mem_singleton.mp mem
  | answered r' token es s looked holds carries answer =>
    obtain rfl | ⟨call, reply, rfl, -⟩ := SecondFactor.answer_exchanges answer
    · cases mem
    · cases List.mem_singleton.mp mem

/-- How often a call asks each of the others. -/
structure AsksOnce (es : Exchanges V) : Prop where
  service : es.countP (·.1.isService) ≤ 1
  verify : es.countP (·.1.isVerify) ≤ 1
  change : es.countP (·.1.isChange) ≤ 1

/-- **No call asks anybody twice.** -/
theorem Way.asksOnce (h : r.Way now request es d) : AsksOnce es := by
  cases h with
  | unserved => exact ⟨Nat.zero_le _, Nat.zero_le _, Nat.zero_le _⟩
  | passed => exact ⟨Nat.zero_le _, Nat.le_refl _, Nat.zero_le _⟩
  | refused => exact ⟨Nat.zero_le _, Nat.le_refl _, Nat.zero_le _⟩
  | asked r' verifier report domain es p looked pass outcome start =>
    obtain ⟨-, random, rfl⟩ := initiate_exchanges start
    exact ⟨Nat.zero_le _, Nat.le_refl _, Nat.zero_le _⟩
  | verified r' verifier report es d looked pass outcome rest =>
    obtain rfl | ⟨call, answer, rfl, -⟩ := accepted_exchanges rest
    · exact ⟨Nat.zero_le _, Nat.le_refl _, Nat.zero_le _⟩
    · exact ⟨Nat.le_refl _, Nat.le_refl _, Nat.zero_le _⟩
  | resumed r' verifier token es p looked holds carries answer step =>
    obtain ⟨-, ⟨rfl, -⟩ | ⟨change, outcome, rfl, -⟩⟩ := resume_exchanges answer
    · exact ⟨Nat.zero_le _, Nat.zero_le _, Nat.zero_le _⟩
    · exact ⟨Nat.zero_le _, Nat.zero_le _, Nat.le_refl _⟩
  | changed r' verifier token es es' p d looked holds carries answer step rest =>
    obtain ⟨-, ⟨-, hstep⟩ | ⟨change, outcome, rfl, -⟩⟩ := resume_exchanges answer
    · exact absurd step hstep
    · obtain rfl | ⟨call, reply, rfl, -⟩ := accepted_exchanges rest
      · exact ⟨Nat.zero_le _, Nat.zero_le _, Nat.le_refl _⟩
      · exact ⟨Nat.le_refl _, Nat.zero_le _, Nat.le_refl _⟩
  | answered r' token es s looked holds carries answer =>
    obtain rfl | ⟨call, reply, rfl, -⟩ := SecondFactor.answer_exchanges answer
    · exact ⟨Nat.zero_le _, Nat.zero_le _, Nat.zero_le _⟩
    · exact ⟨Nat.le_refl _, Nat.zero_le _, Nat.zero_le _⟩

/-! ## 4. One call -/

/-- What a call promises that asked `es` and ended with `d`. -/
structure KeepsFactors (r : Router V) (now : Time) (request : Request) (es : Exchanges V)
    (d : Routed V) : Prop where
  /-- Who is let in passed the first factor in this very call or answers an open challenge. -/
  first : d.outcome = .decision .accept →
    FirstPassed request es ∨ ∃ token, request.token = some token ∧ r.HoldsChallenge now token
  /-- Who is let in passed the second factor in this very call. -/
  second : d.outcome = .decision .accept → SecondPassed r.secondFactor.sessions now request es
  /-- An acceptance that is handed on is a remote server's, for an access list. -/
  accessList : ∀ reply : Radius.Packet, d.outcome = .passThrough reply →
    reply.code = .accessAccept → asksForAccessList request = true ∧
      ∃ verifier report remote, ⟨.verify verifier request, report⟩ ∈ es ∧
        (report.remoteReply <|> request.remoteReply) = some remote ∧ remote.code = .accessAccept
  /-- A verifier that rejects or fails has the last word, unless a reply is handed on. -/
  refusal : ∀ verifier asked report, ⟨.verify verifier asked, report⟩ ∈ es →
    (report.outcome = .ok .reject ∨ ∃ fault, report.outcome = .error fault) →
    (∀ reply, d.outcome ≠ .passThrough reply) → d.outcome = .decision .reject ∧ Unasked es
  /-- Nobody is asked twice. -/
  once : AsksOnce es

/-- **No call lets anybody in past a factor**, whatever the router remembers and whatever verifiers
and the service answer. -/
theorem route_keepsFactors (status : request.isStatusServer = false)
    (new : request.factors = .awaiting) (h : Trace (r.route now request) es d) :
    r.KeepsFactors now request es d where
  first accept := (way_of_trace status h).firstPassed new (Or.inl accept)
  second accept := (way_of_trace status h).secondPassed new accept
  accessList _ passed code := (way_of_trace status h).accessList passed code
  refusal _ _ _ mem refusal kept := (way_of_trace status h).reject_of_refusal mem refusal kept
  once := (way_of_trace status h).asksOnce

end Router

/-! ## 5. A login -/

namespace Login

open Router

/-- The gateway of the sample configuration before anybody was there. -/
def router : Router FirstFactor.Verifier := Gateway.router .sample .standard .plain 0

/-- What the device of the sample sends for a user, with the token that it was given. -/
def request (user : String) (token : Option String) : Request :=
  let packet := ((Radius.Packet.new .accessRequest 1 (.ofString "client_secret_1") .zero).add
    Radius.Name.userName (.text user)).add Radius.Name.userPassword (.text "secret")
  Request.make (.v4 (.ofOctets [10, 0, 0, 1]) 1812) none Config.exampleDirectoryClient
    (match token with
    | some token => packet.add Radius.Name.state (.octets (Utf8.encode token))
    | none => packet)

/-- An answer of the service with a status and an identifier. -/
def reply (status : Status) (id : String) : Except Failure Model :=
  .ok ⟨id, status, none, none, false, none, none, none, none, none⟩

/-- A user whom the directory accepts and the service grants is let in, and past no factor. -/
theorem keepsFactors_granted :
    (request "alice" none).isStatusServer = false ∧ (request "alice" none).factors = .awaiting ∧
      ∃ es d, Trace (router.route 0 (request "alice" none)) es d ∧
        d.outcome = .decision .accept ∧ router.KeepsFactors 0 (request "alice" none) es d := by
  have user : (request "alice" none).user.isEmpty = false := by decide +kernel
  have second : ((FirstFactor.Report.bare (.ok .accept)).applyTo
      (request "alice" none)).factors.second ≠ .bypass := nofun
  obtain ⟨call, d, htrace, -, hgrants, -⟩ := trace_route_verified router 0 (request "alice" none)
    rfl (by decide +kernel) rfl rfl rfl second user (by decide +kernel) (reply .granted "req-1")
  exact ⟨rfl, rfl, _, d, htrace, hgrants rfl, route_keepsFactors rfl rfl htrace⟩

end Login

end AccessGate
