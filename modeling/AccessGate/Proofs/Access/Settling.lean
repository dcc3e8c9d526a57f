import AccessGate.Access.SecondFactor
import AccessGate.Proofs.Store.Entries
import AccessGate.Proofs.Traces

/-!
# What the second factor can do

A step of the second factor ends in one of few ways, and this file says once what they are:

* `create_cases`, `answer_cases`: no call, or exactly one call to the service, which is about this
  client and user;
* `isAccepted_settle`: an answer lets the user pass exactly when it grants, or when the service is
  not there and the client lets users pass then (`Grants`);
* `mem_settle`: an open challenge was opened by this answer (`Opens`) or stood there before;
* nothing of what the device submitted is touched (`SameSubmission`).
-/

namespace AccessGate

open Dialogue Verification

/-- What others were asked, and what they answered. -/
abbrev Exchanges (V : Type) := List (Exchange (Question V) Question.Answer)

/-! ## 1. What a device submitted -/

/-- What came from the device is the same; what its way has brought to light may differ. -/
structure Request.SameSubmission (a b : Request) : Prop where
  client : a.client = b.client
  packet : a.packet = b.packet
  userName : a.userName = b.userName
  passphrase : a.passphrase = b.passphrase

namespace Request.SameSubmission

variable {a b : Request}

theorem refl (a : Request) : a.SameSubmission a := ⟨rfl, rfl, rfl, rfl⟩

theorem user (h : a.SameSubmission b) : a.user = b.user := by
  unfold Request.user
  rw [h.userName]

theorem station (h : a.SameSubmission b) : a.station = b.station := by
  unfold Request.station
  rw [h.packet]

end Request.SameSubmission

/-! ## 2. Sessions -/

/-- A session is found exactly under the live entry of the client, the station and the user. -/
theorem Sessions.check_fst_iff (s : Sessions) (now : Time) (client : String)
    (station : Option String) (user : String) :
    (s.check now client station user).1 = true ↔
      ∃ place, station = some place ∧ s.isEnabled = true ∧
        (s.table.live? now (key client place user)).isSome = true := by
  cases station with
  | none => simp [check]
  | some place =>
    by_cases hon : s.isEnabled = true
    · simp [check, hon, TimedMap.contains_fst]
    · simp [check, hon]

namespace SecondFactor

/-! ## 3. What an answer means -/

/-- The answer lets the user pass. -/
def Grants (request : Request) : Except Failure Model → Prop
  | .ok model => model.status = .granted
  | .error failure => failure.isUnreachable = true ∧ request.client.bypassWhenUnreachable = true

/-- The answer opens a challenge under this token. -/
def Opens (answer : Except Failure Model) (token : String) : Prop :=
  ∃ model, answer = .ok model ∧ model.status = .awaiting ∧ model.id = token

variable {V : Type} {s : SecondFactor} {now : Time} {request : Request}
  {answer : Except Failure Model}

/-- **The factor is accepted exactly when the answer lets the user pass.** -/
theorem isAccepted_settle :
    (s.settle now request answer).factor.isAccepted = true ↔ Grants request answer := by
  cases answer with
  | ok model =>
    show (s.apply now request model).factor.isAccepted = true ↔ model.status = .granted
    unfold apply
    cases hstatus : model.status with
    | granted => by_cases hby : model.bypassed = true <;> simp [hby, Factor.isAccepted]
    | denied => simp [Factor.isAccepted]
    | awaiting => simp [Factor.isAccepted]
    | unknown => simp [Factor.isAccepted]
  | error failure =>
    show (withoutService request failure).isAccepted = true ↔ _ ∧ _
    unfold withoutService
    rw [← Bool.and_eq_true]
    split <;> simp_all [Factor.isAccepted]

theorem apply_factors (model : Model) :
    (s.apply now request model).request.factors = request.factors := by
  unfold apply
  split
  · split <;> rfl
  all_goals rfl

/-- What the factors were stays on the request; the new word stands beside it. -/
theorem settle_factors : (s.settle now request answer).request.factors = request.factors := by
  cases answer with
  | ok model => exact apply_factors model
  | error failure => rfl

/-- **A challenge that is open after an answer** was opened by it, or stood there before under a
token that the answer did not open. -/
theorem mem_settle {e : TimedEntry String Profile}
    (h : e ∈ (s.settle now request answer).after.challenges.entries) :
    Opens answer e.key ∨ e ∈ s.challenges.entries ∧ ¬ Opens answer e.key := by
  cases answer with
  | error failure =>
    refine Or.inr ⟨h, ?_⟩
    rintro ⟨model, hmodel, -⟩
    cases hmodel
  | ok model =>
    have hopens (token : String) : Opens (.ok model) token ↔
        model.status = .awaiting ∧ model.id = token := by simp [Opens]
    rw [hopens]
    unfold settle apply at h
    cases hstatus : model.status <;> simp only [hstatus] at h
    case awaiting =>
      rcases TimedMap.mem_insert h with rfl | ⟨hmem, hkey⟩
      · exact Or.inl ⟨rfl, rfl⟩
      · exact Or.inr ⟨hmem, fun hid => hkey hid.2.symm⟩
    case granted =>
      refine Or.inr ⟨?_, fun hid => nomatch hid.1⟩
      split at h <;> exact h
    all_goals exact Or.inr ⟨h, fun hid => nomatch hid.1⟩

/-- The challenge that an answer opens can be answered. -/
theorem live?_settle {token : String} (h : Opens answer token) :
    ((s.settle now request answer).after.challenges.live? now token).isSome = true := by
  obtain ⟨model, rfl, hstatus, rfl⟩ := h
  unfold settle apply
  simp only [hstatus]
  rw [TimedMap.live?_insert]
  rfl

/-! ## 4. The steps -/

/-- **What the start of a second factor can do**: a request without a user name is rejected, a
session lets the user pass, and otherwise the service is asked once. -/
theorem create_cases {es : Exchanges V} {t : Settled} (h : Trace (s.create now request) es t) :
    (request.user.isEmpty = true ∧ es = [] ∧ t = ⟨.reject, request, s⟩) ∨
    ∃ found sessions,
      s.sessions.check now request.client.name request.station request.user = (found, sessions) ∧
      (found = true ∧ es = [] ∧ t = ⟨.bypass, request, { s with sessions }⟩ ∨
        found = false ∧
          ∃ answer, es = [⟨.service request.client (.access (accessBody request)), answer⟩] ∧
            t = SecondFactor.settle { s with sessions } now request answer) := by
  unfold create at h
  split at h
  · rename_i huser
    obtain ⟨rfl, rfl⟩ := trace_done_iff.mp h
    exact Or.inl ⟨huser, rfl, rfl⟩
  · generalize hcheck :
      s.sessions.check now request.client.name request.station request.user = looked at h
    obtain ⟨found, sessions⟩ := looked
    refine Or.inr ⟨found, sessions, rfl, ?_⟩
    simp only at h
    split at h
    · rename_i hfound
      obtain ⟨rfl, rfl⟩ := trace_done_iff.mp h
      exact Or.inl ⟨hfound, rfl, rfl⟩
    · rename_i hfound
      obtain ⟨answer, rest, rfl, hrest⟩ := trace_ask_iff.mp h
      obtain ⟨rfl, rfl⟩ := trace_done_iff.mp hrest
      exact Or.inr ⟨Bool.eq_false_iff.mpr hfound, answer, rfl, rfl⟩

/-- Conversely, a user without a session is put before the service, which may answer anything. -/
theorem trace_create (user : request.user.isEmpty = false)
    (closed : (s.sessions.check now request.client.name request.station request.user).1 = false)
    (answer : Except Failure Model) :
    Trace (Q := Question V) (s.create now request)
      [⟨.service request.client (.access (accessBody request)), answer⟩]
      (settle { s with sessions :=
        (s.sessions.check now request.client.name request.station request.user).2 } now request
          answer) := by
  unfold create
  simp only [user, closed, Bool.false_eq_true, ↓reduceIte]
  exact trace_ask_iff.mpr ⟨answer, [], rfl, trace_done_iff.mpr ⟨rfl, rfl⟩⟩

/-- And a user with a session passes. -/
theorem trace_create_found (user : request.user.isEmpty = false)
    (found : (s.sessions.check now request.client.name request.station request.user).1 = true) :
    Trace (Q := Question V) (A := Question.Answer) (s.create now request) []
      ⟨.bypass, request, { s with sessions :=
        (s.sessions.check now request.client.name request.station request.user).2 }⟩ := by
  unfold create
  simp only [user, found, Bool.false_eq_true, ↓reduceIte]
  exact trace_done_iff.mpr ⟨rfl, rfl⟩

section Restore

variable {token : String} {restored : Request} {s' : SecondFactor}

/-- The profile of the challenge comes back, and what the device submitted stays. -/
theorem restore_submission (h : s.restore now request token = (restored, s')) :
    restored.SameSubmission request := by
  unfold restore at h
  split at h
  · obtain ⟨rfl, -⟩ := Prod.mk.inj h
    exact ⟨rfl, rfl, rfl, rfl⟩
  · obtain ⟨rfl, -⟩ := Prod.mk.inj h
    exact .refl request

theorem restore_factors (h : s.restore now request token = (restored, s')) :
    restored.factors = request.factors := by
  unfold restore at h
  split at h
  · obtain ⟨rfl, -⟩ := Prod.mk.inj h
    rfl
  · obtain ⟨rfl, -⟩ := Prod.mk.inj h
    rfl

/-- Nothing is opened by looking a challenge up. -/
theorem mem_restore (h : s.restore now request token = (restored, s'))
    {e : TimedEntry String Profile} (he : e ∈ s'.challenges.entries) : e ∈ s.challenges.entries := by
  unfold restore at h
  split at h
  · obtain ⟨-, rfl⟩ := Prod.mk.inj h
    exact TimedMap.mem_of_mem_get? he
  · obtain ⟨-, rfl⟩ := Prod.mk.inj h
    exact he

end Restore

/-- **What the answer to a challenge can do**: a request without a user name is rejected, and
otherwise the service is asked once. -/
theorem answer_cases {token : String} {es : Exchanges V} {t : Settled}
    (h : Trace (s.answer now request token) es t) :
    (request.user.isEmpty = true ∧ es = [] ∧ t = ⟨.reject, request, s⟩) ∨
    ∃ restored s', s.restore now request token = (restored, s') ∧
      ∃ reply,
        es = [⟨.service restored.client (.challenge (challengeBody restored token)), reply⟩] ∧
        t = (s'.settle now restored reply).closing now token := by
  unfold answer at h
  split at h
  · rename_i huser
    obtain ⟨rfl, rfl⟩ := trace_done_iff.mp h
    exact Or.inl ⟨huser, rfl, rfl⟩
  · generalize hrestore : s.restore now request token = restored at h
    obtain ⟨restored, s'⟩ := restored
    obtain ⟨reply, rest, rfl, hrest⟩ := trace_ask_iff.mp h
    obtain ⟨rfl, rfl⟩ := trace_done_iff.mp hrest
    exact Or.inr ⟨restored, s', rfl, reply, rfl, rfl⟩

/-- Conversely, the answer to a challenge is put before the service, which may answer anything. -/
theorem trace_answer (s : SecondFactor) (now : Time) (user : request.user.isEmpty = false)
    (token : String) (reply : Except Failure Model) :
    ∃ restored s', restored.SameSubmission request ∧ restored.factors = request.factors ∧
      Trace (Q := Question V) (s.answer now request token)
        [⟨.service restored.client (.challenge (challengeBody restored token)), reply⟩]
        ((settle s' now restored reply).closing now token) := by
  refine ⟨(s.restore now request token).1, (s.restore now request token).2,
    restore_submission rfl, restore_factors rfl, ?_⟩
  unfold answer
  simp only [user, Bool.false_eq_true, ↓reduceIte]
  exact trace_ask_iff.mpr ⟨reply, [], rfl, trace_done_iff.mpr ⟨rfl, rfl⟩⟩

@[simp] theorem closing_factor (t : Settled) (token : String) :
    (t.closing now token).factor = t.factor := by
  unfold Settled.closing
  split <;> rfl

@[simp] theorem closing_request (t : Settled) (token : String) :
    (t.closing now token).request = t.request := by
  unfold Settled.closing
  split <;> rfl

theorem mem_closing {t : Settled} {token : String} {e : TimedEntry String Profile}
    (h : e ∈ (t.closing now token).after.challenges.entries) : e ∈ t.after.challenges.entries := by
  unfold Settled.closing at h
  split at h
  · exact h
  · exact (TimedMap.mem_erase.mp h).1

end SecondFactor

end AccessGate
