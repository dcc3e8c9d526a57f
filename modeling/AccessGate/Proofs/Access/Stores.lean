import AccessGate.Proofs.Access.Challenges
import AccessGate.Proofs.Access.Keeping
import AccessGate.Proofs.Store.Live

/-!
# What a request does to the stores

Whatever way a request takes, the router changes its stores alone, and each of them in few places:

* `ChallengeStep`: among the open challenges some are looked up, and then at most one is opened, with
  the request's profile, or the one that the request brings back is closed;
* a password change is open only under a token that one had before or that was drawn (`Drawn`).

`Router.Moves` is the whole of it, `moves_of_route` says so of every request, and `answered_of_live`
tells what becomes of the request that answers a challenge.
-/

namespace AccessGate

open Dialogue

variable {V : Type} {now : Time} {request : Request} {es es' : Exchanges V} {token other : String}

/-- A token was drawn, and this is its text. -/
def Drawn (es : Exchanges V) (token : String) : Prop :=
  ∃ random, ⟨.token, random⟩ ∈ es ∧ PasswordChanges.tokenText random = token

theorem Drawn.mono (h : Drawn es token) (sub : es ⊆ es') : Drawn es' token := by
  obtain ⟨random, hmem, htext⟩ := h
  exact ⟨random, sub hmem, htext⟩

/-- No token was asked for. -/
def Undrawn (es : Exchanges V) : Prop := ∀ e ∈ es, e.1 ≠ .token

@[simp] theorem undrawn_nil : Undrawn ([] : Exchanges V) := fun _ h => nomatch h

@[simp] theorem undrawn_cons {e : Exchange (Question V) Question.Answer} :
    Undrawn (e :: es) ↔ e.1 ≠ .token ∧ Undrawn es := List.forall_mem_cons

theorem Undrawn.not_drawn (h : Undrawn es) : ¬ Drawn es token := by
  rintro ⟨random, hmem, -⟩
  exact h _ hmem rfl

theorem undrawn_of_asksService (h : AsksService request es) : Undrawn es := by
  obtain rfl | ⟨call, answer, rfl, -⟩ := h
  · exact undrawn_nil
  · simp

theorem opening_append : Opening (es ++ es') token ↔ Opening es token ∨ Opening es' token := by
  constructor
  · rintro ⟨client, call, answer, hmem, hopens⟩
    rcases List.mem_append.mp hmem with hmem | hmem
    · exact Or.inl ⟨client, call, answer, hmem, hopens⟩
    · exact Or.inr ⟨client, call, answer, hmem, hopens⟩
  · rintro (h | h)
    · exact h.mono (List.subset_append_left _ _)
    · exact h.mono (List.subset_append_right _ _)

/-- What a service says in the only exchange is what opens. -/
theorem opening_singleton {client : Client} {call : Verification.Call}
    {answer : Except Verification.Failure Verification.Model} :
    Opening (V := V) [⟨.service client call, answer⟩] token ↔ SecondFactor.Opens answer token := by
  constructor
  · rintro ⟨client', call', answer', hmem, hopens⟩
    cases List.mem_singleton.mp hmem
    exact hopens
  · intro h
    exact ⟨client, call, answer, List.mem_singleton_self _, h⟩

/-- The exchange opens a challenge under the token. -/
def opensUnder (token : String) (e : Exchange (Question V) Question.Answer) : Bool :=
  match e with
  | ⟨.service _ _, .ok model⟩ => model.status == .awaiting && model.id == token
  | _ => false

theorem opening_iff : Opening es token ↔ es.any (opensUnder token) = true := by
  rw [List.any_eq_true]
  constructor
  · rintro ⟨client, call, answer, hmem, model, rfl, hstatus, hid⟩
    refine ⟨_, hmem, ?_⟩
    simp [opensUnder, hstatus, hid]
  · rintro ⟨⟨question, answer⟩, hmem, hopens⟩
    cases question with
    | service client call =>
      cases answer with
      | ok model =>
        simp only [opensUnder, Bool.and_eq_true, beq_iff_eq] at hopens
        exact ⟨client, call, _, hmem, model, rfl, hopens⟩
      | error failure => cases hopens
    | _ => cases hopens

instance : Decidable (Opening es token) := decidable_of_iff _ opening_iff.symm

/-- Where the service is not asked, nothing is opened. -/
theorem not_opening_of_unasked (unasked : Unasked es) : ¬ Opening es token := fun h =>
  h.not_unasked unasked

/-! ## 1. The open challenges -/

/-- **What happens to the open challenges** on the way to this request. -/
inductive ChallengeStep (now : Time) (es : Exchanges V) (m : TimedMap String Profile)
    (request : Request) : TimedMap String Profile → Prop where
  /-- Some are looked up. -/
  | looked (m' : TimedMap String Profile) (looked : m.Looked now m')
      (silent : ∀ token, ¬ Opening es token) : ChallengeStep now es m request m'
  /-- The one that the request brings back is closed. -/
  | closed (m' : TimedMap String Profile) (token : String)
      (looked : m.Looked now m') (silent : ∀ token, ¬ Opening es token)
      (brings : request.token = some token) : ChallengeStep now es m request (m'.erase token)
  /-- One is opened, and the request goes out with its token. -/
  | opened (m' : TimedMap String Profile) (token : String)
      (looked : m.Looked now m') (opening : Opening es token)
      (only : ∀ other, Opening es other → other = token) (names : request.state = some token) :
      ChallengeStep now es m request (m'.insert now token request.profile)

theorem TimedMap.Looked.trans {κ ν : Type} [DecidableEq κ] {m m' m'' : TimedMap κ ν}
    (h : m.Looked now m') (h' : m'.Looked now m'') : m.Looked now m'' :=
  ⟨h.thinned.trans h'.thinned, fun t key order => (h'.live t key order).trans (h.live t key order)⟩

namespace ChallengeStep

variable {m m' m'' : TimedMap String Profile}

/-- What was looked up and exchanged before, with nothing opened, belongs to the step. -/
theorem after (h : ChallengeStep now es' m' request m'') (looked : m.Looked now m')
    (silent : ∀ token, ¬ Opening es token) : ChallengeStep now (es ++ es') m request m'' := by
  have hopening (token : String) : Opening (es ++ es') token ↔ Opening es' token := by
    rw [opening_append, or_iff_right (silent token)]
  cases h with
  | looked _ looked' silent' =>
    refine .looked _ (looked.trans looked') fun token => ?_
    rw [hopening]
    exact silent' token
  | closed _ token looked' silent' brings =>
    refine .closed _ token (looked.trans looked') (fun token => ?_) brings
    rw [hopening]
    exact silent' token
  | opened _ token looked' opening only names =>
    refine .opened _ token (looked.trans looked') ((hopening token).mpr opening) ?_ names
    intro other hother
    exact only other ((hopening other).mp hother)

/-- How the factors stand does not matter. -/
theorem withFactors (h : ChallengeStep now es m request m') (factors : Factors) :
    ChallengeStep now es m { request with factors } m' := by
  cases h with
  | looked _ looked silent => exact .looked _ looked silent
  | closed _ token looked silent brings => exact .closed _ token looked silent brings
  | opened m₁ token looked opening only names =>
    exact .opened m₁ token looked opening only names

theorem ttl (h : ChallengeStep now es m request m') : m'.ttl = m.ttl := by
  cases h with
  | looked _ looked silent => exact looked.thinned.ttl
  | closed _ token looked silent brings => exact looked.thinned.ttl
  | opened m₁ token looked opening only names =>
    exact (TimedMap.insert_ttl m₁ now token request.profile).trans looked.thinned.ttl

theorem distinct (h : ChallengeStep now es m request m') (distinct : m.Distinct) :
    m'.Distinct := by
  cases h with
  | looked _ looked silent => exact looked.thinned.distinct distinct
  | closed m₁ token looked silent brings =>
    exact (TimedMap.thinned_erase m₁ token).distinct (looked.thinned.distinct distinct)
  | opened _ token looked opening only names =>
    exact TimedMap.distinct_insert (looked.thinned.distinct distinct) _

/-- **A challenge that the step neither opens nor closes is found as before.** -/
theorem live_of_apart (h : ChallengeStep now es m request m') (distinct : m.Distinct)
    (room : m.HasRoom now) (brought : request.token ≠ some token) (old : ¬ Opening es token)
    {t : Time} (order : now ≤ t) : m'.live? t token = m.live? t token := by
  cases h with
  | looked _ looked silent => exact looked.live t token order
  | closed m₁ other looked silent brings =>
    have hne : token ≠ other := fun h => brought (h ▸ brings)
    rw [← looked.live t token order]
    exact TimedMap.live?_erase_of_ne (looked.thinned.distinct distinct) hne
  | opened m₁ other looked opening only names =>
    have hne : token ≠ other := fun h => old (h ▸ opening)
    rw [← looked.live t token order]
    exact TimedMap.live?_insert_of_ne (looked.thinned.distinct distinct)
      (looked.thinned.hasRoom room) order hne request.profile

/-- **A challenge that the step opens is found with the request's profile**, for as long as
challenges last. -/
theorem live_of_opening (h : ChallengeStep now es m request m') (opening : Opening es token) :
    request.state = some token ∧ ∀ t, t - now ≤ m.ttl →
      m'.live? t token = some ⟨token, request.profile, now⟩ := by
  cases h with
  | looked _ looked silent => exact absurd opening (silent token)
  | closed _ other looked silent brings => exact absurd opening (silent token)
  | opened m₁ other looked opening' only names =>
    obtain rfl := only token opening
    refine ⟨names, fun t inTime => ?_⟩
    rw [TimedMap.live?_insert_self, looked.thinned.ttl, if_pos inTime]

end ChallengeStep

namespace SecondFactor

variable {s : SecondFactor} {t : Settled} {answer : Except Verification.Failure Verification.Model}

/-- An answer opens a challenge with the request's profile, and the factor is awaited then, or it
leaves the challenges as they are. -/
theorem settle_challenges (s : SecondFactor) (now : Time) (request : Request)
    (answer : Except Verification.Failure Verification.Model) :
    (∃ token, Opens answer token ∧ (∀ other, Opens answer other → other = token) ∧
      (s.settle now request answer).factor = .awaiting ∧
      (s.settle now request answer).request.state = some token ∧
      (s.settle now request answer).after.challenges =
        s.challenges.insert now token (s.settle now request answer).request.profile) ∨
    (∀ token, ¬ Opens answer token) ∧ (s.settle now request answer).factor ≠ .awaiting ∧
      (s.settle now request answer).after.challenges = s.challenges := by
  cases answer with
  | error failure =>
    refine Or.inr ⟨?_, ?_, rfl⟩
    · rintro token ⟨model, hmodel, -⟩
      cases hmodel
    · show withoutService request failure ≠ .awaiting
      unfold withoutService
      split <;> simp
  | ok model =>
    have hopens (token : String) : Opens (.ok model) token ↔
        model.status = .awaiting ∧ model.id = token := by simp [Opens]
    show (∃ token, _ ∧ _ ∧ (s.apply now request model).factor = _ ∧
      (s.apply now request model).request.state = _ ∧ (s.apply now request model).after.challenges =
        s.challenges.insert now token (s.apply now request model).request.profile) ∨
      _ ∧ (s.apply now request model).factor ≠ _ ∧ (s.apply now request model).after.challenges = _
    simp only [hopens]
    unfold apply
    cases hstatus : model.status with
    | awaiting => exact Or.inl ⟨model.id, ⟨rfl, rfl⟩, fun other h => h.2.symm, rfl, rfl, rfl⟩
    | granted =>
      simp only
      split
      · exact Or.inr ⟨by simp, by simp, rfl⟩
      · exact Or.inr ⟨by simp, by simp, rfl⟩
    | denied => exact Or.inr ⟨by simp, by simp, rfl⟩
    | unknown => exact Or.inr ⟨by simp, by simp, rfl⟩

theorem create_step (h : Trace (s.create now request) es t) :
    ChallengeStep now es s.challenges t.request t.after.challenges := by
  obtain ⟨-, rfl, rfl⟩ | ⟨found, sessions, -, ⟨-, rfl, rfl⟩ | ⟨-, answer, rfl, rfl⟩⟩ := create_cases h
  · exact .looked _ (.refl _ _) fun token => not_opening_of_unasked unasked_nil
  · exact .looked _ (.refl _ _) fun token => not_opening_of_unasked unasked_nil
  · obtain ⟨token, hopens, honly, -, hstate, hafter⟩ | ⟨hsilent, -, hafter⟩ :=
      settle_challenges { s with sessions } now request answer
    · rw [hafter]
      exact .opened _ token (.refl _ _) (opening_singleton.mpr hopens)
        (fun other h => honly other (opening_singleton.mp h)) hstate
    · rw [hafter]
      exact .looked _ (.refl _ _) fun token h => hsilent token (opening_singleton.mp h)

/-- The profile of a challenge is looked up for a request without one. -/
theorem restore_looked {restored : Request} {s' : SecondFactor} (distinct : s.challenges.Distinct)
    (h : s.restore now request token = (restored, s')) :
    s.challenges.Looked now s'.challenges := by
  unfold restore at h
  split at h
  · obtain ⟨-, rfl⟩ := Prod.mk.inj h
    exact TimedMap.looked_get? distinct now token
  · obtain ⟨-, rfl⟩ := Prod.mk.inj h
    exact .refl now s.challenges

theorem answer_step (distinct : s.challenges.Distinct) (brings : request.token = some token)
    (h : Trace (s.answer now request token) es t) :
    ChallengeStep now es s.challenges t.request t.after.challenges := by
  have hpacket : t.request.packet = request.packet := by
    obtain ⟨profile, hrestates⟩ := answer_restates h
    exact hrestates.packet
  have hbrings : t.request.token = some token := by
    unfold Request.token
    rw [hpacket]
    exact brings
  obtain ⟨-, rfl, rfl⟩ | ⟨restored, s', hrestore, reply, rfl, rfl⟩ := answer_cases h
  · exact .looked _ (.refl _ _) fun token => not_opening_of_unasked unasked_nil
  · have hlooked := restore_looked distinct hrestore
    obtain ⟨opened, hopens, honly, hfactor, hstate, hafter⟩ | ⟨hsilent, hfactor, hafter⟩ :=
      settle_challenges s' now restored reply
    · unfold Settled.closing
      rw [if_pos hfactor, hafter]
      exact .opened _ opened hlooked (opening_singleton.mpr hopens)
        (fun other h => honly other (opening_singleton.mp h)) hstate
    · have hclosed : ((s'.settle now restored reply).closing now token).after.challenges =
          s'.challenges.erase token := by
        unfold Settled.closing
        rw [if_neg hfactor, ← hafter]
        rfl
      rw [hclosed]
      exact .closed _ token hlooked (fun token h => hsilent token (opening_singleton.mp h)) hbrings

/-- **The answer to an open challenge is put before the service with the profile of the
challenge.** -/
theorem answer_of_live {e : TimedEntry String Profile}
    (live : s.challenges.live? now token = some e) (unknown : request.profile = .empty)
    (user : request.user.isEmpty = false) (h : Trace (s.answer now request token) es t) :
    t.request.profile = e.value ∧ ∃ call answer, es = [⟨.service request.client call, answer⟩] ∧
      (Grants request answer → t.factor.isAccepted = true) := by
  obtain ⟨hempty, -, -⟩ | ⟨restored, s', hrestore, answer, rfl, rfl⟩ := answer_cases h
  · rw [user] at hempty
    cases hempty
  · have same := restore_submission hrestore
    have hprofile : restored.profile = e.value := by
      unfold restore at hrestore
      rw [if_pos unknown, TimedMap.get?_of_live live] at hrestore
      obtain ⟨rfl, -⟩ := Prod.mk.inj hrestore
      rfl
    refine ⟨?_, _, answer, by rw [same.client], fun grants => ?_⟩
    · rw [closing_request, (settle_restates _ _ _ _).profile, hprofile]
    · rw [closing_factor]
      refine isAccepted_settle.mpr ?_
      unfold Grants at grants ⊢
      rw [same.client]
      exact grants

end SecondFactor

/-! ## 2. The open password changes -/

namespace PasswordChanges

variable {c c' : PasswordChanges} {p : Progress}

/-- Every password change is open under a token that one had before or that was drawn. -/
def Keyed (es : Exchanges V) (c c' : PasswordChanges) : Prop :=
  ∀ e ∈ c'.conversations.entries,
    (∃ e' ∈ c.conversations.entries, e'.key = e.key) ∨ Drawn es e.key

theorem keyed_of_subset (sub : c'.conversations.entries ⊆ c.conversations.entries) :
    Keyed es c c' := fun e he => Or.inl ⟨e, sub he, rfl⟩

theorem keyed_owns (es : Exchanges V) (c : PasswordChanges) (now : Time) (token : String) :
    Keyed es c (c.owns now token).2 := keyed_of_subset fun _ => TimedMap.mem_of_mem_get?

theorem keyed_finish (es : Exchanges V) (c : PasswordChanges) (now : Time) (token : String) :
    Keyed es c (c.finish now token) := keyed_of_subset fun _ he => (TimedMap.mem_erase.mp he).1

theorem keyed_keep (es : Exchanges V) (c : PasswordChanges) (now : Time) (token : String)
    (replacement : Option Bytes) : Keyed es c (c.keep now token replacement) := by
  intro e he
  obtain ⟨-, hsame⟩ | hchanged := TimedMap.update_cases
    (fun conversation : Conversation => { conversation with replacement }) c.conversations now token
  · have hentries : e ∈ (c.conversations.update now token fun conversation =>
        { conversation with replacement }).2.entries := he
    rw [hsame] at hentries
    exact Or.inl ⟨e, hentries, rfl⟩
  · have hentries : e ∈ (c.conversations.update now token fun conversation =>
        { conversation with replacement }).2.entries := he
    rw [hchanged] at hentries
    obtain ⟨e', he', rfl⟩ := List.mem_map.mp hentries
    exact Or.inl ⟨e', he', (TimedMap.changeAt_key _ e').symm⟩

theorem keyed_initiate {domain : String} (h : Trace (c.initiate now request domain) es p) :
    Keyed es c p.after := by
  obtain ⟨random, rfl, ⟨-, rfl⟩ | ⟨current, -, rfl⟩⟩ := initiate_cases h
  · exact keyed_of_subset fun _ he => he
  · intro e he
    rcases TimedMap.mem_insert he with rfl | ⟨hmem, -⟩
    · exact Or.inr ⟨random, List.mem_singleton_self _, rfl⟩
    · exact Or.inl ⟨e, hmem, rfl⟩

theorem keyed_resume {verifier : V} (h : Trace (c.resume now request token verifier) es p) :
    Keyed es c p.after := by
  cases answer_of_resume h with
  | closed gone => exact keyed_of_subset fun _ he => (TimedMap.mem_erase.mp he).1
  | unsealed => exact keyed_of_subset fun _ he => he
  | stored => exact keyed_keep _ c now token _
  | mismatched => exact keyed_keep _ c now token none
  | asked e sealed current outcome =>
    cases outcome with
    | changed => exact keyed_finish _ c now token
    | complexityNotMet => exact keyed_keep _ c now token none
    | failed => exact keyed_finish _ c now token

end PasswordChanges

/-! ## 3. The router -/

namespace Router

variable {r r' : Router V} {d : Routed V}

/-- The second router is the first one with the stores of its own. -/
def Keeps (r r' : Router V) : Prop :=
  r' = { r with secondFactor := r'.secondFactor, changes := r'.changes }

theorem Keeps.trans {r'' : Router V} (h : r.Keeps r') (h' : r'.Keeps r'') : r.Keeps r'' := by
  unfold Keeps at *
  rw [h', h]

/-- **What a request does to the router.** -/
structure Moves (r : Router V) (now : Time) (es : Exchanges V) (d : Routed V) : Prop where
  keeps : r.Keeps d.router
  challenges : r.secondFactor.challenges.Distinct →
    ChallengeStep now es r.secondFactor.challenges d.request d.router.secondFactor.challenges
  changes : r.changes.Keyed es d.router.changes

/-- What comes before the second factor: challenges are looked up, none is opened, and the password
changes take their step. -/
structure Prepares (r : Router V) (now : Time) (es : Exchanges V) (r' : Router V) : Prop where
  keeps : r.Keeps r'
  looked : r.secondFactor.challenges.Distinct →
    r.secondFactor.challenges.Looked now r'.secondFactor.challenges
  changes : r.changes.Keyed es r'.changes
  silent : ∀ token, ¬ Opening es token

/-- A question before the second factor that is not for the service leaves the router alone. -/
theorem prepares_self (r : Router V) (now : Time) (unasked : Unasked es) : r.Prepares now es r :=
  ⟨rfl, fun _ => .refl _ _, PasswordChanges.keyed_of_subset fun _ he => he,
    fun _ => not_opening_of_unasked unasked⟩

theorem prepares_owner (r : Router V) (now : Time) (token : String) :
    r.Prepares now [] (r.owner now token).2 := by
  unfold owner
  simp only
  split
  · exact ⟨rfl, fun _ => .refl _ _, PasswordChanges.keyed_owns _ _ _ _,
      fun _ => not_opening_of_unasked unasked_nil⟩
  · exact ⟨rfl, fun distinct => TimedMap.looked_get? distinct now token,
      PasswordChanges.keyed_owns _ _ _ _, fun _ => not_opening_of_unasked unasked_nil⟩

theorem prepares_changes (r : Router V) (now : Time) {c : PasswordChanges}
    (keyed : r.changes.Keyed es c) (unasked : Unasked es) :
    r.Prepares now es { r with changes := c } :=
  ⟨rfl, fun _ => .refl _ _, keyed, fun _ => not_opening_of_unasked unasked⟩

/-- A request that ends there. -/
theorem Prepares.halts (h : r.Prepares now es d.router) : r.Moves now es d :=
  ⟨h.keeps, fun distinct => .looked _ (h.looked distinct) h.silent, h.changes⟩

/-- A request that goes on. -/
theorem Prepares.moves (h : r.Prepares now es r') (rest : r'.Moves now es' d) :
    r.Moves now (es ++ es') d where
  keeps := h.keeps.trans rest.keeps
  challenges distinct :=
    (rest.challenges ((h.looked distinct).thinned.distinct distinct)).after (h.looked distinct)
      h.silent
  changes := by
    intro e he
    rcases rest.changes e he with ⟨e', he', hkey⟩ | hdrawn
    · rcases h.changes e' he' with ⟨e'', he'', hkey'⟩ | hdrawn
      · exact Or.inl ⟨e'', he'', hkey'.trans hkey⟩
      · exact Or.inr (hkey ▸ hdrawn.mono (List.subset_append_left _ _))
    · exact Or.inr (hdrawn.mono (List.subset_append_right _ _))

theorem moves_of_settled {s : SecondFactor.Settled}
    (step : r.secondFactor.challenges.Distinct →
      ChallengeStep now es r.secondFactor.challenges s.request s.after.challenges) :
    r.Moves now es (r.settled s) :=
  ⟨rfl, fun distinct => (step distinct).withFactors _,
    PasswordChanges.keyed_of_subset fun _ he => he⟩

theorem moves_of_accepted (h : Trace (r.accepted now request) es d) : r.Moves now es d := by
  obtain ⟨-, rfl, rfl⟩ | ⟨-, s, hs, rfl⟩ := accepted_cases h
  · exact (prepares_self r now unasked_nil).halts
  · exact moves_of_settled fun _ => SecondFactor.create_step hs

theorem halted_router (r : Router V) (p : PasswordChanges.Progress) : (r.halted p).router = r := by
  unfold halted
  split
  · rfl
  · rfl

theorem moves_of_afterChange {p : PasswordChanges.Progress}
    (keyed : r.changes.Keyed es p.after) (unasked : Unasked es)
    (h : Trace (r.afterChange now p) es' d) : r.Moves now (es ++ es') d := by
  have hprepares := prepares_changes r now keyed unasked
  by_cases hstep : p.step = .changed
  · rw [afterChange_of_eq hstep] at h
    exact hprepares.moves (moves_of_accepted h)
  · rw [afterChange_of_ne hstep] at h
    obtain ⟨rfl, rfl⟩ := trace_done_iff.mp h
    rw [List.append_nil]
    refine Prepares.halts ?_
    rw [halted_router]
    exact hprepares

theorem unasked_of_initiate {c : PasswordChanges} {domain : String} {p : PasswordChanges.Progress}
    (h : Trace (c.initiate now request domain) es p) : Unasked es := by
  obtain ⟨-, random, rfl⟩ := initiate_exchanges h
  exact unasked_cons.mpr ⟨rfl, unasked_nil⟩

theorem unasked_of_resume {c : PasswordChanges} {verifier : V} {p : PasswordChanges.Progress}
    (h : Trace (c.resume now request token verifier) es p) : Unasked es := by
  obtain ⟨-, ⟨rfl, -⟩ | ⟨change, outcome, rfl, -⟩⟩ := resume_exchanges h
  · exact unasked_nil
  · exact unasked_cons.mpr ⟨rfl, unasked_nil⟩

theorem moves_of_fresh (h : Trace (r.fresh now request) es d) : r.Moves now es d := by
  unfold fresh at h
  split at h
  · obtain ⟨rfl, rfl⟩ := trace_done_iff.mp h
    exact (prepares_self r now unasked_nil).halts
  · rename_i verifier hfind
    obtain ⟨report, rest, rfl, hrest⟩ := trace_ask_iff.mp h
    -- the verifier's word moves nothing, and what follows it moves what it moves
    have hverified : r.Prepares now [⟨.verify verifier request, report⟩] r :=
      prepares_self r now (unasked_cons.mpr ⟨rfl, unasked_nil⟩)
    refine hverified.moves ?_
    simp only [afterReport] at hrest
    split at hrest
    · obtain ⟨rfl, rfl⟩ := trace_done_iff.mp hrest
      exact (prepares_self r now unasked_nil).halts
    · split at hrest
      · exact moves_of_accepted hrest
      · obtain ⟨xs, p, ys, rfl, hxs, hys⟩ := trace_bind_iff.mp hrest
        exact moves_of_afterChange (PasswordChanges.keyed_initiate hxs) (unasked_of_initiate hxs) hys
      all_goals
        obtain ⟨rfl, rfl⟩ := trace_done_iff.mp hrest
        exact (prepares_self r now unasked_nil).halts

theorem moves_of_resumeChange (h : Trace (r.resumeChange now request token) es d) :
    r.Moves now es d := by
  unfold resumeChange at h
  split at h
  · obtain ⟨rfl, rfl⟩ := trace_done_iff.mp h
    exact (prepares_self r now unasked_nil).halts
  · obtain ⟨xs, p, ys, rfl, hxs, hys⟩ := trace_bind_iff.mp h
    exact moves_of_afterChange (PasswordChanges.keyed_resume hxs) (unasked_of_resume hxs) hys

theorem moves_of_answerChallenge (brings : request.token = some token)
    (h : Trace (r.answerChallenge now request token) es d) : r.Moves now es d := by
  obtain ⟨xs, s, ys, rfl, hxs, hys⟩ := trace_bind_iff.mp h
  obtain ⟨rfl, rfl⟩ := trace_done_iff.mp hys
  have hbrings : (withFirst request .accept).token = some token := brings
  rw [List.append_nil]
  exact moves_of_settled fun distinct => SecondFactor.answer_step distinct hbrings hxs

/-- **Whatever a request does, the router changes its stores alone, and those as it is told here.** -/
theorem moves_of_route (h : Trace (r.route now request) es d) : r.Moves now es d := by
  unfold route at h
  split at h
  · obtain ⟨rfl, rfl⟩ := trace_done_iff.mp h
    exact (prepares_self r now unasked_nil).halts
  · split at h
    · exact moves_of_fresh h
    · rename_i token htoken
      have hlooked := prepares_owner r now token
      split at h
      all_goals
        rename_i howner
        rw [howner] at hlooked
      · exact hlooked.moves (moves_of_resumeChange h)
      · exact hlooked.moves (moves_of_answerChallenge htoken h)
      · exact hlooked.moves (moves_of_fresh h)

/-- **Where a challenge is opened, no token is drawn.** -/
theorem Way.undrawn_of_opening (h : r.Way now request es d) (opening : Opening es token) :
    Undrawn es := by
  cases h with
  | unserved => exact undrawn_nil
  | passed => simp
  | refused => simp
  | asked r' verifier report domain es p looked pass outcome start =>
    have hunasked : Unasked (⟨.verify verifier request, report⟩ :: es) :=
      unasked_cons.mpr ⟨rfl, unasked_of_initiate start⟩
    exact absurd opening (not_opening_of_unasked hunasked)
  | verified r' verifier report es d looked pass outcome rest =>
    exact undrawn_cons.mpr ⟨nofun, undrawn_of_asksService (accepted_exchanges rest)⟩
  | resumed r' verifier token es p looked holds carries answer step =>
    exact absurd opening (not_opening_of_unasked (unasked_of_resume answer))
  | changed r' verifier token es es' p d looked holds carries answer step rest =>
    obtain ⟨-, ⟨-, hstep⟩ | ⟨change, outcome, rfl, -⟩⟩ := resume_exchanges answer
    · exact absurd step hstep
    · exact undrawn_cons.mpr ⟨nofun, undrawn_of_asksService (accepted_exchanges rest)⟩
  | answered r' token es s looked holds carries answer =>
    exact undrawn_of_asksService (SecondFactor.answer_exchanges answer)

/-- **Who answers an open challenge is put before the service with the profile of the challenge**,
and let in if the service lets the user pass. -/
theorem answered_of_live (status : request.isStatusServer = false)
    (carries : request.token = some token)
    (free : ∀ e ∈ r.changes.conversations.entries, e.key ≠ token)
    (distinct : r.secondFactor.challenges.Distinct) {e : TimedEntry String Profile}
    (live : r.secondFactor.challenges.live? now token = some e)
    (unknown : request.profile = .empty) (user : request.user.isEmpty = false)
    (h : Trace (r.route now request) es d) :
    ∃ call answer, es = [⟨.service request.client call, answer⟩] ∧
      d.request.profile = e.value ∧
      (SecondFactor.Grants request answer → d.outcome = .decision .accept) := by
  have hchange : ¬ r.HoldsChange now token := by
    intro holds
    obtain ⟨e', he'⟩ := Option.isSome_iff_exists.mp holds
    obtain ⟨hmem, hkey⟩ := TimedMap.mem_of_live? he'
    exact free e' hmem hkey
  have hchallenge : r.HoldsChallenge now token := by
    refine ⟨hchange, ?_⟩
    rw [live]
    rfl
  have hlooked := prepares_owner r now token
  unfold route at h
  rw [status, carries] at h
  simp only [Bool.false_eq_true, ↓reduceIte] at h
  obtain ⟨o, r', howner, -, ⟨-, hother⟩ | ⟨rfl, -⟩ | ⟨-, -, hother⟩⟩ := owner_cases r now token
  · exact absurd hother hchange
  · simp only [howner] at h hlooked
    -- the challenge is found as before it was looked up
    have hlive : r'.secondFactor.challenges.live? now token = some e := by
      rw [(hlooked.looked distinct).live now token (Nat.le_refl now), live]
    obtain ⟨xs, s, ys, rfl, hxs, hys⟩ := trace_bind_iff.mp h
    obtain ⟨rfl, rfl⟩ := trace_done_iff.mp hys
    rw [List.append_nil]
    have hunknown : (withFirst request .accept).profile = .empty := unknown
    obtain ⟨hprofile, call, answer, rfl, haccepted⟩ :=
      SecondFactor.answer_of_live hlive hunknown user hxs
    refine ⟨call, answer, rfl, hprofile, fun grants => accept_of_settled ?_ (haccepted grants)⟩
    rw [SecondFactor.answer_factors hxs]
    rfl
  · exact absurd hchallenge hother

end Router

end AccessGate
