import AccessGate.Proofs.Access.Acceptance

/-!
# What stays of a request

On its way a request changes in few places: a step of either factor writes down how the factors
stand, what token the reply sends back and what it says, and nothing else (`Request.Restates`).
Before the steps a verifier's report is laid over the request, or the profile of a challenge
(`Way.restates`). So the request that comes out is of the device, the client and the packet that came
in (`origin_of_route`).
-/

namespace AccessGate

open Dialogue

variable {V : Type} {now : Time} {request : Request}

/-- The first request is the second one with the factors, the token and the message of its own. -/
def Request.Restates (a b : Request) : Prop :=
  a = { b with factors := a.factors, state := a.state, replyMessage := a.replyMessage }

namespace Request.Restates

variable {a b c : Request}

theorem refl (a : Request) : a.Restates a := rfl

theorem trans (h : a.Restates b) (h' : b.Restates c) : a.Restates c := by
  unfold Restates at *
  rw [h, h']

theorem remote (h : a.Restates b) : a.remote = b.remote := by rw [h]

theorem relay (h : a.Restates b) : a.relay = b.relay := by rw [h]

theorem client (h : a.Restates b) : a.client = b.client := by rw [h]

theorem packet (h : a.Restates b) : a.packet = b.packet := by rw [h]

theorem profile (h : a.Restates b) : a.profile = b.profile := by rw [h]

theorem remoteReply (h : a.Restates b) : a.remoteReply = b.remoteReply := by rw [h]

end Request.Restates

namespace SecondFactor

variable {s : SecondFactor} {es : Exchanges V} {t : Settled} {token : String}

theorem settle_restates (s : SecondFactor) (now : Time) (request : Request)
    (answer : Except Verification.Failure Verification.Model) :
    (s.settle now request answer).request.Restates request := by
  cases answer with
  | error failure => exact .refl request
  | ok model =>
    show (s.apply now request model).request.Restates request
    unfold apply
    split
    · split
      · exact .refl request
      · exact .refl request
    · rfl
    · rfl
    · exact .refl request

theorem create_restates (h : Trace (s.create now request) es t) : t.request.Restates request := by
  obtain ⟨-, -, rfl⟩ | ⟨found, sessions, -, ⟨-, -, rfl⟩ | ⟨-, answer, -, rfl⟩⟩ := create_cases h
  · exact .refl request
  · exact .refl request
  · exact settle_restates _ _ _ _

/-- The answer to a challenge is about the request with the profile that is found. -/
theorem answer_restates (h : Trace (s.answer now request token) es t) :
    ∃ profile, t.request.Restates { request with profile } := by
  obtain ⟨-, -, rfl⟩ | ⟨restored, s', hrestore, reply, -, rfl⟩ := answer_cases h
  · exact ⟨request.profile, rfl⟩
  · rw [closing_request]
    unfold restore at hrestore
    split at hrestore
    · obtain ⟨rfl, -⟩ := Prod.mk.inj hrestore
      exact ⟨_, settle_restates _ _ _ _⟩
    · obtain ⟨rfl, -⟩ := Prod.mk.inj hrestore
      exact ⟨request.profile, settle_restates _ _ _ _⟩

end SecondFactor

namespace PasswordChanges

variable {c : PasswordChanges} {es : Exchanges V} {p : Progress} {token : String}

theorem prompted_restates (request : Request) (token prompt : String) :
    (prompted request token prompt).Restates request := rfl

theorem initiate_restates {domain : String} (h : Trace (c.initiate now request domain) es p) :
    p.request.Restates request := by
  obtain ⟨random, -, ⟨-, rfl⟩ | ⟨current, -, rfl⟩⟩ := initiate_cases h
  · exact .refl request
  · exact prompted_restates _ _ _

theorem resume_restates {verifier : V} (h : Trace (c.resume now request token verifier) es p) :
    p.request.Restates request := by
  cases answer_of_resume h with
  | closed => exact .refl request
  | unsealed => exact .refl request
  | stored => exact prompted_restates _ _ _
  | mismatched => exact prompted_restates _ _ _
  | asked e sealed current outcome =>
    cases outcome with
    | changed => exact .refl request
    | complexityNotMet => exact prompted_restates _ _ _
    | failed => exact .refl request

end PasswordChanges

namespace Router

variable {r r' : Router V} {es : Exchanges V} {d : Routed V}

theorem withFirst_restates (request : Request) (first : Factor) :
    (withFirst request first).Restates request := rfl

theorem settled_restates (r : Router V) {s : SecondFactor.Settled}
    (h : s.request.Restates request) : (r.settled s).request.Restates request :=
  Request.Restates.trans (b := s.request) rfl h

theorem accepted_restates (h : Trace (r.accepted now request) es d) :
    d.request.Restates request := by
  obtain ⟨-, -, rfl⟩ | ⟨-, s, hs, rfl⟩ := accepted_cases h
  · exact withFirst_restates request .accept
  · exact settled_restates r
      ((SecondFactor.create_restates hs).trans (withFirst_restates request .accept))

theorem halted_restates (r : Router V) {p : PasswordChanges.Progress}
    (h : p.request.Restates request) : (r.halted p).request.Restates request := by
  unfold halted
  split
  · exact h
  · exact (withFirst_restates p.request .reject).trans h

/-- The request as the steps of the factors find it: as it came, with a verifier's report laid over
it, or with the profile of a challenge. -/
inductive Source (request : Request) (es : Exchanges V) : Request → Prop where
  | own : Source request es request
  | reported (verifier : V) (report : FirstFactor.Report)
      (mem : ⟨.verify verifier request, report⟩ ∈ es) : Source request es (report.applyTo request)
  | restored (profile : Profile) : Source request es { request with profile }

/-- **The steps of a way write down what they found and nothing else.** -/
theorem Way.restates (h : r.Way now request es d) :
    ∃ source, Source request es source ∧ d.request.Restates source := by
  cases h with
  | unserved => exact ⟨request, .own, withFirst_restates request .reject⟩
  | passed r' verifier report reply looked pass =>
    exact ⟨_, .reported verifier report List.mem_cons_self, .refl _⟩
  | refused r' verifier report =>
    exact ⟨_, .reported verifier report List.mem_cons_self, withFirst_restates _ .reject⟩
  | asked r' verifier report domain es p looked pass outcome start =>
    exact ⟨_, .reported verifier report List.mem_cons_self,
      halted_restates _ (PasswordChanges.initiate_restates start)⟩
  | verified r' verifier report es d looked pass outcome rest =>
    exact ⟨_, .reported verifier report List.mem_cons_self, accepted_restates rest⟩
  | resumed r' verifier token es p looked holds carries answer step =>
    exact ⟨request, .own, halted_restates _ (PasswordChanges.resume_restates answer)⟩
  | changed r' verifier token es es' p d looked holds carries answer step rest =>
    exact ⟨request, .own, (accepted_restates rest).trans (PasswordChanges.resume_restates answer)⟩
  | answered r' token es s looked holds carries answer =>
    obtain ⟨profile, hs⟩ := SecondFactor.answer_restates answer
    exact ⟨_, .restored profile, settled_restates r' (hs.trans rfl)⟩

/-- **A request keeps where it came from** and what it asks, and has no remote reply that no
verifier reported in this call. -/
theorem Way.origin (h : r.Way now request es d) :
    d.request.remote = request.remote ∧ d.request.relay = request.relay ∧
      d.request.client = request.client ∧ d.request.packet = request.packet ∧
      (d.request.remoteReply = request.remoteReply ∨ ∃ verifier report,
        ⟨.verify verifier request, report⟩ ∈ es ∧
          d.request.remoteReply = (report.remoteReply <|> request.remoteReply)) := by
  obtain ⟨source, hsource, hrestates⟩ := h.restates
  rw [hrestates.remote, hrestates.relay, hrestates.client, hrestates.packet, hrestates.remoteReply]
  cases hsource with
  | own => exact ⟨rfl, rfl, rfl, rfl, Or.inl rfl⟩
  | reported verifier report mem =>
    exact ⟨rfl, rfl, rfl, rfl, Or.inr ⟨verifier, report, mem, rfl⟩⟩
  | restored profile => exact ⟨rfl, rfl, rfl, rfl, Or.inl rfl⟩

/-- And so does every request, for one that asks for the status comes out as it came in. -/
theorem origin_of_route (h : Trace (r.route now request) es d) :
    d.request.remote = request.remote ∧ d.request.relay = request.relay ∧
      d.request.client = request.client ∧ d.request.packet = request.packet ∧
      (d.request.remoteReply = request.remoteReply ∨ ∃ verifier report,
        ⟨.verify verifier request, report⟩ ∈ es ∧
          d.request.remoteReply = (report.remoteReply <|> request.remoteReply)) := by
  cases hstatus : request.isStatusServer with
  | true =>
    unfold route at h
    rw [if_pos hstatus] at h
    obtain ⟨-, rfl⟩ := trace_done_iff.mp h
    exact ⟨rfl, rfl, rfl, rfl, Or.inl rfl⟩
  | false => exact (way_of_trace hstatus h).origin

end Router

end AccessGate
