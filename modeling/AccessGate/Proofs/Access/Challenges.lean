import AccessGate.Proofs.Access.Vouching
import AccessGate.Proofs.Radius.Tokens
import AccessGate.Proofs.Store.Live
import AccessGate.Server

/-!
# Challenges go on, and are settled once

A decision to challenge sends a token out, and the device brings it back in a packet of its own. This
file follows the token from the decision to the wire, back to the router, and to its end:

* `Way.named`: the token of a challenge is open in one of the two stores;
* `token_of_bringsBack`: whoever sends its octets back asks with just this token, and
  `resumes_of_holds`: goes on with what it belongs to, and is not verified again;
* `settled_of_run`: once the service has settled a challenge, its token answers none until the
  service gives it out anew;
* `verified_of_foreign`: a request with any other token is verified once.
-/

namespace AccessGate

open Dialogue Radius

variable {V : Type}

/-! ## 1. A challenge has an open token -/

/-- After an accepted first factor only a second one that is awaited challenges. -/
theorem Factors.awaiting_of_challenge {second : Factor}
    (h : (Factors.mk .accept second).decision = .challenge) : second = .awaiting := by
  cases second with
  | awaiting => rfl
  | accept => cases h
  | reject => cases h
  | bypass => cases h

namespace SecondFactor

variable {s : SecondFactor} {now : Time} {request : Request} {es : Exchanges V} {t : Settled}

/-- The factor is awaited under an open token, which the request holds. -/
def Settled.Named (t : Settled) (now : Time) : Prop :=
  ∃ token, t.request.state = some token ∧
    (t.after.challenges.live? now token).isSome = true

theorem settle_named {answer : Except Verification.Failure Verification.Model}
    (awaiting : (s.settle now request answer).factor = .awaiting) :
    (s.settle now request answer).Named now := by
  cases answer with
  | error failure =>
    have hfactor : withoutService request failure = .awaiting := awaiting
    unfold withoutService at hfactor
    split at hfactor <;> cases hfactor
  | ok model =>
    have hstatus : model.status = .awaiting := by
      unfold settle apply at awaiting
      cases hstatus : model.status with
      | awaiting => rfl
      | granted =>
        simp only [hstatus] at awaiting
        split at awaiting <;> cases awaiting
      | denied =>
        simp only [hstatus] at awaiting
        cases awaiting
      | unknown =>
        simp only [hstatus] at awaiting
        cases awaiting
    refine ⟨model.id, ?_, live?_settle ⟨model, rfl, hstatus, rfl⟩⟩
    unfold settle apply
    simp only [hstatus]

theorem settle_packet {answer : Except Verification.Failure Verification.Model} :
    (s.settle now request answer).request.packet = request.packet := by
  cases answer with
  | error failure => rfl
  | ok model =>
    show (s.apply now request model).request.packet = request.packet
    unfold apply
    split
    · split <;> rfl
    all_goals rfl

theorem create_named (h : Trace (s.create now request) es t) (awaiting : t.factor = .awaiting) :
    t.Named now := by
  obtain ⟨-, -, rfl⟩ | ⟨found, sessions, -, ⟨-, -, rfl⟩ | ⟨-, answer, -, rfl⟩⟩ := create_cases h
  · cases awaiting
  · cases awaiting
  · exact settle_named awaiting

theorem create_factors (h : Trace (s.create now request) es t) :
    t.request.factors = request.factors := by
  obtain ⟨-, -, rfl⟩ | ⟨found, sessions, -, ⟨-, -, rfl⟩ | ⟨-, answer, -, rfl⟩⟩ := create_cases h
  · rfl
  · rfl
  · exact settle_factors

theorem answer_named {token : String} (h : Trace (s.answer now request token) es t)
    (awaiting : t.factor = .awaiting) : t.Named now := by
  obtain ⟨-, -, rfl⟩ | ⟨restored, s', -, reply, -, rfl⟩ := answer_cases h
  · cases awaiting
  · rw [closing_factor] at awaiting
    unfold Settled.closing
    rw [if_pos awaiting]
    exact settle_named awaiting

theorem answer_factors {token : String} (h : Trace (s.answer now request token) es t) :
    t.request.factors = request.factors := by
  obtain ⟨-, -, rfl⟩ | ⟨restored, s', hrestore, reply, -, rfl⟩ := answer_cases h
  · rfl
  · rw [closing_request, settle_factors, restore_factors hrestore]

/-- **A challenge that was put before the service and is not awaited any more is gone.** -/
theorem gone_of_answer {token : String} (h : Trace (s.answer now request token) es t)
    (asked : es ≠ []) (settled : t.factor ≠ .awaiting) :
    ∀ e ∈ t.after.challenges.entries, e.key ≠ token := by
  obtain ⟨-, rfl, -⟩ | ⟨restored, s', -, reply, -, rfl⟩ := answer_cases h
  · exact absurd rfl asked
  · rw [closing_factor] at settled
    intro e he
    unfold Settled.closing at he
    rw [if_neg settled] at he
    exact (TimedMap.mem_erase.mp he).2

end SecondFactor

namespace PasswordChanges

variable {c : PasswordChanges} {now : Time} {request : Request} {es : Exchanges V} {p : Progress}

/-- The request holds the token of an open conversation. -/
def Progress.Named (p : Progress) (now : Time) : Prop :=
  ∃ token, p.request.state = some token ∧
    (p.after.conversations.live? now token).isSome = true

theorem initiate_named {domain : String} (h : Trace (c.initiate now request domain) es p)
    (challenge : p.step = .challenge) : p.Named now := by
  obtain ⟨random, -, ⟨-, rfl⟩ | ⟨current, -, rfl⟩⟩ := initiate_cases h
  · cases challenge
  · refine ⟨tokenText random, rfl, ?_⟩
    show ((c.conversations.insert now _ _).live? now _).isSome = true
    rw [TimedMap.live?_insert]
    rfl

theorem live_keep {token : String} {replacement : Option Bytes}
    {e : TimedEntry String Conversation} (found : c.conversations.live? now token = some e) :
    ((c.keep now token replacement).conversations.live? now token).isSome = true := by
  show ((c.conversations.update now token _).2.live? now token).isSome = true
  rw [TimedMap.live?_update_self _ (Nat.le_refl now), found]
  rfl

theorem resume_named {token : String} {verifier : V}
    (h : Trace (c.resume now request token verifier) es p) (challenge : p.step = .challenge) :
    p.Named now := by
  cases answer_of_resume h with
  | closed => cases challenge
  | unsealed => cases challenge
  | stored e sealed found => exact ⟨token, rfl, live_keep found⟩
  | mismatched e sealed previous found => exact ⟨token, rfl, live_keep found⟩
  | asked e sealed current outcome found =>
    cases outcome with
    | changed => cases challenge
    | complexityNotMet => exact ⟨token, rfl, live_keep found⟩
    | failed => cases challenge

end PasswordChanges

namespace Router

variable {r r' : Router V} {now : Time} {request : Request} {es : Exchanges V} {d : Routed V}
  {token : String}

/-- The token is that of an open password change or challenge. -/
def Holds (r : Router V) (now : Time) (token : String) : Prop :=
  r.HoldsChange now token ∨ r.HoldsChallenge now token

theorem holds_of_live (h : (r.secondFactor.challenges.live? now token).isSome = true) :
    r.Holds now token := by
  by_cases hchange : r.HoldsChange now token
  · exact Or.inl hchange
  · exact Or.inr ⟨hchange, h⟩

/-- The request goes out with a token that the router holds. -/
def Routed.Named (d : Routed V) (now : Time) : Prop :=
  ∃ token, d.request.state = some token ∧ d.router.Holds now token

theorem not_challenge_of_refused (r : Router V) (request : Request) :
    (r.refuse request).outcome ≠ .decision .challenge := by
  rw [outcome_refuse]
  nofun

theorem settled_named {s : SecondFactor.Settled} (first : s.request.factors.first = .accept)
    (named : s.factor = .awaiting → s.Named now)
    (challenge : (r.settled s).outcome = .decision .challenge) : (r.settled s).Named now := by
  have hdecision : (Factors.mk s.request.factors.first s.factor).decision = .challenge :=
    Outcome.decision.inj challenge
  rw [first] at hdecision
  obtain ⟨token, hstate, hlive⟩ := named (Factors.awaiting_of_challenge hdecision)
  exact ⟨token, hstate, holds_of_live hlive⟩

theorem accepted_named (h : Trace (r.accepted now request) es d)
    (challenge : d.outcome = .decision .challenge) : d.Named now := by
  obtain ⟨hby, -, rfl⟩ | ⟨-, s, hs, rfl⟩ := accepted_cases h
  · have hdecision : (Factors.mk .accept request.factors.second).decision = .challenge :=
      Outcome.decision.inj challenge
    rw [hby] at hdecision
    cases hdecision
  · have hfirst : s.request.factors.first = .accept := by
      rw [SecondFactor.create_factors hs]
      rfl
    exact settled_named hfirst (SecondFactor.create_named hs) challenge

theorem halted_named {p : PasswordChanges.Progress} (named : p.step = .challenge → p.Named now)
    (challenge : (halted { r with changes := p.after } p).outcome = .decision .challenge) :
    (halted { r with changes := p.after } p).Named now := by
  unfold halted at challenge ⊢
  split
  · rename_i hstep
    obtain ⟨token, hstate, hlive⟩ := named hstep
    exact ⟨token, hstate, Or.inl hlive⟩
  · rename_i hstep
    rw [if_neg hstep] at challenge
    exact absurd challenge (not_challenge_of_refused _ _)

/-- **The token of a challenge is open.** -/
theorem Way.named (h : r.Way now request es d) (challenge : d.outcome = .decision .challenge) :
    d.Named now := by
  cases h with
  | unserved r' => exact absurd challenge (not_challenge_of_refused r' request)
  | passed => cases challenge
  | refused r' => exact absurd challenge (not_challenge_of_refused r' _)
  | asked r' verifier report domain es p looked pass outcome start =>
    exact halted_named (PasswordChanges.initiate_named start) challenge
  | verified r' verifier report es d looked pass outcome rest =>
    exact accepted_named rest challenge
  | resumed r' verifier token es p looked holds carries answer step =>
    exact halted_named (PasswordChanges.resume_named answer) challenge
  | changed r' verifier token es es' p d looked holds carries answer step rest =>
    exact accepted_named rest challenge
  | answered r' token es s looked holds carries answer =>
    have hfirst : s.request.factors.first = .accept := by
      rw [SecondFactor.answer_factors answer]
      rfl
    exact settled_named hfirst (SecondFactor.answer_named answer) challenge

/-! ## 2. A token that the router holds goes on -/

/-- The request goes on with what the token belongs to. -/
def Resumes (r : Router V) (now : Time) (request : Request) (token : String) (es : Exchanges V)
    (d : Routed V) : Prop :=
  ∃ r', r.Looked r' ∧
    (r.HoldsChange now token ∧ Trace (r'.resumeChange now request token) es d ∨
      r.HoldsChallenge now token ∧ Trace (r'.answerChallenge now request token) es d)

/-- No verifier was asked about the first factor. -/
def Unverified (es : Exchanges V) : Prop := ∀ e ∈ es, e.1.isVerify = false

theorem unverified_nil : Unverified ([] : Exchanges V) := fun _ he => nomatch he

theorem unverified_of_resume {c : PasswordChanges} {token : String} {verifier : V}
    {p : PasswordChanges.Progress} (h : Trace (c.resume now request token verifier) es p) :
    Unverified es := by
  obtain ⟨-, ⟨rfl, -⟩ | ⟨change, outcome, rfl, -⟩⟩ := resume_exchanges h
  · exact unverified_nil
  · intro e he
    rw [List.mem_singleton.mp he]
    rfl

theorem unverified_of_asksService (h : AsksService request es) : Unverified es := by
  intro e he
  obtain rfl | ⟨call, answer, rfl, -⟩ := h
  · cases he
  · rw [List.mem_singleton.mp he]
    rfl

theorem unverified_of_resumeChange (h : Trace (r.resumeChange now request token) es d) :
    Unverified es := by
  unfold resumeChange at h
  split at h
  · obtain ⟨rfl, -⟩ := trace_done_iff.mp h
    exact fun e he => nomatch he
  · obtain ⟨xs, p, ys, rfl, hxs, hys⟩ := trace_bind_iff.mp h
    have hrest : Unverified ys := by
      by_cases hstep : p.step = .changed
      · rw [afterChange_of_eq hstep] at hys
        exact unverified_of_asksService (accepted_exchanges hys)
      · rw [afterChange_of_ne hstep] at hys
        obtain ⟨rfl, -⟩ := trace_done_iff.mp hys
        exact fun e he => nomatch he
    intro e he
    rcases List.mem_append.mp he with he | he
    · exact unverified_of_resume hxs e he
    · exact hrest e he

theorem unverified_of_answerChallenge (h : Trace (r.answerChallenge now request token) es d) :
    Unverified es := by
  obtain ⟨xs, s, ys, rfl, hxs, hys⟩ := trace_bind_iff.mp h
  obtain ⟨rfl, -⟩ := trace_done_iff.mp hys
  rw [List.append_nil]
  exact unverified_of_asksService (SecondFactor.answer_exchanges hxs)

/-- **A request with an open token goes on where it stopped**, and is not verified again. -/
theorem resumes_of_holds (status : request.isStatusServer = false)
    (carries : request.token = some token) (holds : r.Holds now token)
    (h : Trace (r.route now request) es d) :
    r.Resumes now request token es d ∧ Unverified es := by
  unfold route at h
  rw [status, carries] at h
  simp only [Bool.false_eq_true, ↓reduceIte] at h
  obtain ⟨o, r', howner, hlooked, ⟨rfl, hchange⟩ | ⟨rfl, hchallenge⟩ | ⟨rfl, hnot, hnone⟩⟩ :=
    owner_cases r now token
  · simp only [howner] at h
    exact ⟨⟨r', hlooked, Or.inl ⟨hchange, h⟩⟩, unverified_of_resumeChange h⟩
  · simp only [howner] at h
    exact ⟨⟨r', hlooked, Or.inr ⟨hchallenge, h⟩⟩, unverified_of_answerChallenge h⟩
  · rcases holds with hchange | hchallenge
    · exact absurd hchange hnot
    · exact absurd hchallenge hnone

/-- **Any other request is verified, once.** -/
theorem verified_of_foreign (status : request.isStatusServer = false)
    (foreign : ∀ token, request.token = some token → ¬ r.Holds now token) {verifier : V}
    (find : r.verifiers.find request.client.source = .ok verifier)
    (h : Trace (r.route now request) es d) :
    ∃ report rest, es = ⟨.verify verifier request, report⟩ :: rest ∧ Unverified rest := by
  have honce := (way_of_trace status h).asksOnce.verify
  have hfresh {r' : Router V} (looked : r.Looked r') (h : Trace (r'.fresh now request) es d) :
      ∃ report rest, es = ⟨.verify verifier request, report⟩ :: rest ∧ Unverified rest := by
    unfold fresh at h
    rw [looked.verifiers, find] at h
    obtain ⟨report, rest, rfl, -⟩ := trace_ask_iff.mp h
    refine ⟨report, rest, rfl, fun e he => ?_⟩
    have hrest : rest.countP (·.1.isVerify) = 0 := by
      rw [List.countP_cons_of_pos rfl] at honce
      exact Nat.eq_zero_of_le_zero (Nat.le_of_succ_le_succ honce)
    exact Bool.eq_false_iff.mpr (List.countP_eq_zero.mp hrest e he)
  unfold route at h
  rw [status] at h
  simp only [Bool.false_eq_true, ↓reduceIte] at h
  cases htoken : request.token with
  | none =>
    rw [htoken] at h
    exact hfresh (looked_self r) h
  | some token =>
    rw [htoken] at h
    obtain ⟨o, r', howner, hlooked, ⟨rfl, hchange⟩ | ⟨rfl, hchallenge⟩ | ⟨rfl, -, -⟩⟩ :=
      owner_cases r now token
    · exact absurd (Or.inl hchange) (foreign token htoken)
    · exact absurd (Or.inr hchallenge) (foreign token htoken)
    · simp only [howner] at h
      exact hfresh hlooked h

/-! ## 3. A token comes back from the wire -/

theorem accepted_packet (h : Trace (r.accepted now request) es d) :
    d.request.packet = request.packet := by
  obtain ⟨-, -, rfl⟩ | ⟨-, s, hs, rfl⟩ := accepted_cases h
  · rfl
  · obtain ⟨-, -, rfl⟩ | ⟨found, sessions, -, ⟨-, -, rfl⟩ | ⟨-, answer, -, rfl⟩⟩ :=
      SecondFactor.create_cases hs
    · rfl
    · rfl
    · exact SecondFactor.settle_packet

theorem halted_packet (r : Router V) {p : PasswordChanges.Progress}
    (h : p.request.packet = request.packet) : (r.halted p).request.packet = request.packet := by
  unfold halted
  split
  · exact h
  · exact h

/-- A request keeps its packet on its way. -/
theorem Way.packet (h : r.Way now request es d) : d.request.packet = request.packet := by
  cases h with
  | unserved => rfl
  | passed => rfl
  | refused => rfl
  | asked r' verifier report domain es p looked pass outcome start =>
    exact halted_packet _ (initiate_exchanges start).1.submission.packet
  | verified r' verifier report es d looked pass outcome rest =>
    exact (accepted_packet rest).trans (applyTo_submission report request).packet
  | resumed r' verifier token es p looked holds carries answer step =>
    exact halted_packet _ (resume_exchanges answer).1.submission.packet
  | changed r' verifier token es es' p d looked holds carries answer step rest =>
    exact (accepted_packet rest).trans (resume_exchanges answer).1.submission.packet
  | answered r' token es s looked holds carries answer =>
    obtain ⟨-, -, rfl⟩ | ⟨restored, s', hrestore, reply, -, rfl⟩ :=
      SecondFactor.answer_cases answer
    · rfl
    · show ((s'.settle now restored reply).closing now token).request.packet = _
      rw [SecondFactor.closing_request, SecondFactor.settle_packet]
      exact (SecondFactor.restore_submission hrestore).packet

/-- A message for the user is no token. -/
theorem getAll_withMessage (reply : Packet) (message : Option String) :
    (withMessage reply message).attributes.getAll Name.state =
      reply.attributes.getAll Name.state := by
  have hother : Name.same Name.replyMessage Name.state = false := by decide +kernel
  unfold withMessage
  split
  · show (reply.attributes.add _ _).getAll _ = _
    rw [Attributes.getAll_add, Attributes.valuesOf_of_ne, List.append_nil]
    intro p hp
    rw [List.mem_singleton.mp hp]
    exact hother
  · rfl

/-- The reply to a challenge tells its token. -/
theorem getAll_reply (r : Router V) (now : Time) (status : request.isStatusServer = false)
    (state : request.state = some token) :
    (r.reply now request .challenge).attributes.getAll Name.state =
      [.octets (Utf8.encode token)] := by
  have hsame : Name.same Name.state Name.state = true := Name.same_iff.mpr rfl
  unfold reply
  rw [status, state]
  show ((withMessage (request.packet.reply .accessChallenge) request.replyMessage).attributes.add
    Name.state (.octets (Utf8.encode token))).getAll Name.state = _
  rw [Attributes.getAll_add, getAll_withMessage, Attributes.valuesOf_of_same]
  · rfl
  · intro p hp
    rw [List.mem_singleton.mp hp]
    exact hsame

/-- What every reply carries besides is no token. -/
theorem getAll_completed (request : Request) (reply : Packet) :
    (Server.completed request reply).attributes.getAll Name.state =
      reply.attributes.getAll Name.state := by
  have hstates : Name.same Name.proxyState Name.state = false := by decide +kernel
  have hsignature : Name.same Name.messageAuthenticator Name.state = false := by decide +kernel
  have hadded (p : Packet) : p.ensureMessageAuthenticator.attributes.getAll Name.state =
      p.attributes.getAll Name.state := by
    unfold Packet.ensureMessageAuthenticator
    split
    · rfl
    · show (p.attributes.add _ _).getAll _ = _
      rw [Attributes.getAll_add, Attributes.valuesOf_of_ne, List.append_nil]
      intro pair hpair
      rw [List.mem_singleton.mp hpair]
      exact hsignature
  unfold Server.completed
  simp only
  rw [hadded, Attributes.getAll_addAll, Attributes.valuesOf_of_ne, List.append_nil]
  intro pair hpair
  obtain ⟨v, -, rfl⟩ := List.mem_map.mp hpair
  exact hstates

/-- The reply to a routed request, as the router writes it or with what every reply carries. -/
def Routed.Answers (d : Routed V) (now : Time) (reply : Packet) : Prop :=
  reply = d.packet now ∨ reply = Server.completed d.request (d.packet now)

/-- The request was read, under the standard dictionary, from a datagram whose first token is that
of the reply as it was written. -/
structure BringsBack (reply : Packet) (request : Request) : Prop where
  read : ∃ (w : WritingContext) (ctx : ReadingContext) (written sent : Bytes)
    (requestAuthenticator : Option Block) (remote : Endpoint) (relay : Option Endpoint)
    (client : Client) (packet : Packet),
    w.dictionary = .standard ∧ ctx.dictionary = .standard ∧ w.write reply = .ok written ∧
      ctx.read requestAuthenticator sent = .ok packet ∧ token? sent = token? written ∧
      packet.code = .accessRequest ∧ request = .make remote relay client packet

/-- Whatever token a reply was written with, any device can send it back. -/
theorem exists_bringsBack (remote : Endpoint) (client : Client) {w : WritingContext} {reply : Packet} {written octets : Bytes}
    (standard : w.dictionary = .standard) (write : w.write reply = .ok written)
    (tells : token? written = some octets) :
    ∃ packet, BringsBack reply (.make remote none client packet) := by
  obtain ⟨carrier, hcarrier⟩ : ∃ carrier : Packet, carrier =
    (Packet.new .accessRequest 0 reply.secret .zero).add Name.state (.octets octets) := ⟨_, rfl⟩
  have hcode : carrier.code = .accessRequest := by rw [hcarrier]; rfl
  have halone : carrier.attributes.toList = [(Name.state, .octets octets)] := by
    rw [hcarrier]
    rfl
  obtain ⟨sent, hsent⟩ := exists_write_token standard halone (length_token write tells)
  have htoken : token? sent = token? written := by
    have hvalue : carrier.attributes.get? Name.state = some (.octets octets) := by
      unfold Attributes.get?
      rw [Attributes.getAll_eq, halone, Attributes.valuesOf_of_same]
      · rfl
      · intro pair hpair
        rw [List.mem_singleton.mp hpair]
        exact Name.same_iff.mpr rfl
    rw [tokens_write standard hsent, hvalue, tells]
    rfl
  have hanswers : carrier.AnswersNone := by
    intro computed
    rw [hcode] at computed
    cases computed
  obtain ⟨ts, us, hwritten⟩ := written_of_write hsent
  exact ⟨received w carrier .utf8 us, ⟨w, _, written, sent, carrier.requestAuthenticator, remote,
    none, client, _, standard, standard, write, read_of_written hwritten hanswers .utf8, htoken,
    hcode, rfl⟩⟩

/-- **Whoever sends the octets of a reply's token back asks with this token.** -/
theorem token_of_bringsBack {asked back : Request} {reply : Packet} (way : r.Way now asked es d)
    (status : asked.isStatusServer = false) (challenge : d.outcome = .decision .challenge)
    (state : d.request.state = some token) (answers : d.Answers now reply)
    (brings : BringsBack reply back) :
    back.isStatusServer = false ∧ back.token = some token := by
  have hstatus : d.request.isStatusServer = false := by
    unfold Request.isStatusServer at status ⊢
    rw [way.packet]
    exact status
  have hpacket : d.packet now = d.router.reply now d.request .challenge := by
    unfold Routed.packet
    rw [challenge]
  have htells : reply.attributes.get? Name.state = some (.octets (Utf8.encode token)) := by
    unfold Attributes.get?
    rcases answers with rfl | rfl
    · rw [hpacket, getAll_reply d.router now hstatus state]
      rfl
    · rw [getAll_completed, hpacket, getAll_reply d.router now hstatus state]
      rfl
  obtain ⟨w, ctx, written, sent, requestAuthenticator, remote, relay, client, packet, hwriter,
    hreader, hwrite, hread, hfirst, hcode, rfl⟩ := brings.read
  refine ⟨?_, token_returns hwriter hreader htells hwrite hfirst hread⟩
  show (packet.code == .statusServer) = false
  rw [hcode]
  rfl

end Router

/-! ## 4. A challenge is settled once -/

namespace Visit

/-- The service was asked about the answer to the challenge, and settled it. -/
def Settles (x : Visit V) (token : String) : Prop :=
  (∃ client body reply, ⟨.service client (.challenge body), reply⟩ ∈ x.exchanges ∧
    body.requestId = token) ∧ x.routed.request.factors.second ≠ .awaiting

/-- Of the visits, one settled the challenge, and none opened it anew since. -/
def SettledBefore (visits : List (Visit V)) (token : String) : Prop :=
  ∃ earlier y later, visits = earlier ++ y :: later ∧ y.Settles token ∧
    ∀ z ∈ later, ¬ z.Opened token

end Visit

namespace Router

open Visit

variable {r₀ r : Router V} {visits : List (Visit V)} {x : Visit V} {token : String}

section Asked

variable {now : Time} {request : Request} {es : Exchanges V} {d : Routed V} {client : Client}
  {body : Verification.ChallengeBody} {reply : Except Verification.Failure Verification.Model}

/-- The start of a second factor answers no challenge. -/
theorem not_answer_of_accepted (h : Trace (r.accepted now request) es d) :
    ⟨.service client (.challenge body), reply⟩ ∉ es := by
  intro mem
  obtain ⟨-, rfl, -⟩ | ⟨-, s, hs, -⟩ := accepted_cases h
  · cases mem
  · obtain ⟨-, rfl, -⟩ | ⟨found, sessions, -, ⟨-, rfl, -⟩ | ⟨-, answer, rfl, -⟩⟩ :=
      SecondFactor.create_cases hs
    · cases mem
    · cases mem
    · cases List.mem_singleton.mp mem

/-- **An answer is put before the service only while its challenge is open.** -/
theorem Way.answer_of_mem (h : r.Way now request es d)
    (mem : ⟨.service client (.challenge body), reply⟩ ∈ es) :
    r.HoldsChallenge now body.requestId ∧ ∃ (r' : Router V) (s : SecondFactor.Settled),
      Trace (r'.secondFactor.answer now (withFirst request .accept) body.requestId) es s ∧
        d = r'.settled s := by
  cases h with
  | unserved => cases mem
  | passed => cases List.mem_singleton.mp mem
  | refused => cases List.mem_singleton.mp mem
  | asked r' verifier report domain es p looked pass outcome start =>
    obtain ⟨-, random, rfl⟩ := initiate_exchanges start
    rcases List.mem_cons.mp mem with heq | mem
    · cases heq
    · cases List.mem_singleton.mp mem
  | verified r' verifier report es d looked pass outcome rest =>
    rcases List.mem_cons.mp mem with heq | mem
    · cases heq
    · exact absurd mem (not_answer_of_accepted rest)
  | resumed r' verifier token es p looked holds carries answer step =>
    obtain ⟨-, ⟨rfl, -⟩ | ⟨change, outcome, rfl, -⟩⟩ := resume_exchanges answer
    · cases mem
    · cases List.mem_singleton.mp mem
  | changed r' verifier token es es' p d looked holds carries answer step rest =>
    rcases List.mem_append.mp mem with mem | mem
    · obtain ⟨-, ⟨rfl, -⟩ | ⟨change, outcome, rfl, -⟩⟩ := resume_exchanges answer
      · cases mem
      · cases List.mem_singleton.mp mem
    · exact absurd mem (not_answer_of_accepted rest)
  | answered r' token es s looked holds carries answer =>
    obtain ⟨-, rfl, -⟩ | ⟨restored, s', -, reply', rfl, -⟩ := SecondFactor.answer_cases answer
    · cases mem
    · obtain ⟨⟩ := List.mem_singleton.mp mem
      exact ⟨holds, r', s, answer, rfl⟩

end Asked

/-- A visit to the service with an answer is a request that answers an open challenge. -/
theorem Serves.answer_of_mem (serves : r.Serves x) {client : Client}
    {body : Verification.ChallengeBody} {reply : Except Verification.Failure Verification.Model}
    (mem : ⟨.service client (.challenge body), reply⟩ ∈ x.exchanges) :
    r.HoldsChallenge x.now body.requestId ∧ ∃ (r' : Router V) (s : SecondFactor.Settled),
      Trace (r'.secondFactor.answer x.now (withFirst x.request .accept) body.requestId) x.exchanges
        s ∧ x.routed = r'.settled s := by
  cases hstatus : x.request.isStatusServer with
  | true =>
    rw [(trace_status hstatus serves.trace).1] at mem
    cases mem
  | false => exact (way_of_trace hstatus serves.trace).answer_of_mem mem

theorem gone_of_settles (serves : r.Serves x) (settles : x.Settles token) :
    ∀ e ∈ x.routed.router.secondFactor.challenges.entries, e.key ≠ token := by
  obtain ⟨⟨client, body, reply, hmem, rfl⟩, hsettled⟩ := settles
  obtain ⟨-, r', s, hanswer, hrouted⟩ := serves.answer_of_mem hmem
  rw [hrouted] at hsettled ⊢
  exact SecondFactor.gone_of_answer hanswer (List.ne_nil_of_mem hmem) hsettled

/-- **A settled challenge is gone until it is opened anew.** -/
theorem settled_of_run (run : Run r₀ visits r) (settled : SettledBefore visits token) :
    ∀ e ∈ r.secondFactor.challenges.entries, e.key ≠ token := by
  refine run_preserves (P := fun visits r => SettledBefore visits token →
    ∀ e ∈ r.secondFactor.challenges.entries, e.key ≠ token) ?_ ?_ run settled
  · rintro ⟨earlier, y, later, cut, -⟩
    exact absurd cut (by simp)
  · rintro visits r x - ih serves ⟨earlier, y, later, cut, settles, quiet⟩ e he
    obtain ⟨rfl, rfl, -⟩ | ⟨later', rfl, rfl⟩ := cut_snoc cut
    · exact gone_of_settles serves settles e he
    · by_cases hkey : e.key = token
      · have hold : ¬ x.Opened e.key := by
          rw [hkey]
          exact quiet x (by simp)
        refine ih ⟨earlier, y, later', rfl, settles, ?_⟩ e (mem_challenges_of_serves serves he hold)
        exact fun z hz => quiet z (List.mem_append_left _ hz)
      · exact hkey

/-- A question for the status is never challenged. -/
theorem Serves.not_status (serves : r.Serves x) (challenge : x.routed.outcome = .decision .challenge) :
    x.request.isStatusServer = false := by
  refine Bool.eq_false_iff.mpr fun hstatus => ?_
  have htrace := serves.trace
  unfold route at htrace
  rw [if_pos hstatus] at htrace
  obtain ⟨-, hrouted⟩ := trace_done_iff.mp htrace
  rw [hrouted] at challenge
  cases challenge

/-- What the gateway does about tokens for a visit after the others. -/
structure Continues (visits : List (Visit V)) (r : Router V) (x : Visit V) : Prop where
  /-- A challenge goes out with an open token. -/
  named : x.routed.outcome = .decision .challenge → x.routed.Named x.now
  /-- Whoever sends its octets back while it is open goes on with it, and is not verified again. -/
  returns : ∀ token reply, x.routed.outcome = .decision .challenge →
    x.routed.request.state = some token → x.routed.Answers x.now reply →
      ∀ (r' : Router V) (y : Visit V), r'.Serves y → BringsBack reply y.request →
        r'.Holds y.now token →
          r'.Resumes y.now y.request token y.exchanges y.routed ∧ Unverified y.exchanges
  /-- A settled challenge is answered no more until it is opened anew. -/
  settled : ∀ token, SettledBefore visits token → ¬ r.HoldsChallenge x.now token ∧
    ∀ client body reply, ⟨.service client (.challenge body), reply⟩ ∈ x.exchanges →
      body.requestId ≠ token
  /-- A request with any other token, or none, is verified once. -/
  verified : x.request.isStatusServer = false →
    (∀ token, x.request.token = some token → ¬ r.Holds x.now token) →
      ∀ verifier, r.verifiers.find x.request.client.source = .ok verifier →
        ∃ report rest, x.exchanges = ⟨.verify verifier x.request, report⟩ :: rest ∧
          Unverified rest

/-- **Challenges can be continued and are settled once**, in every run. -/
theorem continues_of_run (run : Run r₀ visits r) (serves : r.Serves x) : Continues visits r x := by
  refine ⟨?_, ?_, ?_, ?_⟩
  · intro challenge
    exact (way_of_trace (serves.not_status challenge) serves.trace).named challenge
  · intro token reply challenge state answers r' y serves' brings holds
    have way := way_of_trace (serves.not_status challenge) serves.trace
    obtain ⟨hstatus, carries⟩ := token_of_bringsBack way (serves.not_status challenge) challenge
      state answers brings
    exact resumes_of_holds hstatus carries holds serves'.trace
  · intro token settled
    have hgone := settled_of_run run settled
    have hnot : ¬ r.HoldsChallenge x.now token := by
      rintro ⟨-, hlive⟩
      obtain ⟨e, he⟩ := Option.isSome_iff_exists.mp hlive
      obtain ⟨hmem, hkey⟩ := TimedMap.mem_of_live? he
      exact hgone e hmem hkey
    refine ⟨hnot, ?_⟩
    rintro client body reply hmem rfl
    exact hnot (serves.answer_of_mem hmem).1
  · intro hstatus foreign verifier find
    exact verified_of_foreign hstatus foreign find serves.trace

end Router

/-! ## 5. A challenge of the sample -/

namespace Login

open Router

/-- What the router makes of a packet of the sample's device. -/
def arrived (packet : Packet) : Request :=
  .make (.v4 (.ofOctets [10, 0, 0, 1]) 1812) none Config.exampleDirectoryClient packet

/-- Alice is challenged, a device can send the token back, and it goes on with her challenge. -/
theorem alice_is_challenged : ∃ call d packet, Run router [] router ∧
    router.Serves (challenged call d) ∧ d.outcome = .decision .challenge ∧
      d.request.state = some "req-1" ∧ d.router.Holds 0 "req-1" ∧
        BringsBack (d.packet 0) (arrived packet) ∧
          ∀ es d', Trace (d.router.route 0 (arrived packet)) es d' →
            d.router.Resumes 0 (arrived packet) "req-1" es d' ∧ Unverified es := by
  have alice : (request "alice" none).user.isEmpty = false := by decide +kernel
  have second : ((FirstFactor.Report.bare (.ok .accept)).applyTo
      (request "alice" none)).factors.second ≠ .bypass := nofun
  obtain ⟨call, d, htrace, -, -, hopens⟩ := trace_route_verified router 0
    (request "alice" none) rfl (by decide +kernel) rfl rfl rfl second alice (by decide +kernel)
    (reply .awaiting "req-1")
  obtain ⟨challenge, hlive, hstate, hmessage⟩ := hopens _ rfl rfl
  have run : Run router [] router := .start
  have serves : router.Serves (challenged call d) := ⟨rfl, htrace⟩
  have hstatus : d.request.isStatusServer = false := by
    unfold Request.isStatusServer
    rw [(way_of_trace rfl htrace).packet]
    rfl
  -- the reply tells the token, and nothing else
  have halone : (d.packet 0).attributes.toList = [(Name.state, .octets (Utf8.encode "req-1"))] := by
    unfold Routed.packet
    rw [challenge]
    unfold Router.reply
    simp only [hstatus, hstate, hmessage]
    rfl
  obtain ⟨written, write⟩ : ∃ written,
      (WritingContext.mk .standard .standard).write (d.packet 0) = .ok written :=
    exists_write_token rfl halone (by decide +kernel)
  have tells : token? written = some (Utf8.encode "req-1") := by
    rw [tokens_write rfl write]
    unfold Attributes.get?
    rw [Attributes.getAll_eq, halone]
    decide +kernel
  obtain ⟨packet, brings⟩ := exists_bringsBack (.v4 (.ofOctets [10, 0, 0, 1]) 1812)
    Config.exampleDirectoryClient rfl write tells
  refine ⟨call, d, packet, run, serves, challenge, hstate, holds_of_live hlive, brings, ?_⟩
  intro es d' htrace'
  exact (continues_of_run run serves).returns "req-1" (d.packet 0) challenge hstate (Or.inl rfl)
    d.router ⟨0, _, es, d'⟩ ⟨rfl, htrace'⟩ brings (holds_of_live hlive)

end Login

end AccessGate
