import AccessGate.Proofs.Access.Profiles
import AccessGate.Proofs.Radius.Groups

/-!
# What a remote server grants

A remote server that accepts a user says in the same reply what the user may do. These attributes
belong to the request whose first factor the server checked, and only the user's profile is kept for
the requests that answer its challenges.

* `Way.reported`: the reply that comes out with a request is that of the verifier asked in the call;
* `accept_bears`: so a request that is let in with its first factor gets all that the server granted,
  and one that is let in with an answer gets what the client's rules add and nothing else;
* `forgotten_of_chain`: this is so however long the conversation is.
-/

namespace AccessGate

open Dialogue Radius

/-! ## 1. Attributes that are added -/

namespace Radius.Attributes

variable {as : Attributes} {pair : Name × Value}

/-- No value is lost when another is added. -/
theorem mem_toList_of_mem {name : Name} {v : Value} (h : pair ∈ as.toList) :
    pair ∈ (as.add name v).toList := by
  have hgroups {gs : List Group}
      (h : pair ∈ gs.flatMap fun g => g.values.map fun v => (g.name, v)) :
      pair ∈ (upsert name (· ++ [v]) gs).flatMap fun g => g.values.map fun v => (g.name, v) := by
    induction gs with
    | nil => cases h
    | cons g gs ih =>
      rw [List.flatMap_cons] at h
      unfold upsert
      by_cases hsame : Name.same g.name name = true
      · rw [if_pos hsame, List.flatMap_cons, List.map_append]
        rcases List.mem_append.mp h with h | h
        · exact List.mem_append_left _ (List.mem_append_left _ h)
        · exact List.mem_append_right _ h
      · rw [if_neg hsame, List.flatMap_cons]
        rcases List.mem_append.mp h with h | h
        · exact List.mem_append_left _ h
        · exact List.mem_append_right _ (ih h)
  exact hgroups h

theorem mem_toList_addAll (pairs : List (Name × Value)) (h : pair ∈ as.toList) :
    pair ∈ (as.addAll pairs).toList := by
  induction pairs generalizing as with
  | nil => exact h
  | cons p rest ih => exact ih (mem_toList_of_mem h)

end Radius.Attributes

namespace Router

variable {V : Type} {r : Router V} {now : Time} {request : Request} {es : Exchanges V}
  {d : Routed V}

/-! ## 2. The reply that a request comes out with -/

/-- The attributes of a remote reply that are not for one hop alone. -/
def handedOn (remote : Packet) : List (Name × Value) :=
  relayed remote [Name.proxyState, Name.messageAuthenticator, Name.state]

/-- The client's rules add to what the server granted and take nothing away. -/
theorem mem_granted {remote : Packet} (h : request.remoteReply = some remote)
    {pair : Name × Value} (mem : pair ∈ handedOn remote) : pair ∈ (r.granted request).toList := by
  have hhanded : (Attributes.ofList (handedOn remote)).toList = handedOn remote :=
    Attributes.toList_ofList_filter remote.attributes fun name =>
      !List.contains [Name.proxyState, Name.messageAuthenticator, Name.state] name
  have hgranted : r.granted request = (Attributes.ofList (handedOn remote)).addAll
      (ReplyRule.values r.dictionary request request.client.replyRules) := by
    unfold granted
    rw [h]
    rfl
  rw [hgranted]
  refine Attributes.mem_toList_addAll _ ?_
  rw [hhanded]
  exact mem

theorem granted_alone (h : request.remoteReply = none) :
    r.granted request =
      ReplyRule.apply r.dictionary request request.client.replyRules .empty := by
  unfold granted
  rw [h]
  rfl

/-- The reply of a request that is let in has the attributes that are granted. -/
theorem packet_of_accept (status : request.isStatusServer = false)
    (h : Trace (r.route now request) es d) (accept : d.outcome = .decision .accept) :
    (d.packet now).attributes = d.router.granted d.request := by
  obtain ⟨-, -, -, hpacket, -⟩ := origin_of_route h
  have hstatus : d.request.isStatusServer = false := by
    unfold Request.isStatusServer
    rw [hpacket]
    exact status
  unfold Routed.packet reply
  rw [accept]
  simp only [hstatus, Bool.false_eq_true, ↓reduceIte]

/-- Nobody verified the request and it has the remote reply that it came with, or one verifier did
and it has the one that was reported. -/
def Reported (request : Request) (es : Exchanges V) (d : Routed V) : Prop :=
  Unverified es ∧ d.request.remoteReply = request.remoteReply ∨
    ∃ verifier report rest, es = ⟨.verify verifier request, report⟩ :: rest ∧ Unverified rest ∧
      d.request.remoteReply = (report.remoteReply <|> request.remoteReply)

/-- **The reply that comes out with a request is that of the verifier asked in the call.** -/
theorem Way.reported (h : r.Way now request es d) : Reported request es d := by
  cases h with
  | unserved => exact Or.inl ⟨unverified_nil, rfl⟩
  | passed r' verifier report reply looked pass =>
    exact Or.inr ⟨verifier, report, [], rfl, unverified_nil, rfl⟩
  | refused r' verifier report looked pass outcome =>
    exact Or.inr ⟨verifier, report, [], rfl, unverified_nil, rfl⟩
  | asked r' verifier report domain es p looked pass outcome start =>
    have hkept := halted_restates { r' with changes := p.after }
      (PasswordChanges.initiate_restates start)
    obtain ⟨-, random, rfl⟩ := initiate_exchanges start
    refine Or.inr ⟨verifier, report, _, rfl, fun e he => ?_, hkept.remoteReply⟩
    rw [List.mem_singleton.mp he]
    rfl
  | verified r' verifier report es d looked pass outcome rest =>
    exact Or.inr ⟨verifier, report, es, rfl, unverified_of_asksService (accepted_exchanges rest),
      (accepted_restates rest).remoteReply⟩
  | resumed r' verifier token es p looked holds carries answer step =>
    exact Or.inl ⟨unverified_of_resume answer,
      (halted_restates _ (PasswordChanges.resume_restates answer)).remoteReply⟩
  | changed r' verifier token es es' p d looked holds carries answer step rest =>
    refine Or.inl ⟨fun e he => ?_,
      ((accepted_restates rest).trans (PasswordChanges.resume_restates answer)).remoteReply⟩
    rcases List.mem_append.mp he with he | he
    · exact unverified_of_resume answer e he
    · exact unverified_of_asksService (accepted_exchanges rest) e he
  | answered r' token es s looked holds carries answer =>
    obtain ⟨profile, hs⟩ := SecondFactor.answer_restates answer
    exact Or.inl ⟨unverified_of_asksService (SecondFactor.answer_exchanges answer),
      (settled_restates r' hs).remoteReply⟩

/-- The exchanges of a request that is verified say which reply it has. -/
theorem Reported.remoteReply (h : Reported request es d) {verifier : V}
    {report : FirstFactor.Report} (mem : ⟨.verify verifier request, report⟩ ∈ es) :
    d.request.remoteReply = (report.remoteReply <|> request.remoteReply) := by
  obtain ⟨unverified, -⟩ | ⟨verifier', report', rest, rfl, unverified, hreply⟩ := h
  · exact nomatch unverified _ mem
  · rcases List.mem_cons.mp mem with heq | hrest
    · cases heq
      exact hreply
    · exact nomatch unverified _ hrest

/-- A request that nobody verified has the reply that it came with. -/
theorem Reported.kept (h : Reported request es d) (unverified : Unverified es) :
    d.request.remoteReply = request.remoteReply := by
  obtain ⟨-, hreply⟩ | ⟨verifier, report, rest, rfl, -, -⟩ := h
  · exact hreply
  · exact nomatch unverified _ List.mem_cons_self

/-! ## 3. Replies that accept -/

/-- The attributes of a reply that accepts are what the client's rules add, and nothing else. -/
def ByRulesAlone (r : Router V) (now : Time) (request : Request) (d : Routed V) : Prop :=
  (d.packet now).attributes =
    ReplyRule.apply r.dictionary d.request request.client.replyRules .empty

theorem byRulesAlone_of_unverified (status : request.isStatusServer = false)
    (new : request.remoteReply = none) (h : Trace (r.route now request) es d)
    (accept : d.outcome = .decision .accept) (unverified : Unverified es) :
    ByRulesAlone r now request d := by
  obtain ⟨-, -, hclient, -⟩ := origin_of_route h
  have hnone : d.request.remoteReply = none :=
    ((way_of_trace status h).reported.kept unverified).trans new
  have hdictionary : d.router.dictionary = r.dictionary := by rw [(moves_of_route h).keeps]
  unfold ByRulesAlone
  rw [packet_of_accept status h accept, granted_alone hnone, hdictionary, hclient]

/-- **What a remote server grants goes into the reply of the call that asked it, and into no
other**: a request that is let in after its first factor was verified gets every attribute of the
server's reply that is not for one hop alone, and one that is let in because it answers a challenge
or a password change gets what the client's rules add and nothing else. -/
theorem accept_bears (status : request.isStatusServer = false) (new : request.remoteReply = none)
    (h : Trace (r.route now request) es d) (accept : d.outcome = .decision .accept) :
    (∀ verifier report remote, ⟨.verify verifier request, report⟩ ∈ es →
      report.remoteReply = some remote →
        ∀ pair ∈ handedOn remote, pair ∈ (d.packet now).attributes.toList) ∧
    ∀ token, request.token = some token → r.Holds now token → ByRulesAlone r now request d := by
  constructor
  · intro verifier report remote mem reported pair hpair
    have hremote : d.request.remoteReply = some remote := by
      rw [(way_of_trace status h).reported.remoteReply mem, reported]
      rfl
    rw [packet_of_accept status h accept]
    exact mem_granted hremote hpair
  · intro token carries holds
    exact byRulesAlone_of_unverified status new h accept (resumes_of_holds status carries holds h).2

variable {r₀ : Router V} {visits : List (Visit V)} {first last x : Visit V} {ttl started : Time}
  {tokens : String → Prop}

/-- **However many challenges were answered, the grants of the first visit are gone**: whoever
answers the last of them and is let in gets what the client's rules add and nothing else. -/
theorem forgotten_of_chain (challenges : r₀.secondFactor.challenges =
      .make ttl TimedMap.defaultMaxEntries started)
    (none : r₀.changes.conversations.entries = []) (run : Attended r₀ visits r)
    (chain : Chain ttl tokens visits first last) (attends : r.Attends x)
    (order : ∀ y ∈ visits, y.now ≤ x.now) (echoes : x.Echoes ttl last)
    (status : x.request.isStatusServer = false) (accept : x.routed.outcome = .decision .accept) :
    ByRulesAlone r x.now x.request x.routed := by
  have carries := (carries_of_chain challenges none run).2 first last chain
  obtain ⟨call, answer, hes, -, -⟩ := carries.answered attends order echoes status
  have hnew : x.request.remoteReply = .none := by
    obtain ⟨remote, relay, client, packet, hmade⟩ := attends.made
    rw [hmade]
    rfl
  refine byRulesAlone_of_unverified status hnew attends.trace accept fun e he => ?_
  rw [hes] at he
  rw [List.mem_singleton.mp he]
  rfl

end Router

/-! ## 4. Two ways in of the sample -/

namespace Login

open Router Verification

/-- What the device of the sample's remote client sends for alice, with the token that it was
given. -/
def wireless (token : Option String) : Request :=
  let packet := (Packet.new .accessRequest 1 (.ofString "client_secret_2") .zero).add
    Name.userName (.text "alice")
  Request.make (.v4 (.ofOctets [10, 0, 0, 1]) 1812) none Config.exampleRemoteClient
    (match token with
    | some token => packet.add Name.state (.octets (Utf8.encode token))
    | none => packet)

/-- The remote server accepts alice as one of the administrators. -/
def administrators : Packet :=
  (Packet.new .accessAccept 1 (.ofString "nps_secret") .zero).add "Class"
    (.octets (Utf8.encode "admins"))

/-- The verifier's word on that reply. -/
def vouched : FirstFactor.Report := ⟨.ok .accept, none, some administrators, false⟩

/-- Alice is verified, and the service has answered as often as `n` says: it grants at once for
`n = 1`, and else after one challenge. -/
def vouching : Nat → (q : Question FirstFactor.Verifier) → q.Answer × Nat
  | n, .verify _ _ => (vouched, n)
  | n, .changePassword _ _ _ => (.failed, n)
  | 0, .service _ _ => (reply .awaiting "req-1", 1)
  | n, .service _ _ => (reply .granted "req-1", n)
  | n, .token => (.zero, n)

/-- A visit of alice from the remote client after so many answers of the service. -/
def vouchedVisit (r : Router FirstFactor.Verifier) (answered : Nat) (token : Option String) :
    Visit FirstFactor.Verifier :=
  let (es, d) := ((r.route 0 (wireless token)).transcript vouching answered).1
  ⟨0, wireless token, es, d⟩

theorem serves_vouchedVisit (r : Router FirstFactor.Verifier) (answered : Nat)
    (token : Option String) : r.Serves (vouchedVisit r answered token) :=
  ⟨rfl, trace_transcript vouching answered _⟩

/-- The first question about alice is whether she is who she says. -/
theorem verified_vouchedVisit (answered : Nat) :
    ⟨.verify .remote (wireless none), vouched⟩ ∈
      (vouchedVisit router answered none).exchanges := by
  have hroute : router.route 0 (wireless none) =
      .ask (.verify .remote (wireless none)) (router.afterReport 0 (wireless none)) := by
    have htoken : (wireless none).token = none := by decide +kernel
    unfold route
    rw [htoken]
    rfl
  unfold vouchedVisit
  rw [hroute]
  exact List.mem_cons_self

/-- Granted at once, alice gets the class that the remote server put her in. -/
theorem accept_bears_class :
    ∃ es d, Trace (router.route 0 (wireless none)) es d ∧
      (wireless none).isStatusServer = false ∧ (wireless none).remoteReply = none ∧
      d.outcome = .decision .accept ∧
      ("Class", .octets (Utf8.encode "admins")) ∈ (d.packet 0).attributes.toList := by
  obtain ⟨x, hx⟩ : ∃ x, x = vouchedVisit router 1 none := ⟨_, rfl⟩
  have htrace : Trace (router.route 0 (wireless none)) x.exchanges x.routed := by
    rw [hx]
    exact trace_transcript vouching 1 _
  have hmem : ⟨.verify .remote (wireless none), vouched⟩ ∈ x.exchanges := by
    rw [hx]
    exact verified_vouchedVisit 1
  have haccept : x.routed.outcome = .decision .accept := by
    rw [hx]
    decide +kernel
  have hhanded : ("Class", .octets (Utf8.encode "admins")) ∈ handedOn administrators := by
    decide +kernel
  exact ⟨_, _, htrace, rfl, rfl, haccept,
    (accept_bears rfl rfl htrace haccept).1 .remote vouched administrators hmem rfl _ hhanded⟩

/-- **The class is lost where a challenge comes between**: alice answers it and is let in, and the
reply does not have the class that the remote server put her in. -/
theorem class_lost : ∃ first last r, Run router [first, last] r ∧
    ⟨.verify .remote first.request, vouched⟩ ∈ first.exchanges ∧
    first.routed.outcome = .decision .challenge ∧
    last.request.token = first.routed.request.state ∧
    last.routed.outcome = .decision .accept ∧
    ("Class", .octets (Utf8.encode "admins")) ∈ handedOn administrators ∧
    ("Class", .octets (Utf8.encode "admins")) ∉
      (last.routed.packet last.now).attributes.toList := by
  obtain ⟨first, hfirst⟩ : ∃ first, first = vouchedVisit router 0 none := ⟨_, rfl⟩
  obtain ⟨last, hlast⟩ : ∃ last, last = vouchedVisit first.routed.router 1 (some "req-1") :=
    ⟨_, rfl⟩
  have hserves : router.Serves first := by
    rw [hfirst]
    exact serves_vouchedVisit router 0 none
  have hserves' : first.routed.router.Serves last := by
    rw [hlast]
    exact serves_vouchedVisit _ 1 _
  have hrun : Run router [first, last] last.routed.router :=
    .visit [first] _ last (.visit [] router first .start hserves) hserves'
  refine ⟨first, last, _, hrun, ?_⟩
  rw [hlast, hfirst]
  exact ⟨verified_vouchedVisit 0, by decide +kernel⟩

end Login

end AccessGate
