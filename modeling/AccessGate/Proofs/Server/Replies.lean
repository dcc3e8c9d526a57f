import AccessGate.Proofs.Access.Keeping
import AccessGate.Proofs.Radius.Values
import AccessGate.Proofs.Server.Retransmissions

/-!
# Every reply answers its request

A device drops a reply silently if anything is wrong with it: the identifier, the authenticator, the
Message-Authenticator, or the marks that relays put on the request. There are five ways to come to a
reply, a decision on a status, an acceptance with what a remote server granted and what the rules
add, a refusal, a challenge and a remote reply that is handed on, and one end that they share.

* `unmarked_packet`: none of the five bears a mark of a hop, for a remote reply is stripped of them
  and no other part has one of their names;
* `proxyStates_completed`, `length_signatures_completed`: so at their end the marks are those of the
  request, in order, and there is one Message-Authenticator;
* `reply_answers`: and so they are read by the device, whose request the reply answers.
-/

namespace AccessGate

open Dialogue Radius

/-! ## 1. The marks of one hop -/

/-- The names whose values belong to one hop. -/
def hopNames : List Name := [Name.proxyState, Name.messageAuthenticator]

/-- The code of a relay's mark. -/
def proxyStateCode : UInt8 := 33

theorem mem_rawNames_of_hop {name : Name} (h : name ∈ hopNames) :
    ∃ code, (name, code) ∈ rawNames := by
  rcases List.mem_cons.mp h with rfl | h
  · exact ⟨proxyStateCode, by decide⟩
  · rw [List.mem_singleton.mp h]
    exact ⟨Attribute.messageAuthenticator, by decide⟩

theorem raw_proxyState : Raw .standard Name.proxyState proxyStateCode :=
  raw_standard (by decide)

/-- The attributes bear no mark of a hop. -/
def Unmarked (as : Attributes) : Prop := ∀ name ∈ hopNames, as.getAll name = []

theorem unmarked_empty : Unmarked .empty := fun _ _ => rfl

theorem Unmarked.addAll {as : Attributes} (h : Unmarked as) {pairs : List (Name × Value)}
    (other : ∀ pair ∈ pairs, ∀ name ∈ hopNames, Name.same pair.1 name = false) :
    Unmarked (as.addAll pairs) := by
  intro name hname
  rw [Attributes.getAll_addAll, h name hname,
    Attributes.valuesOf_of_ne fun pair hpair => other pair hpair name hname]
  rfl

theorem Unmarked.add {as : Attributes} (h : Unmarked as) {added : Name}
    (other : ∀ name ∈ hopNames, Name.same added name = false) (v : Value) :
    Unmarked (as.add added v) := by
  have hadded : Unmarked (as.addAll [(added, v)]) := by
    refine h.addAll fun pair hpair => ?_
    rw [List.mem_singleton.mp hpair]
    exact other
  exact hadded

/-- The packet was read under the standard dictionary. -/
def FromWire (p : Packet) : Prop :=
  ∃ (ctx : ReadingContext) (requestAuthenticator : Option Block) (bs : Bytes),
    ctx.dictionary = .standard ∧ ctx.read requestAuthenticator bs = .ok p

/-- What was read spells the names of a hop as they are defined. -/
theorem FromWire.spelled {p : Packet} (h : FromWire p) {pair : Name × Value}
    (mem : pair ∈ p.attributes.toList) {name : Name} (hop : name ∈ hopNames)
    (same : Name.same pair.1 name = true) : pair.1 = name := by
  obtain ⟨ctx, requestAuthenticator, bs, hstandard, hread⟩ := h
  obtain ⟨code, hcode⟩ := mem_rawNames_of_hop hop
  have hname := name_of_read hread mem
  rw [hstandard] at hname
  obtain ⟨e, he, hpair⟩ | hpair := hname
  · rw [hpair] at same ⊢
    exact spelled_standard hcode he same
  · rw [hpair, (raw_standard hcode).otherPassword] at same
    cases same

namespace Router

variable {V : Type}

/-- **What is handed on of a remote reply bears no mark of its hop.** -/
theorem not_same_of_relayed {remote : Packet} (wire : FromWire remote) {hop : List Name}
    (all : hopNames ⊆ hop) {pair : Name × Value} (mem : pair ∈ relayed remote hop) :
    ∀ name ∈ hopNames, Name.same pair.1 name = false := by
  intro name hname
  obtain ⟨hmem, hother⟩ := List.mem_filter.mp mem
  refine Bool.eq_false_iff.mpr fun hsame => ?_
  rw [wire.spelled hmem hname hsame, List.contains_iff_mem.mpr (all hname)] at hother
  cases hother

/-- A value that a rule adds has a name that is spelled like the rule's. -/
theorem mem_values {d : Dictionary} {request : Request} {rules : List ReplyRule}
    {pair : Name × Value} (h : pair ∈ ReplyRule.values d request rules) :
    ∃ rule ∈ rules, Name.same pair.1 rule.name = true := by
  unfold ReplyRule.values at h
  generalize ([] : List String) = taken at h
  induction rules generalizing taken with
  | nil => cases h
  | cons rule rules ih =>
    have hrest {taken : List String} (h : pair ∈ ReplyRule.valuesFrom d request taken rules) :
        ∃ rule' ∈ rule :: rules, Name.same pair.1 rule'.name = true := by
      obtain ⟨rule', hmem, hsame⟩ := ih taken h
      exact ⟨rule', List.mem_cons_of_mem rule hmem, hsame⟩
    unfold ReplyRule.valuesFrom at h
    split at h
    · exact hrest h
    · split at h
      · exact hrest h
      · rename_i entry hentry
        rcases List.mem_append.mp h with h | h
        · obtain ⟨text, -, hvalue⟩ := List.mem_filterMap.mp h
          unfold ReplyRule.valueOf at hvalue
          split at hvalue
          · obtain rfl := Option.some.inj hvalue
            exact ⟨rule, List.mem_cons_self, (Dictionary.of_byName? hentry).2⟩
          · cases hvalue
        · exact hrest h

/-- Rules that say nothing of a request add nothing. -/
theorem values_of_silent {d : Dictionary} {request : Request} {rules : List ReplyRule}
    (silent : ∀ rule ∈ rules, rule.texts request = []) :
    ReplyRule.values d request rules = [] := by
  unfold ReplyRule.values
  generalize ([] : List String) = taken
  induction rules generalizing taken with
  | nil => rfl
  | cons rule rules ih =>
    have hrest := ih fun rule' hrule' => silent rule' (List.mem_cons_of_mem rule hrule')
    unfold ReplyRule.valuesFrom
    rw [silent rule List.mem_cons_self]
    split
    · exact hrest taken
    · split
      · exact hrest taken
      · exact hrest _

/-! ## 2. The five ways to a reply -/

/-- The rules name nothing that belongs to a hop. -/
def KeepOff (rules : List ReplyRule) : Prop :=
  ∀ rule ∈ rules, ∀ name ∈ hopNames, Name.same rule.name name = false

theorem unmarked_granted {r : Router V} {request : Request}
    (rules : KeepOff request.client.replyRules)
    (remote : ∀ remote, request.remoteReply = some remote → FromWire remote) :
    Unmarked (r.granted request) := by
  unfold granted ReplyRule.apply
  simp only
  refine Unmarked.addAll ?_ ?_
  · refine unmarked_empty.addAll fun pair hpair => ?_
    split at hpair
    · rename_i reply hreply
      refine not_same_of_relayed (remote reply hreply) ?_ hpair
      exact List.cons_subset_cons _ (List.cons_subset_cons _ (List.nil_subset _))
    · cases hpair
  · intro pair hpair name hname
    obtain ⟨rule, hrule, hsame⟩ := mem_values hpair
    rw [Name.same_congr hsame]
    exact rules rule hrule name hname

theorem unmarked_withMessage {p : Packet} (h : Unmarked p.attributes) (message : Option String) :
    Unmarked (withMessage p message).attributes := by
  have hother : ∀ name ∈ hopNames, Name.same Name.replyMessage name = false := by decide +kernel
  unfold withMessage
  split
  · exact h.add hother _
  · exact h

/-- The decisions of the router bear no mark. -/
theorem unmarked_reply {r : Router V} {now : Time} {request : Request}
    (rules : KeepOff request.client.replyRules)
    (remote : ∀ remote, request.remoteReply = some remote → FromWire remote) (d : Decision) :
    Unmarked (r.reply now request d).attributes := by
  have hother : ∀ name ∈ hopNames, Name.same Name.state name = false := by decide +kernel
  have hempty (code : Code) : Unmarked (request.packet.reply code).attributes := unmarked_empty
  unfold reply
  split
  · exact unmarked_withMessage (hempty _) _
  · cases d with
    | accept => exact unmarked_granted rules remote
    | reject => exact unmarked_withMessage (hempty _) _
    | challenge =>
      simp only
      split
      · exact (unmarked_withMessage (hempty _) _).add hother _
      · exact unmarked_withMessage (hempty _) _

/-- The reply has what makes it the answer to a packet. -/
structure AnswersTo (reply packet : Packet) : Prop where
  identifier : reply.identifier = packet.identifier
  authenticator : reply.requestAuthenticator = some packet.authenticator
  secret : reply.secret = packet.secret

theorem answersTo_withMessage {p packet : Packet} (h : AnswersTo p packet)
    (message : Option String) : AnswersTo (withMessage p message) packet := by
  unfold withMessage
  split
  · exact ⟨h.identifier, h.authenticator, h.secret⟩
  · exact h

theorem answersTo_reply (r : Router V) (now : Time) (request : Request) (d : Decision) :
    AnswersTo (r.reply now request d) request.packet := by
  have hreply (code : Code) : AnswersTo (request.packet.reply code) request.packet :=
    ⟨rfl, rfl, rfl⟩
  unfold reply
  split
  · exact answersTo_withMessage (hreply _) _
  · cases d with
    | accept => exact ⟨rfl, rfl, rfl⟩
    | reject => exact answersTo_withMessage (hreply _) _
    | challenge =>
      have hmessage := answersTo_withMessage (hreply .accessChallenge) request.replyMessage
      simp only
      split
      · exact ⟨hmessage.identifier, hmessage.authenticator, hmessage.secret⟩
      · exact hmessage

/-- What is handed on is the remote reply of the request. -/
theorem Way.passThrough {r : Router V} {now : Time} {request : Request} {es : Exchanges V}
    {d : Routed V} (h : r.Way now request es d) {reply : Packet}
    (passed : d.outcome = .passThrough reply) : passThrough? d.request = some reply := by
  cases h with
  | passed r' verifier report reply' looked pass =>
    obtain rfl := Outcome.passThrough.inj passed
    exact pass
  | asked r' verifier report domain es p looked pass outcome start =>
    unfold halted at passed
    split at passed <;> cases passed
  | verified r' verifier report es d looked pass outcome rest =>
    obtain ⟨-, -, rfl⟩ | ⟨-, s, -, rfl⟩ := accepted_cases rest <;> cases passed
  | resumed r' verifier token es p looked holds carries answer step =>
    unfold halted at passed
    split at passed <;> cases passed
  | changed r' verifier token es es' p d looked holds carries answer step rest =>
    obtain ⟨-, -, rfl⟩ | ⟨-, s, -, rfl⟩ := accepted_cases rest <;> cases passed
  | _ => cases passed

/-- Every remote reply that a verifier reported was read. -/
def ReportsRead (es : Exchanges V) : Prop :=
  ∀ verifier request report remote, ⟨.verify verifier request, report⟩ ∈ es →
    report.remoteReply = some remote → FromWire remote

/-- A request has a remote reply only of a verifier, and one that was read. -/
theorem fromWire_of_route {r : Router V} {now : Time} {request : Request} {es : Exchanges V}
    {d : Routed V} (none : request.remoteReply = none) (read : ReportsRead es)
    (h : Trace (r.route now request) es d) {remote : Packet}
    (some_ : d.request.remoteReply = some remote) : FromWire remote := by
  obtain ⟨-, -, -, -, hreply⟩ := origin_of_route h
  rw [none] at hreply
  obtain hnone | ⟨verifier, report, hmem, hreport⟩ := hreply
  · rw [hnone] at some_
    cases some_
  · refine read verifier request report remote hmem ?_
    rw [← some_, hreport]
    cases report.remoteReply <;> rfl

/-- What is handed on is the remote reply of the request, whatever way it took. -/
theorem passThrough_of_route {r : Router V} {now : Time} {request : Request} {es : Exchanges V}
    {d : Routed V} (h : Trace (r.route now request) es d) {reply : Packet}
    (passed : d.outcome = .passThrough reply) : passThrough? d.request = some reply := by
  cases hstatus : request.isStatusServer with
  | true =>
    unfold route at h
    rw [if_pos hstatus] at h
    obtain ⟨-, rfl⟩ := trace_done_iff.mp h
    cases passed
  | false => exact (way_of_trace hstatus h).passThrough passed

/-- **Whatever the way, what comes out of it bears no mark**, and has what makes it an answer. -/
theorem unmarked_packet {r : Router V} {now : Time} {request : Request} {es : Exchanges V}
    {d : Routed V} (none : request.remoteReply = none) (read : ReportsRead es)
    (rules : KeepOff request.client.replyRules) (h : Trace (r.route now request) es d) :
    Unmarked (d.packet now).attributes ∧ AnswersTo (d.packet now) request.packet := by
  obtain ⟨-, -, hclient, hpacket, -⟩ := origin_of_route h
  have hremote : ∀ remote, d.request.remoteReply = some remote → FromWire remote :=
    fun _ => fromWire_of_route none read h
  rw [← hclient] at rules
  rw [← hpacket]
  unfold Routed.packet
  split
  · exact ⟨unmarked_reply rules hremote _, answersTo_reply _ _ _ _⟩
  · rename_i reply houtcome
    have hreply := passThrough_of_route h houtcome
    unfold passThrough? at hreply
    split at hreply
    · cases hreply
    · rename_i remote hsome
      split at hreply
      · obtain rfl := Option.some.inj hreply
        refine ⟨?_, rfl, rfl, rfl⟩
        exact unmarked_empty.addAll fun pair hpair =>
          not_same_of_relayed (hremote remote hsome) (List.Subset.refl _) hpair
      · cases hreply

end Router

/-! ## 3. The end that all share -/

namespace Server

variable {V : Type} {s s' : Server V} {now : Time} {sender : Endpoint} {datagram : Bytes}
  {es : Exchanges V} {out : Outgoing} {request : Request} {reply : Packet}

/-- The marks of a request, as its reply gets them. -/
def marksOf (request : Request) : List (Name × Value) :=
  request.packet.proxyStates.map fun v => (Name.proxyState, v)

theorem name_of_mem_marksOf {pair : Name × Value} (h : pair ∈ marksOf request) :
    pair.1 = Name.proxyState := by
  obtain ⟨v, -, rfl⟩ := List.mem_map.mp h
  rfl

/-- A reply without marks gets those of its request and then one Message-Authenticator. -/
theorem attributes_completed (h : Unmarked reply.attributes) :
    (completed request reply).attributes = (reply.attributes.addAll (marksOf request)).add
      Name.messageAuthenticator (.octets (Bytes.zeros 16)) := by
  have hother : Name.same Name.proxyState Name.messageAuthenticator = false := by decide +kernel
  have hnone : (reply.attributes.addAll (marksOf request)).getAll Name.messageAuthenticator = [] := by
    rw [Attributes.getAll_addAll, h _ (by decide), Attributes.valuesOf_of_ne fun pair hpair => ?_]
    · rfl
    · rw [name_of_mem_marksOf hpair]
      exact hother
  have hunsigned : ¬ Packet.hasMessageAuthenticator
      { reply with attributes := reply.attributes.addAll (marksOf request) } = true :=
    Bool.eq_false_iff.mp (Attributes.not_contains_of_getAll hnone)
  show (Packet.ensureMessageAuthenticator
    { reply with attributes := reply.attributes.addAll (marksOf request) }).attributes = _
  unfold Packet.ensureMessageAuthenticator
  rw [if_neg hunsigned]
  rfl

/-- **The marks of a reply are those of its request, in order.** -/
theorem proxyStates_completed (h : Unmarked reply.attributes) :
    (completed request reply).proxyStates = request.packet.proxyStates := by
  have hother : Name.same Name.messageAuthenticator Name.proxyState = false := by decide +kernel
  have hmarks : Attributes.valuesOf Name.proxyState (marksOf request) =
      request.packet.proxyStates := by
    have hself : Name.same Name.proxyState Name.proxyState = true := by decide +kernel
    rw [Attributes.valuesOf_of_same fun pair hpair => ?_, marksOf, List.map_map]
    · exact List.map_id _
    · rw [name_of_mem_marksOf hpair]
      exact hself
  have hnone : Attributes.valuesOf Name.proxyState
      [(Name.messageAuthenticator, .octets (Bytes.zeros 16))] = [] := by
    refine Attributes.valuesOf_of_ne fun pair hpair => ?_
    rw [List.mem_singleton.mp hpair]
    exact hother
  show (completed request reply).attributes.getAll Name.proxyState = _
  rw [attributes_completed h, Attributes.getAll_add, Attributes.getAll_addAll, h _ (by decide),
    hmarks, hnone, List.append_nil]
  rfl

/-- **A reply has one Message-Authenticator.** -/
theorem length_signatures_completed (h : Unmarked reply.attributes) :
    ((completed request reply).attributes.getAll Name.messageAuthenticator).length = 1 := by
  have hother : Name.same Name.proxyState Name.messageAuthenticator = false := by decide +kernel
  have hself : Name.same Name.messageAuthenticator Name.messageAuthenticator = true := by
    decide +kernel
  rw [attributes_completed h, Attributes.getAll_add, Attributes.getAll_addAll, h _ (by decide),
    Attributes.valuesOf_of_ne fun pair hpair => ?_, Attributes.valuesOf_of_same fun pair hpair => ?_]
  · rfl
  · rw [List.mem_singleton.mp hpair]
    exact hself
  · rw [name_of_mem_marksOf hpair]
    exact hother

theorem code_completed (request : Request) (reply : Packet) :
    (completed request reply).code = reply.code := by
  unfold completed Packet.ensureMessageAuthenticator
  simp only
  split
  · rfl
  · rfl

theorem answersTo_completed {packet : Packet} (h : Router.AnswersTo reply packet) :
    Router.AnswersTo (completed request reply) packet := by
  unfold completed Packet.ensureMessageAuthenticator
  simp only
  split
  · exact ⟨h.identifier, h.authenticator, h.secret⟩
  · exact ⟨h.identifier, h.authenticator, h.secret⟩

/-! ## 4. What the device reads -/

/-- The code that a datagram has. -/
def codeOf? (bs : Bytes) : Option Code := bs.head?.bind Code.ofNumber?

theorem codeOf?_write {ctx : WritingContext} {p : Packet} {bs : Bytes} (h : ctx.write p = .ok bs) :
    codeOf? bs = some p.code := by
  obtain ⟨ts, us, w⟩ := written_of_write h
  rw [w.octets]
  exact Code.ofNumber?_number p.code

/-- A request has the marks of a packet that was read, so they are octets. -/
theorem request_of_datagram (standard : s.writing.dictionary = .standard)
    (asks : s.request sender datagram = .ok request) :
    request.packet.secret = request.client.secret ∧ request.remoteReply = none ∧
      request.relay = (if ProxyHeader.isPresent datagram then some sender else none) ∧
      request.replyAddress = sender ∧
      request.packet.proxyStates.map (Value.octets ∘ Value.encode) = request.packet.proxyStates := by
  obtain ⟨drop, hdrop, -⟩ | ⟨relayed, client, packet, hunwrap, hread, -, hmade⟩ :=
    request_cases s sender datagram
  · rw [hdrop] at asks
    cases asks
  · obtain rfl := Except.ok.inj (hmade.symm.trans asks)
    refine ⟨secret_of_read hread, rfl, rfl, ?_, ?_⟩
    · show (if ProxyHeader.isPresent datagram then some sender else none).getD _ = sender
      split
      · rfl
      · rename_i habsent
        unfold ProxyHeader.unwrap at hunwrap
        rw [if_neg habsent] at hunwrap
        obtain rfl := Except.ok.inj hunwrap
        rfl
    · have raw : Raw (s.reading client).dictionary Name.proxyState proxyStateCode := by
        show Raw s.writing.dictionary _ _
        rw [standard]
        exact raw_proxyState
      obtain ⟨ts, -, hvalues⟩ := raw.getAll_read hread
      show (packet.attributes.getAll Name.proxyState).map _ = packet.attributes.getAll Name.proxyState
      rw [hvalues, List.map_map]
      rfl

/-- What is sent is the completed reply, as it was written. -/
theorem write_of_sent (h : Handled.ofOutgoing (s.outgoing request reply) = .sent out) :
    s.writing.write (completed request reply) = .ok out.data ∧
      out.destination = request.replyAddress := by
  unfold outgoing at h
  cases hwritten : s.writing.write (completed request reply) with
  | error fault =>
    simp only [hwritten] at h
    cases h
  | ok data =>
    simp only [hwritten] at h
    cases h
    exact ⟨rfl, rfl⟩

/-- **Every reply answers its request**: whatever decided it, the device reads it under its secret,
finds the authenticator right and its own identifier and marks in it, once signed, and gets it where
the datagram came from. -/
theorem reply_answers (standard : s.writing.dictionary = .standard)
    (rules : ∀ request, s.request sender datagram = .ok request →
      Router.KeepOff request.client.replyRules)
    (read : Router.ReportsRead es) (h : Trace (s.handle now sender datagram) es (.sent out, s'))
    {code : Code} (replies : codeOf? out.data = some code)
    (notComputed : code.hasComputedAuthenticator = false) (encoding : PasswordEncoding) :
    ∃ request answer, s.request sender datagram = .ok request ∧
      ReadingContext.read ⟨s.writing.digests, .standard, request.client.secret, encoding⟩
        (some request.packet.authenticator) out.data = .ok answer ∧
      Authenticator.verifyResponse s.writing.digests out.data request.packet.authenticator
        request.client.secret.bytes = true ∧
      answer.identifier = request.packet.identifier ∧
      answer.proxyStates = request.packet.proxyStates ∧
      (answer.attributes.getAll Name.messageAuthenticator).length = 1 ∧
      request.relay = (if ProxyHeader.isPresent datagram then some sender else none) ∧
      out.destination = sender := by
  obtain ⟨drop, -, -, hsent, -⟩ | ⟨request, seen, noted, hasks, -, ⟨-, -, hsent, -⟩ |
    ⟨-, d, hroute, hsent, -⟩⟩ := handle_cases h
  · cases hsent
  · cases hsent
  · obtain ⟨hsecret, hnone, hrelay, haddress, hmarks⟩ := request_of_datagram standard hasks
    have hrules := rules request hasks
    obtain ⟨hremote, hrelayed, -, hpacket, -⟩ := Router.origin_of_route hroute
    obtain ⟨hunmarked, hanswers⟩ := Router.unmarked_packet hnone read hrules hroute
    -- what the completed packet is like, and that it was written
    obtain ⟨p, hp⟩ : ∃ p, p = completed d.request (d.packet now) := ⟨_, rfl⟩
    have hcompleted : Router.AnswersTo p request.packet := hp ▸ answersTo_completed hanswers
    have hstates : p.proxyStates = request.packet.proxyStates := by
      rw [hp, proxyStates_completed hunmarked, hpacket]
    have hsignatures : (p.attributes.getAll Name.messageAuthenticator).length = 1 :=
      hp ▸ length_signatures_completed hunmarked
    obtain ⟨hwrite, hdestination⟩ := write_of_sent hsent.symm
    rw [← hp] at hwrite
    obtain ⟨ts, us, w⟩ := written_of_write hwrite
    have hcode : p.code = code := Option.some.inj ((codeOf?_write hwrite).symm.trans replies)
    have hanswersNone : p.AnswersNone := fun hcomputed => by
      rw [hcode, notComputed] at hcomputed
      cases hcomputed
    have hread := read_of_written w hanswersNone encoding
    have hverify := (read_write hanswersNone hwrite encoding).2.1 _ hcompleted.authenticator
    rw [hcompleted.authenticator, hcompleted.secret, hsecret, standard] at hread
    rw [hcompleted.secret, hsecret] at hverify
    refine ⟨request, _, hasks, hread, hverify, hcompleted.identifier, ?_, ?_, hrelay, ?_⟩
    · rw [← hmarks, ← hstates]
      exact raw_proxyState.getAll_delivered standard (by decide) w hread
    · rw [← hsignatures]
      exact raw_signature.length_getAll_delivered standard w hread
    · rw [hdestination, ← haddress]
      unfold Request.replyAddress
      rw [hremote, hrelayed]

end Server

/-! ## 5. A relayed request of the sample -/

namespace Login

open Server

/-- A relay's datagram: its header, and alice's request with the relay's mark. -/
def relayedDatagram : Bytes :=
  Utf8.encode "PROXY UNKNOWN\n" ++ [1, 7, 0, 30] ++ Bytes.zeros 16 ++
    ([1, 7] ++ Utf8.encode "alice") ++ [33, 3, 1]

/-- The request that it makes. -/
def relayedRequest : Request := .make device (some device) Config.exampleDirectoryClient
  ⟨.accessRequest, 7, .zero, none, Config.exampleDirectoryClient.secret,
    .ofList [(Name.userName, .text "alice"), (Name.proxyState, .octets [1])]⟩

theorem request_relayed : server.request device relayedDatagram = .ok relayedRequest := by
  decide +kernel

/-- What a remote server replies, with the mark of another hop. -/
def remoteDatagram : Bytes := [2, 9, 0, 23] ++ Bytes.zeros 16 ++ [33, 3, 9]

/-- Its reply as it is read. -/
def remoteReply : Packet :=
  ⟨.accessAccept, 9, .zero, none, .ofString "remote",
    .ofList [(Name.proxyState, .octets [9])]⟩

theorem fromWire_remoteReply : FromWire remoteReply :=
  ⟨⟨.standard, .standard, .ofString "remote", .utf8⟩, none, remoteDatagram, rfl, by decide +kernel⟩

/-- The remote server accepts alice, and needs no second factor. -/
def remoteReport : FirstFactor.Report := ⟨.ok .accept, none, some remoteReply, true⟩

/-- The verifier is asked, and nobody else. -/
def relayedExchanges : Exchanges FirstFactor.Verifier :=
  [⟨.verify (.directory .activeDirectory) relayedRequest, remoteReport⟩]

/-- Alice's request at its end. -/
def relayedEnd : Router.Routed FirstFactor.Verifier :=
  ⟨.decision .accept, Router.withFirst (remoteReport.applyTo relayedRequest) .accept, router⟩

theorem trace_relayed :
    Trace (router.route 1 relayedRequest) relayedExchanges relayedEnd := by
  unfold Router.route
  have hstatus : relayedRequest.isStatusServer = false := rfl
  have hfresh : relayedRequest.token = none := by decide +kernel
  rw [hstatus, hfresh]
  have hpass : Router.passThrough? (remoteReport.applyTo relayedRequest) = none := by decide +kernel
  have hafter : router.afterReport 1 relayedRequest remoteReport = .done relayedEnd := by
    unfold Router.afterReport
    simp only [hpass]
    rfl
  exact trace_ask_iff.mpr ⟨remoteReport, [], rfl, hafter ▸ trace_done_iff.mpr ⟨rfl, rfl⟩⟩

/-- The relay gets its own mark back and not that of the other hop. -/
theorem relayed_answered : ∃ es out after, server.writing.dictionary = .standard ∧
    (∀ request, server.request device relayedDatagram = .ok request →
      Router.KeepOff request.client.replyRules) ∧
    Router.ReportsRead es ∧
    Trace (server.handle 1 device relayedDatagram) es (.sent out, after) ∧
    codeOf? out.data = some .accessAccept ∧ Code.accessAccept.hasComputedAuthenticator = false ∧
    ∃ answer, ReadingContext.read ⟨.standard, .standard, relayedRequest.client.secret, .utf8⟩
      (some relayedRequest.packet.authenticator) out.data = .ok answer ∧
      answer.proxyStates = [.octets [1]] ∧ out.destination = device := by
  have hrules : ∀ request, server.request device relayedDatagram = .ok request →
      Router.KeepOff request.client.replyRules := by
    intro request hasks
    obtain rfl := Except.ok.inj (request_relayed.symm.trans hasks)
    unfold Router.KeepOff
    decide +kernel
  have hreports : Router.ReportsRead relayedExchanges := by
    intro verifier request report remote hmem hremote
    cases List.mem_singleton.mp hmem
    obtain rfl := Option.some.inj hremote
    exact fromWire_remoteReply
  have hempty : (relayedEnd.packet 1).attributes = .empty := by
    show Attributes.addAll (Attributes.ofList (Router.relayed remoteReply _))
      (ReplyRule.values _ _ _) = _
    rw [Router.values_of_silent (by decide +kernel)]
    decide +kernel
  have hvalues : (completed relayedEnd.request (relayedEnd.packet 1)).attributes.toList =
      [(Name.proxyState, .octets [1]), (Name.messageAuthenticator, .octets (Bytes.zeros 16))] := by
    rw [attributes_completed (hempty ▸ unmarked_empty), hempty]
    decide +kernel
  obtain ⟨data, hdata⟩ : ∃ data,
      server.writing.write (completed relayedEnd.request (relayedEnd.packet 1)) = .ok data := by
    refine WritingContext.exists_write (fun pair hpair => ?_) (by rw [hvalues]; decide)
    rw [hvalues] at hpair
    rcases List.mem_cons.mp hpair with rfl | hpair
    · exact raw_proxyState.fits _ (by decide)
    · rw [List.mem_singleton.mp hpair]
      exact raw_signature.fits _ (by decide)
  have haccepts : (completed relayedEnd.request (relayedEnd.packet 1)).code = .accessAccept :=
    code_completed relayedEnd.request (relayedEnd.packet 1)
  have hsent : server.outgoing relayedEnd.request (relayedEnd.packet 1) =
      .ok ⟨device, data, server.delayOf .accessAccept⟩ := by
    unfold outgoing
    simp only [hdata, haccepts]
    rfl
  obtain ⟨⟨seen, noted⟩, hnote⟩ : ∃ noted, server.retransmissions.note 1 relayedRequest.packet
      relayedRequest.remote = noted := ⟨_, rfl⟩
  have hnew : seen = false := by
    have hseen : (server.retransmissions.note 1 relayedRequest.packet relayedRequest.remote).1 =
        false := by
      decide +kernel
    rw [hnote] at hseen
    exact hseen
  subst hnew
  have htrace := trace_handle request_relayed hnote trace_relayed
  rw [hsent] at htrace
  have hcode : codeOf? data = some .accessAccept := by
    rw [codeOf?_write hdata, haccepts]
  obtain ⟨request, answer, hasks, hread, -, -, hstates, -, -, hdestination⟩ :=
    reply_answers rfl hrules hreports htrace hcode rfl .utf8
  obtain rfl := Except.ok.inj (request_relayed.symm.trans hasks)
  have hmarks : relayedRequest.packet.proxyStates = [.octets [1]] := by decide +kernel
  exact ⟨_, _, _, rfl, hrules, hreports, htrace, hcode, rfl, answer, hread, hstates.trans hmarks,
    hdestination⟩

end Login

end AccessGate
