import AccessGate.Access.PasswordChange
import AccessGate.Access.ReplyRules
import AccessGate.Access.SecondFactor
import AccessGate.FirstFactor.Verifiers

/-!
# The way of a request

A fresh request goes through its client's first factor and then the second. A request that brings
back a token of the gateway goes on where the earlier one stopped: in a password change, or with the
answer to a challenge; neither runs the first factor again. Any other token belongs to a remote
server and travels with a fresh request.

* `route` decides, and `reply` writes the decision down;
* a remote server's challenge for EAP, and its reply to the download of an access list, are handed
  on as they are (`passThrough?`).

A call is taken as instantaneous and undisturbed. One time stands for the whole of it, although a
clock would be read again at each look-up, and a directory, a remote server or the verification
service may be awaited in between; and no other call gets at the stores before it is over.
-/

namespace AccessGate

/-- The gateway as requests see it. -/
structure Router (V : Type) where
  verifiers : FirstFactor.Verifiers V
  secondFactor : SecondFactor
  changes : PasswordChanges
  dictionary : Radius.Dictionary
  greeting : String
  started : Time

namespace Router

open Radius

variable {V : Type}

/-- How a request ends. -/
inductive Outcome where
  | decision (d : Decision)
  /-- A remote server's reply, handed on. -/
  | passThrough (reply : Packet)
  deriving DecidableEq

/-- How a request ended, with what became of it and of the gateway. -/
structure Routed (V : Type) where
  outcome : Outcome
  request : Request
  router : Router V

/-! ## 1. Replies of a remote server -/

/-- The start of the user names that ask for an access list. -/
def accessListPrefix : String := "#ACSACL#"

/-- The request asks for an access list. -/
def asksForAccessList (request : Request) : Bool :=
  accessListPrefix.toList.isPrefixOf request.user.toList

/-- The values of a remote reply outside the given names, which belong to one hop. -/
def relayed (remote : Packet) (hop : List Name) : List (Name × Value) :=
  remote.attributes.toList.filter fun a => !hop.contains a.1

/-- The remote reply that is handed on without a decision. -/
def passThrough? (request : Request) : Option Packet :=
  match request.remoteReply with
  | none => none
  | some remote =>
    if (remote.code = .accessChallenge ∧ remote.isEapMessage) ∨ asksForAccessList request then
      some { request.packet.reply remote.code with
        attributes := .ofList (relayed remote [Name.proxyState, Name.messageAuthenticator]) }
    else none

/-! ## 2. Decisions -/

/-- The decision as the factors stand. -/
def decided (r : Router V) (request : Request) : Routed V :=
  ⟨.decision request.factors.decision, request, r⟩

/-- The request with its first factor settled. -/
def withFirst (request : Request) (first : Factor) : Request :=
  { request with factors := { request.factors with first } }

/-- The first factor failed. -/
def refuse (r : Router V) (request : Request) : Routed V := r.decided (withFirst request .reject)

/-- The decision with the second factor settled. -/
def settled (r : Router V) (s : SecondFactor.Settled) : Routed V :=
  { r with secondFactor := s.after }.decided
    { s.request with factors := { s.request.factors with second := s.factor } }

/-- Goes on to the second factor, unless it is left out. -/
def accepted (r : Router V) (now : Time) (request : Request) : Talk V (Routed V) :=
  let request := withFirst request .accept
  if request.factors.second = .bypass then .done (r.decided request)
  else (r.secondFactor.create now request).bind fun s => .done (r.settled s)

/-- What follows a step of a password change. -/
def afterChange (r : Router V) (now : Time) (p : PasswordChanges.Progress) : Talk V (Routed V) :=
  let r := { r with changes := p.after }
  match p.step with
  | .challenge => .done (r.decided p.request)
  | .changed => r.accepted now p.request
  | .rejected | .sealingFailed => .done (r.refuse p.request)

/-! ## 3. Routes -/

/-- What a token of the gateway belongs to. -/
inductive Owner where
  | passwordChange
  | challenge
  deriving DecidableEq

/-- The owner of a token; a password change comes before a challenge. -/
def owner (r : Router V) (now : Time) (token : String) : Option Owner × Router V :=
  let (owned, changes) := r.changes.owns now token
  let r := { r with changes }
  if owned then (some .passwordChange, r)
  else
    let (open_, secondFactor) := r.secondFactor.hasChallenge now token
    (if open_ then some .challenge else none, { r with secondFactor })

/-- What follows the report of a verifier. -/
def afterReport (r : Router V) (now : Time) (request : Request) (report : FirstFactor.Report) :
    Talk V (Routed V) :=
  let request := report.applyTo request
  match passThrough? request with
  | some reply => .done ⟨.passThrough reply, request, r⟩
  | none =>
    match report.outcome with
    | .ok .accept => r.accepted now request
    | .ok (.mustChangePassword domain) =>
      (r.changes.initiate now request domain).bind (r.afterChange now)
    | .ok .reject | .error _ => .done (r.refuse request)

/-- A request that starts an exchange. -/
def fresh (r : Router V) (now : Time) (request : Request) : Talk V (Routed V) :=
  match r.verifiers.find request.client.source with
  | .error _ => .done (r.refuse request)
  | .ok verifier => .ask (.verify verifier request) (r.afterReport now request)

/-- A request that goes on with a password change. -/
def resumeChange (r : Router V) (now : Time) (request : Request) (token : String) :
    Talk V (Routed V) :=
  match r.verifiers.find request.client.source with
  | .error _ => .done (r.refuse request)
  | .ok verifier => (r.changes.resume now request token verifier).bind (r.afterChange now)

/-- A request that answers a challenge. -/
def answerChallenge (r : Router V) (now : Time) (request : Request) (token : String) :
    Talk V (Routed V) :=
  (r.secondFactor.answer now (withFirst request .accept) token).bind fun s => .done (r.settled s)

/-- The way of a request. -/
def route (r : Router V) (now : Time) (request : Request) : Talk V (Routed V) :=
  if request.isStatusServer then .done ⟨.decision .accept, request, r⟩
  else
    match request.token with
    | none => r.fresh now request
    | some token =>
      match r.owner now token with
      | (some .passwordChange, r) => r.resumeChange now request token
      | (some .challenge, r) => r.answerChallenge now request token
      | (none, r) => r.fresh now request

/-! ## 4. Replies -/

/-- The version that the gateway reports. -/
def version : String := "0.1.0"

/-- A number with at least two digits. -/
def twoDigits (n : Nat) : String := if n < 10 then "0" ++ toString n else toString n

/-- The words that answer whether the gateway is there. -/
def statusMessage (r : Router V) (now : Time) : String :=
  let uptime := (now - r.started) / Time.ofSeconds 1
  r.greeting ++ " v" ++ version ++ ", uptime " ++ toString (uptime / 3600) ++ ":" ++
    twoDigits (uptime / 60 % 60) ++ ":" ++ twoDigits (uptime % 60)

/-- The packet with a message for the user, if there is one. -/
def withMessage (reply : Packet) (message : Option String) : Packet :=
  match message with
  | some text => reply.add Name.replyMessage (.text text)
  | none => reply

/-- The attributes of a reply that accepts: what a remote server granted, then what the client's
rules add. -/
def granted (r : Router V) (request : Request) : Attributes :=
  let remote := match request.remoteReply with
    | some remote => relayed remote [Name.proxyState, Name.messageAuthenticator, Name.state]
    | none => []
  ReplyRule.apply r.dictionary request request.client.replyRules (Attributes.ofList remote)

/-- The reply that tells a decision. -/
def reply (r : Router V) (now : Time) (request : Request) (d : Decision) : Packet :=
  if request.isStatusServer then
    withMessage (request.packet.reply .accessAccept) (some (r.statusMessage now))
  else
    match d with
    | .accept => { request.packet.reply .accessAccept with attributes := r.granted request }
    | .reject => withMessage (request.packet.reply .accessReject) request.replyMessage
    | .challenge =>
      let reply := withMessage (request.packet.reply .accessChallenge) request.replyMessage
      match request.state with
      | some token => reply.add Name.state (.octets (Utf8.encode token))
      | none => reply

/-- The packet that answers a routed request. -/
def Routed.packet (d : Routed V) (now : Time) : Packet :=
  match d.outcome with
  | .decision decision => d.router.reply now d.request decision
  | .passThrough reply => reply

end Router

end AccessGate
