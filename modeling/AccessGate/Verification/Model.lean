import AccessGate.Json.Record

/-!
# Messages of the verification service

Requests of the gateway and answers of the service are JSON records whose names start with capitals.
What a request leaves open is left out; what an answer leaves open is null. A status with an unknown
name reads as `unknown`.
-/

namespace AccessGate.Verification

/-- A field, left out where it is empty. -/
private def whenSome (name : String) (value : Option String) : List (String × Json) :=
  match value with
  | some s => [(name, .ofString s)]
  | none => []

/-- The fields of a record with one spelling each. -/
private def named (names : List String) : List (List String) := names.map fun n => [n]

/-! ## 1. Requests -/

/-- A request for access: who asks, and what is known of the user. -/
structure AccessBody where
  identity : String
  name : Option String
  email : Option String
  phone : Option String
  passCode : Option String
  callingStationId : Option String
  calledStationId : Option String
  inlineEnroll : Bool
  signUpGroups : Option String
  deriving DecidableEq, Repr

/-- The answer of a user to a challenge. -/
structure ChallengeBody where
  identity : String
  challenge : String
  requestId : String
  deriving DecidableEq, Repr

namespace AccessBody

/-- The record as a value. -/
def toJson (b : AccessBody) : Json := .record (
  [("Identity", .ofString b.identity)] ++ whenSome "Name" b.name ++ whenSome "Email" b.email ++
  whenSome "Phone" b.phone ++ whenSome "PassCode" b.passCode ++
  whenSome "CallingStationId" b.callingStationId ++ whenSome "CalledStationId" b.calledStationId ++
  [("Capabilities", .record [("InlineEnroll", .bool b.inlineEnroll)]),
    ("GroupPolicyPreset", .record (whenSome "SignUpGroups" b.signUpGroups))])

/-- What the gateway offers to do, as a record of its own. -/
def capabilities? : Json → Option Bool :=
  Json.record? (named ["InlineEnroll"]) (Json.required Json.bool?)

/-- The groups of new users, as a record of its own. -/
def preset? : Json → Option (Option String) :=
  Json.record? (named ["SignUpGroups"]) (Json.optional Json.text?)

/-- The request that a value writes. -/
def ofJson? : Json → Option AccessBody := Json.record?
  (named ["Identity", "Name", "Email", "Phone", "PassCode", "CallingStationId", "CalledStationId",
    "Capabilities", "GroupPolicyPreset"]) do
  return {
    identity := ← Json.required Json.text?
    name := ← Json.optional Json.text?
    email := ← Json.optional Json.text?
    phone := ← Json.optional Json.text?
    passCode := ← Json.optional Json.text?
    callingStationId := ← Json.optional Json.text?
    calledStationId := ← Json.optional Json.text?
    inlineEnroll := ← Json.defaulted false capabilities?
    signUpGroups := ← Json.defaulted none preset? }

end AccessBody

namespace ChallengeBody

/-- The record as a value. -/
def toJson (b : ChallengeBody) : Json := .record [("Identity", .ofString b.identity),
  ("Challenge", .ofString b.challenge), ("RequestId", .ofString b.requestId)]

/-- The answer that a value writes. -/
def ofJson? : Json → Option ChallengeBody :=
  Json.record? (named ["Identity", "Challenge", "RequestId"]) do
  return {
    identity := ← Json.required Json.text?
    challenge := ← Json.required Json.text?
    requestId := ← Json.required Json.text? }

end ChallengeBody

/-! ## 2. Answers -/

/-- How a request for access stands. -/
inductive Status where
  | granted
  | denied
  | awaiting
  | unknown
  deriving DecidableEq, Repr, Inhabited

namespace Status

/-- The name of a status. -/
def name : Status → String
  | granted => "Granted"
  | denied => "Denied"
  | awaiting => "AwaitingAuthentication"
  | unknown => "Unknown"

/-- The status of a name. -/
def ofName (s : String) : Status :=
  if s = granted.name then granted
  else if s = denied.name then denied
  else if s = awaiting.name then awaiting
  else unknown

end Status

/-- What the service says of a request for access. -/
structure Model where
  id : String
  status : Status
  replyMessage : Option String
  phone : Option String
  /-- The service let the user through without a second factor. -/
  bypassed : Bool
  authenticator : Option String
  account : Option String
  countryCode : Option String
  region : Option String
  city : Option String
  deriving DecidableEq, Repr

/-- Every answer of the service. -/
structure Envelope where
  success : Bool
  message : Option String
  model : Option Model
  deriving DecidableEq, Repr

namespace Model

/-- A request of which nothing but its status is known. -/
def make (id : String) (status : Status) : Model :=
  ⟨id, status, none, none, false, none, none, none, none, none⟩

/-- The record as a value. -/
def toJson (m : Model) : Json := .record [
  ("Id", .ofString m.id), ("Status", .ofString m.status.name),
  ("ReplyMessage", .ofOption m.replyMessage), ("Phone", .ofOption m.phone),
  ("Bypassed", .bool m.bypassed), ("Authenticator", .ofOption m.authenticator),
  ("Account", .ofOption m.account), ("CountryCode", .ofOption m.countryCode),
  ("Region", .ofOption m.region), ("City", .ofOption m.city)]

/-- The model that a value writes. -/
def ofJson? : Json → Option Model := Json.record?
  (named ["Id", "Status", "ReplyMessage", "Phone", "Bypassed", "Authenticator", "Account",
    "CountryCode", "Region", "City"]) do
  let textOrNull : Json.Fields (Option String) := Json.defaulted none (Json.nullable? Json.text?)
  return {
    id := ← Json.required Json.text?
    status := ← Json.required (Json.choice? fun s => some (Status.ofName s))
    replyMessage := ← textOrNull
    phone := ← textOrNull
    bypassed := ← Json.defaulted false Json.bool?
    authenticator := ← textOrNull
    account := ← textOrNull
    countryCode := ← textOrNull
    region := ← textOrNull
    city := ← textOrNull }

end Model

namespace Envelope

/-- The record as a value. -/
def toJson (e : Envelope) : Json := .record [("Success", .bool e.success),
  ("Message", .ofOption e.message), ("Model", (e.model.map Model.toJson).getD .null)]

/-- The answer that a value writes. -/
def ofJson? : Json → Option Envelope := Json.record? (named ["Success", "Message", "Model"]) do
  return {
    success := ← Json.required Json.bool?
    message := ← Json.defaulted none (Json.nullable? Json.text?)
    model := ← Json.optional Model.ofJson? }

end Envelope

/-! ## 3. Calls -/

/-- What the gateway asks the service. -/
inductive Call where
  | access (body : AccessBody)
  | challenge (body : ChallengeBody)
  deriving DecidableEq, Repr

/-- Why a call has no answer. -/
inductive Failure where
  /-- The service could not be reached, broke off, or its answer made no sense. -/
  | transport (unreachable : Bool)
  /-- The service answered with a status that is no success. -/
  | status (code : Nat)
  /-- The service refused. -/
  | refused (reason : String)
  deriving DecidableEq, Repr

namespace Failure

/-- The service is not there or fails on its side. -/
def isUnreachable : Failure → Bool
  | transport unreachable => unreachable
  | status code => 500 ≤ code
  | refused _ => false

/-- The failure in words; the words of a transport are its own. -/
def message? : Failure → Option String
  | transport _ => none
  | status code => some ("Verification API answered with status " ++ toString code)
  | refused reason => some ("Verification API refused the request: " ++ reason)

end Failure

end AccessGate.Verification
