import AccessGate.Config.Basic
import AccessGate.Dialogue
import AccessGate.Json.Parser
import AccessGate.Json.Printer
import AccessGate.Net.Url
import AccessGate.Text.Base64
import AccessGate.Verification.Model

/-!
# Calling the verification service

A call posts a record to one of two paths under the service's address, with the client's key and
secret. The answer counts if its status is a success and its envelope says so and holds a model;
anything else is a failure (`Service.read`). An address that is none of the web fails every call
before anything is sent.
-/

namespace AccessGate.Verification

/-- A record on its way to the service. -/
structure Post where
  url : String
  authorization : String
  body : String
  deriving DecidableEq, Repr

/-- What comes of a post. -/
inductive PostResult where
  | response (status : Nat) (body : Bytes)
  /-- Nothing came back, or only a part. -/
  | broken (unreachable : Bool)
  deriving DecidableEq, Repr

/-- The type of every body. -/
def Post.contentType : String := "application/json"

/-- A dialogue with the service. -/
abbrev ServiceTalk (α : Type) := Dialogue Post (fun _ => PostResult) α

/-- The service at an address without slashes at its end. -/
structure Service where
  address : String
  deriving DecidableEq, Repr

namespace Service

/-! ## 1. Addresses -/

/-- The path of requests for access. -/
def accessPath : String := "/access/requests/ra"

/-- The path of answers to challenges. -/
def challengePath : String := "/access/requests/ra/challenge"

/-- The address without slashes at its end. -/
def trimmed (address : String) : String :=
  String.ofList (address.toList.reverse.dropWhile (· == '/')).reverse

/-- A proxy is an address with a host; one without a scheme is an address of the web. -/
def isProxy (text : String) : Bool :=
  match UrlForm.of text with
  | .web | .other => true
  | .malformed => false
  | .hostless => UrlForm.of ("http://" ++ text) = .web

/-- The service at an address, perhaps behind a proxy. -/
def make (address : String) (proxy : Option String) : Except Failure Service :=
  if proxy.all isProxy then .ok ⟨trimmed address⟩ else .error (.transport false)

/-! ## 2. Calls -/

/-- What proves to the service which client asks. -/
def authorization (client : Client) : String :=
  "Basic " ++ Base64.encode (Utf8.encode (client.apiKey ++ ":" ++ client.apiSecret))

/-- The post that makes a call. -/
def post (s : Service) (client : Client) (call : Call) : Post :=
  let (path, body) := match call with
    | .access body => (accessPath, body.toJson)
    | .challenge body => (challengePath, body.toJson)
  ⟨s.address ++ path, authorization client, body.compact⟩

/-- What an envelope says. -/
def ofEnvelope (e : Envelope) : Except Failure Model :=
  if e.success then
    match e.model with
    | some model => .ok model
    | none => .error (.refused "response carries no model")
  else .error (.refused (e.message.getD "no message"))

/-- What comes of a call. -/
def read : PostResult → Except Failure Model
  | .broken unreachable => .error (.transport unreachable)
  | .response status body =>
    if 200 ≤ status ∧ status < 300 then
      match ((Utf8.decode? body).bind Json.parse?).bind Envelope.ofJson? with
      | some e => ofEnvelope e
      | none => .error (.transport false)
    else .error (.status status)

/-- Makes a call. -/
def call (s : Service) (client : Client) (c : Call) : ServiceTalk (Except Failure Model) :=
  let post := s.post client c
  if UrlForm.of post.url = .web then .ask post fun result => .done (read result)
  else .done (.error (.transport false))

end Service

end AccessGate.Verification
