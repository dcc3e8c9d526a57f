import AccessGate.Access.Request

/-!
# What a first factor reports

A verifier looks at a request and ends with an outcome or a fault. Beside that it may have filled in
the user's profile and the reply of a remote server, and it may let the user pass without a second
factor. It can change nothing else of the request (`Report.applyTo`).
-/

namespace AccessGate.FirstFactor

/-! ## 1. Faults -/

/-- Why a bind has no result that settles it. -/
inductive BindFault where
  /-- The connection broke. -/
  | broken
  | resultCode (code : Nat) (text : String)
  | noServiceAccount
  | serviceAccountRefused (dn : String)
  deriving DecidableEq, Repr

/-- The fault in words; a broken connection has none of its own. -/
def BindFault.detail? : BindFault → Option String
  | broken => none
  | resultCode code text => some ("result code " ++ toString code ++ ": " ++ text)
  | noServiceAccount => some "no service account configured"
  | serviceAccountRefused dn => some ("service account " ++ dn ++ " was refused")

/-- Why a directory settled nothing. -/
inductive DirectoryFault where
  | connection
  | bind (cause : BindFault)
  | search
  deriving DecidableEq, Repr

/-- Why a remote server settled nothing. -/
inductive RemoteFault where
  /-- The network refused the request. -/
  | network
  /-- The request has no octets, or the reply is no packet. -/
  | packet (cause : Radius.Fault)
  /-- Every identifier towards the server is in use. -/
  | noFreeIdentifier
  | timeout
  | badAuthenticator
  /-- The client was taken down before the reply came. -/
  | closed
  deriving DecidableEq, Repr

/-- Why a verifier has no outcome. -/
inductive Fault where
  | directory (cause : DirectoryFault)
  | remote (cause : RemoteFault)
  | missingConfiguration (client : String)
  | noVerifier (source : Source)
  deriving DecidableEq, Repr

/-- The fault in words, where they are the gateway's own. -/
def Fault.message? : Fault → Option String
  | directory (.bind cause) =>
    cause.detail?.map fun detail => "Directory error: LDAP bind error: " ++ detail
  | directory _ => none
  | remote _ => none
  | missingConfiguration client =>
    some ("Client " ++ client ++ " is missing configuration for its authentication source")
  | noVerifier source => some ("No verifier registered for " ++ source.name)

/-! ## 2. Outcomes -/

/-- How the first factor ended. -/
inductive Outcome where
  | accept
  | reject
  /-- The credentials are right but the directory wants a new password. -/
  | mustChangePassword (domain : String)
  deriving DecidableEq, Repr

/-- How a change of password ended. -/
inductive ChangeOutcome where
  | changed
  | complexityNotMet
  | failed
  deriving DecidableEq, Repr, Inhabited

/-- All that a verifier may say of a request. -/
structure Report where
  outcome : Except Fault Outcome
  profile : Option Profile
  remoteReply : Option Radius.Packet
  /-- The second factor may be left out. -/
  bypass : Bool

namespace Report

/-- An outcome or a fault and nothing else. -/
def bare (outcome : Except Fault Outcome) : Report := ⟨outcome, none, none, false⟩

instance : Inhabited Report := ⟨bare (.ok .reject)⟩

/-- The verifier accepted. -/
def accepts (r : Report) : Bool :=
  match r.outcome with
  | .ok .accept => true
  | _ => false

/-- The request with what the verifier found out. -/
def applyTo (r : Report) (request : Request) : Request :=
  { request with
    profile := r.profile.getD request.profile
    remoteReply := r.remoteReply <|> request.remoteReply
    factors := if r.bypass then { request.factors with second := .bypass } else request.factors }

end Report

end AccessGate.FirstFactor
