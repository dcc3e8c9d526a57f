import AccessGate.FirstFactor.Directory
import AccessGate.FirstFactor.Verifiers
import AccessGate.Remote.Relay

/-!
# The verifiers of the gateway

Every source has a verifier: nobody is asked for clients without a first factor, a directory of
either kind is asked directly, and a remote server gets the request relayed, after which a directory
may add the profile. None of them can change a password.
-/

namespace AccessGate.FirstFactor

/-- The verifiers of the gateway. -/
inductive Verifier where
  | unchecked
  | directory (kind : DirectoryKind)
  | remote
  deriving DecidableEq, Repr

/-- What verifiers ask. -/
inductive VerifierQuestion where
  | directory (q : DirectoryQuestion)
  /-- Sixteen random octets. -/
  | authenticator
  /-- Relays a request and waits for the reply. -/
  | relay (request : Radius.Packet) (server : Endpoint)

/-- The answers that verifiers get. -/
@[reducible] def VerifierQuestion.Answer : VerifierQuestion → Type
  | directory q => q.Answer
  | authenticator => Block
  | relay _ _ => Except RemoteFault Radius.Packet

/-- A dialogue of a verifier. -/
abbrev VerifierTalk (α : Type) := Dialogue VerifierQuestion VerifierQuestion.Answer α

/-- A dialogue with a directory as a part of a verifier's. -/
def withDirectory {α : Type} (d : DirectoryTalk α) : VerifierTalk α :=
  d.via .directory fun _ answer => answer

/-- The report after a remote server has replied. -/
def afterReply (request : Request) (reply : Radius.Packet) : VerifierTalk Report :=
  if reply.code = .accessAccept then
    (withDirectory (enrich request)).bind fun r => .done { r with remoteReply := some reply }
  else .done { Report.bare (.ok .reject) with remoteReply := some reply }

/-- Has a remote server verify the request. -/
def verifyRemote (request : Request) : VerifierTalk Report :=
  match request.client.remote with
  | none => .done (.bare (.error (.missingConfiguration request.client.name)))
  | some remote =>
    .ask .authenticator fun drawn =>
      let relayed := Remote.outbound request.packet (.ofString remote.sharedSecret)
        remote.nasIdentifier drawn
      .ask (.relay relayed remote.address) fun answer =>
        match answer with
        | .ok reply => afterReply request reply
        | .error fault => .done (.bare (.error (.remote fault)))

/-- Verifies the first factor of a request. -/
def Verifier.verify (v : Verifier) (request : Request) : VerifierTalk Report :=
  match v with
  | .unchecked => .done (.bare (.ok .accept))
  | .directory kind => withDirectory (verifyDirectory kind request)
  | .remote => verifyRemote request

/-- A verifier for every source. -/
def Verifiers.standard : Verifiers Verifier := .ofList [
  (.unchecked, .unchecked), (.activeDirectory, .directory .activeDirectory),
  (.adLds, .directory .lightweight), (.remoteServer, .remote)]

end AccessGate.FirstFactor
