import AccessGate.FirstFactor.Standard
import AccessGate.Radius.StandardDictionary
import AccessGate.Server
import AccessGate.Verification.Service

/-!
# The gateway

A configuration and the file of its dictionary make a server with the standard verifiers and a
verification service (`Gateway.build`). What the server asks is then put to the outside world:
directories, remote servers, the service and chance (`Gateway.receive`).
-/

namespace AccessGate

/-- Why a configuration makes no gateway. -/
inductive BuildFault where
  | config (fault : ConfigFault)
  | unreadableDictionary
  | dictionary (fault : Radius.Dictionary.SyntaxFault)
  | service (failure : Verification.Failure)

/-- A server and the service it calls. -/
structure Gateway where
  server : Server FirstFactor.Verifier
  service : Verification.Service

namespace Gateway

open FirstFactor

/-! ## 1. Building -/

/-- The standard dictionary with the configured file laid over it. `file` holds the contents of the
file, if it can be read. -/
def dictionary (c : Config) (file : Option Bytes) : Except BuildFault Radius.Dictionary :=
  match c.dictionaryPath with
  | none => .ok .standard
  | some _ =>
    match file.bind Utf8.decode? with
    | none => .error .unreadableDictionary
    | some text =>
      let loaded := Radius.Dictionary.standard.load text
      match loaded.result with
      | .ok _ => .ok loaded.dictionary
      | .error fault => .error (.dictionary fault)

/-- The router of a configuration. -/
def router (c : Config) (d : Radius.Dictionary) (sealer : Sealer) (now : Time) :
    Router Verifier where
  verifiers := .standard
  secondFactor := .make (.ofSeconds c.sessionLifetime.toNat) (.ofSeconds c.challengeTtl.toNat) now
  changes := .make sealer (.ofSeconds c.challengeTtl.toNat) now
  dictionary := d
  greeting := c.statusGreeting
  started := now

/-- The gateway of a configuration. -/
def build (c : Config) (file : Option Bytes) (sealer : Sealer) (now : Time) :
    Except BuildFault Gateway := do
  let listen ← c.endpoint.mapError .config
  let d ← dictionary c file
  let service ← (Verification.Service.make c.apiUrl c.apiProxy).mapError .service
  let registry ← (Registry.ofList c.clients).mapError .config
  let rejectDelay ← c.delay.mapError .config
  return {
    server := {
      listen
      bound := none
      registry
      writing := ⟨.standard, d⟩
      router := router c d sealer now
      retransmissions := .make (.ofSeconds c.retransmissionTtl.toNat) now
      rejectDelay }
    service }

/-! ## 2. Running -/

/-- What the gateway asks the world. -/
inductive Inquiry where
  | verifier (q : VerifierQuestion)
  | service (post : Verification.Post)
  /-- Sixteen random octets. -/
  | token

/-- The answers of the world. -/
@[reducible] def Inquiry.Answer : Inquiry → Type
  | verifier q => q.Answer
  | service _ => Verification.PostResult
  | token => Block

/-- How the gateway finds the answer to a question of its server. -/
def inquire (g : Gateway) : (q : Question Verifier) → Dialogue Inquiry Inquiry.Answer q.Answer
  | .verify v request => (v.verify request).via .verifier fun _ answer => answer
  | .changePassword _ _ _ => .done .failed
  | .service client call => (g.service.call client call).via .service fun _ answer => answer
  | .token => .ask .token .done

/-- Takes a datagram from the network and handles it. -/
def receive (g : Gateway) (now : Time) (sender : Endpoint) (datagram : Bytes) :
    Dialogue Inquiry Inquiry.Answer (Server.Handled × Gateway) :=
  ((g.server.receive now sender datagram).expand g.inquire).bind fun (handled, server) =>
    .done (handled, { g with server })

end Gateway

end AccessGate
