import AccessGate.FirstFactor.Report
import AccessGate.Radius.Writing

/-!
# Requests to a remote server

A request is relayed as a new packet: a fresh authenticator and the secret of the remote server, the
attributes of the request without those that belong to one hop, and a Message-Authenticator. A reply
is accepted if it carries the response authenticator of the request and is a packet.
-/

namespace AccessGate.Remote

open Radius FirstFactor

/-- The attributes that go with the request. -/
def forwarded (request : Packet) : List (Name × Value) :=
  request.attributes.toList.filter fun a => a.1 ≠ Name.messageAuthenticator ∧ a.1 ≠ Name.proxyState

/-- The packet that relays a request, with an authenticator drawn for it. -/
def outbound (request : Packet) (secret : Secret) (nasIdentifier : Option String) (drawn : Block) :
    Packet :=
  let p : Packet :=
    { Packet.new .accessRequest 0 secret drawn with attributes := .ofList (forwarded request) }
  let p := match nasIdentifier with
    | some nas => p.set Name.nasIdentifier (.text nas)
    | none => p
  p.ensureMessageAuthenticator

/-- The octets of a request. -/
def datagram (ctx : WritingContext) (request : Packet) : Except RemoteFault Bytes :=
  match ctx.write request with
  | .ok bs => .ok bs
  | .error fault => .error (.packet fault)

/-- The reply that a datagram brings to a request. -/
def accept (ctx : WritingContext) (request : Packet) (datagram : Bytes) :
    Except RemoteFault Packet :=
  if Authenticator.verifyResponse ctx.digests datagram request.authenticator
      request.secret.bytes then
    match ReadingContext.read ⟨ctx.digests, ctx.dictionary, request.secret, .utf8⟩
      (some request.authenticator) datagram with
    | .ok reply => .ok reply
    | .error fault => .error (.packet fault)
  else .error .badAuthenticator

end AccessGate.Remote
