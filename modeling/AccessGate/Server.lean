import AccessGate.Access.Router
import AccessGate.Config.Registry
import AccessGate.Net.ProxyHeader
import AccessGate.Radius.Writing
import AccessGate.Store.Retransmissions

/-!
# The server

A datagram goes through these gates, and is dropped without a word at the first that it fails: the
header of a relay, the client it belongs to, the packet under the client's secret, the two codes
that are served, and the retransmissions (`newRequest`). A request that passes them all is routed,
and its reply is signed and goes back where the datagram came from (`handle`).

The client is found before the packet is read, by a look at the raw attributes (`nasIdentifier?`).
-/

namespace AccessGate

/-- A server with the socket it is bound to while it runs. -/
structure Server (V : Type) where
  listen : Endpoint
  bound : Option Endpoint
  registry : Registry
  writing : Radius.WritingContext
  router : Router V
  retransmissions : Retransmissions
  rejectDelay : DelayRange

/-- A reply on its way: where to, what, and how long it is held back, drawn from a range in
seconds. -/
structure Outgoing where
  destination : Endpoint
  data : Bytes
  delay : DelayRange
  deriving DecidableEq

namespace Server

open Radius

variable {V : Type}

/-! ## 1. The socket -/

/-- The server is bound. -/
def isRunning (s : Server V) : Bool := s.bound.isSome

/-- Binds the socket at the given address, unless it is bound already; the address it has then. -/
def start (s : Server V) (address : Endpoint) : Endpoint × Server V :=
  match s.bound with
  | some current => (current, s)
  | none => (address, { s with bound := some address })

/-- Gives up the socket. -/
def stop (s : Server V) : Server V := { s with bound := none }

/-! ## 2. Recognition -/

/-- The first NAS-Identifier among raw attributes; a bad length ends the look. -/
def scan : Bytes → Option Bytes
  | code :: len :: rest =>
    if len.toNat < 2 ∨ rest.length < len.toNat - 2 then none
    else if code = Attribute.nasIdentifier then some (rest.take (len.toNat - 2))
    else scan (rest.drop (len.toNat - 2))
  | _ => none
termination_by bs => bs.length
decreasing_by
  simp only [List.length_drop, List.length_cons]
  omega

/-- The size that a packet declares. -/
def declaredSize (datagram : Bytes) : Nat := Bytes.toNat (datagram.slice 2 2)

/-- The NAS-Identifier of a datagram that need not be a packet. -/
def nasIdentifier? (datagram : Bytes) : Option String :=
  if datagram.length < headSize then none
  else
    let size := min (max (declaredSize datagram) headSize) datagram.length
    (scan ((datagram.take size).drop headSize)).bind Utf8.decode?

/-- Why a datagram gets no answer. -/
inductive Drop where
  | badHeader (fault : ProxyHeader.Fault)
  | unknownClient
  | badPacket (fault : Fault)
  | unsupportedCode (code : Code)
  | retransmission
  deriving DecidableEq

/-- The codes that are served. -/
def isServed (code : Code) : Bool := code == .accessRequest || code == .statusServer

/-- Reads packets of a client. -/
def reading (s : Server V) (client : Client) : ReadingContext :=
  ⟨s.writing.digests, s.writing.dictionary, client.secret, client.passwordEncoding⟩

/-- The request that a datagram makes, whether or not it was seen before. -/
def request (s : Server V) (sender : Endpoint) (datagram : Bytes) : Except Drop Request := do
  let relayed ← (ProxyHeader.unwrap datagram).mapError .badHeader
  let remote := relayed.source.getD sender
  let relay := if ProxyHeader.isPresent datagram then some sender else none
  match s.registry.resolve? (nasIdentifier? relayed.payload) remote.address with
  | none => throw .unknownClient
  | some client =>
    let packet ← ((s.reading client).read none relayed.payload).mapError .badPacket
    if isServed packet.code then return .make remote relay client packet
    else throw (.unsupportedCode packet.code)

/-- The request that a datagram makes, if it is new. -/
def newRequest (s : Server V) (now : Time) (sender : Endpoint) (datagram : Bytes) :
    Except Drop Request × Server V :=
  match s.request sender datagram with
  | .error drop => (.error drop, s)
  | .ok request =>
    let (seen, retransmissions) := s.retransmissions.note now request.packet request.remote
    (if seen then .error .retransmission else .ok request, { s with retransmissions })

/-! ## 3. Replies -/

/-- A reply with what every reply carries: the Proxy-States of its request and a
Message-Authenticator. -/
def completed (request : Request) (reply : Packet) : Packet :=
  let states := request.packet.proxyStates.map fun v => (Name.proxyState, v)
  { reply with attributes := reply.attributes.addAll states }.ensureMessageAuthenticator

/-- Only refusals are held back. -/
def delayOf (s : Server V) (code : Code) : DelayRange :=
  if code = .accessReject then s.rejectDelay else ⟨0, 0⟩

/-- The reply on its way; one that has no octets is not sent. -/
def outgoing (s : Server V) (request : Request) (reply : Packet) : Except Fault Outgoing := do
  let reply := completed request reply
  return ⟨request.replyAddress, ← s.writing.write reply, s.delayOf reply.code⟩

/-- What became of a datagram. -/
inductive Handled where
  | dropped (reason : Drop)
  | unwritable (fault : Fault)
  | sent (reply : Outgoing)

/-- The answer to a routed request. -/
def answer (s : Server V) (now : Time) (d : Router.Routed V) : Handled × Server V :=
  let s := { s with router := d.router }
  match s.outgoing d.request (d.packet now) with
  | .ok reply => (.sent reply, s)
  | .error fault => (.unwritable fault, s)

/-- Handles a datagram. -/
def handle (s : Server V) (now : Time) (sender : Endpoint) (datagram : Bytes) :
    Talk V (Handled × Server V) :=
  match s.newRequest now sender datagram with
  | (.error reason, s) => .done (.dropped reason, s)
  | (.ok request, s) => (s.router.route now request).bind fun d => .done (s.answer now d)

/-- The most octets that are taken from the network at once: a packet with its header. -/
def bufferSize : Nat := Packet.maxSize + 108

/-- Takes a datagram from the network; what does not fit is lost. -/
def receive (s : Server V) (now : Time) (sender : Endpoint) (datagram : Bytes) :
    Talk V (Handled × Server V) := s.handle now sender (datagram.take bufferSize)

end Server

end AccessGate
