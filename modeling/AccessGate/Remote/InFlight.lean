import AccessGate.Remote.Relay

/-!
# Requests in flight

All requests to remote servers share one socket. A request holds a slot, the pair of its identifier
and the server's endpoint, and a datagram is handed to the request that holds its slot. Requests
proceed in small steps that may interleave in any way:

* `start` claims a slot, or fails when all identifiers towards the server are taken;
* `send` writes the request, or fails; `deliver` takes a datagram from the network;
* `finish` ends a request with the datagram in its box, and `expire` fails it for want of one;
* `release` gives back the slot of a failed request, unless another request holds it by then.
-/

namespace AccessGate.Remote

open Radius FirstFactor

/-- What replies are matched by. -/
structure Slot where
  identifier : UInt8
  server : Endpoint
  deriving DecidableEq

/-- How far a request has come. -/
inductive Phase where
  /-- The slot is claimed and nothing sent. -/
  | claimed
  /-- The request was sent. -/
  | waiting
  /-- The request has failed and no longer takes a datagram. -/
  | failed (fault : RemoteFault)

/-- A request on its way, with the datagram that was handed to it. -/
structure Pending where
  ticket : Nat
  request : Packet
  slot : Slot
  phase : Phase
  box : Option Bytes

/-- The requests on their way. The table says which ticket holds a slot. -/
structure InFlight where
  next : UInt8
  table : List (Slot × Nat)
  pending : List Pending

/-- How a request ended. -/
abbrev Result := Except RemoteFault Packet

namespace InFlight

/-- No requests; identifiers start anywhere. -/
def idle (next : UInt8) : InFlight := ⟨next, [], []⟩

/-- The number of slots in use. -/
def size (s : InFlight) : Nat := s.table.length

/-- The slot is in use. -/
def isTaken (s : InFlight) (slot : Slot) : Bool := s.table.any fun e => e.1 = slot

/-- The request with the ticket. -/
def find? (s : InFlight) (ticket : Nat) : Option Pending :=
  s.pending.find? fun p => p.ticket = ticket

/-- The request with the ticket still takes a datagram. -/
def takes (s : InFlight) (ticket : Nat) : Bool :=
  match s.find? ticket with
  | some p => match p.phase with
    | .failed _ => false
    | _ => true
  | none => false

/-- Changes the request with the ticket. -/
def change (s : InFlight) (ticket : Nat) (f : Pending → Pending) : InFlight :=
  { s with pending := s.pending.map fun p => if p.ticket = ticket then f p else p }

/-- The request with the ticket is over. -/
def drop (s : InFlight) (ticket : Nat) : InFlight :=
  { s with pending := s.pending.filter fun p => p.ticket ≠ ticket }

/-- The request with the ticket fails and will give back its slot. -/
def fail (s : InFlight) (ticket : Nat) (fault : RemoteFault) : InFlight :=
  s.change ticket fun p => { p with phase := .failed fault, box := none }

/-! ## 1. Identifiers -/

/-- The first free identifier among `count` from `identifier` on, and the one to look at next. -/
def freeIdentifier (s : InFlight) (server : Endpoint) : Nat → UInt8 → Option UInt8 × UInt8
  | 0, identifier => (none, identifier)
  | count + 1, identifier =>
    if s.isTaken ⟨identifier, server⟩ then s.freeIdentifier server count (identifier + 1)
    else (some identifier, identifier + 1)

/-- Claims a slot for a new request. -/
def start (s : InFlight) (ticket : Nat) (request : Packet) (server : Endpoint) :
    Except RemoteFault UInt8 × InFlight :=
  match s.freeIdentifier server 256 s.next with
  | (none, next) => (.error .noFreeIdentifier, { s with next })
  | (some identifier, next) =>
    let slot : Slot := ⟨identifier, server⟩
    (.ok identifier, { s with
      next
      table := s.table ++ [(slot, ticket)]
      pending := s.pending ++ [⟨ticket, { request with identifier }, slot, .claimed, none⟩] })

/-! ## 2. Steps of a request -/

/-- Writes the request to the network, which may refuse it. -/
def send (s : InFlight) (ctx : WritingContext) (ticket : Nat) (networkUp : Bool) : InFlight :=
  match s.find? ticket with
  | some ⟨_, request, _, .claimed, _⟩ =>
    match datagram ctx request with
    | .error fault => s.fail ticket fault
    | .ok _ =>
      if networkUp then s.change ticket fun p => { p with phase := .waiting }
      else s.fail ticket .network
  | _ => s

/-- Takes a datagram from the network, up to the largest packet: the slot it names is free
afterwards, and the request that held it gets the datagram if it still takes one. -/
def deliver (s : InFlight) (sender : Endpoint) (received : Bytes) : Option Nat × InFlight :=
  let datagram := received.take Packet.maxSize
  match datagram with
  | _ :: identifier :: _ =>
    if datagram.length < headSize then (none, s)
    else
      let slot : Slot := ⟨identifier, sender⟩
      match s.table.find? fun e => e.1 = slot with
      | none => (none, s)
      | some (_, ticket) =>
        let s := { s with table := s.table.filter fun e => e.1 ≠ slot }
        if s.takes ticket then
          (some ticket, s.change ticket fun p => { p with box := some datagram })
        else (none, s)
  | _ => (none, s)

/-- The request has waited long enough. A datagram that is there still counts. -/
def expire (s : InFlight) (ticket : Nat) : InFlight :=
  match s.find? ticket with
  | some ⟨_, _, _, .waiting, none⟩ => s.fail ticket .timeout
  | _ => s

/-- Ends a request whose datagram is there; a datagram that is no reply fails it. -/
def finish (s : InFlight) (ctx : WritingContext) (ticket : Nat) : Option Packet × InFlight :=
  match s.find? ticket with
  | some ⟨_, request, _, .waiting, some datagram⟩ =>
    match accept ctx request datagram with
    | .ok reply => (some reply, s.drop ticket)
    | .error fault => (none, s.fail ticket fault)
  | _ => (none, s)

/-- Gives back the slot of a failed request and ends it with its fault. A slot that a request holds
which still takes a datagram stays. -/
def release (s : InFlight) (ticket : Nat) : Option RemoteFault × InFlight :=
  match s.find? ticket with
  | some ⟨_, _, slot, .failed fault, _⟩ =>
    let table := s.table.filter fun e => !(e.1 = slot && !s.takes e.2)
    (some fault, { s with table }.drop ticket)
  | _ => (none, s)

/-! ## 3. Whole runs -/

/-- Sends a request that gets no answer or the given datagrams, and ends it. -/
def exchange (s : InFlight) (ctx : WritingContext) (ticket : Nat) (request : Packet)
    (server : Endpoint) (networkUp : Bool) (datagrams : List Bytes) : Result × InFlight :=
  match s.start ticket request server with
  | (.error fault, s) => (.error fault, s)
  | (.ok _, s) =>
    let s := s.send ctx ticket networkUp
    let s := datagrams.foldl (fun s d => (s.deliver server d).2) s
    match (s.expire ticket).finish ctx ticket with
    | (some reply, s) => (.ok reply, s)
    | (none, s) =>
      match s.release ticket with
      | (some fault, s) => (.error fault, s)
      | (none, s) => (.error .closed, s)

end InFlight

end AccessGate.Remote
