import AccessGate.Radius.Code
import AccessGate.Radius.Dictionary

/-!
# Packets

A packet holds its attributes decoded, by name. What stands in its authenticator field and in a
Message-Authenticator on the wire is computed when it is written.

* a request draws its authenticator or leaves it to be computed; a reply carries the authenticator
  of the request it answers beside its own;
* `string?` reads the first value of a name as a text, octets as UTF-8.
-/

namespace AccessGate.Radius

/-- What the gateway shares with one client. It is never shown. -/
structure Secret where
  bytes : Bytes
  deriving DecidableEq

/-- All that is ever shown of a secret. -/
def Secret.shown (_ : Secret) : String := "SharedSecret(<redacted>)"

instance : Repr Secret := ⟨fun s _ => s.shown⟩

/-- The secret that a text writes. -/
def Secret.ofString (s : String) : Secret := ⟨Utf8.encode s⟩

/-- A packet with its attributes decoded. -/
structure Packet where
  code : Code
  identifier : UInt8
  authenticator : Block
  requestAuthenticator : Option Block
  secret : Secret
  attributes : Attributes
  deriving DecidableEq

namespace Packet

/-- The largest packet. -/
def maxSize : Nat := 4096

/-- A new packet. `drawn` is the random authenticator, which only some codes take. -/
def new (code : Code) (identifier : UInt8) (secret : Secret) (drawn : Block) : Packet where
  code
  identifier
  authenticator := if code.drawsAuthenticator then drawn else .zero
  requestAuthenticator := none
  secret
  attributes := .empty

/-- An empty reply to the packet. -/
def reply (p : Packet) (code : Code) : Packet where
  code
  identifier := p.identifier
  authenticator := .zero
  requestAuthenticator := some p.authenticator
  secret := p.secret
  attributes := .empty

/-- One more value. -/
def add (p : Packet) (name : Name) (value : Value) : Packet :=
  { p with attributes := p.attributes.add name value }

/-- The value alone under its name. -/
def set (p : Packet) (name : Name) (value : Value) : Packet :=
  { p with attributes := p.attributes.set name value }

/-- The first value of the name as a text. -/
def string? (p : Packet) (name : Name) : Option String :=
  (p.attributes.get? name).map Value.asString

/-- The user name, if it is a text. -/
def userName? (p : Packet) : Option String := p.attributes.text? Name.userName

/-- The password, if it is a text. -/
def userPassword? (p : Packet) : Option String := p.attributes.text? Name.userPassword

/-- The token of an exchange. -/
def state? (p : Packet) : Option String := p.string? Name.state

/-- The name of the device. -/
def nasIdentifier? (p : Packet) : Option String := p.string? Name.nasIdentifier

/-- The station that calls. -/
def callingStationId? (p : Packet) : Option String := p.string? Name.callingStationId

/-- The station that is called. -/
def calledStationId? (p : Packet) : Option String := p.string? Name.calledStationId

/-- The marks that relays put on the packet, in order. -/
def proxyStates (p : Packet) : List Value := p.attributes.getAll Name.proxyState

/-- The packet is part of an EAP exchange. -/
def isEapMessage (p : Packet) : Bool := p.attributes.contains Name.eapMessage

/-- The packet has a Message-Authenticator. -/
def hasMessageAuthenticator (p : Packet) : Bool := p.attributes.contains Name.messageAuthenticator

/-- The packet with a Message-Authenticator, zeros until it is written. -/
def ensureMessageAuthenticator (p : Packet) : Packet :=
  if p.hasMessageAuthenticator then p
  else p.add Name.messageAuthenticator (.octets (Bytes.zeros 16))

end Packet

end AccessGate.Radius
