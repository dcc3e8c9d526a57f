/-!
# Packet codes

The thirteen codes the gateway knows, their numbers, and the two properties that decide what stands
in the authenticator field:

* `isRequest` codes open an exchange, the others answer one;
* `hasComputedAuthenticator` codes carry a digest of the packet in place of a random number.
-/

namespace AccessGate.Radius

/-- What a packet is for. -/
inductive Code where
  | accessRequest
  | accessAccept
  | accessReject
  | accountingRequest
  | accountingResponse
  | accessChallenge
  | statusServer
  | disconnectRequest
  | disconnectAck
  | disconnectNak
  | coaRequest
  | coaAck
  | coaNak
  deriving DecidableEq, Repr, Inhabited

namespace Code

/-- The number on the wire. -/
def number : Code → UInt8
  | accessRequest => 1
  | accessAccept => 2
  | accessReject => 3
  | accountingRequest => 4
  | accountingResponse => 5
  | accessChallenge => 11
  | statusServer => 12
  | disconnectRequest => 40
  | disconnectAck => 41
  | disconnectNak => 42
  | coaRequest => 43
  | coaAck => 44
  | coaNak => 45

/-- The code of a number. -/
def ofNumber? (n : UInt8) : Option Code :=
  match n with
  | 1 => some accessRequest
  | 2 => some accessAccept
  | 3 => some accessReject
  | 4 => some accountingRequest
  | 5 => some accountingResponse
  | 11 => some accessChallenge
  | 12 => some statusServer
  | 40 => some disconnectRequest
  | 41 => some disconnectAck
  | 42 => some disconnectNak
  | 43 => some coaRequest
  | 44 => some coaAck
  | 45 => some coaNak
  | _ => none

@[simp] theorem ofNumber?_number (c : Code) : ofNumber? c.number = some c := by
  cases c <;> rfl

/-- The name of a code. -/
def name : Code → String
  | accessRequest => "AccessRequest"
  | accessAccept => "AccessAccept"
  | accessReject => "AccessReject"
  | accountingRequest => "AccountingRequest"
  | accountingResponse => "AccountingResponse"
  | accessChallenge => "AccessChallenge"
  | statusServer => "StatusServer"
  | disconnectRequest => "DisconnectRequest"
  | disconnectAck => "DisconnectAck"
  | disconnectNak => "DisconnectNak"
  | coaRequest => "CoaRequest"
  | coaAck => "CoaAck"
  | coaNak => "CoaNak"

/-- The authenticator field is a digest of the request and not a random number. -/
def hasComputedAuthenticator : Code → Bool
  | accountingRequest | disconnectRequest | coaRequest => true
  | _ => false

/-- A receiver compares the authenticator field with the digest. -/
def authenticatorIsCompared : Code → Bool
  | accountingRequest | disconnectRequest => true
  | _ => false

/-- The code opens an exchange. -/
def isRequest : Code → Bool
  | accessRequest | accountingRequest | statusServer | disconnectRequest | coaRequest => true
  | _ => false

/-- A new packet of this code draws a random authenticator. -/
def drawsAuthenticator : Code → Bool
  | accessRequest | statusServer => true
  | _ => false

end Code

end AccessGate.Radius
