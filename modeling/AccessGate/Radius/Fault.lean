import AccessGate.Text.Numeral

/-!
# What can be wrong with a packet

Every fault is a cause with the numbers and names it is about; its words stand in one function.
-/

namespace AccessGate.Radius

/-- Why octets or a text are no value of a kind. -/
inductive ValueFault where
  | integerSize (size : Nat)
  | addressSize (size : Nat)
  | integerText (text : String) (cause : Numeral.Fault)
  | addressText (text : String)
  deriving DecidableEq, Repr

/-- The fault in words. -/
def ValueFault.message : ValueFault → String
  | integerSize size => "Expected 4 bytes for integer, got " ++ toString size
  | addressSize size => "Expected 4 bytes for IPv4, got " ++ toString size
  | integerText text cause => "Invalid integer '" ++ text ++ "': " ++ cause.message
  | addressText text => "Invalid IPv4 '" ++ text ++ "': invalid IPv4 address syntax"

/-- Why octets are no packet, or a packet has no octets. -/
inductive Fault where
  | invalidLength (size : Nat)
  | lengthMismatch (declared actual : Nat)
  | invalidCode (number : UInt8)
  | attributeOverrun (offset : Nat)
  | invalidRequestAuthenticator
  | invalidMessageAuthenticator
  | value (fault : ValueFault)
  | unknownAttribute (name : String)
  | attributeTooLong (name : String) (size : Nat)
  | packetTooLarge (size : Nat)
  deriving DecidableEq, Repr

/-- The fault in words. -/
def Fault.message : Fault → String
  | invalidLength size => "Invalid packet length: " ++ toString size
  | lengthMismatch declared actual =>
    "Length field says " ++ toString declared ++ " bytes but datagram carries " ++ toString actual
  | invalidCode number => "Invalid packet code: " ++ toString number.toNat
  | attributeOverrun offset => "Attribute at offset " ++ toString offset ++ " overruns the packet"
  | invalidRequestAuthenticator => "Request authenticator mismatch"
  | invalidMessageAuthenticator => "Message-Authenticator mismatch"
  | value fault => "Attribute error: " ++ fault.message
  | unknownAttribute name => "Attribute '" ++ name ++ "' is not in the dictionary"
  | attributeTooLong name size =>
    "Attribute '" ++ name ++ "' value too long: " ++ toString size ++ " bytes"
  | packetTooLarge size => "Packet too large: " ++ toString size ++ " bytes"

end AccessGate.Radius
