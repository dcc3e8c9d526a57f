import AccessGate.Net.Reader
import AccessGate.Text.Blank
import AccessGate.Text.Utf8

/-!
# Relayed datagrams

A relay may put a line before a datagram that names the real sender: the word `PROXY`, a protocol,
source and destination address, and both ports, with one space between them. The line ends with a
newline among the first 107 octets; what follows it is the payload, octet for octet. `PROXY UNKNOWN`
names no sender. A datagram that does not start with the word is its own payload.
-/

namespace AccessGate

/-- A datagram without its header, and the sender that the header named. -/
structure Relayed where
  source : Option Endpoint
  payload : Bytes
  deriving DecidableEq

namespace ProxyHeader

/-- What is wrong with a header. -/
inductive Malformation where
  | sourceAddress (field : String)
  | destinationAddress (field : String)
  | sourcePort (field : String)
  | destinationPort (field : String)
  | unknownProtocol (field : String)
  | family (protocol : String)
  | shape (line : String)
  deriving DecidableEq, Repr

/-- The malformation in words. -/
def Malformation.detail : Malformation → String
  | sourceAddress field => "source address " ++ field
  | destinationAddress field => "destination address " ++ field
  | sourcePort field => "source port " ++ field
  | destinationPort field => "destination port " ++ field
  | unknownProtocol field => "unknown protocol " ++ field
  | family protocol => "address family does not match " ++ protocol
  | shape line => line

/-- Why a datagram with a header has no payload. -/
inductive Fault where
  | unterminated
  | notText
  | malformed (cause : Malformation)
  deriving DecidableEq, Repr

/-- The fault in words. -/
def Fault.message : Fault → String
  | unterminated => "PROXY header is not terminated by a newline"
  | notText => "PROXY header is not valid text"
  | malformed cause => "Malformed PROXY header: " ++ cause.detail

/-- The word that a header starts with. -/
def signature : Bytes := [0x50, 0x52, 0x4F, 0x58, 0x59]

/-- The octets among which the header ends. -/
def window : Nat := 107

/-- The datagram starts with the word. -/
def isPresent (datagram : Bytes) : Bool := signature.isPrefixOf datagram

/-- An address or the fault made of its text. -/
def address (fault : String → Malformation) (field : List Char) : Except Malformation IpAddress :=
  match IpAddress.parseChars? field with
  | some a => .ok a
  | none => .error (fault (String.ofList field))

/-- A port or the fault made of its text. -/
def port (fault : String → Malformation) (field : List Char) : Except Malformation UInt16 :=
  match Numeral.parseChars Numeral.max16 field with
  | .ok n => .ok (UInt16.ofNat n)
  | .error _ => .error (fault (String.ofList field))

/-- The version of addresses that a protocol carries. -/
inductive Family where
  | v4
  | v6
  deriving DecidableEq

/-- The version that a protocol's name announces. -/
def family? (protocol : List Char) : Option Family :=
  if protocol = "TCP4".toList ∨ protocol = "UDP4".toList then some .v4
  else if protocol = "TCP6".toList ∨ protocol = "UDP6".toList then some .v6
  else none

/-- The version of an address. -/
def familyOf : IpAddress → Family
  | .v4 _ => .v4
  | .v6 _ => .v6

/-- The sender that six fields name. -/
def sender (protocol source destination sourcePort destinationPort : List Char) :
    Except Malformation Endpoint := do
  let source ← address .sourceAddress source
  let destination ← address .destinationAddress destination
  let sourcePort ← port .sourcePort sourcePort
  let _ ← port .destinationPort destinationPort
  match family? protocol with
  | none => throw (.unknownProtocol (String.ofList protocol))
  | some f =>
    if familyOf source = f ∧ familyOf destination = f then return .make source sourcePort
    else throw (.family (String.ofList protocol))

/-- The sender that a header line names. -/
def ofLine (line : List Char) : Except Malformation (Option Endpoint) :=
  match Text.splitChars (· == ' ') line with
  | word :: protocol :: fields =>
    if word ≠ "PROXY".toList then .error (.shape (String.ofList line))
    else if protocol = "UNKNOWN".toList then .ok none
    else
      match fields with
      | [source, destination, sourcePort, destinationPort] =>
        (sender protocol source destination sourcePort destinationPort).map some
      | _ => .error (.shape (String.ofList line))
  | _ => .error (.shape (String.ofList line))

/-- The line without the carriage returns at its end. -/
def trimReturns (line : List Char) : List Char := (line.reverse.dropWhile (· == '\r')).reverse

/-- The payload of a datagram and the sender that its header names. -/
def unwrap (datagram : Bytes) : Except Fault Relayed :=
  if isPresent datagram then
    let line := (datagram.take window).takeWhile (· ≠ 0x0A)
    if line.length = (datagram.take window).length then .error .unterminated
    else
      match Utf8.decodeChars? line with
      | none => .error .notText
      | some cs =>
        match ofLine (trimReturns cs) with
        | .ok source => .ok ⟨source, datagram.drop (line.length + 1)⟩
        | .error cause => .error (.malformed cause)
  else .ok ⟨none, datagram⟩

end ProxyHeader

end AccessGate
