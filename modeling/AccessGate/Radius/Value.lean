import AccessGate.Net.Printed
import AccessGate.Net.Reader
import AccessGate.Radius.Fault
import AccessGate.Radius.Kind
import AccessGate.Text.Hex
import AccessGate.Text.Utf8

/-!
# Attribute values

* `decode` reads octets by kind: numbers and addresses have exactly four, and a text that is not
  UTF-8 or holds a control character stays octets;
* `parse` reads a configured text by kind: numbers and addresses without the blanks around them, and
  raw octets are the text's own;
* `encode` writes a value's octets whatever its kind.
-/

namespace AccessGate.Radius

/-- The value of an attribute. -/
inductive Value where
  | text (s : String)
  | integer (n : UInt32)
  | address (a : Ipv4)
  | octets (bs : Bytes)
  deriving DecidableEq

namespace Value

instance : Inhabited Value := ⟨.octets []⟩

/-- The longest value an attribute can carry. -/
def maxSize : Nat := 253

/-- Octets as a text where they are one without control characters, else as they are. -/
def ofTextual (bs : Bytes) : Value :=
  match Utf8.decodeChars? bs with
  | some cs => if cs.any Text.isControl then .octets bs else .text (String.ofList cs)
  | none => .octets bs

/-- The value of octets by kind. -/
def decode (kind : Kind) (bs : Bytes) : Except ValueFault Value :=
  match kind with
  | .text | .taggedText => .ok (ofTextual bs)
  | .integer | .taggedInteger =>
    if bs.length = 4 then .ok (.integer (UInt32.ofNat bs.toNat))
    else .error (.integerSize bs.length)
  | .address =>
    if bs.length = 4 then .ok (.address (.ofOctets bs))
    else .error (.addressSize bs.length)
  | .octets | .other => .ok (.octets bs)

/-- The value of a text by kind. -/
def parse (kind : Kind) (s : String) : Except ValueFault Value :=
  match kind with
  | .integer | .taggedInteger =>
    match Numeral.parseChars Numeral.max32 (Text.trimChars s.toList) with
    | .ok n => .ok (.integer (UInt32.ofNat n))
    | .error cause => .error (.integerText s cause)
  | .address =>
    match Ipv4.parseChars? (Text.trimChars s.toList) with
    | some a => .ok (.address a)
    | none => .error (.addressText s)
  | .octets | .other => .ok (.octets (Utf8.encode s))
  | .text | .taggedText => .ok (.text s)

/-- The octets of a value. -/
def encode : Value → Bytes
  | .text s => Utf8.encode s
  | .integer n => Bytes.ofNat 4 n.toNat
  | .address a => a.octets
  | .octets bs => bs

/-- A value as shown to people: octets in hexadecimal. -/
def print : Value → String
  | .text s => s
  | .integer n => toString n.toNat
  | .address a => a.print
  | .octets bs => "0x" ++ Hex.encode bs

/-- A value as a text of the protocol: octets are read as UTF-8, broken pieces replaced. -/
def asString : Value → String
  | .octets bs => Utf8.decodeLossy bs
  | v => v.print

/-- The text, of a text. -/
def text? : Value → Option String
  | .text s => some s
  | _ => none

/-- The number, of a number. -/
def integer? : Value → Option UInt32
  | .integer n => some n
  | _ => none

/-- The address, of an address. -/
def address? : Value → Option Ipv4
  | .address a => some a
  | _ => none

/-- The octets, of octets. -/
def octets? : Value → Option Bytes
  | .octets bs => some bs
  | _ => none

end Value

end AccessGate.Radius
