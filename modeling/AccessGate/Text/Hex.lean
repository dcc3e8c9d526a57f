import AccessGate.Bytes

/-!
# Hexadecimal text

* an octet is written as two lower-case digits (`Hex.encode`);
* digits of either case are read, and only in pairs (`Hex.decode?`).
-/

namespace AccessGate.Hex

/-- The digit of a value below sixteen. -/
def digit (n : Nat) : Char :=
  if n < 10 then Char.ofNat (48 + n) else Char.ofNat (87 + n)

/-- The value of a digit of either case. -/
def value? (c : Char) : Option Nat :=
  if '0' ≤ c ∧ c ≤ '9' then some (c.toNat - 48)
  else if 'a' ≤ c ∧ c ≤ 'f' then some (c.toNat - 87)
  else if 'A' ≤ c ∧ c ≤ 'F' then some (c.toNat - 55)
  else none

/-- Two digits for every octet. -/
def encodeChars (bs : Bytes) : List Char :=
  bs.flatMap fun b => [digit (b.toNat / 16), digit (b.toNat % 16)]

/-- The octets as text. -/
def encode (bs : Bytes) : String := String.ofList (encodeChars bs)

/-- The octets that pairs of digits write. -/
def decodeChars? : List Char → Option Bytes
  | [] => some []
  | [_] => none
  | a :: b :: rest => do
    let high ← value? a
    let low ← value? b
    let tail ← decodeChars? rest
    return UInt8.ofNat (high * 16 + low) :: tail

/-- The octets that a text of digit pairs writes. -/
def decode? (text : String) : Option Bytes := decodeChars? text.toList

/-- The number in hexadecimal without leading zeros. -/
def ofNat (n : Nat) : List Char := Nat.toDigits 16 n

end AccessGate.Hex
