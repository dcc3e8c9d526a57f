import AccessGate.Net.Address
import AccessGate.Text.Hex
import AccessGate.Text.Numeral

/-!
# Reading addresses

Every reader takes characters from the front and returns the value with the characters that follow;
`none` means that the front has not this form. A text is an address only if nothing follows.

* a version 4 octet has one to three digits, no leading zero and a value up to 255;
* a version 6 group has one to four hexadecimal digits; the last two groups may be a version 4
  address; one `::` stands for one or more zero groups;
* ports and scopes are plain digits within their width.
-/

namespace AccessGate

/-- A reader of the front of a text. -/
abbrev Reader (α : Type) := List Char → Option (α × List Char)

namespace Reader

/-- The given character. -/
def char (c : Char) : Reader Unit
  | d :: rest => if d = c then some ((), rest) else none
  | [] => none

/-- The whole text, read to its end. -/
def whole {α : Type} (r : Reader α) (cs : List Char) : Option α :=
  match r cs with
  | some (a, []) => some a
  | _ => none

/-- The value of the digits in front in the given base, with their number. -/
def number (digit? : Char → Option Nat) (base : Nat) : Reader (Nat × Nat) := fun cs =>
  let ds := cs.takeWhile fun c => (digit? c).isSome
  if ds.isEmpty then none
  else some ((ds.foldl (fun n c => n * base + (digit? c).getD 0) 0, ds.length), cs.drop ds.length)

/-- Decimal digits with a value up to `bound`. -/
def decimal (bound : Nat) : Reader Nat := fun cs => do
  let ((n, _), rest) ← number Numeral.digit? 10 cs
  if n ≤ bound then return (n, rest) else none

/-- One octet of the dotted form. -/
def octet : Reader Nat := fun cs => do
  let ((n, size), rest) ← number Numeral.digit? 10 cs
  if n ≤ 255 ∧ size ≤ 3 ∧ (size = 1 ∨ cs.head? ≠ some '0') then return (n, rest) else none

/-- The dotted form. -/
def ipv4 : Reader Ipv4 := fun cs => do
  let (a, cs) ← octet cs
  let ((), cs) ← char '.' cs
  let (b, cs) ← octet cs
  let ((), cs) ← char '.' cs
  let (c, cs) ← octet cs
  let ((), cs) ← char '.' cs
  let (d, cs) ← octet cs
  return (⟨BitVec.ofNat 32 (((a * 256 + b) * 256 + c) * 256 + d)⟩, cs)

/-- One group of a version 6 address. -/
def group : Reader Nat := fun cs => do
  let ((n, size), rest) ← number Hex.value? 16 cs
  if size ≤ 4 then return (n, rest) else none

/-- The rest after the colon that separates a group from the one before; nothing separates the
first. -/
def separated (first : Bool) (cs : List Char) : Option (List Char) :=
  if first then some cs else (char ':' cs).map (·.2)

/-- Up to `limit` groups in front, and whether a dotted form ended them. -/
def groups : Nat → Bool → List Char → (List Nat × Bool) × List Char
  | 0, _, cs => (([], false), cs)
  | limit + 1, first, cs =>
    let dotted := if limit = 0 then none else (separated first cs).bind ipv4
    match dotted with
    | some (a, rest) => (([a.bits.toNat / 65536, a.bits.toNat % 65536], true), rest)
    | none =>
      match (separated first cs).bind group with
      | none => (([], false), cs)
      | some (g, rest) =>
        let ((gs, ended), rest) := groups limit false rest
        ((g :: gs, ended), rest)

/-- A version 6 address. -/
def ipv6 : Reader Ipv6 := fun cs =>
  let ((head, dotted), rest) := groups 8 true cs
  if head.length = 8 then some (.ofGroups head, rest)
  else if dotted then none
  else do
    let ((), rest) ← char ':' rest
    let ((), rest) ← char ':' rest
    let ((tail, _), rest) := groups (7 - head.length) true rest
    let zeros := List.replicate (8 - head.length - tail.length) 0
    return (.ofGroups (head ++ zeros ++ tail), rest)

/-- A port after its colon. -/
def port : Reader UInt16 := fun cs => do
  let ((), cs) ← char ':' cs
  let (n, cs) ← decimal Numeral.max16 cs
  return (UInt16.ofNat n, cs)

/-- A version 4 endpoint. -/
def endpoint4 : Reader Endpoint := fun cs => do
  let (a, cs) ← ipv4 cs
  let (p, cs) ← port cs
  return (.v4 a p, cs)

/-- The scope of a version 6 endpoint, zero where none is written. -/
def scope : Reader UInt32 := fun cs =>
  match cs with
  | '%' :: rest => (decimal Numeral.max32 rest).map fun (n, rest) => (UInt32.ofNat n, rest)
  | _ => some (0, cs)

/-- A version 6 endpoint. -/
def endpoint6 : Reader Endpoint := fun cs => do
  let ((), cs) ← char '[' cs
  let (a, cs) ← ipv6 cs
  let (s, cs) ← scope cs
  let ((), cs) ← char ']' cs
  let (p, cs) ← port cs
  return (.v6 a s p, cs)

end Reader

/-! ## Whole texts -/

/-- The version 4 address that a text writes. -/
def Ipv4.parseChars? (cs : List Char) : Option Ipv4 := Reader.whole Reader.ipv4 cs

/-- The version 6 address that a text writes. -/
def Ipv6.parseChars? (cs : List Char) : Option Ipv6 := Reader.whole Reader.ipv6 cs

/-- The address that a text writes. -/
def IpAddress.parseChars? (cs : List Char) : Option IpAddress :=
  (Ipv4.parseChars? cs).map .v4 <|> (Ipv6.parseChars? cs).map .v6

/-- The address that a text writes. -/
def IpAddress.parse? (text : String) : Option IpAddress := IpAddress.parseChars? text.toList

/-- The endpoint that a text writes. -/
def Endpoint.parse? (text : String) : Option Endpoint :=
  Reader.whole Reader.endpoint4 text.toList <|> Reader.whole Reader.endpoint6 text.toList

namespace Network

/-- A length up to `bound`, as a numeral. -/
def parseLen? (bound : Nat) (cs : List Char) : Option Nat :=
  match Numeral.parseChars Numeral.max8 cs with
  | .ok n => if n ≤ bound then some n else none
  | .error _ => none

/-- The length of a mask whose ones all come before its zeros. -/
def lenOfMask? (mask : Ipv4) : Option Nat :=
  (List.range 33).find? fun len => mask.bits.toNat == 1 <<< 32 - 1 <<< (32 - len)

/-- A version 4 network: an address alone, with a length, or with a mask. -/
def parse4? (address : List Char) (len : Option (List Char)) : Option Network := do
  let a ← Ipv4.parseChars? address
  match len with
  | none => return ⟨.v4 a, 32⟩
  | some cs =>
    match Ipv4.parseChars? cs with
    | some mask => return ⟨.v4 a, ← lenOfMask? mask⟩
    | none => return ⟨.v4 a, ← parseLen? 32 cs⟩

/-- A version 6 network: an address alone or with a length. -/
def parse6? (address : List Char) (len : Option (List Char)) : Option Network := do
  let a ← Ipv6.parseChars? address
  match len with
  | none => return ⟨.v6 a, 128⟩
  | some cs => return ⟨.v6 a, ← parseLen? 128 cs⟩

/-- The network that a text writes; what follows the first slash is length or mask. -/
def parse? (text : String) : Option Network :=
  let address := text.toList.takeWhile (· ≠ '/')
  let len := match text.toList.dropWhile (· ≠ '/') with
    | [] => none
    | _ :: rest => some rest
  parse4? address len <|> parse6? address len

end Network

end AccessGate
