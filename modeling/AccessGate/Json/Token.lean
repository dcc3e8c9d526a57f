import AccessGate.Json.Basic
import AccessGate.Text.Hex

/-!
# JSON tokens

A text is cut into tokens before its structure is looked at.

* blanks are the space, the tab and the two line characters;
* a string may hold any character but the quote, the backslash and those below U+0020; its escapes
  are the eight short ones and `\u` with four hexadecimal digits;
* two escapes that write a surrogate pair are one character, and a half alone leaves the string
  without a text;
* a number has no leading zero or plus sign, and digits on both sides of its point.
-/

namespace AccessGate.Json

/-- The smallest parts of a text with a meaning of their own. -/
inductive Token where
  | openObject
  | closeObject
  | openArray
  | closeArray
  | colon
  | comma
  | scalar (value : Json)

/-! ## 1. Strings -/

/-- Joins surrogate halves; `none` where one stands alone. -/
def joinUnits : List Nat → Option (List Char)
  | [] => some []
  | [u] => if 0xD800 ≤ u ∧ u < 0xE000 then none else some [Char.ofNat u]
  | u :: v :: rest =>
    if 0xD800 ≤ u ∧ u < 0xDC00 then
      if 0xDC00 ≤ v ∧ v < 0xE000 then
        (joinUnits rest).map (Char.ofNat (0x10000 + (u - 0xD800) * 0x400 + (v - 0xDC00)) :: ·)
      else none
    else if 0xDC00 ≤ u ∧ u < 0xE000 then none
    else (joinUnits (v :: rest)).map (Char.ofNat u :: ·)

/-- The character that a short escape stands for. -/
def shortEscape? : Char → Option Nat
  | '"' => some 34
  | '\\' => some 92
  | '/' => some 47
  | 'b' => some 8
  | 'f' => some 12
  | 'n' => some 10
  | 'r' => some 13
  | 't' => some 9
  | _ => none

/-- The number that four hexadecimal digits write. -/
def fourDigits? (a b c d : Char) : Option Nat := do
  return (((← Hex.value? a) * 16 + (← Hex.value? b)) * 16 + (← Hex.value? c)) * 16 +
    (← Hex.value? d)

/-- Reads a string after its opening quote; the units come out last first. -/
def stringBody : List Nat → List Char → Option (List Nat × List Char)
  | units, '"' :: rest => some (units, rest)
  | units, '\\' :: 'u' :: a :: b :: c :: d :: rest =>
    match fourDigits? a b c d with
    | some u => stringBody (u :: units) rest
    | none => none
  | units, '\\' :: e :: rest =>
    match shortEscape? e with
    | some u => stringBody (u :: units) rest
    | none => none
  | units, c :: rest => if c.toNat < 32 then none else stringBody (c.toNat :: units) rest
  | _, [] => none

/-! ## 2. Numbers -/

/-- A decimal digit. -/
def isDigit (c : Char) : Bool := '0' ≤ c && c ≤ '9'

/-- The digits in front and what follows, if there are any. -/
def someDigits? (cs : List Char) : Option (List Char × List Char) :=
  let ds := cs.takeWhile isDigit
  if ds.isEmpty then none else some (ds, cs.dropWhile isDigit)

/-- The whole part: a zero alone or digits without a leading zero. -/
def wholePart? : List Char → Option (List Char × List Char)
  | '0' :: rest => some (['0'], rest)
  | cs => someDigits? cs

/-- The fraction, empty where there is no point. -/
def fraction? : List Char → Option (List Char × List Char)
  | '.' :: rest => (someDigits? rest).map fun (ds, rest) => ('.' :: ds, rest)
  | cs => some ([], cs)

/-- The exponent, empty where there is no letter. -/
def exponent? : List Char → Option (List Char × List Char)
  | c :: rest =>
    if c = 'e' ∨ c = 'E' then
      let (sign, rest) := match rest with
        | '+' :: rest => (['+'], rest)
        | '-' :: rest => (['-'], rest)
        | rest => ([], rest)
      (someDigits? rest).map fun (ds, rest) => (c :: sign ++ ds, rest)
    else some ([], c :: rest)
  | [] => some ([], [])

/-- The number in front. -/
def number? (cs : List Char) : Option (Token × List Char) := do
  let (sign, cs) := match cs with
    | '-' :: rest => (['-'], rest)
    | cs => ([], cs)
  let (whole, cs) ← wholePart? cs
  let (fraction, cs) ← fraction? cs
  let (exponent, cs) ← exponent? cs
  return (.scalar (.number (String.ofList (sign ++ whole ++ fraction ++ exponent))), cs)

/-! ## 3. Texts -/

/-- The token in front of a text that starts with `c`. -/
def token? (c : Char) (rest : List Char) : Option (Token × List Char) :=
  match c, rest with
  | '{', _ => some (.openObject, rest)
  | '}', _ => some (.closeObject, rest)
  | '[', _ => some (.openArray, rest)
  | ']', _ => some (.closeArray, rest)
  | ':', _ => some (.colon, rest)
  | ',', _ => some (.comma, rest)
  | '"', _ => (stringBody [] rest).map fun (units, rest) =>
    (.scalar (.text ((joinUnits units.reverse).map String.ofList)), rest)
  | 'n', 'u' :: 'l' :: 'l' :: rest => some (.scalar .null, rest)
  | 't', 'r' :: 'u' :: 'e' :: rest => some (.scalar (.bool true), rest)
  | 'f', 'a' :: 'l' :: 's' :: 'e' :: rest => some (.scalar (.bool false), rest)
  | _, _ => number? (c :: rest)

/-- The tokens of a text, last first, each of which takes at least a character: `fuel` of them
suffice for a text of that length. -/
def tokensFrom : Nat → List Token → List Char → Option (List Token)
  | _, done, [] => some done
  | 0, _, _ :: _ => none
  | fuel + 1, done, c :: rest =>
    if c = ' ' ∨ c = '\t' ∨ c = '\n' ∨ c = '\r' then tokensFrom fuel done rest
    else
      match token? c rest with
      | some (t, rest) => tokensFrom fuel (t :: done) rest
      | none => none

/-- The tokens of a text. -/
def tokens? (cs : List Char) : Option (List Token) := (tokensFrom cs.length [] cs).map List.reverse

end AccessGate.Json
