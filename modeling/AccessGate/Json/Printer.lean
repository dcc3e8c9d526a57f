import AccessGate.Json.Basic

/-!
# Writing JSON

Two forms of one value: `compact` without any blank, and `pretty` with two spaces for every level,
one item a line, and empty containers closed at once. In strings the quote, the backslash and the
characters below U+0020 are escaped, with the short escape where there is one.
-/

namespace AccessGate.Json

/-- The digit of a value below sixteen, in lower case. -/
private def hexDigit (n : Nat) : Char := if n < 10 then Char.ofNat (48 + n) else Char.ofNat (87 + n)

/-- A character inside a string. -/
def escape (c : Char) : List Char :=
  if c = '"' then ['\\', '"']
  else if c = '\\' then ['\\', '\\']
  else
    let n := c.toNat
    if 32 ≤ n then [c]
    else if n = 8 then ['\\', 'b']
    else if n = 9 then ['\\', 't']
    else if n = 10 then ['\\', 'n']
    else if n = 12 then ['\\', 'f']
    else if n = 13 then ['\\', 'r']
    else ['\\', 'u', '0', '0', hexDigit (n / 16), hexDigit (n % 16)]

/-- A string with its quotes; one that denotes no text is written empty. -/
def quoted (s : Option String) : List Char :=
  '"' :: ((s.getD "").toList.flatMap escape ++ ['"'])

mutual

/-- The value without blanks. -/
def compactChars : Json → List Char
  | .null => "null".toList
  | .bool true => "true".toList
  | .bool false => "false".toList
  | .number digits => digits.toList
  | .text s => quoted s
  | .array [] => ['[', ']']
  | .array (v :: vs) => '[' :: (compactChars v ++ compactItems vs)
  | .object [] => ['\x7b', '\x7d']
  | .object ((k, v) :: fs) => '\x7b' :: (quoted k ++ ':' :: (compactChars v ++ compactFields fs))

/-- The items after the first, with the end of the array. -/
def compactItems : List Json → List Char
  | [] => [']']
  | v :: vs => ',' :: (compactChars v ++ compactItems vs)

/-- The fields after the first, with the end of the object. -/
def compactFields : List (Option String × Json) → List Char
  | [] => ['\x7d']
  | (k, v) :: fs => ',' :: (quoted k ++ ':' :: (compactChars v ++ compactFields fs))

end

/-- A new line at the given level. -/
def newline (level : Nat) : List Char := '\n' :: List.replicate (2 * level) ' '

mutual

/-- The value at the given level, without blanks before it. -/
def prettyChars (level : Nat) : Json → List Char
  | .null => "null".toList
  | .bool true => "true".toList
  | .bool false => "false".toList
  | .number digits => digits.toList
  | .text s => quoted s
  | .array [] => ['[', ']']
  | .array (v :: vs) =>
    '[' :: (newline (level + 1) ++ prettyChars (level + 1) v ++ prettyItems level vs)
  | .object [] => ['\x7b', '\x7d']
  | .object ((k, v) :: fs) =>
    '\x7b' :: (newline (level + 1) ++ quoted k ++ [':', ' '] ++ prettyChars (level + 1) v ++
      prettyFields level fs)

/-- The items after the first, with the end of the array. -/
def prettyItems (level : Nat) : List Json → List Char
  | [] => newline level ++ [']']
  | v :: vs => ',' :: (newline (level + 1) ++ prettyChars (level + 1) v ++ prettyItems level vs)

/-- The fields after the first, with the end of the object. -/
def prettyFields (level : Nat) : List (Option String × Json) → List Char
  | [] => newline level ++ ['\x7d']
  | (k, v) :: fs =>
    ',' :: (newline (level + 1) ++ quoted k ++ [':', ' '] ++ prettyChars (level + 1) v ++
      prettyFields level fs)

end

/-- The value without blanks. -/
def compact (j : Json) : String := String.ofList (compactChars j)

/-- The value with one item a line. -/
def pretty (j : Json) : String := String.ofList (prettyChars 0 j)

end AccessGate.Json
