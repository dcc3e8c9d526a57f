/-!
# Decimal numerals

A numeral is one or more ASCII digits, with at most one plus sign before them. Reading goes from
left to right, so of a foreign character and a value above the bound the one that shows first is
reported; a sign alone is a foreign character.
-/

namespace AccessGate.Numeral

/-- Why a text is no numeral. -/
inductive Fault where
  | empty
  | foreignCharacter
  | aboveBound
  deriving DecidableEq, Repr

/-- The fault in words. -/
def Fault.message : Fault → String
  | .empty => "cannot parse integer from empty string"
  | .foreignCharacter => "invalid digit found in string"
  | .aboveBound => "number too large to fit in target type"

/-- The value of an ASCII digit. -/
def digit? (c : Char) : Option Nat :=
  if '0' ≤ c ∧ c ≤ '9' then some (c.toNat - 48) else none

/-- Reads digits after a number `value`, which the result must not exceed the bound with. -/
def digits (bound : Nat) : Nat → List Char → Except Fault Nat
  | value, [] => .ok value
  | value, c :: rest =>
    match digit? c with
    | none => .error .foreignCharacter
    | some d =>
      if value * 10 + d ≤ bound then digits bound (value * 10 + d) rest else .error .aboveBound

/-- The numeral's value, at most `bound`. -/
def parseChars (bound : Nat) : List Char → Except Fault Nat
  | [] => .error .empty
  | ['+'] => .error .foreignCharacter
  | '+' :: rest => digits bound 0 rest
  | cs => digits bound 0 cs

/-- The value of a numeral, at most `bound`. -/
def parse (bound : Nat) (text : String) : Except Fault Nat := parseChars bound text.toList

/-- The largest number of eight bits. -/
def max8 : Nat := 255

/-- The largest number of sixteen bits. -/
def max16 : Nat := 65535

/-- The largest number of thirty-two bits. -/
def max32 : Nat := 4294967295

/-- The largest number of sixty-four bits. -/
def max64 : Nat := 18446744073709551615

end AccessGate.Numeral
