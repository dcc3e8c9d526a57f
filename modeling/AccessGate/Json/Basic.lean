import AccessGate.Text.Numeral

/-!
# JSON values

* the fields of an object keep their order and their repetitions;
* a number keeps the characters it is written with, so that no width is forced on it;
* a string is `none` when its escapes name half of a surrogate pair: such a string is well formed
  but denotes no text.
-/

namespace AccessGate

/-- A JSON value. -/
inductive Json where
  | null
  | bool (b : Bool)
  | number (digits : String)
  | text (s : Option String)
  | array (items : List Json)
  | object (fields : List (Option String × Json))
  deriving Inhabited

namespace Json

/-- A text as a value. -/
def ofString (s : String) : Json := .text (some s)

/-- A number as a value. -/
def ofWord (n : UInt64) : Json := .number (toString n.toNat)

/-- A text or null. -/
def ofOption (s : Option String) : Json :=
  match s with
  | some s => .ofString s
  | none => .null

/-- An object with the given fields. -/
def record (fields : List (String × Json)) : Json :=
  .object (fields.map fun (name, value) => (some name, value))

/-- Texts as an array. -/
def ofStrings (ss : List String) : Json := .array (ss.map ofString)

/-- The first value under the given name, in an object. -/
def get? (j : Json) (name : String) : Option Json :=
  match j with
  | .object fields => (fields.find? fun f => f.1 == some name).map (·.2)
  | _ => none

end Json

end AccessGate
