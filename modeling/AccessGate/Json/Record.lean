import AccessGate.Json.Basic

/-!
# Reading records out of JSON

A record is written as an object, or as an array of its fields in order.

* in an object names outside the record are passed over with whatever they hold, and a name of the
  record (one of its spellings) may come once;
* a field is *required*, *optional* (absent reads as nothing, and so does null), or has a *default*;
* in an array only the fields with a default may be left out at the end, and nothing may follow the
  last field;
* numbers are plain digits without sign, fraction or exponent, within their width.
-/

namespace AccessGate.Json

/-! ## 1. Slots -/

/-- What a record gives for one field: a value, nothing, or the end of an array before it. -/
inductive Slot where
  | given (value : Json)
  | absent
  | beyond

/-- The fields whose name is one of the spellings. -/
def valuesOf (spellings : List String) (fields : List (Option String × Json)) : List Json :=
  fields.filterMap fun (name, value) =>
    match name with
    | some name => if spellings.contains name then some value else none
    | none => none

/-- The slot of a field with the given spellings; `none` if it comes twice. -/
def slotOf? (fields : List (Option String × Json)) (spellings : List String) : Option Slot :=
  match valuesOf spellings fields with
  | [] => some .absent
  | [value] => some (.given value)
  | _ => none

/-- The slots of a record whose fields have the given spellings. -/
def slots? (spellings : List (List String)) : Json → Option (List Slot)
  | .object fields =>
    if fields.all (fun f => f.1.isSome) then spellings.mapM (slotOf? fields) else none
  | .array items =>
    if items.length ≤ spellings.length then
      some (items.map .given ++ List.replicate (spellings.length - items.length) .beyond)
    else none
  | _ => none

/-! ## 2. Scalars -/

/-- A text. -/
def text? : Json → Option String
  | .text s => s
  | _ => none

/-- A truth value. -/
def bool? : Json → Option Bool
  | .bool b => some b
  | _ => none

/-- A number of plain digits in sixty-four bits. -/
def word? : Json → Option UInt64
  | .number digits =>
    match Numeral.parseChars Numeral.max64 digits.toList with
    | .ok n => some (UInt64.ofNat n)
    | .error _ => none
  | _ => none

/-- An array whose items all read. -/
def list? {α : Type} (read : Json → Option α) : Json → Option (List α)
  | .array items => items.mapM read
  | _ => none

/-- A value or null. -/
def nullable? {α : Type} (read : Json → Option α) : Json → Option (Option α)
  | .null => some none
  | v => (read v).map some

/-- A choice among names: the name alone, or an object with the name before null. -/
def choice? {α : Type} (read : String → Option α) : Json → Option α
  | .text (some name) => read name
  | .object [(some name, .null)] => read name
  | _ => none

/-! ## 3. Fields -/

/-- Reads the fields of a record one after the other. -/
abbrev Fields := StateT (List Slot) Option

/-- The slot of the next field. -/
def nextSlot : Fields Slot := fun slots =>
  match slots with
  | slot :: rest => some (slot, rest)
  | [] => none

/-- A field that has to be given. -/
def required {α : Type} (read : Json → Option α) : Fields α := do
  match ← nextSlot with
  | .given v => StateT.lift (read v)
  | _ => failure

/-- A field that may be left out of an object. -/
def optional {α : Type} (read : Json → Option α) : Fields (Option α) := do
  match ← nextSlot with
  | .given v => StateT.lift (nullable? read v)
  | .absent => return none
  | .beyond => failure

/-- A field with a value for its absence. -/
def defaulted {α : Type} (default : α) (read : Json → Option α) : Fields α := do
  match ← nextSlot with
  | .given v => StateT.lift (read v)
  | _ => return default

/-- The record with the given spellings, read field by field. -/
def record? {α : Type} (spellings : List (List String)) (fields : Fields α) (j : Json) :
    Option α := do
  let slots ← slots? spellings j
  (·.1) <$> fields.run slots

/-! ## 4. Common forms -/

/-- Fields with one spelling each, the field's own. -/
def spelled (names : List String) : List (List String) := names.map fun n => [n]

/-- The fields of a record in order, with their values. -/
def fieldsOf (names : List String) (values : List Json) : Json := .record (names.zip values)

/-- A text or null, absent where a default may stand. -/
def textOrNull : Fields (Option String) := defaulted none (nullable? text?)

/-- A list of texts, empty where it is absent. -/
def texts : Fields (List String) := defaulted [] (list? text?)

/-- A section or null. -/
def subrecord {α : Type} (read : Json → Option α) : Fields (Option α) :=
  defaulted none (nullable? read)

end AccessGate.Json
