import AccessGate.Json.Token

/-!
# Reading JSON

The structure is read token by token with the open containers held in a list, so nesting has no
limit. A text is one value with nothing behind it; objects and arrays have no trailing comma.
-/

namespace AccessGate.Json

/-- An open container: what it holds so far, last first. -/
inductive Frame where
  | array (items : List Json)
  | object (fields : List (Option String × Json)) (key : Option String)

/-- What has been read and what has to come. -/
inductive Progress where
  /-- A value has to come. -/
  | value (frames : List Frame)
  /-- An array was opened: a value or its end. -/
  | firstItem (frames : List Frame)
  /-- An object was opened: a name or its end. -/
  | firstName (frames : List Frame)
  /-- A comma in an object: a name. -/
  | name (fields : List (Option String × Json)) (frames : List Frame)
  /-- A name: its colon. -/
  | colon (fields : List (Option String × Json)) (key : Option String) (frames : List Frame)
  /-- A value is complete inside the open containers. -/
  | complete (v : Json) (frames : List Frame)

/-- A value begins with this token. -/
def begin? (frames : List Frame) : Token → Option Progress
  | .openObject => some (.firstName frames)
  | .openArray => some (.firstItem frames)
  | .scalar v => some (.complete v frames)
  | _ => none

/-- One token further. -/
def Progress.step? : Progress → Token → Option Progress
  | .value frames, t => begin? frames t
  | .firstItem frames, .closeArray => some (.complete (.array []) frames)
  | .firstItem frames, t => begin? (.array [] :: frames) t
  | .firstName frames, .closeObject => some (.complete (.object []) frames)
  | .firstName frames, .scalar (.text key) => some (.colon [] key frames)
  | .name fields frames, .scalar (.text key) => some (.colon fields key frames)
  | .colon fields key frames, .colon => some (.value (.object fields key :: frames))
  | .complete v (.array items :: frames), .comma => some (.value (.array (v :: items) :: frames))
  | .complete v (.array items :: frames), .closeArray =>
    some (.complete (.array (v :: items).reverse) frames)
  | .complete v (.object fields key :: frames), .comma => some (.name ((key, v) :: fields) frames)
  | .complete v (.object fields key :: frames), .closeObject =>
    some (.complete (.object ((key, v) :: fields).reverse) frames)
  | _, _ => none

/-- The value that the characters write. -/
def parseChars? (cs : List Char) : Option Json := do
  let ts ← tokens? cs
  match ← ts.foldlM Progress.step? (.value []) with
  | .complete v [] => some v
  | _ => none

/-- The value that a text writes. -/
def parse? (text : String) : Option Json := parseChars? text.toList

end AccessGate.Json
