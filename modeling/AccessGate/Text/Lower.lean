import AccessGate.Text.LetterTable

/-!
# Lower-case text

A text is lowered letter by letter with the full case map, in which two rules look beyond the simple
map:

* `İ` becomes `i` with a dot above, two characters;
* `Σ` becomes the final `ς` where a cased letter stands before it and none after it, characters that
  case ignores left out of sight, and `σ` elsewhere.
-/

namespace AccessGate.Text

/-- The number lies in one of the ranges. -/
def inRanges (ranges : Array (Nat × Nat)) (n : Nat) : Bool :=
  ranges.any fun r => r.1 ≤ n && n ≤ r.2

/-- The property Cased. -/
def isCased (c : Char) : Bool := inRanges casedRanges c.toNat

/-- The property Case_Ignorable. -/
def isIgnorable (c : Char) : Bool := inRanges ignorableRanges c.toNat

/-- The simple lower-case partner; a letter without one stays. -/
def lowerSimple (c : Char) : Char :=
  let n := c.toNat
  if n < 128 then c.toLower
  else
    match lowerRuns.find? (fun r => r.first ≤ n && n ≤ r.last && (n - r.first) % r.stride == 0) with
    | some r => Char.ofNat (r.partner + (n - r.first))
    | none => c

/-- The first character that case does not ignore is cased. -/
def cased (cs : List Char) : Bool :=
  match cs.dropWhile isIgnorable with
  | [] => false
  | c :: _ => isCased c

/-- Lowers characters, given those before them, nearest first. -/
def lowerAfter : List Char → List Char → List Char
  | _, [] => []
  | before, c :: rest =>
    let lowered :=
      if c = 'İ' then ['i', Char.ofNat 0x307]
      else if c = 'Σ' then [if cased before && !cased rest then 'ς' else 'σ']
      else [lowerSimple c]
    lowered ++ lowerAfter (c :: before) rest

/-- The text in lower case. -/
def lower (text : String) : String := String.ofList (lowerAfter [] text.toList)

end AccessGate.Text
