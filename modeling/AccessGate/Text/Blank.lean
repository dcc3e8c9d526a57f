/-!
# White space and control characters

* `isBlank` is the Unicode property White_Space, `isControl` the general category Cc; both are
  wider than the ASCII classes of `Char`;
* `trim` takes the blanks from both ends, `words` are the longest stretches without a blank;
* `lines` are the pieces between newlines; a carriage return before the newline belongs to the line
  end, and a text that ends in a newline has no empty last line.
-/

namespace AccessGate.Text

/-- The property White_Space. -/
def isBlank (c : Char) : Bool :=
  let n := c.toNat
  (9 ≤ n && n ≤ 13) || n == 0x20 || n == 0x85 || n == 0xA0 || n == 0x1680 ||
    (0x2000 ≤ n && n ≤ 0x200A) || n == 0x2028 || n == 0x2029 || n == 0x202F || n == 0x205F ||
    n == 0x3000

/-- The general category Cc. -/
def isControl (c : Char) : Bool :=
  let n := c.toNat
  n < 0x20 || (0x7F ≤ n && n < 0xA0)

/-- The characters without the blanks at both ends. -/
def trimChars (cs : List Char) : List Char :=
  ((cs.dropWhile isBlank).reverse.dropWhile isBlank).reverse

/-- The text without the blanks at both ends. -/
def trim (text : String) : String := String.ofList (trimChars text.toList)

/-- The pieces between the characters that satisfy `p`: one more piece than such characters. -/
def splitChars (p : Char → Bool) : List Char → List (List Char)
  | [] => [[]]
  | c :: rest =>
    match splitChars p rest with
    | [] => if p c then [[], []] else [[c]]
    | piece :: pieces => if p c then [] :: piece :: pieces else (c :: piece) :: pieces

/-- The longest stretches of characters that are no blanks. -/
def words (text : String) : List String :=
  ((splitChars isBlank text.toList).filter (fun w => !w.isEmpty)).map String.ofList

/-- The lines of a text, without their ends. -/
def lines (text : String) : List (List Char) :=
  let pieces := splitChars (· == '\n') text.toList
  let ended := pieces.dropLast.map fun line =>
    if line.getLast? = some '\r' then line.dropLast else line
  ended ++ (pieces.getLast?.toList.filter (fun line => !line.isEmpty))

/-- Equality of texts up to the case of ASCII letters. -/
def sameIgnoringCase (a b : String) : Bool := a.toLower == b.toLower

end AccessGate.Text
