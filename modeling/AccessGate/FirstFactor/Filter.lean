import AccessGate.Text.Blank
import AccessGate.Text.Hex
import AccessGate.Text.Utf8

/-!
# Search filters

The filters of a directory search and their text: conditions in parentheses, joined by `&`, `|` and
`!`. In values the characters `* ( ) \` and NUL are written as a backslash and two hexadecimal
digits; any other octet may be.

* `Filter.escape` makes any text a value of its own;
* `Filter.parse?` reads a text and `Filter.print` writes a filter in its canonical form.
-/

namespace AccessGate.FirstFactor

/-- How an attribute is compared beside equality. -/
inductive Comparison where
  | atLeast
  | atMost
  | similar
  deriving DecidableEq, Repr

/-- The sign of a comparison. -/
def Comparison.sign : Comparison → List Char
  | .atLeast => ">=".toList
  | .atMost => "<=".toList
  | .similar => "~=".toList

/-- A condition on entries. -/
inductive Filter where
  | allOf (filters : List Filter)
  | anyOf (filters : List Filter)
  | negation (filter : Filter)
  | present (name : List Char)
  | equal (name : List Char) (value : Bytes)
  /-- The value starts, goes on in order, and ends with the given pieces. -/
  | pieces (name : List Char) (first : Bytes) (middle : List Bytes) (last : Bytes)
  | compare (how : Comparison) (name : List Char) (value : Bytes)
  /-- A rule of the directory, for an attribute and perhaps the names above the entry. -/
  | matching (name : Option (List Char)) (above : Bool) (rule : Option (List Char)) (value : Bytes)

namespace Filter

/-! ## 1. Values -/

/-- The octet cannot stand for itself. -/
def isSpecial (b : UInt8) : Bool := b == 0 || b == 0x28 || b == 0x29 || b == 0x2A || b == 0x5C

/-- A character as a value. -/
def escapeChar (c : Char) : List Char :=
  if c.toNat < 128 ∧ isSpecial (UInt8.ofNat c.toNat) then
    '\\' :: Hex.encodeChars [UInt8.ofNat c.toNat]
  else [c]

/-- A text as a value. -/
def escape (text : String) : String := String.ofList (text.toList.flatMap escapeChar)

/-- The octets of a value that is written without special characters. -/
def unescape? : List Char → Option Bytes
  | [] => some []
  | '\\' :: a :: b :: rest => do
    let octet ← Hex.decodeChars? [a, b]
    return octet ++ (← unescape? rest)
  | ['\\', _] => none
  | ['\\'] => none
  | c :: rest => (unescape? rest).map (Utf8.encodeChar c ++ ·)

/-- The octets of a value as they are written. -/
def valueChars (bs : Bytes) : List Char :=
  bs.flatMap fun b =>
    if isSpecial b || 128 ≤ b then '\\' :: Hex.encodeChars [b] else [Char.ofNat b.toNat]

/-- A value is written in characters of which none is special. -/
def isValueChar (c : Char) : Bool := !(c == '*' || c == '(' || c == ')' || c.toNat == 0)

/-! ## 2. Reading -/

/-- The characters of attribute names. -/
def isNameChar (c : Char) : Bool := c.isAlphanum || c == '-'

/-- A number without leading zeros. -/
def isNumber (cs : List Char) : Bool :=
  cs.all Char.isDigit && (cs.length == 1 || (cs != [] && cs.head? != some '0'))

/-- A name of letters, digits and hyphens, or numbers with dots between them. -/
def isName (cs : List Char) : Bool :=
  match cs with
  | [] => false
  | c :: _ =>
    if c.isAlpha then cs.all isNameChar
    else (Text.splitChars (· == '.') cs).length ≥ 2 && (Text.splitChars (· == '.') cs).all isNumber

/-- An attribute: a name, and perhaps options after semicolons. -/
def isAttribute (cs : List Char) : Bool :=
  match Text.splitChars (· == ';') cs with
  | name :: options => isName name && options.all fun o => o != [] && o.all isNameChar
  | [] => false

/-- The characters before a text, and those after it. -/
def cutAt? (mark : List Char) : List Char → Option (List Char × List Char)
  | [] => if mark = [] then some ([], []) else none
  | c :: rest =>
    if mark.isPrefixOf (c :: rest) then some ([], (c :: rest).drop mark.length)
    else (cutAt? mark rest).map fun p => (c :: p.1, p.2)

/-- A condition on an attribute by equality, presence or pieces. -/
def equality? (name value : List Char) : Option Filter := do
  let values ← (Text.splitChars (· == '*') value).mapM unescape?
  match values with
  | [whole] => return .equal name whole
  | [[], []] => return .present name
  | first :: rest =>
    let middle := rest.dropLast
    if middle.any (·.isEmpty) then none
    else return .pieces name first middle (rest.getLast?.getD [])
  | [] => none

/-- A condition by a rule of the directory; `head` stands before `:=`. -/
def extended? (head : List Char) (value : Bytes) : Option Filter :=
  let name := head.takeWhile (· ≠ ':')
  let rest := head.dropWhile (· ≠ ':')
  let above := ":dn".toList.isPrefixOf rest && (rest.length == 3 || (rest.drop 3).head? == some ':')
  let rest := if above then rest.drop 3 else rest
  let rule := if rest.isEmpty then none else some (rest.drop 1)
  let ruleHolds := match rule with
    | some r => isName r
    | none => !name.isEmpty
  if ruleHolds && (name.isEmpty || isAttribute name) then
    some (.matching (if name.isEmpty then none else some name) above rule value)
  else none

/-- A condition without parentheses. -/
def item? (cs : List Char) : Option Filter :=
  match cutAt? ['='] cs with
  | none => none
  | some (head, value) =>
    if isAttribute head then equality? head value
    else if value.any (· == '*') then none
    else do
      let octets ← unescape? value
      let name := head.dropLast
      match head.getLast? with
      | some '>' => if isAttribute name then return .compare .atLeast name octets else none
      | some '<' => if isAttribute name then return .compare .atMost name octets else none
      | some '~' => if isAttribute name then return .compare .similar name octets else none
      | some ':' => extended? name octets
      | _ => none

mutual

/-- Reads a filter in parentheses; `fuel` bounds the depth. -/
def filter? (fuel : Nat) (cs : List Char) : Option (Filter × List Char) :=
  match fuel, cs with
  | fuel + 1, '(' :: '&' :: rest => do
    let (filters, rest) ← filters? fuel rest
    return (.allOf filters, rest)
  | fuel + 1, '(' :: '|' :: rest => do
    let (filters, rest) ← filters? fuel rest
    return (.anyOf filters, rest)
  | fuel + 1, '(' :: '!' :: rest => do
    let (filter, rest) ← filter? fuel rest
    match rest with
    | ')' :: rest => return (.negation filter, rest)
    | _ => none
  | _ + 1, '(' :: rest => do
    let filter ← item? (rest.takeWhile fun c => isValueChar c || c == '*')
    match rest.dropWhile fun c => isValueChar c || c == '*' with
    | ')' :: rest => return (filter, rest)
    | _ => none
  | _, _ => none

/-- Reads filters up to the closing parenthesis. -/
def filters? (fuel : Nat) (cs : List Char) : Option (List Filter × List Char) :=
  match fuel, cs with
  | _, ')' :: rest => some ([], rest)
  | fuel + 1, cs => do
    let (filter, rest) ← filter? fuel cs
    let (more, rest) ← filters? fuel rest
    return (filter :: more, rest)
  | 0, _ => none

end

/-- The filter of a text; a single condition may stand without parentheses. -/
def parse? (text : String) : Option Filter :=
  let cs := text.toList
  if cs.head? = some '(' then
    match filter? (cs.length + 1) cs with
    | some (filter, []) => some filter
    | _ => none
  else if cs.all fun c => isValueChar c || c == '*' then item? cs
  else none

/-! ## 3. Writing -/

mutual

/-- The characters of a filter. -/
def chars : Filter → List Char
  | .allOf filters => "(&".toList ++ charsAll filters ++ [')']
  | .anyOf filters => "(|".toList ++ charsAll filters ++ [')']
  | .negation filter => "(!".toList ++ chars filter ++ [')']
  | .present name => '(' :: name ++ "=*)".toList
  | .equal name value => '(' :: name ++ '=' :: valueChars value ++ [')']
  | .pieces name first middle last =>
    '(' :: name ++ '=' :: valueChars first ++ '*' ::
      middle.flatMap (fun piece => valueChars piece ++ ['*']) ++ valueChars last ++ [')']
  | .compare how name value => '(' :: name ++ how.sign ++ valueChars value ++ [')']
  | .matching name above rule value =>
    '(' :: name.getD [] ++ (if above then ":dn".toList else []) ++
      (match rule with
        | some r => ':' :: r
        | none => []) ++ ":=".toList ++ valueChars value ++ [')']

/-- The characters of several filters. -/
def charsAll : List Filter → List Char
  | [] => []
  | filter :: rest => chars filter ++ charsAll rest

end

/-- The text of a filter. -/
def print (f : Filter) : String := String.ofList f.chars

end Filter

end AccessGate.FirstFactor
