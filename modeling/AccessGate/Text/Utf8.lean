import AccessGate.Bytes

/-!
# UTF-8

* a character has one encoding of one to four octets (`encodeChar`);
* reading goes piece by piece (`piece`): a whole character, or the longest start of one that the
  string breaks off, which is never empty, so every reader ends;
* `decode?` refuses a string with a broken piece, `decodeLossy` reads each broken piece as one
  U+FFFD.
-/

namespace AccessGate.Utf8

/-! ## 1. Writing -/

/-- The octets of one character. -/
def encodeChar (c : Char) : Bytes :=
  let n := c.toNat
  if n < 0x80 then [UInt8.ofNat n]
  else if n < 0x800 then [UInt8.ofNat (0xC0 + n / 64), UInt8.ofNat (0x80 + n % 64)]
  else if n < 0x10000 then
    [UInt8.ofNat (0xE0 + n / 4096), UInt8.ofNat (0x80 + n / 64 % 64), UInt8.ofNat (0x80 + n % 64)]
  else
    [UInt8.ofNat (0xF0 + n / 262144), UInt8.ofNat (0x80 + n / 4096 % 64),
      UInt8.ofNat (0x80 + n / 64 % 64), UInt8.ofNat (0x80 + n % 64)]

/-- The octets of a list of characters. -/
def encodeChars (cs : List Char) : Bytes := cs.flatMap encodeChar

/-- The octets of a text. -/
def encode (text : String) : Bytes := encodeChars text.toList

/-! ## 2. Pieces -/

/-- What a first octet announces: the bits it carries, how many octets follow, and the range that
the first of these has to lie in. -/
structure Lead where
  bits : Nat
  more : Nat
  low : Nat
  high : Nat

/-- The announcement of a first octet; `none` for an octet that starts no character. The ranges
keep out overlong forms, surrogates and numbers above U+10FFFF. -/
def lead? (b : UInt8) : Option Lead :=
  let n := b.toNat
  if n < 0x80 then some ⟨n, 0, 0, 0⟩
  else if n < 0xC2 then none
  else if n < 0xE0 then some ⟨n - 0xC0, 1, 0x80, 0xBF⟩
  else if n = 0xE0 then some ⟨0, 2, 0xA0, 0xBF⟩
  else if n = 0xED then some ⟨13, 2, 0x80, 0x9F⟩
  else if n < 0xF0 then some ⟨n - 0xE0, 2, 0x80, 0xBF⟩
  else if n = 0xF0 then some ⟨0, 3, 0x90, 0xBF⟩
  else if n < 0xF4 then some ⟨n - 0xF0, 3, 0x80, 0xBF⟩
  else if n = 0xF4 then some ⟨4, 3, 0x80, 0x8F⟩
  else none

/-- A piece of a string: a character and what follows it, or a broken start and what follows. -/
inductive Piece where
  | whole (c : Char) (rest : Bytes)
  | broken (rest : Bytes)

/-- What follows the piece. -/
def Piece.rest : Piece → Bytes
  | .whole _ rest => rest
  | .broken rest => rest

/-- Reads the octets that continue a character of `bits` so far, `more` of them, the next one in
the given range. -/
def continued (bits : Nat) : Nat → Nat → Nat → Bytes → Piece
  | 0, _, _, rest => .whole (Char.ofNat bits) rest
  | _ + 1, _, _, [] => .broken []
  | more + 1, low, high, b :: rest =>
    if low ≤ b.toNat ∧ b.toNat ≤ high then
      continued (bits * 64 + b.toNat % 64) more 0x80 0xBF rest
    else .broken (b :: rest)

/-- The first piece of a string that starts with `b`. -/
def piece (b : UInt8) (rest : Bytes) : Piece :=
  match lead? b with
  | none => .broken rest
  | some lead => continued lead.bits lead.more lead.low lead.high rest

theorem length_rest_continued (bits more low high : Nat) (rest : Bytes) :
    (continued bits more low high rest).rest.length ≤ rest.length := by
  fun_induction continued bits more low high rest with
  | case1 => simp [Piece.rest]
  | case2 => simp [Piece.rest]
  | case3 _ _ _ _ _ _ _ ih => simp only [List.length_cons]; omega
  | case4 => simp [Piece.rest]

/-- A piece takes at least its first octet. -/
theorem length_rest_piece (b : UInt8) (rest : Bytes) :
    (piece b rest).rest.length ≤ rest.length := by
  unfold piece
  split
  · simp [Piece.rest]
  · exact length_rest_continued _ _ _ _ _

/-! ## 3. Reading -/

/-- The characters of a string in which no piece is broken. -/
def decodeChars? : Bytes → Option (List Char)
  | [] => some []
  | b :: rest =>
    match _h : piece b rest with
    | .whole c tail => (decodeChars? tail).map (c :: ·)
    | .broken _ => none
termination_by bs => bs.length
decreasing_by
  have := length_rest_piece b rest
  rw [_h] at this
  simp only [Piece.rest] at this
  simp only [List.length_cons]
  omega

/-- The characters of a string, with U+FFFD for every broken piece. -/
def decodeCharsLossy : Bytes → List Char
  | [] => []
  | b :: rest =>
    match _h : piece b rest with
    | .whole c tail => c :: decodeCharsLossy tail
    | .broken tail => Char.ofNat 0xFFFD :: decodeCharsLossy tail
termination_by bs => bs.length
decreasing_by
  all_goals
    have := length_rest_piece b rest
    rw [_h] at this
    simp only [Piece.rest] at this
    simp only [List.length_cons]
    omega

/-- The text that the octets encode. -/
def decode? (bs : Bytes) : Option String := (decodeChars? bs).map String.ofList

/-- The text that the octets encode, broken pieces replaced. -/
def decodeLossy (bs : Bytes) : String := String.ofList (decodeCharsLossy bs)

/-- The text with one character for every octet, of the same number. -/
def decodeLatin1 (bs : Bytes) : String := String.ofList (bs.map fun b => Char.ofNat b.toNat)

end AccessGate.Utf8
