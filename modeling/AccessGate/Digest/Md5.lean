import AccessGate.Bytes

/-!
# The MD5 digest

* a message is followed by one octet 0x80, zeros, and its length in bits in eight octets, least
  significant first, so that sixty-four divides the total (`padded`);
* each block of sixty-four octets drives four rounds of sixteen steps (`step`) over four words;
* the digest is the four words, least significant octet first.
-/

namespace AccessGate.Md5

/-- The additive constants of the sixty-four steps: the integer parts of 2³² times the sines. -/
def sines : Array UInt32 := #[
  0xd76aa478, 0xe8c7b756, 0x242070db, 0xc1bdceee, 0xf57c0faf, 0x4787c62a, 0xa8304613, 0xfd469501,
  0x698098d8, 0x8b44f7af, 0xffff5bb1, 0x895cd7be, 0x6b901122, 0xfd987193, 0xa679438e, 0x49b40821,
  0xf61e2562, 0xc040b340, 0x265e5a51, 0xe9b6c7aa, 0xd62f105d, 0x02441453, 0xd8a1e681, 0xe7d3fbc8,
  0x21e1cde6, 0xc33707d6, 0xf4d50d87, 0x455a14ed, 0xa9e3e905, 0xfcefa3f8, 0x676f02d9, 0x8d2a4c8a,
  0xfffa3942, 0x8771f681, 0x6d9d6122, 0xfde5380c, 0xa4beea44, 0x4bdecfa9, 0xf6bb4b60, 0xbebfbc70,
  0x289b7ec6, 0xeaa127fa, 0xd4ef3085, 0x04881d05, 0xd9d4d039, 0xe6db99e5, 0x1fa27cf8, 0xc4ac5665,
  0xf4292244, 0x432aff97, 0xab9423a7, 0xfc93a039, 0x655b59c3, 0x8f0ccc92, 0xffeff47d, 0x85845dd1,
  0x6fa87e4f, 0xfe2ce6e0, 0xa3014314, 0x4e0811a1, 0xf7537e82, 0xbd3af235, 0x2ad7d2bb, 0xeb86d391]

/-- The left rotations of one round, which its steps take in turn. -/
def rotations : Nat → Array UInt32
  | 0 => #[7, 12, 17, 22]
  | 1 => #[5, 9, 14, 20]
  | 2 => #[4, 11, 16, 23]
  | _ => #[6, 10, 15, 21]

/-- The four words that a digest runs through. -/
structure State where
  a : UInt32
  b : UInt32
  c : UInt32
  d : UInt32

/-- The words before the first block. -/
def State.start : State := ⟨0x67452301, 0xefcdab89, 0x98badcfe, 0x10325476⟩

/-- The word rotated to the left by fewer than thirty-two places. -/
def rotate (w places : UInt32) : UInt32 := (w <<< places) ||| (w >>> (32 - places))

/-- Step `i` of a block with the given sixteen words. -/
def step (words : Array UInt32) (s : State) (i : Nat) : State :=
  let (mixed, index) :=
    if i < 16 then ((s.b &&& s.c) ||| (~~~s.b &&& s.d), i)
    else if i < 32 then ((s.d &&& s.b) ||| (~~~s.d &&& s.c), (5 * i + 1) % 16)
    else if i < 48 then (s.b ^^^ s.c ^^^ s.d, (3 * i + 5) % 16)
    else (s.c ^^^ (s.b ||| ~~~s.d), (7 * i) % 16)
  let sum := mixed + s.a + sines.getD i 0 + words.getD index 0
  ⟨s.d, s.b + rotate sum ((rotations (i / 16)).getD (i % 4) 0), s.b, s.c⟩

/-- The word of four octets, least significant first. -/
def wordOf : Bytes → List UInt32
  | a :: b :: c :: d :: rest =>
    (a.toUInt32 ||| (b.toUInt32 <<< 8) ||| (c.toUInt32 <<< 16) ||| (d.toUInt32 <<< 24)) ::
      wordOf rest
  | _ => []

/-- The words after one block of sixty-four octets. -/
def compress (s : State) (block : Bytes) : State :=
  let words := (wordOf block).toArray
  let t := (List.range 64).foldl (step words) s
  ⟨s.a + t.a, s.b + t.b, s.c + t.c, s.d + t.d⟩

/-- The message with its filling and length. -/
def padded (message : Bytes) : Bytes :=
  let gap := (119 - message.length % 64) % 64
  let bits := (Bytes.ofNat 8 (message.length * 8)).reverse
  message ++ 0x80 :: Bytes.zeros gap ++ bits

/-- The words after a string of whole blocks. -/
def absorb (s : State) (bs : Bytes) : State :=
  if _h : bs = [] then s else absorb (compress s (bs.take 64)) (bs.drop 64)
termination_by bs.length
decreasing_by
  have := List.length_pos_iff.mpr _h
  simp only [List.length_drop]
  omega

/-- The octets of a word, least significant first. -/
def wordBytes (w : UInt32) : Bytes :=
  [w.toUInt8, (w >>> 8).toUInt8, (w >>> 16).toUInt8, (w >>> 24).toUInt8]

/-- The four words as sixteen octets. -/
def State.digest (s : State) : Block :=
  ⟨wordBytes s.a ++ wordBytes s.b ++ wordBytes s.c ++ wordBytes s.d, rfl⟩

/-- The digest of a message. -/
def digest (message : Bytes) : Block := (absorb .start (padded message)).digest

end AccessGate.Md5
