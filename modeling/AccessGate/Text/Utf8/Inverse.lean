import AccessGate.Text.Utf8

/-!
# Reading UTF-8 undoes writing it

* the octets of a character in front of a string are its first piece, whole (`piece_encodeChar`);
* so a text is read back from its octets (`decode?_encode`), and a lossy reader loses nothing of
  them (`decodeLossy_encode`).
-/

namespace AccessGate.Utf8

/-! ## 1. Octets -/

/-- An octet that continues a character. -/
theorem continued_step (bits more low high n : Nat) (rest : Bytes) (hlow : low ≤ 0x80 + n % 64)
    (hhigh : 0x80 + n % 64 ≤ high) :
    continued bits (more + 1) low high (UInt8.ofNat (0x80 + n % 64) :: rest) =
      continued (bits * 64 + n % 64) more 0x80 0xBF rest := by
  have hb : (UInt8.ofNat (0x80 + n % 64)).toNat = 0x80 + n % 64 := by
    rw [UInt8.toNat_ofNat']; omega
  rw [continued, hb, if_pos ⟨hlow, hhigh⟩]
  congr 2
  omega

/-- A number below 256 fits an octet. -/
theorem toNat_ofNat_lt {n : Nat} (h : n < 256) : (UInt8.ofNat n).toNat = n := by
  rw [UInt8.toNat_ofNat']; omega

/-! ## 2. Characters -/

/-- A character of two octets. -/
theorem piece_two {n : Nat} (low : 0x80 ≤ n) (high : n < 0x800) (rest : Bytes) :
    piece (UInt8.ofNat (0xC0 + n / 64)) (UInt8.ofNat (0x80 + n % 64) :: rest) =
      .whole (Char.ofNat n) rest := by
  have hlead : lead? (UInt8.ofNat (0xC0 + n / 64)) = some ⟨n / 64, 1, 0x80, 0xBF⟩ := by
    simp only [lead?, toNat_ofNat_lt (show 0xC0 + n / 64 < 256 by omega)]
    rw [if_neg (by omega), if_neg (by omega), if_pos (by omega), Nat.add_sub_cancel_left]
  simp only [piece, hlead]
  rw [continued_step _ _ _ _ _ _ (by omega) (by omega), Nat.div_add_mod']
  rfl

/-- What the first of three octets announces. -/
theorem lead?_three {n : Nat} (low : 0x800 ≤ n) (high : n < 0x10000)
    (valid : n < 0xD800 ∨ 0xDFFF < n) :
    ∃ a b, lead? (UInt8.ofNat (0xE0 + n / 4096)) = some ⟨n / 4096, 2, a, b⟩ ∧
      a ≤ 0x80 + n / 64 % 64 ∧ 0x80 + n / 64 % 64 ≤ b := by
  simp only [lead?, toNat_ofNat_lt (show 0xE0 + n / 4096 < 256 by omega)]
  rw [if_neg (by omega), if_neg (by omega), if_neg (by omega)]
  by_cases h0 : n / 4096 = 0
  · exact ⟨0xA0, 0xBF, by simp [h0], by omega, by omega⟩
  · rw [if_neg (by omega)]
    by_cases h13 : n / 4096 = 13
    · exact ⟨0x80, 0x9F, by simp [h13], by omega, by omega⟩
    · rw [if_neg (by omega), if_pos (by omega), Nat.add_sub_cancel_left]
      exact ⟨0x80, 0xBF, rfl, by omega, by omega⟩

/-- What the first of four octets announces. -/
theorem lead?_four {n : Nat} (low : 0x10000 ≤ n) (high : n < 0x110000) :
    ∃ a b, lead? (UInt8.ofNat (0xF0 + n / 262144)) = some ⟨n / 262144, 3, a, b⟩ ∧
      a ≤ 0x80 + n / 4096 % 64 ∧ 0x80 + n / 4096 % 64 ≤ b := by
  simp only [lead?, toNat_ofNat_lt (show 0xF0 + n / 262144 < 256 by omega)]
  rw [if_neg (by omega), if_neg (by omega), if_neg (by omega), if_neg (by omega),
    if_neg (by omega), if_neg (by omega)]
  by_cases h0 : n / 262144 = 0
  · exact ⟨0x90, 0xBF, by simp [h0], by omega, by omega⟩
  · rw [if_neg (by omega)]
    by_cases h4 : n / 262144 = 4
    · exact ⟨0x80, 0x8F, by simp [h4], by omega, by omega⟩
    · rw [if_pos (by omega), Nat.add_sub_cancel_left]
      exact ⟨0x80, 0xBF, rfl, by omega, by omega⟩

/-- A character's octets in front of a string are its first piece. -/
theorem piece_encodeChar (c : Char) (rest : Bytes) :
    ∃ b tail, encodeChar c ++ rest = b :: tail ∧ piece b tail = .whole c rest := by
  have hvalid : c.toNat < 0xD800 ∨ 0xDFFF < c.toNat ∧ c.toNat < 0x110000 := c.valid
  have hc : Char.ofNat c.toNat = c := Char.ofNat_toNat c
  unfold encodeChar
  generalize c.toNat = n at hvalid hc ⊢
  subst hc
  dsimp only
  split
  · next h1 =>
    refine ⟨_, _, rfl, ?_⟩
    simp only [piece, lead?, toNat_ofNat_lt (show n < 256 by omega), if_pos h1]
    rfl
  · split
    · exact ⟨_, _, rfl, piece_two (by omega) (by omega) rest⟩
    · split
      · obtain ⟨a, b, hlead, ha, hb⟩ := lead?_three (n := n) (by omega) (by omega) (by omega)
        refine ⟨_, _, rfl, ?_⟩
        simp only [piece, hlead]
        refine (continued_step _ _ _ _ _ _ ha hb).trans ?_
        refine (continued_step _ _ _ _ _ _ (by omega) (by omega)).trans ?_
        rw [show (n / 4096 * 64 + n / 64 % 64) * 64 + n % 64 = n by omega]
        rfl
      · obtain ⟨a, b, hlead, ha, hb⟩ := lead?_four (n := n) (by omega) (by omega)
        refine ⟨_, _, rfl, ?_⟩
        simp only [piece, hlead]
        refine (continued_step _ _ _ _ _ _ ha hb).trans ?_
        refine (continued_step _ _ _ _ _ _ (by omega) (by omega)).trans ?_
        refine (continued_step _ _ _ _ _ _ (by omega) (by omega)).trans ?_
        rw [show ((n / 262144 * 64 + n / 4096 % 64) * 64 + n / 64 % 64) * 64 + n % 64 = n by omega]
        rfl

/-! ## 3. Texts -/

/-- Characters are read back from their octets. -/
theorem decodeChars?_encodeChars (cs : List Char) : decodeChars? (encodeChars cs) = some cs := by
  induction cs with
  | nil => simp [encodeChars, decodeChars?]
  | cons c cs ih =>
    obtain ⟨b, tail, happ, hpiece⟩ := piece_encodeChar c (encodeChars cs)
    rw [encodeChars, List.flatMap_cons, ← encodeChars, happ, decodeChars?]
    split
    · next h =>
      rw [hpiece] at h
      cases h
      simp [ih]
    · next h =>
      rw [hpiece] at h
      cases h

/-- A lossy reader reads characters back from their octets. -/
theorem decodeCharsLossy_encodeChars (cs : List Char) : decodeCharsLossy (encodeChars cs) = cs := by
  induction cs with
  | nil => simp [encodeChars, decodeCharsLossy]
  | cons c cs ih =>
    obtain ⟨b, tail, happ, hpiece⟩ := piece_encodeChar c (encodeChars cs)
    rw [encodeChars, List.flatMap_cons, ← encodeChars, happ, decodeCharsLossy]
    split
    · next h =>
      rw [hpiece] at h
      cases h
      rw [ih]
    · next h =>
      rw [hpiece] at h
      cases h

/-- A text is read back from its octets. -/
theorem decode?_encode (text : String) : decode? (encode text) = some text := by
  simp [decode?, encode, decodeChars?_encodeChars]

/-- A lossy reader loses nothing of a text. -/
theorem decodeLossy_encode (text : String) : decodeLossy (encode text) = text := by
  simp [decodeLossy, encode, decodeCharsLossy_encodeChars]

end AccessGate.Utf8
