import AccessGate.Text.Utf8.Inverse

/-!
# Writing UTF-8 undoes reading it

Octets that were read as a text are written again when the text is:

* `encodeChar_of_piece`: a whole piece is the octets of its character;
* `encodeChars_of_decodeChars?`: so octets that are a text are the text's octets.

Where a reader replaces what is broken, or takes every octet for a character, that does not hold. But
the end of the text still tells the end of the octets: `trimmed_decodeLossy` and
`trimmed_decodeLatin1` say that a text read of octets without a zero at the end is written without
one.
-/

namespace AccessGate.Utf8

variable {b : UInt8} {rest tail : Bytes} {c : Char} {cs : List Char} {bs : Bytes}

/-! ## 1. Pieces -/

/-- What a first octet can announce. -/
theorem lead?_cases {lead : Lead} (h : lead? b = some lead) :
    (b.toNat < 0x80 ∧ lead = ⟨b.toNat, 0, 0, 0⟩) ∨
    (0xC2 ≤ b.toNat ∧ b.toNat < 0xE0 ∧ lead = ⟨b.toNat - 0xC0, 1, 0x80, 0xBF⟩) ∨
    (0xE0 ≤ b.toNat ∧ b.toNat < 0xF0 ∧ ∃ low high, lead = ⟨b.toNat - 0xE0, 2, low, high⟩ ∧
      0x80 ≤ low ∧ high ≤ 0xBF ∧ (b.toNat = 0xE0 → 0xA0 ≤ low) ∧ (b.toNat = 0xED → high ≤ 0x9F)) ∨
    (0xF0 ≤ b.toNat ∧ b.toNat ≤ 0xF4 ∧ ∃ low high, lead = ⟨b.toNat - 0xF0, 3, low, high⟩ ∧
      0x80 ≤ low ∧ high ≤ 0xBF ∧ (b.toNat = 0xF0 → 0x90 ≤ low) ∧ (b.toNat = 0xF4 → high ≤ 0x8F)) := by
  unfold lead? at h
  generalize b.toNat = n at h ⊢
  dsimp only at h
  split at h
  · rename_i hone
    exact Or.inl ⟨hone, (Option.some.inj h).symm⟩
  split at h
  · cases h
  split at h
  · exact Or.inr (Or.inl ⟨by omega, by omega, (Option.some.inj h).symm⟩)
  split at h
  · subst n
    exact Or.inr (Or.inr (Or.inl ⟨by omega, by omega, 0xA0, 0xBF, (Option.some.inj h).symm,
      by omega, by omega, by omega, by omega⟩))
  split at h
  · subst n
    exact Or.inr (Or.inr (Or.inl ⟨by omega, by omega, 0x80, 0x9F, (Option.some.inj h).symm,
      by omega, by omega, by omega, by omega⟩))
  split at h
  · exact Or.inr (Or.inr (Or.inl ⟨by omega, by omega, 0x80, 0xBF, (Option.some.inj h).symm,
      by omega, by omega, by omega, by omega⟩))
  split at h
  · subst n
    exact Or.inr (Or.inr (Or.inr ⟨by omega, by omega, 0x90, 0xBF, (Option.some.inj h).symm,
      by omega, by omega, by omega, by omega⟩))
  split at h
  · exact Or.inr (Or.inr (Or.inr ⟨by omega, by omega, 0x80, 0xBF, (Option.some.inj h).symm,
      by omega, by omega, by omega, by omega⟩))
  split at h
  · subst n
    exact Or.inr (Or.inr (Or.inr ⟨by omega, by omega, 0x80, 0x8F, (Option.some.inj h).symm,
      by omega, by omega, by omega, by omega⟩))
  · cases h

/-- A character goes on with an octet in its range. -/
theorem continued_whole {bits more low high : Nat}
    (h : continued bits (more + 1) low high rest = .whole c tail) :
    ∃ b rest', rest = b :: rest' ∧ low ≤ b.toNat ∧ b.toNat ≤ high ∧
      continued (bits * 64 + b.toNat % 64) more 0x80 0xBF rest' = .whole c tail := by
  cases rest with
  | nil => cases h
  | cons b rest' =>
    unfold continued at h
    split at h
    · rename_i hrange
      exact ⟨b, rest', rfl, hrange.1, hrange.2, h⟩
    · cases h

theorem continued_zero {bits low high : Nat} (h : continued bits 0 low high rest = .whole c tail) :
    c = Char.ofNat bits ∧ rest = tail := by
  unfold continued at h
  cases h
  exact ⟨rfl, rfl⟩

theorem toNat_ofNat_valid {n : Nat} (valid : n < 0xD800 ∨ 0xDFFF < n ∧ n < 0x110000) :
    (Char.ofNat n).toNat = n := by
  have hvalid : n.isValidChar := valid
  rw [Char.ofNat, dif_pos hvalid]
  rfl

theorem eq_ofNat {n : Nat} (h : b.toNat = n) : b = UInt8.ofNat n := by
  rw [← h, UInt8.ofNat_toNat]

/-- The octets of a character by its number. -/
theorem encodeChar_ofNat {n : Nat} (valid : n < 0xD800 ∨ 0xDFFF < n ∧ n < 0x110000) :
    encodeChar (Char.ofNat n) =
      if n < 0x80 then [UInt8.ofNat n]
      else if n < 0x800 then [UInt8.ofNat (0xC0 + n / 64), UInt8.ofNat (0x80 + n % 64)]
      else if n < 0x10000 then
        [UInt8.ofNat (0xE0 + n / 4096), UInt8.ofNat (0x80 + n / 64 % 64),
          UInt8.ofNat (0x80 + n % 64)]
      else
        [UInt8.ofNat (0xF0 + n / 262144), UInt8.ofNat (0x80 + n / 4096 % 64),
          UInt8.ofNat (0x80 + n / 64 % 64), UInt8.ofNat (0x80 + n % 64)] := by
  unfold encodeChar
  rw [toNat_ofNat_valid valid]

/-- **A whole piece is the octets of its character.** -/
theorem encodeChar_of_piece (h : piece b rest = .whole c tail) :
    b :: rest = encodeChar c ++ tail := by
  unfold piece at h
  split at h
  · cases h
  · rename_i lead hlead
    rcases lead?_cases hlead with ⟨hlow, rfl⟩ | ⟨hlow, hhigh, rfl⟩ |
      ⟨hlow, hhigh, low, high, rfl, hl, hh, hfirst, hlast⟩ |
      ⟨hlow, hhigh, low, high, rfl, hl, hh, hfirst, hlast⟩
    all_goals dsimp only at h
    · obtain ⟨rfl, rfl⟩ := continued_zero h
      rw [encodeChar_ofNat (by omega), if_pos hlow, UInt8.ofNat_toNat]
      rfl
    · obtain ⟨b₁, rest, rfl, hlow₁, hhigh₁, h⟩ := continued_whole h
      obtain ⟨rfl, rfl⟩ := continued_zero h
      rw [encodeChar_ofNat (by omega), if_neg (by omega), if_pos (by omega),
        ← eq_ofNat (b := b) (by omega), ← eq_ofNat (b := b₁) (by omega)]
      rfl
    · obtain ⟨b₁, rest, rfl, hlow₁, hhigh₁, h⟩ := continued_whole h
      obtain ⟨b₂, rest, rfl, hlow₂, hhigh₂, h⟩ := continued_whole h
      obtain ⟨rfl, rfl⟩ := continued_zero h
      rw [encodeChar_ofNat (by omega), if_neg (by omega), if_neg (by omega), if_pos (by omega),
        ← eq_ofNat (b := b) (by omega), ← eq_ofNat (b := b₁) (by omega),
        ← eq_ofNat (b := b₂) (by omega)]
      rfl
    · obtain ⟨b₁, rest, rfl, hlow₁, hhigh₁, h⟩ := continued_whole h
      obtain ⟨b₂, rest, rfl, hlow₂, hhigh₂, h⟩ := continued_whole h
      obtain ⟨b₃, rest, rfl, hlow₃, hhigh₃, h⟩ := continued_whole h
      obtain ⟨rfl, rfl⟩ := continued_zero h
      rw [encodeChar_ofNat (by omega), if_neg (by omega), if_neg (by omega), if_neg (by omega),
        ← eq_ofNat (b := b) (by omega), ← eq_ofNat (b := b₁) (by omega),
        ← eq_ofNat (b := b₂) (by omega), ← eq_ofNat (b := b₃) (by omega)]
      rfl

/-- **Octets that are a text are the text's octets.** -/
theorem encodeChars_of_decodeChars? (h : decodeChars? bs = some cs) : encodeChars cs = bs := by
  fun_induction decodeChars? bs generalizing cs with
  | case1 =>
    rw [← Option.some.inj h]
    rfl
  | case2 b rest c tail hpiece ih =>
    obtain ⟨cs', hcs', rfl⟩ := Option.map_eq_some_iff.mp h
    rw [encodeChar_of_piece hpiece, ← ih hcs']
    rfl
  | case3 => cases h

/-! ## 2. The end of a text -/

/-- What a broken character leaves is an end of the octets. -/
theorem suffix_of_continued {bits more low high : Nat}
    (h : continued bits more low high rest = .broken tail) : tail <:+ rest := by
  fun_induction continued bits more low high rest with
  | case1 => cases h
  | case2 =>
    cases h
    exact List.suffix_refl _
  | case3 _ _ _ _ b rest _ ih => exact (ih h).trans (List.suffix_cons b rest)
  | case4 =>
    cases h
    exact List.suffix_refl _

theorem suffix_of_broken (h : piece b rest = .broken tail) : tail <:+ rest := by
  unfold piece at h
  split at h
  · cases h
    exact List.suffix_refl _
  · exact suffix_of_continued h

/-- The octets do not end with a zero. -/
def Trimmed (bs : Bytes) : Prop := bs.getLast? ≠ some 0

theorem Trimmed.of_suffix (h : Trimmed bs) (suffix : tail <:+ bs) : Trimmed tail := by
  obtain ⟨front, rfl⟩ := suffix
  intro hzero
  refine h ?_
  rw [List.getLast?_append, hzero]
  rfl

theorem ofNat_ne_zero {n : Nat} (pos : 0 < n) (small : n < 256) : UInt8.ofNat n ≠ 0 := by
  intro h
  have hnat := toNat_ofNat_lt small
  rw [h] at hnat
  exact absurd hnat.symm (Nat.ne_of_gt pos)

/-- Only the character zero ends with a zero octet. -/
theorem trimmed_encodeChar (c : Char) : Trimmed (encodeChar c) ↔ c.toNat ≠ 0 := by
  -- the last octet of a longer form carries a mark
  have hmarked (front : Bytes) (n : Nat) :
      Trimmed (front ++ [UInt8.ofNat (0x80 + n % 64)]) := by
    unfold Trimmed
    rw [List.getLast?_concat, Ne, Option.some.injEq]
    exact ofNat_ne_zero (by omega) (by omega)
  unfold encodeChar
  generalize c.toNat = n
  dsimp only
  split
  · rename_i hone
    unfold Trimmed
    rw [List.getLast?_singleton, Ne, Option.some.injEq]
    refine ⟨fun h hzero => h ?_, fun h => ofNat_ne_zero (by omega) (by omega)⟩
    rw [hzero]
    rfl
  · refine ⟨fun _ => by omega, fun _ => ?_⟩
    split
    · exact hmarked [_] n
    · split
      · exact hmarked [_, _] n
      · exact hmarked [_, _, _] n

/-- A text without a zero at its end has none at the end of its octets. -/
theorem trimmed_encodeChars (h : ∀ c ∈ cs.getLast?, c.toNat ≠ 0) : Trimmed (encodeChars cs) := by
  rcases List.eq_nil_or_concat cs with rfl | ⟨init, c, rfl⟩
  · exact nofun
  · rw [List.concat_eq_append] at h ⊢
    have hc := (trimmed_encodeChar c).mpr (h c (by rw [List.getLast?_concat]; rfl))
    obtain ⟨b, tail, hcons, -⟩ := piece_encodeChar c []
    rw [List.append_nil] at hcons
    have hsplit : encodeChars (init ++ [c]) = encodeChars init ++ encodeChar c := by
      unfold encodeChars
      rw [List.flatMap_append, List.flatMap_singleton]
    unfold Trimmed at hc ⊢
    rw [hsplit, List.getLast?_append]
    rw [hcons, List.getLast?_cons] at hc ⊢
    exact hc

theorem decodeCharsLossy_eq_nil (h : decodeCharsLossy bs = []) : bs = [] := by
  cases bs with
  | nil => rfl
  | cons b rest =>
    unfold decodeCharsLossy at h
    split at h <;> cases h

theorem getLast?_decodeCharsLossy (h : Trimmed bs) :
    ∀ c ∈ (decodeCharsLossy bs).getLast?, c.toNat ≠ 0 := by
  fun_induction decodeCharsLossy bs with
  | case1 => nofun
  | case2 b rest c tail hpiece ih =>
    have hwhole := encodeChar_of_piece hpiece
    rw [hwhole] at h
    intro x hx
    rw [List.getLast?_cons, Option.mem_some_iff] at hx
    cases hlast : (decodeCharsLossy tail).getLast? with
    | none =>
      -- the last character of all
      obtain rfl := decodeCharsLossy_eq_nil (List.getLast?_eq_none_iff.mp hlast)
      rw [hlast] at hx
      rw [List.append_nil] at h
      rw [← hx]
      exact (trimmed_encodeChar c).mp h
    | some y =>
      rw [hlast] at hx ih
      exact ih (h.of_suffix (List.suffix_append _ _)) x (congrArg some hx)
  | case3 b rest tail hpiece ih =>
    intro x hx
    rw [List.getLast?_cons, Option.mem_some_iff] at hx
    cases hlast : (decodeCharsLossy tail).getLast? with
    | none =>
      rw [hlast] at hx
      rw [← hx]
      decide
    | some y =>
      rw [hlast] at hx ih
      exact ih (h.of_suffix ((suffix_of_broken hpiece).trans (List.suffix_cons b rest))) x
        (congrArg some hx)

/-- **A text that was read piece by piece of octets without a zero at the end is written without
one.** -/
theorem trimmed_decodeLossy (h : Trimmed bs) : Trimmed (encode (decodeLossy bs)) := by
  unfold encode decodeLossy
  rw [String.toList_ofList]
  exact trimmed_encodeChars (getLast?_decodeCharsLossy h)

/-- So is one that was read octet by octet. -/
theorem trimmed_decodeLatin1 (h : Trimmed bs) : Trimmed (encode (decodeLatin1 bs)) := by
  unfold encode decodeLatin1
  rw [String.toList_ofList]
  refine trimmed_encodeChars fun c hc => ?_
  rw [List.getLast?_map, Option.mem_def, Option.map_eq_some_iff] at hc
  obtain ⟨b, hb, rfl⟩ := hc
  have hlt := b.toNat_lt
  rw [toNat_ofNat_valid (by omega)]
  intro hzero
  refine h ?_
  rw [hb, eq_ofNat hzero]
  rfl

/-- Trimming leaves no zero at the end. -/
theorem trimmed_trimZeros (bs : Bytes) : Trimmed bs.trimZeros := by
  unfold Trimmed Bytes.trimZeros
  rw [List.getLast?_reverse]
  intro hzero
  have hnot := List.head?_dropWhile_not (· == 0) bs.reverse
  rw [hzero] at hnot
  cases hnot

/-- And changes nothing where there is none. -/
theorem Trimmed.trimZeros (h : Trimmed bs) : bs.trimZeros = bs := by
  unfold Trimmed at h
  rw [← List.head?_reverse] at h
  have hdrop : bs.reverse.dropWhile (· == 0) = bs.reverse := by
    cases hreverse : bs.reverse with
    | nil => rfl
    | cons b rest =>
      rw [hreverse] at h
      refine List.dropWhile_cons_of_neg fun hzero => h ?_
      rw [beq_iff_eq.mp hzero]
      rfl
  unfold Bytes.trimZeros
  rw [hdrop, List.reverse_reverse]

end AccessGate.Utf8
