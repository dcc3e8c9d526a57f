import Mathlib.Algebra.Group.Nat.Defs
import AccessGate.Text.Base64
import AccessGate.Text.Hex
import AccessGate.Text.Numeral
import AccessGate.Proofs.Lists

/-!
# Texts that tell what they write

A key made of texts is as good as its parts are faithful. Here are the parts that write numbers and
octets:

* `foldl_toDigits`: the digits of a numeral add up to its number, so numerals of one base up to
  sixteen differ where the numbers do (`toDigits_injective`);
* `Numeral.parseChars_toDigits`: a decimal numeral is read as its number, and octets as the number
  that they write (`Bytes.toNat_ofNat`);
* `Numeral.parseChars_ok_iff`: read are exactly the words of digits, with at most one plus sign before
  them, whose number is in the bound (`Numeral.Writes`);
* `Base64.encodeChars_injective`: so do the texts of octets in Base64, which are as long as the
  number of octets says (`Base64.length_encodeChars`).
-/

namespace AccessGate

/-! ## 1. Numerals digit by digit -/

/-- A numeral of more than one digit. -/
theorem toDigits_of_le {base n : Nat} (two : 1 < base) (large : base ≤ n) :
    Nat.toDigits base n = Nat.toDigits base (n / base) ++ [(n % base).digitChar] := by
  rw [Nat.toDigits_eq_if two, if_neg (Nat.not_lt.mpr large)]

/-- **Numerals grow at the end**: what holds of one digit, and of a numeral with one more digit behind
it, holds of every numeral. -/
theorem toDigits_induction {base : Nat} {P : Nat → List Char → Prop} (two : 1 < base)
    (single : ∀ d < base, P d [d.digitChar])
    (more : ∀ n d, 0 < n → d < base → P n (Nat.toDigits base n) →
      P (n * base + d) (Nat.toDigits base n ++ [d.digitChar])) (n : Nat) :
    P n (Nat.toDigits base n) := by
  induction n using Nat.strongRecOn with
  | ind n ih =>
    by_cases hn : n < base
    · rw [Nat.toDigits_of_lt_base hn]
      exact single n hn
    · have hlarge : base ≤ n := Nat.not_lt.mp hn
      have hmore := more (n / base) (n % base) (Nat.div_pos hlarge (by omega))
        (Nat.mod_lt n (by omega)) (ih (n / base) (Nat.div_lt_self (by omega) two))
      rwa [Nat.div_add_mod', ← toDigits_of_le two hlarge] at hmore

/-- A numeral holds digits of its base alone. -/
theorem digit_of_mem_toDigits {base n : Nat} (two : 1 < base) {c : Char}
    (h : c ∈ Nat.toDigits base n) : ∃ d < base, c = d.digitChar := by
  refine toDigits_induction (P := fun _ cs => ∀ c ∈ cs, ∃ d < base, c = d.digitChar) two ?_ ?_ n c h
  · intro d hd c hc
    exact ⟨d, hd, List.mem_singleton.mp hc⟩
  · intro n d _ hd ih c hc
    rcases List.mem_append.mp hc with hc | hc
    · exact ih c hc
    · exact ⟨d, hd, List.mem_singleton.mp hc⟩

/-- The digits of a numeral add up to the number. -/
theorem foldl_toDigits {base : Nat} {digit? : Char → Option Nat} (two : 1 < base)
    (reads : ∀ d < base, digit? d.digitChar = some d) (n : Nat) :
    (Nat.toDigits base n).foldl (fun m c => m * base + (digit? c).getD 0) 0 = n := by
  refine toDigits_induction (P := fun n cs =>
    cs.foldl (fun m c => m * base + (digit? c).getD 0) 0 = n) two ?_ ?_ n
  · intro d hd
    simp [reads d hd]
  · intro n d _ hd ih
    rw [List.foldl_append, ih]
    simp [reads d hd]

/-- The digits of every base up to sixteen. -/
def digitSigns : List Char := "0123456789abcdef".toList

theorem digitChar_mem : ∀ d < 16, d.digitChar ∈ digitSigns := by decide +kernel

theorem Hex.value?_digitChar : ∀ d < 16, value? d.digitChar = some d := by decide +kernel

section Sixteen

variable {base n m : Nat} (two : 1 < base) (small : base ≤ 16)

include two small

/-- A numeral holds digits alone. -/
theorem mem_toDigits {c : Char} (h : c ∈ Nat.toDigits base n) : c ∈ digitSigns := by
  obtain ⟨d, hd, rfl⟩ := digit_of_mem_toDigits two h
  exact digitChar_mem d (Nat.lt_of_lt_of_le hd small)

/-- **Numerals tell numbers apart.** -/
theorem toDigits_injective (h : Nat.toDigits base n = Nat.toDigits base m) : n = m := by
  have hreads : ∀ d < base, Hex.value? d.digitChar = some d :=
    fun d hd => Hex.value?_digitChar d (Nat.lt_of_lt_of_le hd small)
  rw [← foldl_toDigits two hreads n, h, foldl_toDigits two hreads m]

/-- A numeral of a number that is not zero does not begin with a zero. -/
theorem head_toDigits (some_ : n ≠ 0) : (Nat.toDigits base n).head? ≠ some '0' := by
  refine toDigits_induction (P := fun n cs => n ≠ 0 → cs.head? ≠ some '0') two ?_ ?_ n some_
  · intro d hd hzero h
    have hvalue := Hex.value?_digitChar d (Nat.lt_of_lt_of_le hd small)
    rw [show d.digitChar = '0' from Option.some.inj h] at hvalue
    exact hzero (Option.some.inj hvalue).symm
  · intro n d hn _ ih _
    rw [List.head?_append_of_ne_nil _ Nat.toDigits_ne_nil]
    exact ih (by omega)

end Sixteen

theorem toList_toString (n : Nat) : (toString n).toList = Nat.toDigits 10 n := by
  rw [Nat.toString_eq_repr, Nat.toList_repr]

/-! ## 2. Decimal numerals -/

namespace Numeral

theorem digit?_digitChar : ∀ d < 10, digit? d.digitChar = some d := by decide +kernel

theorem digits_append {bound value result : Nat} {cs : List Char}
    (h : digits bound value cs = .ok result) (rest : List Char) :
    digits bound value (cs ++ rest) = digits bound result rest := by
  induction cs generalizing value with
  | nil => rw [← Except.ok.inj h, List.nil_append]
  | cons c cs ih =>
    rw [digits] at h
    rw [List.cons_append, digits]
    split at h
    · cases h
    · split at h
      · rename_i hle
        rw [if_pos hle]
        exact ih h
      · cases h

theorem digits_toDigits {bound n : Nat} (le : n ≤ bound) :
    digits bound 0 (Nat.toDigits 10 n) = .ok n := by
  refine toDigits_induction (P := fun n cs => n ≤ bound → digits bound 0 cs = .ok n) (by decide)
    ?_ ?_ n le
  · intro d hd hle
    simp [digits, digit?_digitChar d hd, hle]
  · intro n d _ hd ih hle
    rw [digits_append (ih (by omega))]
    simp [digits, digit?_digitChar d hd, hle]

/-- **A numeral is read as its number**, where the bound lets it. -/
theorem parseChars_toDigits {bound n : Nat} (le : n ≤ bound) :
    parseChars bound (Nat.toDigits 10 n) = .ok n := by
  have hsign : '+' ∉ Nat.toDigits 10 n :=
    fun h => absurd (mem_toDigits (by decide) (by decide) h) (by decide +kernel)
  have hdigits := digits_toDigits le
  unfold parseChars
  split
  · rename_i hnil
    exact absurd hnil Nat.toDigits_ne_nil
  · rename_i hplus
    exact absurd (hplus ▸ List.mem_cons_self) hsign
  · rename_i hplus
    exact absurd (hplus ▸ List.mem_cons_self) hsign
  · exact hdigits

/-- The number that digits write behind those of another. -/
def valueOf (value : Nat) (ds : List Char) : Nat :=
  ds.foldl (fun value c => value * 10 + (c.toNat - '0'.toNat)) value

/-- ASCII digits, at least one, with at most one plus sign before them. -/
inductive Writes : List Char → Nat → Prop where
  | plain {ds : List Char} (some_ : ds ≠ []) (digits : ∀ c ∈ ds, '0' ≤ c ∧ c ≤ '9') :
    Writes ds (valueOf 0 ds)
  | signed {ds : List Char} (some_ : ds ≠ []) (digits : ∀ c ∈ ds, '0' ≤ c ∧ c ≤ '9') :
    Writes ('+' :: ds) (valueOf 0 ds)

theorem le_valueOf (value : Nat) (ds : List Char) : value ≤ valueOf value ds := by
  induction ds generalizing value with
  | nil => exact Nat.le_refl _
  | cons c ds ih =>
    have hgrows : value ≤ value * 10 + (c.toNat - '0'.toNat) := by omega
    exact Nat.le_trans hgrows (ih _)

/-- Digits are read as long as the number is in the bound, and it only grows. -/
theorem digits_ok_iff {bound value n : Nat} (le : value ≤ bound) {cs : List Char} :
    digits bound value cs = .ok n ↔
      (∀ c ∈ cs, '0' ≤ c ∧ c ≤ '9') ∧ valueOf value cs = n ∧ n ≤ bound := by
  induction cs generalizing value with
  | nil =>
    constructor
    · intro h
      rw [← Except.ok.inj h]
      exact ⟨nofun, rfl, le⟩
    · intro ⟨_, hvalue, _⟩
      exact congrArg Except.ok hvalue
  | cons c cs ih =>
    rw [digits, List.forall_mem_cons]
    unfold digit?
    by_cases hc : '0' ≤ c ∧ c ≤ '9'
    · rw [if_pos hc]
      have hgrown : valueOf value (c :: cs) = valueOf (value * 10 + (c.toNat - 48)) cs := rfl
      simp only [hgrown, hc, and_self, true_and]
      split
      · rename_i hle
        exact ih hle
      · rename_i hlarge
        refine ⟨nofun, fun ⟨_, hvalue, hn⟩ => absurd ?_ hlarge⟩
        exact Nat.le_trans (le_valueOf _ cs) (hvalue ▸ hn)
    · rw [if_neg hc]
      exact ⟨nofun, fun h => absurd h.1.1 hc⟩

theorem not_digit_plus : ¬ ('0' ≤ '+' ∧ '+' ≤ '9') := by decide

/-- **A numeral is what writes a number in the bound.** -/
theorem parseChars_ok_iff {bound n : Nat} {cs : List Char} :
    parseChars bound cs = .ok n ↔ Writes cs n ∧ n ≤ bound := by
  constructor
  · intro h
    unfold parseChars at h
    split at h
    · cases h
    · cases h
    · rename_i rest hsome
      obtain ⟨hdigits, rfl, hn⟩ := (digits_ok_iff (Nat.zero_le _)).mp h
      exact ⟨.signed hsome hdigits, hn⟩
    · rename_i hsome _ _
      obtain ⟨hdigits, rfl, hn⟩ := (digits_ok_iff (Nat.zero_le _)).mp h
      exact ⟨.plain hsome hdigits, hn⟩
  · intro ⟨hwrites, hn⟩
    cases hwrites with
    | plain some_ hdigits =>
      have hread := (digits_ok_iff (Nat.zero_le bound)).mpr ⟨hdigits, rfl, hn⟩
      unfold parseChars
      split
      · exact absurd rfl some_
      · exact absurd (hdigits _ List.mem_cons_self) not_digit_plus
      · exact absurd (hdigits _ List.mem_cons_self) not_digit_plus
      · exact hread
    | @signed ds some_ hdigits =>
      have hread := (digits_ok_iff (Nat.zero_le bound)).mpr ⟨hdigits, rfl, hn⟩
      cases ds with
      | nil => exact absurd rfl some_
      | cons c ds => exact hread

end Numeral

/-! ## 3. Numbers in octets -/

/-- What is written in octets reads as the digits that had room. -/
theorem Bytes.toNat_ofNat (width n : Nat) : toNat (ofNat width n) = n % 256 ^ width := by
  induction width generalizing n with
  | zero => simp [ofNat, toNat, Nat.mod_one]
  | succ width ih =>
    have hpow : 256 ^ (width + 1) = 256 * 256 ^ width := Nat.pow_succ'
    rw [ofNat, toNat_append_singleton, ih, UInt8.toNat_ofNat', hpow, Nat.mod_mul]
    omega

/-! ## 4. Base64 -/

namespace Base64

theorem symbol_injective {n m : Nat} (small : n < 64) (small' : m < 64)
    (h : symbol n = symbol m) : n = m := by
  have hall : ∀ n < 64, ∀ m < 64, symbol n = symbol m → n = m := by decide +kernel
  exact hall n small m small' h

/-- Four characters for every three octets begun. -/
theorem length_encodeChars (bs : Bytes) :
    (encodeChars bs).length = (bs.length + 2) / 3 * 4 := by
  induction bs using encodeChars.induct with
  | case1 => simp [encodeChars]
  | case2 => simp [encodeChars]
  | case3 => simp [encodeChars]
  | case4 a b c rest ih =>
    simp only [encodeChars, List.length_cons, ih]
    omega

/-- **Octets of one length differ in Base64 where they differ.** -/
theorem encodeChars_injective {xs ys : Bytes} (same : xs.length = ys.length)
    (h : encodeChars xs = encodeChars ys) : xs = ys := by
  induction xs using encodeChars.induct generalizing ys with
  | case1 => exact (List.length_eq_zero_iff.mp same.symm).symm
  | case2 a =>
    obtain ⟨a', rfl⟩ := List.length_eq_one_iff.mp same.symm
    have ha := a.toNat_lt
    have ha' := a'.toNat_lt
    simp only [encodeChars, List.cons.injEq] at h
    have hhigh := symbol_injective (by omega) (by omega) h.1
    have hlow := symbol_injective (by omega) (by omega) h.2.1
    obtain rfl : a = a' := UInt8.toNat_inj.mp (by omega)
    rfl
  | case3 a b =>
    obtain ⟨a', b', rfl⟩ := List.length_eq_two.mp same.symm
    have ha := a.toNat_lt
    have ha' := a'.toNat_lt
    have hb := b.toNat_lt
    have hb' := b'.toNat_lt
    simp only [encodeChars, List.cons.injEq] at h
    have hhigh := symbol_injective (by omega) (by omega) h.1
    have hmid := symbol_injective (by omega) (by omega) h.2.1
    have hlow := symbol_injective (by omega) (by omega) h.2.2.1
    obtain rfl : a = a' := UInt8.toNat_inj.mp (by omega)
    obtain rfl : b = b' := UInt8.toNat_inj.mp (by omega)
    rfl
  | case4 a b c rest ih =>
    obtain ⟨a', ys, rfl⟩ := List.exists_cons_of_length_eq_add_one same.symm
    obtain ⟨b', ys, rfl⟩ := List.exists_cons_of_length_eq_add_one (Nat.succ.inj same.symm)
    obtain ⟨c', ys, rfl⟩ := List.exists_cons_of_length_eq_add_one
      (Nat.succ.inj (Nat.succ.inj same.symm))
    have ha := a.toNat_lt
    have ha' := a'.toNat_lt
    have hb := b.toNat_lt
    have hb' := b'.toNat_lt
    have hc := c.toNat_lt
    have hc' := c'.toNat_lt
    simp only [encodeChars, List.cons.injEq] at h
    obtain ⟨h₁, h₂, h₃, h₄, hrest⟩ := h
    have h₁ := symbol_injective (by omega) (by omega) h₁
    have h₂ := symbol_injective (by omega) (by omega) h₂
    have h₃ := symbol_injective (by omega) (by omega) h₃
    have h₄ := symbol_injective (by omega) (by omega) h₄
    obtain rfl : a = a' := UInt8.toNat_inj.mp (by omega)
    obtain rfl : b = b' := UInt8.toNat_inj.mp (by omega)
    obtain rfl : c = c' := UInt8.toNat_inj.mp (by omega)
    rw [ih (Nat.succ.inj (Nat.succ.inj (Nat.succ.inj same))) hrest]

end Base64

end AccessGate
