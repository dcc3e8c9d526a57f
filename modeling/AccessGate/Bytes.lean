/-!
# Octets

Datagrams, secrets and digests are lists of octets, and the list is the only view that statements
use. This file fixes

* the big-endian reading of a number and its writing (`Bytes.toNat`, `Bytes.ofNat`);
* the two edits a packet needs: reading a stretch (`Bytes.slice`) and replacing one
  (`Bytes.overwrite`);
* pieces of sixteen octets (`Bytes.chunks16`), which together are the string, and the exclusive or
  (`Bytes.xor`), which undoes itself;
* sixteen-octet blocks (`Block`), whose length is part of the type.
-/

namespace AccessGate

/-- A string of octets. -/
abbrev Bytes := List UInt8

namespace Bytes

/-! ## 1. Numbers -/

/-- The number that the octets write, most significant octet first. -/
def toNat (bs : Bytes) : Nat := bs.foldl (fun n b => n * 256 + b.toNat) 0

/-- `n` in exactly `width` octets, most significant first; higher digits are dropped. -/
def ofNat : Nat → Nat → Bytes
  | 0, _ => []
  | width + 1, n => ofNat width (n / 256) ++ [UInt8.ofNat n]

@[simp] theorem length_ofNat (width n : Nat) : (ofNat width n).length = width := by
  induction width generalizing n with
  | zero => rfl
  | succ width ih => simp [ofNat, ih]

/-- One octet more is one digit more. -/
theorem toNat_append_singleton (bs : Bytes) (b : UInt8) :
    toNat (bs ++ [b]) = toNat bs * 256 + b.toNat := by simp [toNat]

/-- Every string is what its number is written as. -/
theorem ofNat_toNat (bs : Bytes) : ofNat bs.length bs.toNat = bs := by
  generalize h : bs.length = size
  induction size generalizing bs with
  | zero =>
    rw [List.length_eq_zero_iff.mp h]
    rfl
  | succ size ih =>
    obtain rfl | ⟨init, b, rfl⟩ := List.eq_nil_or_concat bs
    · simp at h
    · have hsize : init.length = size := by simpa using h
      have hb := b.toNat_lt
      rw [List.concat_eq_append, toNat_append_singleton, ofNat,
        show (toNat init * 256 + b.toNat) / 256 = toNat init by omega, ih init hsize]
      congr 2
      simp [UInt8.ofNat_add, UInt8.ofNat_mul]

/-! ## 2. Stretches -/

/-- `count` zero octets. -/
def zeros (count : Nat) : Bytes := List.replicate count 0

@[simp] theorem length_zeros (count : Nat) : (zeros count).length = count := by simp [zeros]

/-- The `count` octets that start at `offset`, as far as the string reaches. -/
def slice (bs : Bytes) (offset count : Nat) : Bytes := (bs.drop offset).take count

/-- The string with `patch` written over the octets that start at `offset`. -/
def overwrite (bs : Bytes) (offset : Nat) (patch : Bytes) : Bytes :=
  bs.take offset ++ patch ++ bs.drop (offset + patch.length)

/-- Octet by octet exclusive or, as long as the shorter string. -/
def xor (a b : Bytes) : Bytes := List.zipWith (· ^^^ ·) a b

theorem length_xor (a b : Bytes) : (a.xor b).length = min a.length b.length := by simp [xor]

/-- Combining twice with the same octets changes nothing. -/
theorem xor_xor (a key : Bytes) (h : a.length ≤ key.length) : (a.xor key).xor key = a := by
  induction a generalizing key with
  | nil => rfl
  | cons x a ih =>
    cases key with
    | nil => simp at h
    | cons k key =>
      simp only [xor, List.zipWith_cons_cons, UInt8.xor_assoc, UInt8.xor_self, UInt8.xor_zero]
      exact congrArg (x :: ·) (ih key (by simpa using h))

/-- The string cut into pieces of sixteen octets; the last piece may be shorter. -/
def chunks16 (bs : Bytes) : List Bytes :=
  if _h : bs = [] then [] else bs.take 16 :: chunks16 (bs.drop 16)
termination_by bs.length
decreasing_by
  have := List.length_pos_iff.mpr _h
  simp only [List.length_drop]
  omega

/-- Sixteen octets in front are the first piece. -/
theorem chunks16_append (piece rest : Bytes) (h : piece.length = 16) :
    (piece ++ rest).chunks16 = piece :: rest.chunks16 := by
  rw [chunks16, dif_neg (by intro e; simp [List.append_eq_nil_iff.mp e] at h)]
  simp [← h]

/-- The pieces together are the string. -/
theorem flatten_chunks16 (bs : Bytes) : bs.chunks16.flatten = bs := by
  fun_induction chunks16 bs with
  | case1 => simp_all
  | case2 bs h ih => simp [ih]

/-- A string of whole blocks has no shorter piece. -/
theorem length_of_mem_chunks16 {bs piece : Bytes} (h : bs.length % 16 = 0)
    (mem : piece ∈ bs.chunks16) : piece.length = 16 := by
  fun_induction chunks16 bs with
  | case1 => simp at mem
  | case2 bs hne ih =>
    have := List.length_pos_iff.mpr hne
    rcases List.mem_cons.mp mem with rfl | mem
    · simp only [List.length_take]
      omega
    · exact ih (by simp only [List.length_drop]; omega) mem

/-- The string without the zero octets at its end. -/
def trimZeros (bs : Bytes) : Bytes := (bs.reverse.dropWhile (· == 0)).reverse

end Bytes

/-! ## 3. Blocks of sixteen -/

/-- Sixteen octets: a digest or an authenticator. -/
structure Block where
  octets : Bytes
  length_octets : octets.length = 16
  deriving DecidableEq

namespace Block

/-- Sixteen zero octets. -/
def zero : Block := ⟨Bytes.zeros 16, by simp⟩

instance : Inhabited Block := ⟨zero⟩

/-- The block that the octets form, if there are sixteen. -/
def ofBytes? (bs : Bytes) : Option Block :=
  if h : bs.length = 16 then some ⟨bs, h⟩ else none

/-- The sixteen octets at `offset`, where the string reaches that far. -/
def at? (bs : Bytes) (offset : Nat) : Option Block := ofBytes? (bs.slice offset 16)

@[simp] theorem ofBytes?_octets (b : Block) : ofBytes? b.octets = some b := by
  simp [ofBytes?, b.length_octets]

end Block

end AccessGate
