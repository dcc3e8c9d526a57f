import Mathlib.Order.Bounds.Defs
import AccessGate.Proofs.Lists
import AccessGate.Proofs.Text.Utf8
import AccessGate.Radius.HiddenPassword

/-!
# Hidden passwords are revealed

A password is filled to whole blocks before it is hidden, so its hidden form is never empty and has
no broken block (`length_hide`), and what is revealed is the password with the filling, less the
zeros at the end: the password less its own (`reveal_hide`).

* `block_of_hide`: each block is hidden under the digest of the secret and the hidden block before
  it;
* `reveal_ok_iff`, `reveal_error_iff`: whole blocks are what a password is hidden as, and it is the
  one that is revealed (`Conceals`); octets that are no whole blocks reveal nothing;
* `reveal_inverts_hide`: so hiding and revealing undo each other, up to zeros at the end.
-/

namespace AccessGate

/-- Trimming cuts zeros off the end. -/
theorem Bytes.exists_eq_trimZeros_append (bs : Bytes) :
    ∃ count, bs = bs.trimZeros ++ Bytes.zeros count :=
  exists_eq_rdropWhile_append 0 bs

/-- Zeros at the end are nothing to whoever trims them. -/
theorem Bytes.trimZeros_append_zeros (bs : Bytes) (count : Nat) :
    (bs ++ Bytes.zeros count).trimZeros = bs.trimZeros :=
  rdropWhile_append_replicate 0 bs count

namespace Radius.HiddenPassword

variable (ds : Digests) (secret : Bytes)

/-- The filled password has whole blocks, and at least one. -/
theorem length_padded (password : Bytes) :
    (padded password).length = paddedSize password.length := by
  have hle : password.length ≤ paddedSize password.length := by
    unfold paddedSize
    omega
  unfold padded
  rw [List.length_append, Bytes.length_zeros]
  omega

theorem paddedSize_mod (size : Nat) : paddedSize size % 16 = 0 := Nat.mul_mod_left _ 16

theorem paddedSize_pos (size : Nat) : 0 < paddedSize size := by
  unfold paddedSize
  omega

/-- No smaller size of whole blocks would do. -/
theorem isLeast_paddedSize (size : Nat) :
    IsLeast {padded | 0 < padded ∧ 16 ∣ padded ∧ size ≤ padded} (paddedSize size) := by
  refine ⟨⟨paddedSize_pos size, Nat.dvd_mul_left 16 _, ?_⟩, ?_⟩
  · unfold paddedSize
    omega
  · intro padded hpadded
    obtain ⟨hpos, ⟨blocks, rfl⟩, hsize⟩ := hpadded
    unfold paddedSize
    omega

/-- Whole blocks need no filling. -/
theorem padded_of_whole {bs : Bytes} (more : bs ≠ []) (whole : 16 ∣ bs.length) :
    padded bs = bs := by
  have hpos := List.length_pos_iff.mpr more
  have hsize : paddedSize bs.length = bs.length := by
    unfold paddedSize
    omega
  unfold padded
  rw [hsize, Nat.sub_self]
  exact List.append_nil bs

/-- Hiding keeps the length of whole blocks. -/
theorem length_hideBlocks (before : Bytes) (blocks : List Bytes) (h : ∀ b ∈ blocks, b.length = 16) :
    (hideBlocks ds secret before blocks).length = blocks.flatten.length := by
  induction blocks generalizing before with
  | nil => rfl
  | cons block rest ih =>
    have hblock := h block List.mem_cons_self
    unfold hideBlocks
    rw [List.length_append, ih _ fun b hb => h b (List.mem_cons_of_mem _ hb),
      length_xor_key ds secret before block hblock, List.flatten_cons, List.length_append, hblock]

/-- And so does showing. -/
theorem length_showBlocks (before : Bytes) (blocks : List Bytes) (h : ∀ b ∈ blocks, b.length = 16) :
    (showBlocks ds secret before blocks).length = blocks.flatten.length := by
  induction blocks generalizing before with
  | nil => rfl
  | cons block rest ih =>
    have hblock := h block List.mem_cons_self
    unfold showBlocks
    rw [List.length_append, ih _ fun b hb => h b (List.mem_cons_of_mem _ hb),
      length_xor_key ds secret before block hblock, List.flatten_cons, List.length_append, hblock]

theorem mem_padded_chunks {password piece : Bytes} (h : piece ∈ (padded password).chunks16) :
    piece.length = 16 := by
  refine Bytes.length_of_mem_chunks16 ?_ h
  rw [length_padded]
  exact paddedSize_mod _

/-- **The hidden form has whole blocks**, the least number that hold the password, and at least
one. -/
theorem length_hide (a : Block) (password : Bytes) :
    (hide ds secret a password).length = paddedSize password.length := by
  unfold hide
  rw [length_hideBlocks ds secret _ _ fun _ => mem_padded_chunks, Bytes.flatten_chunks16,
    length_padded]

/-- **What is revealed is the password less the zeros at its end.** -/
theorem reveal_hide (a : Block) (password : Bytes) :
    reveal ds secret a (hide ds secret a password) = .ok password.trimZeros := by
  have hlength := length_hide ds secret a password
  have hblocks : ¬ (hide ds secret a password = [] ∨
      (hide ds secret a password).length % 16 ≠ 0) := by
    rintro (hempty | hbroken)
    · rw [hempty] at hlength
      exact absurd (paddedSize_pos password.length) (by rw [← hlength]; exact Nat.lt_irrefl 0)
    · exact hbroken (by rw [hlength]; exact paddedSize_mod _)
  have hshown : showBlocks ds secret a.octets (hide ds secret a password).chunks16 =
      padded password := by
    unfold hide
    rw [showBlocks_hideBlocks ds secret a.octets _ fun _ => mem_padded_chunks,
      Bytes.flatten_chunks16]
  unfold reveal
  rw [if_neg hblocks, hshown]
  unfold padded
  rw [Bytes.trimZeros_append_zeros]

/-- A block of the hidden form is the block in its place under the key that the sixteen octets before
it make. -/
theorem block_of_hideBlocks {blocks : List Bytes} (sizes : ∀ b ∈ blocks, b.length = 16)
    {before front block after : Bytes} (first : before.length = 16)
    (cut : hideBlocks ds secret before blocks = front ++ block ++ after) (whole : 16 ∣ front.length)
    (size : block.length = 16) :
    block = (Bytes.slice blocks.flatten front.length 16).xor
      (key ds secret ((before ++ front).drop front.length)) := by
  induction blocks generalizing before front with
  | nil =>
    have hnone : block = [] :=
      (List.append_eq_nil_iff.mp (List.append_eq_nil_iff.mp cut.symm).1).2
    rw [hnone] at size
    cases size
  | cons b rest ih =>
    have hb := sizes b List.mem_cons_self
    obtain ⟨hidden, hhidden⟩ : ∃ hidden, hidden = b.xor (key ds secret before) := ⟨_, rfl⟩
    have hlength : hidden.length = 16 := by
      rw [hhidden]
      exact length_xor_key ds secret before b hb
    have hcut : hidden ++ hideBlocks ds secret hidden rest = front ++ block ++ after := by
      rw [← cut, hhidden]
      rfl
    by_cases hfront : front = []
    · -- it is the first block, whose key the octets before all blocks make
      subst hfront
      rw [List.nil_append] at hcut
      have hblock := (List.append_inj hcut (by rw [hlength, size])).1
      have hslice : Bytes.slice (b :: rest).flatten 0 16 = b := List.take_left' hb
      show block = (Bytes.slice (b :: rest).flatten 0 16).xor (key ds secret (before ++ []))
      rw [hslice, List.append_nil, ← hhidden, hblock]
    · -- it stands behind the first block, which is then the one that its key goes back to
      have hlong : 16 ≤ front.length :=
        Nat.le_of_dvd (List.length_pos_iff.mpr hfront) whole
      obtain ⟨tail, rfl⟩ : ∃ tail, front = hidden ++ tail := by
        have htake := congrArg (List.take 16) hcut
        rw [List.append_assoc, List.take_left' hlength, List.take_append_of_le_length hlong]
          at htake
        exact ⟨front.drop 16, by rw [htake, List.take_append_drop]⟩
      have hrest : hideBlocks ds secret hidden rest = tail ++ block ++ after := by
        rw [List.append_assoc, List.append_assoc] at hcut
        rw [List.append_assoc]
        exact List.append_cancel_left hcut
      have hwhole : 16 ∣ tail.length := by
        rw [List.length_append, hlength] at whole
        exact (Nat.dvd_add_right (Nat.dvd_refl 16)).mp whole
      have hnext := ih (fun b hb => sizes b (List.mem_cons_of_mem _ hb)) hlength hrest hwhole
      have hslice : Bytes.slice (b :: rest).flatten (hidden ++ tail).length 16 =
          Bytes.slice rest.flatten tail.length 16 := by
        unfold Bytes.slice
        rw [List.flatten_cons, List.length_append, hlength, ← hb, List.drop_length_add_append]
      have hdrop : (before ++ (hidden ++ tail)).drop (hidden ++ tail).length =
          (hidden ++ tail).drop tail.length := by
        rw [List.length_append, hlength, ← first, List.drop_length_add_append]
      rw [hslice, hdrop]
      exact hnext

/-- **Each block is hidden under the digest of the secret and the hidden block before it**, the first
under that of the secret and the authenticator. -/
theorem block_of_hide {a : Block} {password front block after : Bytes}
    (cut : hide ds secret a password = front ++ block ++ after) (whole : 16 ∣ front.length)
    (size : block.length = 16) :
    block = ((padded password).slice front.length 16).xor
      (ds.digest (secret ++ (a.octets ++ front).drop front.length)).octets := by
  have hblock := block_of_hideBlocks ds secret (fun _ => mem_padded_chunks) a.length_octets cut whole
    size
  rw [Bytes.flatten_chunks16] at hblock
  exact hblock

/-- The hidden form is that of the password, filled with zeros to its size, and the password does not
end with one. -/
structure Conceals (a : Block) (hidden plain : Bytes) : Prop where
  more : hidden ≠ []
  whole : 16 ∣ hidden.length
  fits : plain.length ≤ hidden.length
  trimmed : plain.getLast? ≠ some 0
  hides : hide ds secret a (plain ++ Bytes.zeros (hidden.length - plain.length)) = hidden

/-- Whole blocks reveal what they conceal. -/
theorem conceals_of_reveal {a : Block} {hidden plain : Bytes}
    (h : reveal ds secret a hidden = .ok plain) : Conceals ds secret a hidden plain := by
  unfold reveal at h
  split at h
  · cases h
  · rename_i hblocks
    obtain ⟨hmore, hmod⟩ := not_or.mp hblocks
    have hwhole : 16 ∣ hidden.length := Nat.dvd_of_mod_eq_zero (Decidable.not_not.mp hmod)
    have hpieces : ∀ b ∈ hidden.chunks16, b.length = 16 := fun b =>
      Bytes.length_of_mem_chunks16 (Nat.mod_eq_zero_of_dvd hwhole)
    obtain ⟨shown, hshown⟩ : ∃ shown,
        shown = showBlocks ds secret a.octets hidden.chunks16 := ⟨_, rfl⟩
    have hlength : shown.length = hidden.length := by
      rw [hshown, length_showBlocks ds secret _ _ hpieces, Bytes.flatten_chunks16]
    rw [← hshown] at h
    obtain rfl := Except.ok.inj h
    -- the zeros that were trimmed are those that fill the password again
    obtain ⟨count, hcount⟩ := Bytes.exists_eq_trimZeros_append shown
    have hsum := congrArg List.length hcount
    rw [List.length_append, Bytes.length_zeros, hlength] at hsum
    have hfilled : shown.trimZeros ++ Bytes.zeros (hidden.length - shown.trimZeros.length) =
        shown := by
      rw [hsum, Nat.add_sub_cancel_left, ← hcount]
    have hsome : shown ≠ [] := by
      rw [← List.length_pos_iff, hlength]
      exact List.length_pos_iff.mpr hmore
    refine ⟨hmore, hwhole, Nat.le.intro hsum.symm, Utf8.trimmed_trimZeros shown, ?_⟩
    unfold hide
    rw [hfilled, padded_of_whole hsome (by rw [hlength]; exact hwhole), hshown,
      hideBlocks_showBlocks ds secret a.octets _ hpieces, Bytes.flatten_chunks16]

/-- **What is revealed is what the blocks conceal**, and nothing else is. -/
theorem reveal_ok_iff {a : Block} {hidden plain : Bytes} :
    reveal ds secret a hidden = .ok plain ↔ Conceals ds secret a hidden plain := by
  constructor
  · exact conceals_of_reveal ds secret
  · intro h
    have hreveal := reveal_hide ds secret a
      (plain ++ Bytes.zeros (hidden.length - plain.length))
    rw [h.hides, Bytes.trimZeros_append_zeros, Utf8.Trimmed.trimZeros h.trimmed] at hreveal
    exact hreveal

/-- **Octets that are no whole blocks reveal nothing**, and the fault tells how many they are. -/
theorem reveal_error_iff {a : Block} {hidden : Bytes} {fault : BadSize} :
    reveal ds secret a hidden = .error fault ↔
      (hidden = [] ∨ ¬ 16 ∣ hidden.length) ∧ fault = ⟨hidden.length⟩ := by
  unfold reveal
  rw [Nat.dvd_iff_mod_eq_zero]
  by_cases hblocks : hidden = [] ∨ hidden.length % 16 ≠ 0
  · rw [if_pos hblocks, Except.error.injEq]
    exact ⟨fun h => ⟨hblocks, h.symm⟩, fun h => h.2.symm⟩
  · rw [if_neg hblocks]
    constructor
    · intro h
      cases h
    · intro h
      exact absurd h.1 hblocks

/-- **Hiding and revealing undo each other**, for any digest function: a hidden password has the
least number of whole blocks that hold it, chained one to the next, and reveals the password less the
zeros at its end; whole blocks reveal the one password that they conceal; all other octets are
refused. -/
theorem reveal_inverts_hide (a : Block) :
    (∀ password, IsLeast {size | 0 < size ∧ 16 ∣ size ∧ password.length ≤ size}
        (hide ds secret a password).length ∧
      (∀ front block after, hide ds secret a password = front ++ block ++ after →
        16 ∣ front.length → block.length = 16 →
          block = ((padded password).slice front.length 16).xor
            (ds.digest (secret ++ (a.octets ++ front).drop front.length)).octets) ∧
      ∃ plain count, password = plain ++ Bytes.zeros count ∧ plain.getLast? ≠ some 0 ∧
        reveal ds secret a (hide ds secret a password) = .ok plain) ∧
    (∀ hidden, hidden ≠ [] → 16 ∣ hidden.length →
      ∃ plain, reveal ds secret a hidden = .ok plain ∧ plain.getLast? ≠ some 0 ∧
        plain.length ≤ hidden.length ∧
        hide ds secret a (plain ++ Bytes.zeros (hidden.length - plain.length)) = hidden) ∧
    ∀ hidden fault, reveal ds secret a hidden = .error fault ↔
      (hidden = [] ∨ ¬ 16 ∣ hidden.length) ∧ fault = ⟨hidden.length⟩ := by
  refine ⟨fun password => ⟨?_, fun _ _ _ => block_of_hide ds secret, ?_⟩, ?_, fun _ _ =>
    reveal_error_iff ds secret⟩
  · rw [length_hide]
    exact isLeast_paddedSize password.length
  · obtain ⟨count, hcount⟩ := Bytes.exists_eq_trimZeros_append password
    exact ⟨password.trimZeros, count, hcount, Utf8.trimmed_trimZeros password,
      reveal_hide ds secret a password⟩
  · intro hidden hmore hwhole
    cases hreveal : reveal ds secret a hidden with
    | ok plain =>
      have hconceals := conceals_of_reveal ds secret hreveal
      exact ⟨plain, rfl, hconceals.trimmed, hconceals.fits, hconceals.hides⟩
    | error fault =>
      rcases ((reveal_error_iff ds secret).mp hreveal).1 with hempty | hbroken
      · exact absurd hempty hmore
      · exact absurd hwhole hbroken

end Radius.HiddenPassword

end AccessGate
