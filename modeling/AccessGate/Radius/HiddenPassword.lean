import AccessGate.Digest.Basic

/-!
# Hidden passwords

A password travels under a key stream. It is filled with zeros to whole blocks, at least one; each
block is combined with the digest of the secret and the hidden block before it, the first with the
digest of the secret and the authenticator. So the reader needs no block it does not see
(`showBlocks_hideBlocks`), and gets the password less the zeros at its end.
-/

namespace AccessGate.Radius.HiddenPassword

/-- The smallest positive multiple of sixteen that holds `size` octets. -/
def paddedSize (size : Nat) : Nat := max ((size + 15) / 16) 1 * 16

/-- The password filled with zeros. -/
def padded (password : Bytes) : Bytes :=
  password ++ Bytes.zeros (paddedSize password.length - password.length)

/-- The key of a block, from the block before it on the wire. -/
def key (ds : Digests) (secret before : Bytes) : Bytes := (ds.digest (secret ++ before)).octets

/-- Hides blocks, the hidden block `before` them known. -/
def hideBlocks (ds : Digests) (secret : Bytes) : Bytes → List Bytes → Bytes
  | _, [] => []
  | before, block :: rest =>
    let hidden := block.xor (key ds secret before)
    hidden ++ hideBlocks ds secret hidden rest

/-- The hidden form of a password. -/
def hide (ds : Digests) (secret : Bytes) (authenticator : Block) (password : Bytes) : Bytes :=
  hideBlocks ds secret authenticator.octets (padded password).chunks16

/-- Shows blocks, the hidden block `before` them known. -/
def showBlocks (ds : Digests) (secret : Bytes) : Bytes → List Bytes → Bytes
  | _, [] => []
  | before, block :: rest => block.xor (key ds secret before) ++ showBlocks ds secret block rest

/-- A size that no hidden password has: none, or no whole number of blocks. -/
structure BadSize where
  size : Nat
  deriving DecidableEq, Repr

/-- The fault in words. -/
def BadSize.message (f : BadSize) : String :=
  "Invalid encrypted password length: " ++ toString f.size

/-- The password that a hidden form shows. -/
def reveal (ds : Digests) (secret : Bytes) (authenticator : Block) (hidden : Bytes) :
    Except BadSize Bytes :=
  if hidden = [] ∨ hidden.length % 16 ≠ 0 then .error ⟨hidden.length⟩
  else .ok (showBlocks ds secret authenticator.octets hidden.chunks16).trimZeros

/-! ## Blocks there and back -/

theorem length_key (ds : Digests) (secret before : Bytes) : (key ds secret before).length = 16 :=
  (ds.digest _).length_octets

/-- A block under its key is a block. -/
theorem length_xor_key (ds : Digests) (secret before block : Bytes) (h : block.length = 16) :
    (block.xor (key ds secret before)).length = 16 := by
  simp [Bytes.length_xor, h, length_key]

/-- What was hidden block by block is shown. -/
theorem showBlocks_hideBlocks (ds : Digests) (secret before : Bytes) (blocks : List Bytes)
    (h : ∀ b ∈ blocks, b.length = 16) :
    showBlocks ds secret before (hideBlocks ds secret before blocks).chunks16 = blocks.flatten := by
  induction blocks generalizing before with
  | nil => simp [hideBlocks, Bytes.chunks16, showBlocks]
  | cons block rest ih =>
    have hblock := h block (by simp)
    rw [hideBlocks, Bytes.chunks16_append _ _ (length_xor_key ds secret before block hblock),
      showBlocks, Bytes.xor_xor _ _ (by simp [hblock, length_key]),
      ih _ fun b hb => h b (by simp [hb])]
    rfl

/-- What was shown block by block is hidden again. -/
theorem hideBlocks_showBlocks (ds : Digests) (secret before : Bytes) (blocks : List Bytes)
    (h : ∀ b ∈ blocks, b.length = 16) :
    hideBlocks ds secret before (showBlocks ds secret before blocks).chunks16 = blocks.flatten := by
  induction blocks generalizing before with
  | nil => simp [hideBlocks, Bytes.chunks16, showBlocks]
  | cons block rest ih =>
    have hblock := h block (by simp)
    rw [showBlocks, Bytes.chunks16_append _ _ (length_xor_key ds secret before block hblock),
      hideBlocks, Bytes.xor_xor _ _ (by simp [hblock, length_key]),
      ih _ fun b hb => h b (by simp [hb])]
    rfl

end AccessGate.Radius.HiddenPassword
