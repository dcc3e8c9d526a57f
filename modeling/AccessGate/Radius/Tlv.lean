import AccessGate.Radius.Dictionary

/-!
# Attributes on the wire

An attribute is its code, its length with these two octets, and its value.

* `Tlv.readAll` cuts a string into attributes; the first one that is cut short, or is a
  Message-Authenticator of another size than sixteen, is the fault, so faults come in the order of
  their offsets;
* `Tlv.encode` writes one, and what was written is read back (`readAll_encodeAll`).
-/

namespace AccessGate.Radius

/-- An attribute on the wire. -/
structure Tlv where
  code : UInt8
  value : Bytes
  deriving DecidableEq, Repr

namespace Tlv

/-- Code, length and value. The length holds for a value of up to 253 octets. -/
def encode (t : Tlv) : Bytes := t.code :: UInt8.ofNat (t.value.length + 2) :: t.value

/-- The octets of several attributes. -/
def encodeAll (ts : List Tlv) : Bytes := ts.flatMap encode

/-- The size on the wire. -/
def size (t : Tlv) : Nat := t.value.length + 2

@[simp] theorem length_encode (t : Tlv) : t.encode.length = t.size := by simp [encode, size]

/-- Cuts a string into attributes; `offset` is where it starts in its packet. -/
def readAll (offset : Nat) : Bytes → Except Fault (List Tlv)
  | [] => .ok []
  | [_] => .error (.attributeOverrun offset)
  | code :: len :: rest =>
    if len.toNat < 2 ∨ rest.length < len.toNat - 2 then .error (.attributeOverrun offset)
    else
      let value := rest.take (len.toNat - 2)
      if code = Attribute.messageAuthenticator ∧ value.length ≠ 16 then
        .error .invalidMessageAuthenticator
      else
        match readAll (offset + len.toNat) (rest.drop (len.toNat - 2)) with
        | .ok ts => .ok (⟨code, value⟩ :: ts)
        | .error fault => .error fault
termination_by bs => bs.length
decreasing_by
  simp only [List.length_drop, List.length_cons]
  omega

/-- The offset of the value of the last attribute with the code, in a list that starts at
`offset`. -/
def lastOffset? (code : UInt8) : Nat → List Tlv → Option Nat
  | _, [] => none
  | offset, t :: rest =>
    lastOffset? code (offset + t.size) rest <|> if t.code = code then some (offset + 2) else none

/-- The well-formed attributes at the front of a string; reading stops at the first that is not. -/
def readWhile : Bytes → List Tlv
  | code :: len :: rest =>
    if len.toNat < 2 ∨ rest.length < len.toNat - 2 then []
    else ⟨code, rest.take (len.toNat - 2)⟩ :: readWhile (rest.drop (len.toNat - 2))
  | _ => []
termination_by bs => bs.length
decreasing_by
  simp only [List.length_drop, List.length_cons]
  omega

/-! ## Reading undoes writing -/

/-- A list of attributes is read back from what it was written as. -/
theorem readAll_encodeAll (offset : Nat) (ts : List Tlv) (fits : ∀ t ∈ ts, t.value.length ≤ 253)
    (signed : ∀ t ∈ ts, t.code = Attribute.messageAuthenticator → t.value.length = 16) :
    readAll offset (encodeAll ts) = .ok ts := by
  induction ts generalizing offset with
  | nil => simp [encodeAll, readAll]
  | cons t rest ih =>
    have hfit := fits t (by simp)
    have hsigned := signed t (by simp)
    have hlen : (UInt8.ofNat (t.value.length + 2)).toNat = t.value.length + 2 := by
      rw [UInt8.toNat_ofNat']
      omega
    have htail := ih (offset + (t.value.length + 2)) (fun t h => fits t (by simp [h]))
      (fun t h => signed t (by simp [h]))
    rw [encodeAll, List.flatMap_cons, encode, List.cons_append, List.cons_append, readAll]
    simp only [hlen, Nat.add_sub_cancel, List.length_append, List.take_left, List.drop_left]
    rw [if_neg (by omega), if_neg (fun h => h.2 (hsigned h.1)), ← encodeAll, htail]

end Tlv

end AccessGate.Radius
