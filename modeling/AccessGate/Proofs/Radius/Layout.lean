import AccessGate.Radius.Reading
import AccessGate.Radius.Writing

/-!
# A packet from its parts

Writer and reader both edit packets in place, at offsets. Here a packet is put together from its
code, its identifier, its authenticator and its attributes (`assemble`), and every edit becomes a
change of one part:

* another authenticator is another part (`replace_assemble`, `field?_assemble`), and the digests
  that go into the field do not see what stands in it (`response_assemble`);
* signing at the value of an attribute changes that value (`sign_assemble`), and a reader accepts
  the value when it is the keyed digest of the packet with zeros there (`verify_assemble`);
* the head of a packet that is not too large is read back (`head_assemble`).
-/

namespace AccessGate

/-! ## 1. Stretches -/

namespace Bytes

/-- Writing over a stretch of the same length changes the stretch alone. -/
theorem overwrite_middle {a old patch b : Bytes} {offset : Nat} (ha : a.length = offset)
    (h : old.length = patch.length) : (a ++ old ++ b).overwrite offset patch = a ++ patch ++ b := by
  unfold overwrite
  rw [← ha, ← h, List.append_assoc a old b, List.take_left, ← List.append_assoc a old b,
    ← List.length_append, List.drop_left]

/-- Reading a stretch gives the stretch. -/
theorem slice_middle {a b c : Bytes} {offset count : Nat} (ha : a.length = offset)
    (hb : b.length = count) : (a ++ b ++ c).slice offset count = b := by
  unfold slice
  rw [← ha, ← hb, List.append_assoc, List.drop_left, List.take_left]

end Bytes

namespace Radius

/-! ## 2. Parts -/

/-- The octets before the authenticator. -/
def front (code : Code) (identifier : UInt8) (size : Nat) : Bytes :=
  code.number :: identifier :: Bytes.ofNat 2 size

@[simp] theorem length_front (code : Code) (identifier : UInt8) (size : Nat) :
    (front code identifier size).length = authenticatorOffset := by
  simp [front, authenticatorOffset]

/-- A packet with the code, identifier, authenticator and attributes. -/
def assemble (code : Code) (identifier : UInt8) (a : Block) (ts : List Tlv) : Bytes :=
  front code identifier (headSize + (Tlv.encodeAll ts).length) ++ a.octets ++ Tlv.encodeAll ts

section

variable (ds : Digests) (code : Code) (identifier : UInt8) (a b : Block) (ts : List Tlv)
  (secret : Bytes)

theorem length_head (size : Nat) : (front code identifier size ++ a.octets).length = headSize := by
  rw [List.length_append, length_front, a.length_octets]
  rfl

theorem length_assemble :
    (assemble code identifier a ts).length = headSize + (Tlv.encodeAll ts).length := by
  unfold assemble
  rw [List.length_append, length_head]

/-- The attributes come after the head. -/
theorem drop_assemble : (assemble code identifier a ts).drop headSize = Tlv.encodeAll ts :=
  List.drop_left' (length_head code identifier a _)

/-- Another authenticator is another part. -/
theorem replace_assemble : Authenticator.replace (assemble code identifier a ts) b =
    assemble code identifier b ts := by
  refine Bytes.overwrite_middle (length_front code identifier _) ?_
  rw [a.length_octets, b.length_octets]

theorem slice_assemble :
    (assemble code identifier a ts).slice authenticatorOffset 16 = a.octets :=
  Bytes.slice_middle (length_front code identifier _) a.length_octets

theorem field?_assemble : Authenticator.field? (assemble code identifier a ts) = some a := by
  unfold Authenticator.field? Block.at?
  rw [slice_assemble, Block.ofBytes?_octets]

theorem take_assemble : (assemble code identifier a ts).take authenticatorOffset =
    front code identifier (headSize + (Tlv.encodeAll ts).length) := by
  unfold assemble
  rw [List.append_assoc]
  exact List.take_left' (length_front code identifier _)

/-- **A digest for the authenticator field does not see what stands in it.** -/
theorem response_assemble : Authenticator.response ds (assemble code identifier a ts) b secret =
    ds.digest (assemble code identifier b ts ++ secret) := by
  unfold Authenticator.response
  rw [take_assemble, drop_assemble]
  rfl

/-- A packet with the digest that belongs into the field carries it. -/
theorem verifyResponse_assemble : Authenticator.verifyResponse ds
    (assemble code identifier (ds.digest (assemble code identifier b ts ++ secret)) ts) b secret =
      true := by
  unfold Authenticator.verifyResponse
  rw [field?_assemble, response_assemble]
  exact beq_self_eq_true _

/-- The head of a packet that is not too large is read back. -/
theorem head_assemble (fits : headSize + (Tlv.encodeAll ts).length ≤ Packet.maxSize) :
    ReadingContext.head (assemble code identifier a ts) = .ok ⟨code, identifier, a⟩ := by
  obtain ⟨size, hsize⟩ : ∃ size, size = headSize + (Tlv.encodeAll ts).length := ⟨_, rfl⟩
  -- the two digits of the size are the third and the fourth octet
  have hdigits : (UInt8.ofNat (size / 256)).toNat * 256 + (UInt8.ofNat size).toNat = size := by
    have hlt : size < 65536 := Nat.lt_of_le_of_lt (hsize ▸ fits) (by decide)
    rw [UInt8.toNat_ofNat', UInt8.toNat_ofNat']
    omega
  have hwire : assemble code identifier a ts = code.number :: identifier ::
      UInt8.ofNat (size / 256) :: UInt8.ofNat size :: (a.octets ++ Tlv.encodeAll ts) := by
    unfold assemble
    rw [← hsize, List.append_assoc]
    rfl
  have hfield := field?_assemble code identifier a ts
  have hlength := length_assemble code identifier a ts
  rw [hwire] at hfield hlength ⊢
  unfold ReadingContext.head
  simp only [hfield, hdigits, hlength, ← hsize, Code.ofNumber?_number, ↓reduceIte]

end

/-! ## 3. Signatures -/

section

variable (ds : Digests) (code : Code) (identifier : UInt8) (a : Block) (before after : List Tlv)
  (secret : Bytes)

/-- A Message-Authenticator with the value. -/
def Tlv.signature (value : Bytes) : Tlv := ⟨Attribute.messageAuthenticator, value⟩

/-- Where the value of the attribute after those of `before` stands. -/
def valueOffset (before : List Tlv) : Nat := headSize + (Tlv.encodeAll before).length + 2

/-- A packet cut around the value of one attribute. -/
theorem assemble_split (value : Bytes) : ∃ start, start.length = valueOffset before ∧
    ∀ v, v.length = value.length → assemble code identifier a (before ++ Tlv.signature v :: after) =
      start ++ v ++ Tlv.encodeAll after := by
  obtain ⟨size, hsize⟩ : ∃ size, size = headSize +
      (Tlv.encodeAll (before ++ Tlv.signature value :: after)).length := ⟨_, rfl⟩
  refine ⟨front code identifier size ++ a.octets ++ Tlv.encodeAll before ++
    [Attribute.messageAuthenticator, UInt8.ofNat (value.length + 2)], ?_, ?_⟩
  · rw [List.length_append, List.length_append, length_head]
    rfl
  · intro v hv
    have hlength : (Tlv.encodeAll (before ++ Tlv.signature v :: after)).length =
        (Tlv.encodeAll (before ++ Tlv.signature value :: after)).length := by
      simp [Tlv.encodeAll, Tlv.size, Tlv.signature, hv]
    unfold assemble
    rw [hlength, ← hsize]
    simp [Tlv.encodeAll, Tlv.encode, Tlv.signature, hv]

/-- The keyed digest of a packet with zeros for the value of one attribute. -/
def signatureOf : Block :=
  ds.mac secret (assemble code identifier a (before ++ Tlv.signature (Bytes.zeros 16) :: after))

/-- The value that belongs at the offset of an attribute of sixteen octets is its signature. -/
theorem value_assemble {v : Bytes} (hv : v.length = 16) :
    MessageAuthenticator.value ds (assemble code identifier a (before ++ Tlv.signature v :: after))
      secret (valueOffset before) = signatureOf ds code identifier a before after secret := by
  obtain ⟨start, hstart, hsplit⟩ := assemble_split code identifier a before after v
  have hzeros : (Bytes.zeros 16).length = v.length := by rw [hv, Bytes.length_zeros]
  unfold MessageAuthenticator.value MessageAuthenticator.cleared signatureOf
  rw [hsplit v rfl, hsplit (Bytes.zeros 16) hzeros]
  congr 1
  exact Bytes.overwrite_middle hstart hzeros.symm

/-- **Signing changes the value of one attribute.** -/
theorem sign_assemble {v : Bytes} (hv : v.length = 16) :
    MessageAuthenticator.sign ds (assemble code identifier a (before ++ Tlv.signature v :: after))
      secret (valueOffset before) = assemble code identifier a (before ++
        Tlv.signature (signatureOf ds code identifier a before after secret).octets :: after) := by
  obtain ⟨start, hstart, hsplit⟩ := assemble_split code identifier a before after v
  have hsigned (m : Block) : v.length = m.octets.length := by rw [hv, m.length_octets]
  unfold MessageAuthenticator.sign
  rw [value_assemble ds code identifier a before after secret hv, hsplit v rfl,
    hsplit _ (hsigned _).symm]
  exact Bytes.overwrite_middle hstart (hsigned _)

/-- **A reader accepts the value that is the signature**, and no other of its size. -/
theorem verify_assemble_iff {v : Bytes} (hv : v.length = 16) :
    MessageAuthenticator.verify ds (assemble code identifier a (before ++ Tlv.signature v :: after))
      secret (valueOffset before) = true ↔
        v = (signatureOf ds code identifier a before after secret).octets := by
  obtain ⟨start, hstart, hsplit⟩ := assemble_split code identifier a before after v
  have hslice : (assemble code identifier a (before ++ Tlv.signature v :: after)).slice
      (valueOffset before) MessageAuthenticator.size = v := by
    rw [hsplit v rfl]
    exact Bytes.slice_middle hstart hv
  have hfits : valueOffset before + MessageAuthenticator.size ≤
      (assemble code identifier a (before ++ Tlv.signature v :: after)).length := by
    rw [hsplit v rfl, List.length_append, List.length_append, hstart, hv]
    exact Nat.le_add_right _ _
  unfold MessageAuthenticator.verify
  rw [value_assemble ds code identifier a before after secret hv, hslice, decide_eq_true hfits,
    Bool.true_and]
  exact beq_iff_eq

/-- **A signed packet is accepted.** -/
theorem verify_assemble :
    MessageAuthenticator.verify ds (assemble code identifier a (before ++
      Tlv.signature (signatureOf ds code identifier a before after secret).octets :: after))
      secret (valueOffset before) = true :=
  (verify_assemble_iff ds code identifier a before after secret (Block.length_octets _)).mpr rfl

end

end Radius

end AccessGate
