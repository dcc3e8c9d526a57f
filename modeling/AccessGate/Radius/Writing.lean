import AccessGate.Radius.Authenticator
import AccessGate.Radius.HiddenPassword
import AccessGate.Radius.Packet
import AccessGate.Radius.Tlv

/-!
# Writing packets

Each value becomes one attribute on the wire, in order; the first value that cannot is the fault,
then the size of the whole.

* a password is hidden under the authenticator of the request it belongs to;
* a Message-Authenticator is sixteen zeros until all else is in place, and the last one is signed;
* a computed authenticator goes in after the signature. Any other packet is signed with the
  request's authenticator in the field, or its own, and a reply then gets its response
  authenticator.
-/

namespace AccessGate.Radius

/-- All that a writer knows besides the packet. -/
structure WritingContext where
  digests : Digests
  dictionary : Dictionary

namespace WritingContext

/-- The authenticator that passwords are hidden under. -/
def passwordAuthenticator (p : Packet) : Block := p.requestAuthenticator.getD p.authenticator

/-- The octets that stand for a value on the wire. -/
def wireValue (ctx : WritingContext) (p : Packet) (entry : Entry) (v : Value) : Bytes :=
  if entry.vendor = none ∧ entry.code = Attribute.userPassword then
    HiddenPassword.hide ctx.digests p.secret.bytes (passwordAuthenticator p) v.encode
  else if entry.vendor = none ∧ entry.code = Attribute.messageAuthenticator then Bytes.zeros 16
  else v.encode

/-- The most octets a value of this definition may have. -/
def maxValueSize (entry : Entry) : Nat :=
  if entry.vendor.isNone then Value.maxSize else Value.maxSize - 6

/-- The attribute of a definition with the given octets. -/
def wrap (entry : Entry) (bs : Bytes) : Tlv :=
  match entry.vendor with
  | none => ⟨entry.code, bs⟩
  | some key =>
    ⟨Attribute.vendorSpecific, Bytes.ofNat 4 key.vendor.toNat ++ (Tlv.mk key.code bs).encode⟩

/-- The attribute of one value. -/
def tlv (ctx : WritingContext) (p : Packet) (name : Name) (v : Value) : Except Fault Tlv :=
  match ctx.dictionary.byName? name with
  | none => .error (.unknownAttribute name)
  | some entry =>
    let bs := wireValue ctx p entry v
    if bs.length ≤ maxValueSize entry then .ok (wrap entry bs)
    else .error (.attributeTooLong name bs.length)

/-- A value is written as a Message-Authenticator. -/
def isMessageAuthenticator (ctx : WritingContext) (name : Name) : Bool :=
  match ctx.dictionary.byName? name with
  | some entry => entry.vendor.isNone && entry.code == Attribute.messageAuthenticator
  | none => false

/-- The attributes of all values, or the fault of the first that has none. -/
def tlvs (ctx : WritingContext) (p : Packet) : List (Name × Value) → Except Fault (List Tlv)
  | [] => .ok []
  | (name, v) :: rest => do
    let t ← tlv ctx p name v
    return t :: (← tlvs ctx p rest)

/-- The offset of the last value with the property, its attribute among those that start at
`offset`. -/
def lastWhere (marked : Name → Bool) : Nat → List (Name × Value) → List Tlv → Option Nat
  | offset, (name, _) :: pairs, t :: ts =>
    lastWhere marked (offset + t.size) pairs ts <|> if marked name then some (offset + 2) else none
  | _, _, _ => none

/-- The packet with its Message-Authenticator signed, if it has one. -/
def signed (ctx : WritingContext) (p : Packet) (offset : Option Nat) (packet : Bytes) : Bytes :=
  match offset with
  | some offset => MessageAuthenticator.sign ctx.digests packet p.secret.bytes offset
  | none => packet

/-- The packet, written with zeros for its authenticator, with all its digests in place. -/
def sealed (ctx : WritingContext) (p : Packet) (offset : Option Nat) (packet : Bytes) : Bytes :=
  if p.code.hasComputedAuthenticator then
    let packet := signed ctx p offset packet
    Authenticator.replace packet (Authenticator.request ctx.digests packet p.secret.bytes)
  else
    let packet := signed ctx p offset (Authenticator.replace packet (passwordAuthenticator p))
    match p.requestAuthenticator with
    | some authenticator =>
      Authenticator.replace packet
        (Authenticator.response ctx.digests packet authenticator p.secret.bytes)
    | none => packet

/-- Head and attributes, with zeros for the authenticator. -/
def unsealed (p : Packet) (attributes : Bytes) : Bytes :=
  p.code.number :: p.identifier :: (Bytes.ofNat 2 (headSize + attributes.length) ++
    Bytes.zeros 16 ++ attributes)

/-- The octets of a packet. -/
def write (ctx : WritingContext) (p : Packet) : Except Fault Bytes := do
  let pairs := p.attributes.toList
  let ts ← tlvs ctx p pairs
  let packet := unsealed p (Tlv.encodeAll ts)
  if packet.length > Packet.maxSize then throw (.packetTooLarge packet.length)
  return sealed ctx p (lastWhere (isMessageAuthenticator ctx) headSize pairs ts) packet

end WritingContext

end AccessGate.Radius
