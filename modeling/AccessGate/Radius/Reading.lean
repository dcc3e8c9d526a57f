import AccessGate.Radius.Authenticator
import AccessGate.Radius.HiddenPassword
import AccessGate.Radius.Packet
import AccessGate.Radius.Tlv

/-!
# Reading packets

The octets of a packet pass their checks in this order, and the first that fails is the fault:
size, declared length, code, the computed authenticator of the codes where it is compared, the list
of attributes in the order of offsets, and the last Message-Authenticator.

Then each attribute contributes values on its own (`contribution`): nothing where the dictionary or
the value does not allow it, so a bad attribute takes nothing from the others.
-/

namespace AccessGate.Radius

/-- How the octets of a password become a text. -/
inductive PasswordEncoding where
  | utf8
  | latin1
  deriving DecidableEq, Repr, Inhabited

/-- The text of a password. -/
def PasswordEncoding.decode : PasswordEncoding → Bytes → String
  | utf8, bs => Utf8.decodeLossy bs
  | latin1, bs => Utf8.decodeLatin1 bs

/-- All that a reader knows besides the octets. -/
structure ReadingContext where
  digests : Digests
  dictionary : Dictionary
  secret : Secret
  encoding : PasswordEncoding

namespace ReadingContext

/-! ## 1. Contributions -/

/-- A value under the name of its definition, where there is one and the octets fit its kind. -/
def defined (entry : Option Entry) (bs : Bytes) : List (Name × Value) :=
  match entry with
  | none => []
  | some e =>
    match Value.decode e.kind bs with
    | .ok v => [(e.name, v)]
    | .error _ => []

/-- The name of a code, invented where the dictionary has none. -/
def nameOf (d : Dictionary) (code : UInt8) : Name :=
  match d.byCode? code with
  | some e => e.name
  | none => "Attr-" ++ toString code.toNat

/-- The values inside a vendor's attribute: a vendor number, then attributes of the vendor's own. -/
def vendorValues (d : Dictionary) (bs : Bytes) : List (Name × Value) :=
  if bs.length < 6 then []
  else
    let vendor := UInt32.ofNat (Bytes.toNat (bs.take 4))
    (Tlv.readWhile (bs.drop 4)).flatMap fun t => defined (d.byVendor? ⟨vendor, t.code⟩) t.value

/-- What one attribute adds to a packet with the given authenticator. -/
def contribution (ctx : ReadingContext) (authenticator : Block) (t : Tlv) : List (Name × Value) :=
  if t.code = Attribute.vendorSpecific then vendorValues ctx.dictionary t.value
  else if t.code = Attribute.userPassword then
    match HiddenPassword.reveal ctx.digests ctx.secret.bytes authenticator t.value with
    | .ok plain => [(nameOf ctx.dictionary t.code, .text (ctx.encoding.decode plain))]
    | .error _ => []
  else defined (ctx.dictionary.byCode? t.code) t.value

/-! ## 2. Checks -/

/-- The head of a packet: its code, identifier and authenticator. -/
structure Head where
  code : Code
  identifier : UInt8
  authenticator : Block

/-- The head of a packet whose size and length are right. -/
def head (packet : Bytes) : Except Fault Head :=
  match packet, Authenticator.field? packet with
  | code :: identifier :: high :: low :: _, some authenticator =>
    let declared := high.toNat * 256 + low.toNat
    if declared = packet.length then
      match Code.ofNumber? code with
      | some code => .ok ⟨code, identifier, authenticator⟩
      | none => .error (.invalidCode code)
    else .error (.lengthMismatch declared packet.length)
  | _, _ => .error (.invalidLength packet.length)

/-- The packet as its signer saw it: with the authenticator of the request it answers, or zeros for
a computed authenticator. -/
def asSigned (packet : Bytes) (code : Code) (requestAuthenticator : Option Block) : Bytes :=
  match requestAuthenticator with
  | some authenticator => Authenticator.replace packet authenticator
  | none => if code.hasComputedAuthenticator then Authenticator.replace packet .zero else packet

/-- The last Message-Authenticator, if there is one, is right. -/
def messageAuthenticatorHolds (ctx : ReadingContext) (packet : Bytes) (code : Code)
    (requestAuthenticator : Option Block) (ts : List Tlv) : Bool :=
  match Tlv.lastOffset? Attribute.messageAuthenticator headSize ts with
  | none => true
  | some offset =>
    MessageAuthenticator.verify ctx.digests (asSigned packet code requestAuthenticator)
      ctx.secret.bytes offset

/-- The packet that octets write. -/
def read (ctx : ReadingContext) (requestAuthenticator : Option Block) (packet : Bytes) :
    Except Fault Packet := do
  let h ← head packet
  if h.code.authenticatorIsCompared &&
      !Authenticator.verifyRequest ctx.digests packet ctx.secret.bytes then
    throw .invalidRequestAuthenticator
  let ts ← Tlv.readAll headSize (packet.drop headSize)
  if !messageAuthenticatorHolds ctx packet h.code requestAuthenticator ts then
    throw .invalidMessageAuthenticator
  return {
    code := h.code
    identifier := h.identifier
    authenticator := h.authenticator
    requestAuthenticator
    secret := ctx.secret
    attributes := .ofList (ts.flatMap (contribution ctx h.authenticator)) }

end ReadingContext

end AccessGate.Radius
