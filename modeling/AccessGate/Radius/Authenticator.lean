import AccessGate.Digest.Basic

/-!
# Authenticators

A packet is a head of twenty octets, whose last sixteen are the authenticator, and the attributes.

* the *response authenticator* is the digest of the packet, with the request's authenticator in that
  field, and the secret; the *request authenticator* of some codes is the same with zeros;
* a *Message-Authenticator* at an offset is the keyed digest of the packet with zeros at that
  offset. Who signs and who verifies first put the field that the other one uses into the packet.
-/

namespace AccessGate.Radius

/-- Where the authenticator stands. -/
def authenticatorOffset : Nat := 4

/-- The size of the head. -/
def headSize : Nat := 20

namespace Authenticator

/-- The packet with another authenticator. -/
def replace (packet : Bytes) (authenticator : Block) : Bytes :=
  packet.overwrite authenticatorOffset authenticator.octets

/-- The sixteen octets in the authenticator field. -/
def field? (packet : Bytes) : Option Block := Block.at? packet authenticatorOffset

/-- The digest of the packet, with the given authenticator in its field, and the secret. -/
def response (ds : Digests) (packet : Bytes) (authenticator : Block) (secret : Bytes) : Block :=
  ds.digest <|
    packet.take authenticatorOffset ++ authenticator.octets ++ packet.drop headSize ++ secret

/-- The packet carries the response authenticator for this request. -/
def verifyResponse (ds : Digests) (packet : Bytes) (authenticator : Block) (secret : Bytes) :
    Bool :=
  field? packet == some (response ds packet authenticator secret)

/-- The computed authenticator of a request. -/
def request (ds : Digests) (packet secret : Bytes) : Block := response ds packet .zero secret

/-- The packet carries its computed authenticator. -/
def verifyRequest (ds : Digests) (packet secret : Bytes) : Bool :=
  verifyResponse ds packet .zero secret

end Authenticator

namespace MessageAuthenticator

/-- The size of the value. -/
def size : Nat := 16

/-- The packet with zeros at the offset. -/
def cleared (packet : Bytes) (offset : Nat) : Bytes := packet.overwrite offset (Bytes.zeros size)

/-- The value that belongs at the offset. -/
def value (ds : Digests) (packet secret : Bytes) (offset : Nat) : Block :=
  ds.mac secret (cleared packet offset)

/-- The packet with its value at the offset. -/
def sign (ds : Digests) (packet secret : Bytes) (offset : Nat) : Bytes :=
  packet.overwrite offset (value ds packet secret offset).octets

/-- The packet reaches past the offset and carries its value there. -/
def verify (ds : Digests) (packet secret : Bytes) (offset : Nat) : Bool :=
  decide (offset + size ≤ packet.length) &&
    packet.slice offset size == (value ds packet secret offset).octets

end MessageAuthenticator

end AccessGate.Radius
