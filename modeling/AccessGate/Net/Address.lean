import AccessGate.Bytes

/-!
# Addresses

* an address of version 4 is a word of thirty-two bits, one of version 6 of a hundred and
  twenty-eight;
* an endpoint is an address with a port; one of version 6 also has a scope, zero for none;
* a network is an address with the number of leading bits that count (`Network.contains`); the other
  bits of the address are kept as written.
-/

namespace AccessGate

/-- An address of version 4. -/
structure Ipv4 where
  bits : BitVec 32
  deriving DecidableEq, Repr, Inhabited

/-- An address of version 6. -/
structure Ipv6 where
  bits : BitVec 128
  deriving DecidableEq, Repr, Inhabited

namespace Ipv4

/-- The four octets, first the most significant. -/
def octets (a : Ipv4) : Bytes := Bytes.ofNat 4 a.bits.toNat

/-- The address of four octets. -/
def ofOctets (bs : Bytes) : Ipv4 := ⟨BitVec.ofNat 32 bs.toNat⟩

end Ipv4

namespace Ipv6

/-- The eight groups of sixteen bits, first the most significant. -/
def groups (a : Ipv6) : List Nat :=
  (List.range 8).map fun i => a.bits.toNat >>> (16 * (7 - i)) % 65536

/-- The address of eight groups. -/
def ofGroups (gs : List Nat) : Ipv6 := ⟨BitVec.ofNat 128 (gs.foldl (fun n g => n * 65536 + g) 0)⟩

/-- The version 4 address inside `::ffff:0:0/96`. -/
def mapped? (a : Ipv6) : Option Ipv4 :=
  if a.bits.toNat >>> 32 = 0xFFFF then some ⟨a.bits.truncate 32⟩ else none

end Ipv6

/-- An address of either version. -/
inductive IpAddress where
  | v4 (a : Ipv4)
  | v6 (a : Ipv6)
  deriving DecidableEq, Repr, Inhabited

/-- An address with a port. A scope names the link that a version 6 address belongs to. -/
inductive Endpoint where
  | v4 (a : Ipv4) (port : UInt16)
  | v6 (a : Ipv6) (scope : UInt32) (port : UInt16)
  deriving DecidableEq, Repr, Inhabited

namespace Endpoint

/-- The endpoint of an address and a port, without a scope. -/
def make : IpAddress → UInt16 → Endpoint
  | .v4 a, port => .v4 a port
  | .v6 a, port => .v6 a 0 port

/-- The address of an endpoint. -/
def address : Endpoint → IpAddress
  | .v4 a _ => .v4 a
  | .v6 a _ _ => .v6 a

end Endpoint

/-- An address and the number of its leading bits that name the network. -/
structure Network where
  address : IpAddress
  len : Nat
  deriving DecidableEq, Repr

namespace Network

/-- The leading `len` bits of two words are the same. -/
def sameLead {width : Nat} (len : Nat) (a b : BitVec width) : Bool :=
  a.toNat >>> (width - len) == b.toNat >>> (width - len)

/-- The address is of the network's version and starts with its leading bits. -/
def contains (net : Network) (address : IpAddress) : Bool :=
  match net.address, address with
  | .v4 a, .v4 b => sameLead net.len a.bits b.bits
  | .v6 a, .v6 b => sameLead net.len a.bits b.bits
  | _, _ => false

end Network

end AccessGate
