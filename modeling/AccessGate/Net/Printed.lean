import AccessGate.Net.Address
import AccessGate.Text.Hex

/-!
# Addresses as text

* version 4: four decimal octets with dots;
* version 6: lower-case groups without leading zeros, the first longest run of at least two zero
  groups as `::`, and a mapped version 4 address as `::ffff:` and its dotted form;
* an endpoint: address and port with a colon, version 6 in brackets with `%scope` when the scope is
  not zero;
* a network: address and length with a slash.
-/

namespace AccessGate

/-- The dotted form. -/
def Ipv4.print (a : Ipv4) : String :=
  ".".intercalate (a.octets.map fun b => toString b.toNat)

namespace Ipv6

/-- The number of zero groups at the front. -/
def zeroRun (gs : List Nat) : Nat := (gs.takeWhile (· == 0)).length

/-- Start and length of the first longest run of zero groups, from position `start` on. -/
def longestRun : Nat → List Nat → Nat × Nat
  | start, [] => (start, 0)
  | start, g :: rest =>
    let here := zeroRun (g :: rest)
    let later := longestRun (start + 1) rest
    if here ≥ later.2 then (start, here) else later

/-- Groups in hexadecimal with colons between them. -/
def joined (gs : List Nat) : String :=
  ":".intercalate (gs.map fun g => String.ofList (Hex.ofNat g))

/-- The canonical form. -/
def print (a : Ipv6) : String :=
  match a.mapped? with
  | some inner => "::ffff:" ++ inner.print
  | none =>
    let gs := a.groups
    let (start, len) := longestRun 0 gs
    if len ≥ 2 then joined (gs.take start) ++ "::" ++ joined (gs.drop (start + len))
    else joined gs

end Ipv6

/-- The text of an address. -/
def IpAddress.print : IpAddress → String
  | .v4 a => a.print
  | .v6 a => a.print

/-- The text of an endpoint. -/
def Endpoint.print : Endpoint → String
  | .v4 a port => a.print ++ ":" ++ toString port.toNat
  | .v6 a scope port =>
    let scopeText := if scope = 0 then "" else "%" ++ toString scope.toNat
    "[" ++ a.print ++ scopeText ++ "]:" ++ toString port.toNat

/-- The text of a network, host bits as given. -/
def Network.print (net : Network) : String := net.address.print ++ "/" ++ toString net.len

end AccessGate
