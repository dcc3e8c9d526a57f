import AccessGate.Config.Check

/-!
# Finding the client of a datagram

A datagram belongs to the client whose NAS-Identifier it carries, else to the first client whose
network holds its source address. Of two clients with one NAS-Identifier, in whatever case, the
later one has it; of two networks with one address the earlier one.
-/

namespace AccessGate

/-- Clients by lower-case NAS-Identifier, each identifier once, and by network in order. -/
structure Registry where
  byNas : List (String × Client)
  byNetwork : List (Network × Client)

namespace Registry

/-- No clients. -/
def empty : Registry := ⟨[], []⟩

/-- One more client. -/
def insert (r : Registry) (c : Client) : Except ConfigFault Registry := do
  let byNas := match c.nasIdentifier with
    | none => r.byNas
    | some nas => r.byNas.filter (fun e => e.1 ≠ Text.lower nas) ++ [(Text.lower nas, c)]
  match ← c.network with
  | none => return ⟨byNas, r.byNetwork⟩
  | some net => return ⟨byNas, r.byNetwork ++ [(net, c)]⟩

/-- The registry of a list of clients. -/
def ofList (clients : List Client) : Except ConfigFault Registry := clients.foldlM insert empty

/-- The client with the NAS-Identifier. -/
def findByNas? (r : Registry) (nas : String) : Option Client :=
  (r.byNas.find? fun e => e.1 == Text.lower nas).map (·.2)

/-- The first client whose network holds the address. -/
def findByAddress? (r : Registry) (address : IpAddress) : Option Client :=
  (r.byNetwork.find? fun e => e.1.contains address).map (·.2)

/-- The client of a NAS-Identifier and a source address. -/
def resolve? (r : Registry) (nas : Option String) (address : IpAddress) : Option Client :=
  nas.bind r.findByNas? <|> r.findByAddress? address

/-- The number of names among the clients. -/
def size (r : Registry) : Nat :=
  ((r.byNas.map fun e => e.2.name) ++ r.byNetwork.map fun e => e.2.name).eraseDups.length

/-- No client can be found. -/
def isEmpty (r : Registry) : Bool := r.byNas.isEmpty && r.byNetwork.isEmpty

end Registry

end AccessGate
