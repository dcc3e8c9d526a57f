import AccessGate.Text.Blank
import AccessGate.Text.Lower

/-!
# Profiles

What a directory says of a user. Groups are compared without regard to ASCII case; an attribute is
found under the lower-case form of the name that is asked for.
-/

namespace AccessGate

/-- A user in a directory. -/
structure Profile where
  displayName : Option String
  email : Option String
  phone : Option String
  groups : List String
  attributes : List (String × List String)
  deriving DecidableEq, Repr

namespace Profile

/-- Nothing is known. -/
def empty : Profile := ⟨none, none, none, [], []⟩

instance : Inhabited Profile := ⟨empty⟩

/-- The user belongs to the group. -/
def isMemberOf (p : Profile) (group : String) : Bool :=
  p.groups.any fun g => Text.sameIgnoringCase g group

/-- The user belongs to one of the groups. -/
def isMemberOfAny (p : Profile) (groups : List String) : Bool := groups.any p.isMemberOf

/-- The values of an attribute. -/
def valuesOf (p : Profile) (name : String) : List String :=
  ((p.attributes.find? fun a => a.1 == Text.lower name).map (·.2)).getD []

end Profile

end AccessGate
