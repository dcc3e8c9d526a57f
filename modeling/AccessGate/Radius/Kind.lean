import AccessGate.Text.Blank

/-!
# Kinds of attribute values

A dictionary names the kind of each attribute. Names are read without regard to ASCII case and to
blanks around them; every name that is not known stands for raw octets.
-/

namespace AccessGate.Radius

/-- How the octets of a value are read. -/
inductive Kind where
  | text
  | taggedText
  | integer
  | taggedInteger
  | address
  | octets
  | other
  deriving DecidableEq, Repr, Inhabited

namespace Kind

/-- The name in a dictionary. -/
def name : Kind → String
  | text => "string"
  | taggedText => "tagged-string"
  | integer => "integer"
  | taggedInteger => "tagged-integer"
  | address => "ipaddr"
  | octets => "octet"
  | other => "other"

/-- The kind that a name stands for. -/
def ofName (name : String) : Kind :=
  match (Text.trim name).toLower with
  | "string" | "text" => text
  | "tagged-string" => taggedText
  | "integer" => integer
  | "tagged-integer" => taggedInteger
  | "ipaddr" => address
  | "octet" | "octets" => octets
  | _ => other

/-- Values of this kind are texts. -/
def isTextual : Kind → Bool
  | text | taggedText => true
  | _ => false

/-- Values of this kind are numbers. -/
def isInteger : Kind → Bool
  | integer | taggedInteger => true
  | _ => false

end Kind

end AccessGate.Radius
