import AccessGate.Config.Basic
import AccessGate.Text.Blank

/-!
# Names in a directory

* a user may come as `DOMAIN\account`, as `account@domain` or as the bare account; a bare account
  gets the directory's domain (`principalName`);
* the domain is configured, or spelled by the `DC` components of the base name;
* a group is known by the common name at the front of its distinguished name, where a backslash
  takes the next character as it is (`groupName`).
-/

namespace AccessGate.FirstFactor

/-- The characters around the first equals sign. -/
def keyValue? (cs : List Char) : Option (List Char × List Char) :=
  match cs.dropWhile (· ≠ '=') with
  | [] => none
  | _ :: value => some (cs.takeWhile (· ≠ '='), value)

/-- The key is the given one in any case. -/
def isKey (key : String) (cs : List Char) : Bool := Text.sameIgnoringCase (String.ofList cs) key

/-! ## 1. Users -/

/-- The account without the domain before a backslash. -/
def accountName (user : String) : String :=
  String.ofList (user.toList.reverse.takeWhile (· ≠ '\\')).reverse

/-- The name that a user binds with. -/
def principalName (user : String) (domain : Option String) : String :=
  if user.toList.any fun c => c == '@' || c == '\\' then user
  else
    match domain with
    | some domain => if domain.isEmpty then user else user ++ "@" ++ domain
    | none => user

/-! ## 2. Domains -/

/-- The label of one component, if it is a `DC`. -/
def label? (component : List Char) : Option String :=
  match keyValue? (Text.trimChars component) with
  | some (key, value) => if isKey "dc" key then some (String.ofList value) else none
  | none => none

/-- The labels that a base name spells. -/
def labels (baseDn : String) : List String :=
  (Text.splitChars (· == ',') baseDn.toList).filterMap label?

/-- The domain of a directory. -/
def domainOf (s : LdapSettings) : Option String :=
  match s.domain with
  | some domain => some domain
  | none => if labels s.baseDn = [] then none else some (".".intercalate (labels s.baseDn))

/-! ## 3. Groups -/

/-- The first component of a distinguished name, its escapes resolved. -/
def firstComponent : List Char → List Char
  | [] => []
  | ['\\'] => []
  | '\\' :: c :: rest => c :: firstComponent rest
  | ',' :: _ => []
  | c :: rest => c :: firstComponent rest

/-- The common name of a group; a name that starts with no common name stays whole. -/
def groupName (dn : String) : String :=
  match keyValue? (firstComponent dn.toList) with
  | some (key, value) =>
    if isKey "cn" (Text.trimChars key) then String.ofList (Text.trimChars value) else dn
  | none => dn

end AccessGate.FirstFactor
