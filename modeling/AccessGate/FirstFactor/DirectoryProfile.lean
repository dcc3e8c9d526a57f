import AccessGate.FirstFactor.DirectoryNames
import AccessGate.FirstFactor.Report

/-!
# Profiles from a directory

The gateway asks a directory for the attributes that some rule may need, each once whatever its
case, in the order of their lower-case names. From the entry it gets it makes a profile, whose
groups say whether the user may pass and whether without a second factor.
-/

namespace AccessGate.FirstFactor

/-- An entry that a search found, with its attributes. -/
structure Entry where
  dn : String
  attributes : List (String × List String)
  deriving DecidableEq, Repr

/-! ## 1. Asking -/

/-- The attributes that rules of the client take from the directory. -/
def ruleArguments (client : Client) : List String :=
  (client.replyRules.filter fun r => r.condition = .fromDirectory).filterMap (·.argument)

/-- All attributes that are of use. -/
def wantedAttributes (client : Client) (s : LdapSettings) : List String :=
  ["memberOf", "displayName", "mail"] ++ s.phoneAttributes ++ ruleArguments client

/-- Of neighbours that differ only in case the first stays. -/
def mergeNeighbours : List String → List String
  | a :: b :: rest =>
    if Text.sameIgnoringCase a b then mergeNeighbours (a :: rest)
    else a :: mergeNeighbours (b :: rest)
  | as => as
termination_by as => as.length

/-- The attributes that a search asks for. -/
def requestedAttributes (client : Client) (s : LdapSettings) : List String :=
  mergeNeighbours ((wantedAttributes client s).mergeSort fun a b => Text.lower a ≤ Text.lower b)

/-- Something depends on the user's entry. -/
def needsProfile (client : Client) (s : LdapSettings) : Bool :=
  s.loadProfile || !s.requiredGroups.isEmpty || !s.mfaGroups.isEmpty ||
    !s.mfaBypassGroups.isEmpty || client.replyRules.any fun r => r.condition = .fromDirectory

/-! ## 2. Reading -/

/-- The first value of an attribute that is not empty. -/
def firstValue? (attributes : List (String × List String)) (name : String) : Option String :=
  match attributes.find? fun a => a.1 == Text.lower name with
  | some (_, values) => values.find? fun v => !v.isEmpty
  | none => none

/-- The profile of an entry. -/
def profileOf (s : LdapSettings) (entry : Entry) : Profile :=
  let attributes := entry.attributes.map fun a => (Text.lower a.1, a.2)
  { displayName := firstValue? attributes "displayName"
    email := firstValue? attributes "mail"
    phone := s.phoneAttributes.findSome? (firstValue? attributes)
    groups := match attributes.find? fun a => a.1 == "memberof" with
      | some (_, names) => names.map groupName
      | none => []
    attributes }

/-! ## 3. Membership -/

/-- The user belongs to a required group, if any is required. -/
def isAdmitted (s : LdapSettings) (p : Profile) : Bool :=
  s.requiredGroups.isEmpty || p.isMemberOfAny s.requiredGroups

/-- The user passes without a second factor: outside the groups that need one, or in a group that is
spared. -/
def isSpared (s : LdapSettings) (p : Profile) : Bool :=
  (!s.mfaGroups.isEmpty && !p.isMemberOfAny s.mfaGroups) || p.isMemberOfAny s.mfaBypassGroups

/-- The report on a user whose profile is known and whose password is right. -/
def membership (s : LdapSettings) (p : Profile) : Report :=
  if isAdmitted s p then ⟨.ok .accept, some p, none, isSpared s p⟩
  else ⟨.ok .reject, some p, none, false⟩

end AccessGate.FirstFactor
