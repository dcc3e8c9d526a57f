/-!
# Factors and decisions

Each of the two factors is awaited, accepted, rejected or bypassed; a bypassed factor counts as
accepted. The request is rejected as soon as one factor is, accepted when both are, and challenged
as long as one is awaited.
-/

namespace AccessGate

/-- How one factor stands. -/
inductive Factor where
  | awaiting
  | accept
  | reject
  | bypass
  deriving DecidableEq, Repr, Inhabited

/-- The name of a state. -/
def Factor.name : Factor → String
  | awaiting => "Awaiting"
  | accept => "Accept"
  | reject => "Reject"
  | bypass => "Bypass"

/-- The state of a name; any other name awaits. -/
def Factor.ofName (s : String) : Factor :=
  ([accept, reject, bypass].find? fun f => f.name == s).getD awaiting

/-- The factor was passed or need not be. -/
def Factor.isAccepted : Factor → Bool
  | accept | bypass => true
  | _ => false

/-- What becomes of a request. -/
inductive Decision where
  | accept
  | reject
  | challenge
  deriving DecidableEq, Repr, Inhabited

/-- The name of a decision. -/
def Decision.name : Decision → String
  | accept => "Accept"
  | reject => "Reject"
  | challenge => "Challenge"

/-- Both factors. -/
structure Factors where
  first : Factor
  second : Factor
  deriving DecidableEq, Repr

namespace Factors

/-- Nothing is known yet. -/
def awaiting : Factors := ⟨.awaiting, .awaiting⟩

instance : Inhabited Factors := ⟨awaiting⟩

/-- Both factors accepted. -/
def accepted : Factors := ⟨.accept, .accept⟩

/-- Both factors rejected. -/
def rejected : Factors := ⟨.reject, .reject⟩

/-- What becomes of the request. -/
def decision (f : Factors) : Decision :=
  if f.first = .reject ∨ f.second = .reject then .reject
  else if f.first.isAccepted && f.second.isAccepted then .accept
  else .challenge

end Factors

end AccessGate
