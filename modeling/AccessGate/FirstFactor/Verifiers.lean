import AccessGate.FirstFactor.Report

/-!
# The table of verifiers

At most one verifier is registered for a source; a source without one cannot be served.
-/

namespace AccessGate.FirstFactor

/-- Verifiers by source. -/
structure Verifiers (V : Type) where
  entries : List (Source × V)

namespace Verifiers

variable {V : Type}

/-- No verifiers. -/
def empty : Verifiers V := ⟨[]⟩

/-- Registers a verifier in place of the one before. -/
def insert (t : Verifiers V) (source : Source) (verifier : V) : Verifiers V :=
  ⟨t.entries.filter (fun e => e.1 ≠ source) ++ [(source, verifier)]⟩

/-- The table of a list of pairs. -/
def ofList (pairs : List (Source × V)) : Verifiers V :=
  pairs.foldl (fun t p => t.insert p.1 p.2) empty

/-- The verifier of a source. -/
def find (t : Verifiers V) (source : Source) : Except Fault V :=
  match t.entries.find? fun e => e.1 = source with
  | some (_, verifier) => .ok verifier
  | none => .error (.noVerifier source)

/-- The sources that are served, as shown to people. -/
def print (t : Verifiers V) : String :=
  "VerifierTable \x7b sources: [" ++ ", ".intercalate (t.entries.map fun e => e.1.name) ++ "] \x7d"

end Verifiers

end AccessGate.FirstFactor
