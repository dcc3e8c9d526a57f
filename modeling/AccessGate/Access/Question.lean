import AccessGate.Dialogue
import AccessGate.FirstFactor.Report
import AccessGate.Verification.Model

/-!
# Questions of the gateway

While it works on a request the gateway asks four things: a verifier about the first factor, a
verifier to change a password, the verification service about the second factor, and chance for a
token. `Talk` is a dialogue of such questions.
-/

namespace AccessGate

/-- What is needed to change a password. -/
structure PasswordReplacement where
  domain : String
  current : String
  replacement : String
  deriving DecidableEq, Repr

/-- What the gateway asks others, where `V` names its verifiers. -/
inductive Question (V : Type) where
  | verify (verifier : V) (request : Request)
  | changePassword (verifier : V) (request : Request) (change : PasswordReplacement)
  | service (client : Client) (call : Verification.Call)
  /-- Sixteen random octets that name a conversation. -/
  | token

/-- The answers to a question. -/
@[reducible] def Question.Answer {V : Type} : Question V → Type
  | verify _ _ => FirstFactor.Report
  | changePassword _ _ _ => FirstFactor.ChangeOutcome
  | service _ _ => Except Verification.Failure Verification.Model
  | token => Block

/-- What the gateway does with the help of others. -/
abbrev Talk (V α : Type) := Dialogue (Question V) Question.Answer α

end AccessGate
