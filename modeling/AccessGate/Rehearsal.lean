import AccessGate.Access.Router
import AccessGate.Digest.Md5

/-!
# Rehearsals

A rehearsal runs the gateway among players: verifiers and a verification service whose lines are
written beforehand and spoken in order. What they were asked is kept, so that a run can be looked at
afterwards. Tokens are drawn from the number of tokens before, so that a run can be repeated.

A verifier that has no line left fails for want of a configuration, a change of password without a
line fails, and a service without a line refuses.
-/

namespace AccessGate

/-- The verifiers of a rehearsal. -/
inductive Player where
  /-- Speaks the lines of the role for this source. -/
  | role (source : Source)
  /-- Accepts every request and changes nothing. -/
  | unchecked
  deriving DecidableEq, Repr

namespace Rehearsal

/-- What a verifier says of a request; without an outcome it fails. -/
structure Line where
  outcome : Option FirstFactor.Outcome
  profile : Option Profile
  remote : Option (Radius.Code × Radius.Attributes)
  bypass : Bool

/-- The fault of a verifier that has nothing to say. -/
def lost (request : Request) : Except FirstFactor.Fault FirstFactor.Outcome :=
  .error (.missingConfiguration request.client.name)

/-- The line as a report on a request. -/
def Line.report (l : Line) (request : Request) : FirstFactor.Report where
  outcome := match l.outcome with
    | some outcome => .ok outcome
    | none => lost request
  profile := l.profile
  remoteReply := l.remote.map fun (code, attributes) =>
    { request.packet.reply code with attributes }
  bypass := l.bypass

/-- A role with the lines that are left. -/
structure Role where
  source : Source
  lines : List Line
  changes : List FirstFactor.ChangeOutcome

/-- What a player was asked. -/
inductive Heard where
  | verify (user passphrase : String)
  | changePassword (change : PasswordReplacement)
  | service (client : String) (call : Verification.Call)
  deriving DecidableEq, Repr

end Rehearsal

/-- The players with the lines that are left, what they heard, and the number of tokens drawn. -/
structure Rehearsal where
  roles : List Rehearsal.Role
  service : List (Except Verification.Failure Verification.Model)
  heard : List Rehearsal.Heard
  tokens : Nat

namespace Rehearsal

/-- The token with the given number, counted from one. -/
def token (number : Nat) : Block := Md5.digest (Utf8.encode ("token " ++ toString number))

/-- The rehearsal with its record emptied. -/
def quiet (r : Rehearsal) : Rehearsal := { r with heard := [] }

/-- Notes what a player was asked. -/
def note (r : Rehearsal) (h : Heard) : Rehearsal := { r with heard := r.heard ++ [h] }

/-- The role for a source. -/
def role? (r : Rehearsal) (source : Source) : Option Role :=
  r.roles.find? fun x => x.source = source

/-- Changes the role for a source. -/
def change (r : Rehearsal) (source : Source) (f : Role → Role) : Rehearsal :=
  { r with roles := r.roles.map fun x => if x.source = source then f x else x }

/-- The players' answer to a question. -/
def answer (r : Rehearsal) : (q : Question Player) → q.Answer × Rehearsal
  | .verify .unchecked _ => (.bare (.ok .accept), r)
  | .verify (.role source) request =>
    let r := r.note (.verify request.user request.password)
    match (r.role? source).map (·.lines) with
    | some (line :: lines) => (line.report request, r.change source fun x => { x with lines })
    | _ => (.bare (lost request), r)
  | .changePassword .unchecked _ _ => (.failed, r)
  | .changePassword (.role source) _ change =>
    let r := r.note (.changePassword change)
    match (r.role? source).map (·.changes) with
    | some (outcome :: changes) => (outcome, r.change source fun x => { x with changes })
    | _ => (.failed, r)
  | .service client call =>
    let r := r.note (.service client.name call)
    match r.service with
    | line :: service => (line, { r with service })
    | [] => (.error (.refused "no line left"), r)
  | .token => (token (r.tokens + 1), { r with tokens := r.tokens + 1 })

/-- Plays a dialogue; what was heard in it is the record afterwards. -/
def play {α : Type} (r : Rehearsal) (talk : Talk Player α) : α × Rehearsal :=
  talk.run answer r.quiet

end Rehearsal

end AccessGate
