/-!
# Dialogues

What the gateway does between two events is a conversation with others: a directory, a service, a
source of random tokens. A dialogue is its result, or a question and what follows each answer. So
the rules of the gateway stay functions, and statements about them range over every way in which the
others may answer.

* `run` gives the answers from a state of the others;
* `Trace d qas a` says that the dialogue `d` asked and was answered as in `qas` and ended with `a`;
* `via` lets a dialogue ask its questions in another vocabulary.
-/

namespace AccessGate

universe u

/-- A result, or a question with what follows its answer. -/
inductive Dialogue (Q : Type) (A : Q → Type) (α : Type u) : Type u where
  | done (a : α)
  | ask (q : Q) (next : A q → Dialogue Q A α)

namespace Dialogue

variable {Q : Type} {A : Q → Type} {α β : Type}

/-- One dialogue after another. -/
def bind : Dialogue Q A α → (α → Dialogue Q A β) → Dialogue Q A β
  | done a, f => f a
  | ask q next, f => ask q fun a => (next a).bind f

instance : Monad (Dialogue Q A) where
  pure := done
  bind := bind

/-- The result, where `respond` answers every question and changes with it. -/
def run {σ : Type} (respond : σ → (q : Q) → A q × σ) : σ → Dialogue Q A α → α × σ
  | s, done a => (a, s)
  | s, ask q next =>
    let (a, s) := respond s q
    run respond s (next a)

/-- The dialogue in another vocabulary. -/
def via {Q' : Type} {A' : Q' → Type} (restate : Q → Q')
    (answer : (q : Q) → A' (restate q) → A q) :
    Dialogue Q A α → Dialogue Q' A' α
  | done a => done a
  | ask q next => ask (restate q) fun a => (next (answer q a)).via restate answer

/-- Each question replaced by a dialogue that finds its answer. -/
def expand {Q' : Type} {A' : Q' → Type} (f : (q : Q) → Dialogue Q' A' (A q)) :
    Dialogue Q A α → Dialogue Q' A' α
  | done a => done a
  | ask q next => (f q).bind fun a => (next a).expand f

/-- A question with its answer. -/
abbrev Exchange (Q : Type) (A : Q → Type) := (q : Q) × A q

/-- The dialogue asked and was answered in this order and ended with this result. -/
inductive Trace : Dialogue Q A α → List (Exchange Q A) → α → Prop where
  | done (a : α) : Trace (.done a) [] a
  | ask (q : Q) (next : A q → Dialogue Q A α) (answer : A q) (rest : List (Exchange Q A)) (a : α) :
      Trace (next answer) rest a → Trace (.ask q next) (⟨q, answer⟩ :: rest) a

/-- A dialogue after another has the exchanges of both. -/
theorem Trace.bind {d : Dialogue Q A α} {f : α → Dialogue Q A β} {xs ys : List (Exchange Q A)}
    {a : α} {b : β} (first : Trace d xs a) (second : Trace (f a) ys b) :
    Trace (d.bind f) (xs ++ ys) b := by
  induction first with
  | done a => exact second
  | ask q next answer rest a _ ih => exact .ask q _ answer (rest ++ ys) b (ih second)

end Dialogue

end AccessGate
