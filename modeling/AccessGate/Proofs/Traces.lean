import AccessGate.Dialogue

/-!
# What a dialogue can have asked

Every statement about what the gateway does with the help of others is one about the traces of a
dialogue. This file takes traces apart along the three ways of making a dialogue:

* `trace_done_iff`, `trace_ask_iff`, `trace_bind_iff`: a result has no exchanges, a question has its
  own before those of what follows, and one dialogue after another has the exchanges of both;
* `trace_run`: whoever answers, there is a trace of what was asked, so a statement about all traces
  is one about all ways of answering;
* `trace_via`: in another vocabulary the same is asked;
* `transcript`: what one who answers was asked, beside the result;
* `Ends`: however a dialogue is answered, it ends with such a result, taken apart in the same ways.
-/

namespace AccessGate.Dialogue

variable {Q : Type} {A : Q → Type} {α β : Type}

/-- A result asks nothing. -/
theorem trace_done_iff {a b : α} {es : List (Exchange Q A)} :
    Trace (.done a) es b ↔ es = [] ∧ b = a := by
  constructor
  · intro h
    cases h with
    | done => exact ⟨rfl, rfl⟩
  · rintro ⟨rfl, rfl⟩
    exact .done b

/-- A question comes first, and its answer decides what follows. -/
theorem trace_ask_iff {q : Q} {next : A q → Dialogue Q A α} {es : List (Exchange Q A)} {b : α} :
    Trace (.ask q next) es b ↔
      ∃ answer rest, es = ⟨q, answer⟩ :: rest ∧ Trace (next answer) rest b := by
  constructor
  · intro h
    cases h with
    | ask _ _ answer rest _ hrest => exact ⟨answer, rest, rfl, hrest⟩
  · rintro ⟨answer, rest, rfl, h⟩
    exact .ask q next answer rest b h

/-- The exchanges of one dialogue after another split into those of both. -/
theorem trace_bind_iff {d : Dialogue Q A α} {f : α → Dialogue Q A β} {es : List (Exchange Q A)}
    {b : β} :
    Trace (d.bind f) es b ↔ ∃ xs a ys, es = xs ++ ys ∧ Trace d xs a ∧ Trace (f a) ys b := by
  constructor
  · intro h
    induction d generalizing es with
    | done a => exact ⟨[], a, es, rfl, .done a, h⟩
    | ask q next ih =>
      obtain ⟨answer, rest, rfl, hrest⟩ := trace_ask_iff.mp h
      obtain ⟨xs, a, ys, rfl, hxs, hys⟩ := ih answer hrest
      exact ⟨⟨q, answer⟩ :: xs, a, ys, rfl, .ask q next answer xs a hxs, hys⟩
  · rintro ⟨xs, a, ys, rfl, hxs, hys⟩
    exact hxs.bind hys

/-- **Whoever answers, something was asked**: a run is the end of a trace. -/
theorem trace_run {σ : Type} (respond : σ → (q : Q) → A q × σ) (s : σ) (d : Dialogue Q A α) :
    ∃ es, Trace d es (d.run respond s).1 := by
  induction d generalizing s with
  | done a => exact ⟨[], .done a⟩
  | ask q next ih =>
    obtain ⟨rest, hrest⟩ := ih (respond s q).1 (respond s q).2
    exact ⟨⟨q, (respond s q).1⟩ :: rest, .ask q next _ rest _ hrest⟩

/-- A trace in another vocabulary is one of the dialogue, restated. -/
theorem trace_via {Q' : Type} {A' : Q' → Type} {restate : Q → Q'}
    {answer : (q : Q) → A' (restate q) → A q} {d : Dialogue Q A α} {es : List (Exchange Q' A')}
    {a : α} (talk : Trace (d.via restate answer) es a) :
    ∃ replies : List ((q : Q) × A' (restate q)), es = replies.map (fun e => ⟨restate e.1, e.2⟩) ∧
      Trace d (replies.map fun e => ⟨e.1, answer e.1 e.2⟩) a := by
  induction d generalizing es with
  | done b =>
    obtain ⟨rfl, rfl⟩ := trace_done_iff.mp talk
    exact ⟨[], rfl, .done a⟩
  | ask q next ih =>
    obtain ⟨reply, rest, rfl, hrest⟩ := trace_ask_iff.mp talk
    obtain ⟨replies, rfl, htrace⟩ := ih (answer q reply) hrest
    exact ⟨⟨q, reply⟩ :: replies, rfl, .ask q next _ _ a htrace⟩

/-- What was exchanged and the result, where `respond` answers every question and changes with
it. -/
def transcript {σ : Type} (respond : σ → (q : Q) → A q × σ) :
    σ → Dialogue Q A α → (List (Exchange Q A) × α) × σ
  | s, done a => (([], a), s)
  | s, ask q next =>
    let (answer, s) := respond s q
    let ((es, a), s) := (next answer).transcript respond s
    ((⟨q, answer⟩ :: es, a), s)

/-- **A transcript is a trace.** -/
theorem trace_transcript {σ : Type} (respond : σ → (q : Q) → A q × σ) (s : σ)
    (d : Dialogue Q A α) :
    Trace d (d.transcript respond s).1.1 (d.transcript respond s).1.2 := by
  induction d generalizing s with
  | done a => exact .done a
  | ask q next ih => exact .ask q next _ _ _ (ih (respond s q).1 (respond s q).2)

/-- However the dialogue is answered, it ends with such a result. -/
def Ends (P : α → Prop) (d : Dialogue Q A α) : Prop := ∀ es a, Trace d es a → P a

section Ends

variable {P : α → Prop} {a : α}

@[simp] theorem ends_done : Ends P (.done a : Dialogue Q A α) ↔ P a := by
  constructor
  · intro h
    exact h [] a (.done a)
  · intro h es b talk
    rw [(trace_done_iff.mp talk).2]
    exact h

@[simp] theorem ends_ask {q : Q} {next : A q → Dialogue Q A α} :
    Ends P (.ask q next) ↔ ∀ answer, Ends P (next answer) := by
  constructor
  · intro h answer es b talk
    exact h _ b (.ask q next answer es b talk)
  · intro h es b talk
    obtain ⟨answer, rest, -, hrest⟩ := trace_ask_iff.mp talk
    exact h answer rest b hrest

/-- The second dialogue starts with any result of the first. -/
@[simp] theorem ends_bind {R : β → Prop} {d : Dialogue Q A α} {f : α → Dialogue Q A β} :
    Ends R (d.bind f) ↔ Ends (fun a => Ends R (f a)) d := by
  constructor
  · intro h xs a first ys b second
    exact h _ b (first.bind second)
  · intro h es b talk
    obtain ⟨xs, a, ys, -, first, second⟩ := trace_bind_iff.mp talk
    exact h xs a first ys b second

theorem Ends.mono {R : α → Prop} {d : Dialogue Q A α} (h : Ends P d) (sub : ∀ a, P a → R a) :
    Ends R d := fun es a talk => sub a (h es a talk)

/-- In another vocabulary a dialogue ends as before. -/
theorem Ends.via {Q' : Type} {A' : Q' → Type} {restate : Q → Q'}
    {answer : (q : Q) → A' (restate q) → A q} {d : Dialogue Q A α} (h : Ends P d) :
    Ends P (d.via restate answer) := by
  induction d with
  | done a => exact ends_done.mpr (ends_done.mp h)
  | ask q next ih => exact ends_ask.mpr fun reply => ih _ (ends_ask.mp h (answer q reply))

end Ends

end AccessGate.Dialogue
