import AccessGate.Proofs.Lists

/-!
# Histories

A part of the gateway serves one event after another and keeps a state between them. A history is
the list of these events; each of them was served by the state that the events before it had left,
and follows every one of them, as instants do.

* `History.split`: each event of a history has a history of its own;
* `History.preserves`: what every event keeps of the state holds after every history.
-/

namespace AccessGate

variable {ε σ : Type}

/-- The events led from the state `s₀` to the state `s`. -/
inductive History (follows : ε → ε → Prop) (serves : σ → ε → Prop) (after : ε → σ) (s₀ : σ) :
    List ε → σ → Prop where
  | start : History follows serves after s₀ [] s₀
  | event (events : List ε) (s : σ) (x : ε) (past : History follows serves after s₀ events s)
      (order : ∀ y ∈ events, follows y x) (served : serves s x) :
      History follows serves after s₀ (events ++ [x]) (after x)

namespace History

variable {follows : ε → ε → Prop} {serves : σ → ε → Prop} {after : ε → σ} {s₀ s : σ}
  {events earlier later : List ε} {x : ε}

/-- **Each event met the state that the events before it had left.** -/
theorem split (h : History follows serves after s₀ events s) (cut : events = earlier ++ x :: later) :
    ∃ s', History follows serves after s₀ earlier s' ∧ (∀ y ∈ earlier, follows y x) ∧
      serves s' x := by
  induction h generalizing later with
  | start => exact absurd cut (by simp)
  | event events s y past order served ih =>
    obtain ⟨rfl, rfl, -⟩ | ⟨later', hcut, -⟩ := cut_snoc cut
    · exact ⟨s, past, order, served⟩
    · exact ih hcut

/-- What every event keeps of the state, told from the events so far, holds after every history. -/
theorem preserves {P : List ε → σ → Prop} (start : P [] s₀)
    (event : ∀ events s x, History follows serves after s₀ events s → P events s →
      (∀ y ∈ events, follows y x) → serves s x → P (events ++ [x]) (after x))
    (h : History follows serves after s₀ events s) : P events s := by
  induction h with
  | start => exact start
  | event events s x past order served ih => exact event events s x past ih order served

end History

end AccessGate
