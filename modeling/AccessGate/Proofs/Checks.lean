import Mathlib.Data.List.Basic

/-!
# Checks one after the other

A computation that stops at the first fault succeeds exactly if all its parts do: one that needs the
result of another (`bind_ok_iff`), a check before the rest (`check_then_ok_iff`, `guard_ok_iff`), and
one check for each element of a list (`forM_ok_iff`).
-/

namespace AccessGate

variable {ε α β : Type}

theorem bind_ok_iff {x : Except ε α} {f : α → Except ε β} {b : β} :
    x >>= f = .ok b ↔ ∃ a, x = .ok a ∧ f a = .ok b := by
  cases x with
  | ok a => exact ⟨fun h => ⟨a, rfl, h⟩, fun ⟨_, ha, h⟩ => Except.ok.inj ha ▸ h⟩
  | error fault => exact ⟨nofun, fun ⟨_, ha, _⟩ => nomatch ha⟩

theorem check_then_ok_iff {x : Except ε PUnit} {rest : Except ε β} {b : β} :
    (x >>= fun _ => rest) = .ok b ↔ x = .ok () ∧ rest = .ok b :=
  bind_ok_iff.trans ⟨fun ⟨_, h⟩ => h, fun h => ⟨(), h⟩⟩

/-- A check that throws where the condition holds. -/
theorem guard_ok_iff {p : Prop} [Decidable p] {fault : ε} {after : PUnit → Except ε β}
    {rest : Except ε β} {b : β} :
    (if p then throw fault >>= after else rest) = .ok b ↔ ¬ p ∧ rest = .ok b := by
  by_cases h : p
  · simp [h, throw, throwThe, MonadExceptOf.throw, Bind.bind, Except.bind]
  · simp [h]

theorem forM_ok_iff {f : α → Except ε Unit} {l : List α} :
    l.forM f = .ok () ↔ ∀ a ∈ l, f a = .ok () := by
  induction l with
  | nil => simp [pure, Except.pure]
  | cons a rest ih =>
    have hstep : (a :: rest).forM f = .ok () ↔ f a = .ok () ∧ rest.forM f = .ok () :=
      check_then_ok_iff
    rw [hstep, ih, List.forall_mem_cons]

end AccessGate
