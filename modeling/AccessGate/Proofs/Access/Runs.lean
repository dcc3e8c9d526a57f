import AccessGate.Proofs.Access.Ways
import AccessGate.Proofs.Lists

/-!
# Runs of requests

The router answers one request after another, of any clients and users in any order, and keeps what
it remembers between them. A run is the list of these visits.

* `run_split`: each visit of a run met the router that the visits before it had left;
* `run_preserves`: what every visit keeps of the router holds after every run;
* `trace_status`: who asks for the gateway's status leaves no trace.
-/

namespace AccessGate

open Dialogue

/-- A request on its way through the router: what was exchanged for it and how it ended. -/
structure Visit (V : Type) where
  now : Time
  request : Request
  exchanges : Exchanges V
  routed : Router.Routed V

namespace Router

variable {V : Type} {r₀ r : Router V} {visits earlier later : List (Visit V)} {x : Visit V}

/-- Who asks for the gateway's status leaves no trace. -/
theorem trace_status {now : Time} {request : Request} {es : Exchanges V} {d : Routed V}
    (status : request.isStatusServer = true) (h : Trace (r.route now request) es d) :
    es = [] ∧ d.router = r := by
  unfold route at h
  rw [if_pos status] at h
  obtain ⟨rfl, rfl⟩ := trace_done_iff.mp h
  exact ⟨rfl, rfl⟩

/-- What the router does for one visit, with a request that nothing is known of yet. -/
structure Serves (r : Router V) (x : Visit V) : Prop where
  new : x.request.factors = .awaiting
  trace : Trace (r.route x.now x.request) x.exchanges x.routed

/-- The visits led from the router `r₀` to the router `r`. -/
inductive Run (r₀ : Router V) : List (Visit V) → Router V → Prop where
  | start : Run r₀ [] r₀
  | visit (visits : List (Visit V)) (r : Router V) (x : Visit V) (run : Run r₀ visits r)
      (serves : r.Serves x) : Run r₀ (visits ++ [x]) x.routed.router

/-- **Each visit of a run met the router that the visits before it had left.** -/
theorem run_split (run : Run r₀ visits r) (cut : visits = earlier ++ x :: later) :
    ∃ r', Run r₀ earlier r' ∧ r'.Serves x := by
  induction run generalizing later with
  | start => exact absurd cut (by simp)
  | visit visits r y run serves ih =>
    obtain ⟨rfl, rfl, -⟩ | ⟨later', hcut, -⟩ := cut_snoc cut
    · exact ⟨r, run, serves⟩
    · exact ih hcut

/-- What every visit keeps of the router, told from the visits so far, holds after every run. -/
theorem run_preserves {P : List (Visit V) → Router V → Prop} (start : P [] r₀)
    (visit : ∀ visits r x, Run r₀ visits r → P visits r → r.Serves x →
      P (visits ++ [x]) x.routed.router) (run : Run r₀ visits r) : P visits r := by
  induction run with
  | start => exact start
  | visit visits r x run serves ih => exact visit visits r x run ih serves

end Router

end AccessGate
