import AccessGate.Proofs.Access.Settling
import AccessGate.Proofs.Histories
import AccessGate.Server

/-!
# Datagrams one after another

The server handles one datagram after another, from any senders, and keeps what it remembers between
them. A run is the list of these arrivals, each with what was exchanged for it, what became of it and
the server that it left.

* `handle_cases`: a datagram makes no request, or one that was seen before, or one that is routed;
* `Run.request`: whether a datagram makes a request, and which, is the same all along a run.
-/

namespace AccessGate

open Dialogue

/-- A datagram on its way through the server. -/
structure Arrival (V : Type) where
  now : Time
  sender : Endpoint
  datagram : Bytes
  exchanges : Exchanges V
  handled : Server.Handled
  after : Server V

namespace Server

variable {V : Type} {s s₀ s' : Server V} {now : Time} {sender : Endpoint} {datagram : Bytes}
  {es : Exchanges V} {handled : Handled} {arrivals : List (Arrival V)} {x : Arrival V}

/-! ## 1. What can become of a datagram -/

/-- **What request a datagram can make**: that of a packet which its client's secret reads, with a
code that is served. A datagram that makes none was never seen before. -/
theorem request_cases (s : Server V) (sender : Endpoint) (datagram : Bytes) :
    (∃ drop, s.request sender datagram = .error drop ∧ drop ≠ .retransmission) ∨
    ∃ relayed client packet, ProxyHeader.unwrap datagram = .ok relayed ∧
      (s.reading client).read none relayed.payload = .ok packet ∧ isServed packet.code = true ∧
      s.request sender datagram = .ok (.make (relayed.source.getD sender)
        (if ProxyHeader.isPresent datagram then some sender else none) client packet) := by
  unfold request
  cases hunwrap : ProxyHeader.unwrap datagram with
  | error fault => exact Or.inl ⟨.badHeader fault, rfl, nofun⟩
  | ok relayed =>
    simp only [Except.mapError, Bind.bind, Except.bind]
    split
    · exact Or.inl ⟨.unknownClient, rfl, nofun⟩
    · rename_i client hclient
      cases hread : (s.reading client).read none relayed.payload with
      | error fault => exact Or.inl ⟨.badPacket fault, rfl, nofun⟩
      | ok packet =>
        simp only
        split
        · rename_i hserved
          exact Or.inr ⟨relayed, client, packet, rfl, hread, hserved, rfl⟩
        · exact Or.inl ⟨.unsupportedCode packet.code, rfl, nofun⟩

/-- The datagram's request was routed. -/
def Handled.isRouted : Handled → Bool
  | .dropped _ => false
  | .unwritable _ | .sent _ => true

/-- What becomes of a reply. -/
def Handled.ofOutgoing : Except Radius.Fault Outgoing → Handled
  | .ok reply => .sent reply
  | .error fault => .unwritable fault

theorem isRouted_ofOutgoing (reply : Except Radius.Fault Outgoing) :
    (Handled.ofOutgoing reply).isRouted = true := by
  cases reply <;> rfl

theorem answer_eq (s : Server V) (now : Time) (d : Router.Routed V) :
    s.answer now d = (.ofOutgoing (s.outgoing d.request (d.packet now)),
      { s with router := d.router }) := by
  have hwriting : outgoing { s with router := d.router } d.request (d.packet now) =
      s.outgoing d.request (d.packet now) := rfl
  unfold answer
  simp only [hwriting]
  cases s.outgoing d.request (d.packet now) <;> rfl

/-- **What can become of a datagram**: it makes no request, or one that was seen before, or its
request is routed and answered. -/
theorem handle_cases (h : Trace (s.handle now sender datagram) es (handled, s')) :
    (∃ drop, s.request sender datagram = .error drop ∧ es = [] ∧ handled = .dropped drop ∧
      s' = s) ∨
    ∃ request seen retransmissions, s.request sender datagram = .ok request ∧
      s.retransmissions.note now request.packet request.remote = (seen, retransmissions) ∧
      (seen = true ∧ es = [] ∧ handled = .dropped .retransmission ∧
          s' = { s with retransmissions } ∨
        seen = false ∧ ∃ d, Trace (s.router.route now request) es d ∧
          handled = .ofOutgoing (s.outgoing d.request (d.packet now)) ∧
          s' = { s with retransmissions, router := d.router }) := by
  unfold handle newRequest at h
  cases hrequest : s.request sender datagram with
  | error drop =>
    simp only [hrequest] at h
    obtain ⟨rfl, hend⟩ := trace_done_iff.mp h
    obtain ⟨rfl, rfl⟩ := Prod.mk.inj hend
    exact Or.inl ⟨drop, rfl, rfl, rfl, rfl⟩
  | ok request =>
    obtain ⟨⟨seen, retransmissions⟩, hnote⟩ :
        ∃ noted, s.retransmissions.note now request.packet request.remote = noted := ⟨_, rfl⟩
    refine Or.inr ⟨request, seen, retransmissions, rfl, hnote, ?_⟩
    simp only [hrequest, hnote] at h
    cases seen with
    | true =>
      simp only [if_true] at h
      obtain ⟨rfl, hend⟩ := trace_done_iff.mp h
      obtain ⟨rfl, rfl⟩ := Prod.mk.inj hend
      exact Or.inl ⟨rfl, rfl, rfl, rfl⟩
    | false =>
      simp only [Bool.false_eq_true, ↓reduceIte] at h
      obtain ⟨xs, d, ys, rfl, hroute, hanswer⟩ := trace_bind_iff.mp h
      obtain ⟨rfl, hend⟩ := trace_done_iff.mp hanswer
      rw [answer_eq] at hend
      obtain ⟨rfl, rfl⟩ := Prod.mk.inj hend
      rw [List.append_nil]
      exact Or.inr ⟨rfl, d, hroute, rfl, rfl⟩

/-- Conversely, a request that is new is answered however its way ends. -/
theorem trace_handle {request : Request} {retransmissions : Retransmissions}
    (asks : s.request sender datagram = .ok request)
    (new : s.retransmissions.note now request.packet request.remote = (false, retransmissions))
    {d : Router.Routed V} (way : Trace (s.router.route now request) es d) :
    Trace (s.handle now sender datagram) es
      (.ofOutgoing (s.outgoing d.request (d.packet now)),
        { s with retransmissions, router := d.router }) := by
  unfold handle newRequest
  simp only [asks, new, Bool.false_eq_true, ↓reduceIte]
  refine trace_bind_iff.mpr ⟨es, d, [], (List.append_nil es).symm, way, ?_⟩
  rw [answer_eq]
  exact trace_done_iff.mpr ⟨rfl, rfl⟩

/-- And one that was seen before is dropped. -/
theorem trace_handle_seen {request : Request} {retransmissions : Retransmissions}
    (asks : s.request sender datagram = .ok request)
    (seen : s.retransmissions.note now request.packet request.remote = (true, retransmissions)) :
    Trace (s.handle now sender datagram) []
      (.dropped .retransmission, { s with retransmissions }) := by
  unfold handle newRequest
  simp only [asks, seen]
  exact trace_done_iff.mpr ⟨rfl, rfl⟩

/-! ## 2. Runs -/

/-- What the server does for one arrival. -/
def Serves (s : Server V) (x : Arrival V) : Prop :=
  Trace (s.handle x.now x.sender x.datagram) x.exchanges (x.handled, x.after)

/-- The arrivals led from the server `s₀` to this, and the clock never went back. -/
abbrev Run (s₀ : Server V) : List (Arrival V) → Server V → Prop :=
  History (fun y x : Arrival V => y.now ≤ x.now) Serves Arrival.after s₀

/-- What decides which request a datagram makes. -/
structure SameSetup (s s' : Server V) : Prop where
  registry : s'.registry = s.registry
  writing : s'.writing = s.writing

theorem SameSetup.request (h : SameSetup s s') (sender : Endpoint) (datagram : Bytes) :
    s'.request sender datagram = s.request sender datagram := by
  unfold Server.request reading
  rw [h.registry, h.writing]

theorem Serves.setup (h : s.Serves x) : SameSetup s x.after := by
  obtain ⟨drop, -, -, -, hafter⟩ | ⟨request, seen, noted, -, -, ⟨-, -, -, hafter⟩ |
    ⟨-, d, -, -, hafter⟩⟩ := handle_cases h
  all_goals
    rw [hafter]
    exact ⟨rfl, rfl⟩

theorem Run.setup (run : Run s₀ arrivals s) : SameSetup s₀ s := by
  refine run.preserves (P := fun _ s => SameSetup s₀ s) ⟨rfl, rfl⟩ ?_
  intro arrivals s x _ ih _ serves
  exact ⟨serves.setup.registry.trans ih.registry, serves.setup.writing.trans ih.writing⟩

/-- **A datagram makes the same request all along a run.** -/
theorem Run.request (run : Run s₀ arrivals s) (sender : Endpoint) (datagram : Bytes) :
    s.request sender datagram = s₀.request sender datagram := run.setup.request sender datagram

end Server

end AccessGate
