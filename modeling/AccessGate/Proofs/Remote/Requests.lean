import AccessGate.Proofs.Remote.Slots
import AccessGate.Proofs.Radius.Values
import AccessGate.Proofs.Histories

/-!
# Requests are never confused

Any number of requests share one socket: each claims a slot, is sent, gets a datagram or waits too
long, and ends, and their steps interleave in any way with each other and with the datagrams that
anybody sends. The only thing asked of a history is that every request has a ticket of its own.

* `attested_of_run`: every request on its way was given its slot by a turn of the history, and what is
  in its box was handed to it by one, from its server and under its identifier;
* `keptApart_of_run`: so a datagram reaches the one request that holds its slot, and a reply answers
  the request that it ends.
-/

namespace AccessGate.Remote

open Radius FirstFactor

/-! ## 1. Turns -/

/-- A step of a request, or a datagram from the network. -/
inductive Move where
  | start (ticket : Nat) (request : Packet) (server : Endpoint)
  | send (ticket : Nat) (networkUp : Bool)
  | deliver (sender : Endpoint) (received : Bytes)
  | expire (ticket : Nat)
  | finish (ticket : Nat)
  | release (ticket : Nat)

/-- What is told of a step. -/
inductive Told where
  | nothing
  | claimed (identifier : Except RemoteFault UInt8)
  | handed (ticket : Option Nat)
  | replied (reply : Option Packet)
  | released (fault : Option RemoteFault)

/-- A step with what was told of it and what it left. -/
structure Turn where
  move : Move
  told : Told
  after : InFlight

namespace InFlight

def perform (s : InFlight) (ctx : WritingContext) : Move → Told × InFlight
  | .start ticket request server =>
    (.claimed (s.start ticket request server).1, (s.start ticket request server).2)
  | .send ticket networkUp => (.nothing, s.send ctx ticket networkUp)
  | .deliver sender received =>
    (.handed (s.deliver sender received).1, (s.deliver sender received).2)
  | .expire ticket => (.nothing, s.expire ticket)
  | .finish ticket => (.replied (s.finish ctx ticket).1, (s.finish ctx ticket).2)
  | .release ticket => (.released (s.release ticket).1, (s.release ticket).2)

end InFlight

namespace Turn

/-- The turn starts a request with the ticket. -/
def Opens (x : Turn) (ticket : Nat) : Prop :=
  ∃ request server, x.move = .start ticket request server

/-- Every request has a ticket of its own. -/
def Follows (y x : Turn) : Prop := ∀ ticket, y.Opens ticket → ¬ x.Opens ticket

def Serves (ctx : WritingContext) (s : InFlight) (x : Turn) : Prop :=
  s.perform ctx x.move = (x.told, x.after)

/-- The turn gave the request its slot. -/
def Claims (x : Turn) (p : Pending) : Prop :=
  ∃ request, x.move = .start p.ticket request p.slot.server ∧
    x.told = .claimed (.ok p.slot.identifier) ∧
    p.request = { request with identifier := p.slot.identifier }

/-- The turn handed the datagram to the request, from its server and under its identifier. -/
def Hands (x : Turn) (p : Pending) (datagram : Bytes) : Prop :=
  ∃ received, x.move = .deliver p.slot.server received ∧ x.told = .handed (some p.ticket) ∧
    headSize ≤ received.length ∧ received[1]? = some p.slot.identifier ∧
    datagram = received.take Packet.maxSize

end Turn

/-- The turns led from no requests to the state. -/
abbrev Run (ctx : WritingContext) (next : UInt8) (turns : List Turn) (s : InFlight) : Prop :=
  History Turn.Follows (Turn.Serves ctx) Turn.after (.idle next) turns s

variable {ctx : WritingContext} {next : UInt8} {turns : List Turn} {s s' : InFlight} {x : Turn}
  {p p' : Pending}

/-! ## 2. What is known of a request -/

/-- The history knows where the request has its slot and its datagram from. -/
structure Known (turns : List Turn) (p : Pending) : Prop where
  claimed : ∃ x ∈ turns, x.Claims p
  handed : ∀ datagram, p.box = some datagram → ∃ x ∈ turns, x.Hands p datagram

theorem Turn.Claims.same (h : x.Claims p) (same : p.Same p') : x.Claims p' := by
  unfold Claims
  rw [same.ticket, same.slot, same.request]
  exact h

theorem Turn.Hands.same {datagram : Bytes} (h : x.Hands p datagram) (same : p.Same p') :
    x.Hands p' datagram := by
  unfold Hands
  rw [same.ticket, same.slot]
  exact h

namespace Known

theorem snoc (h : Known turns p) (x : Turn) : Known (turns ++ [x]) p where
  claimed := by
    obtain ⟨y, hy, hclaims⟩ := h.claimed
    exact ⟨y, List.mem_append_left _ hy, hclaims⟩
  handed datagram hbox := by
    obtain ⟨y, hy, hhands⟩ := h.handed datagram hbox
    exact ⟨y, List.mem_append_left _ hy, hhands⟩

/-- What is known of a request is known of it later. -/
theorem same (h : Known turns p) (same : p.Same p')
    (box : ∀ datagram, p'.box = some datagram → p.box = some datagram ∨
      ∃ x ∈ turns, x.Hands p datagram) : Known turns p' where
  claimed := by
    obtain ⟨y, hy, hclaims⟩ := h.claimed
    exact ⟨y, hy, hclaims.same same⟩
  handed datagram hbox := by
    rcases box datagram hbox with hbefore | ⟨y, hy, hhands⟩
    · obtain ⟨y, hy, hhands⟩ := h.handed datagram hbefore
      exact ⟨y, hy, hhands.same same⟩
    · exact ⟨y, hy, hhands.same same⟩

theorem goesOn (h : Known turns p) (goesOn : p.GoesOn p') : Known turns p' := by
  refine h.same goesOn.toSame fun datagram hbox => ?_
  rcases goesOn.box with hnone | hsame
  · rw [hnone] at hbox
    cases hbox
  · exact Or.inl (hsame.symm.trans hbox)

end Known

/-- The slots and the requests fit together, and every request is known. -/
structure Attested (turns : List Turn) (s : InFlight) : Prop where
  sound : s.Sound
  known : ∀ p ∈ s.pending, Known turns p

namespace Attested

open InFlight

theorem moves (h : Attested turns s) (moves : Moves s s') (x : Turn) :
    Attested (turns ++ [x]) s' := by
  refine ⟨h.sound.moves moves, fun q hq => ?_⟩
  cases moves with
  | still => exact (h.known q hq).snoc x
  | on found keeps goesOn =>
    rcases (h.sound.mem_changed found).mp hq with rfl | ⟨hq, -⟩
    · exact ((h.known _ (mem_of_find? found).1).goesOn goesOn).snoc x
    · exact (h.known q hq).snoc x

/-- Requests that end are only forgotten. -/
theorem thinned (h : Attested turns s) (sound : s'.Sound) (pending : s'.pending ⊆ s.pending)
    (x : Turn) : Attested (turns ++ [x]) s' :=
  ⟨sound, fun q hq => (h.known q (pending hq)).snoc x⟩

theorem start (h : Attested turns s) {ticket : Nat} {request : Packet} {server : Endpoint}
    (new : ∀ p ∈ s.pending, p.ticket ≠ ticket) (move : x.move = .start ticket request server)
    (served : x.Serves ctx s) : Attested (turns ++ [x]) x.after := by
  unfold Turn.Serves at served
  rw [move] at served
  obtain ⟨htold, hafter⟩ := Prod.mk.inj served
  rw [← hafter]
  rcases start_cases s ticket request server with ⟨next, hstart, -⟩ | ⟨i, next, hfree, hstart⟩
  · rw [hstart]
    exact ⟨⟨h.sound.tickets, h.sound.slots, h.sound.owned, h.sound.held⟩,
      fun q hq => (h.known q hq).snoc x⟩
  · rw [hstart] at htold ⊢
    refine ⟨h.sound.started new hfree next, fun q hq => ?_⟩
    rcases List.mem_append.mp hq with hq | hq
    · exact (h.known q hq).snoc x
    · rw [List.mem_singleton.mp hq]
      refine ⟨⟨x, List.mem_append_right _ (List.mem_singleton.mpr rfl), request, move, htold.symm,
        rfl⟩, fun datagram hbox => ?_⟩
      cases hbox

theorem deliver (h : Attested turns s) {sender : Endpoint} {received : Bytes}
    (move : x.move = .deliver sender received) (served : x.Serves ctx s) :
    Attested (turns ++ [x]) x.after := by
  unfold Turn.Serves at served
  rw [move] at served
  obtain ⟨htold, hafter⟩ := Prod.mk.inj served
  have hsound := h.sound.delivered sender received
  rw [← hafter]
  refine ⟨hsound, fun q hq => ?_⟩
  rcases deliver_cases s sender received with
    ⟨hnothing, -⟩ | ⟨identifier, ticket, hlong, hidentifier, hentry, hdeliver⟩
  · rw [hnothing] at hq
    exact (h.known q hq).snoc x
  · rw [hdeliver] at hq htold
    split at hq
    · rename_i htakes
      rw [if_pos htakes] at htold
      obtain ⟨p, hp, rfl⟩ := mem_change.mp hq
      split
      · rename_i hsame
        obtain ⟨hslot, -⟩ := h.sound.owner hentry hp hsame
        refine ((h.known p hp).snoc x).same ⟨rfl, rfl, rfl⟩ fun datagram hbox => Or.inr ?_
        refine ⟨x, List.mem_append_right _ (List.mem_singleton.mpr rfl), received, ?_, ?_, hlong,
          ?_, (Option.some.inj hbox).symm⟩
        · rw [hslot]
          exact move
        · rw [hsame]
          exact htold.symm
        · rw [hslot]
          exact hidentifier
      · exact (h.known p hp).snoc x
    · exact (h.known q hq).snoc x

theorem finish (h : Attested turns s) (ctx : WritingContext) (ticket : Nat) (x : Turn) :
    Attested (turns ++ [x]) (s.finish ctx ticket).2 := by
  rcases finish_cases s ctx ticket with ⟨-, hmoves⟩ | ⟨p, datagram, reply, -, -, -, hfinish⟩
  · exact h.moves hmoves x
  · have hsound := h.sound.finished ctx ticket
    rw [hfinish] at hsound ⊢
    exact h.thinned hsound List.filter_sublist.subset x

theorem release (h : Attested turns s) (ticket : Nat) (x : Turn) :
    Attested (turns ++ [x]) (s.release ticket).2 := by
  have hsound := h.sound.released ticket
  rcases release_cases s ticket with hnothing | ⟨p, fault, -, -, hrelease⟩
  · rw [hnothing] at hsound ⊢
    exact h.thinned hsound (fun _ hq => hq) x
  · rw [hrelease] at hsound ⊢
    exact h.thinned hsound List.filter_sublist.subset x

/-- **Every turn keeps it so.** -/
theorem turn (h : Attested turns s) (order : ∀ y ∈ turns, y.Follows x) (served : x.Serves ctx s) :
    Attested (turns ++ [x]) x.after := by
  have hserved := served
  unfold Turn.Serves at hserved
  cases hmove : x.move with
  | start ticket request server =>
    refine h.start (fun p hp hticket => ?_) hmove served
    obtain ⟨y, hy, request', hstart, -⟩ := (h.known p hp).claimed
    exact order y hy p.ticket ⟨_, _, hstart⟩ ⟨request, server, by rw [hmove, hticket]⟩
  | send ticket networkUp =>
    rw [hmove] at hserved
    rw [← (Prod.mk.inj hserved).2]
    exact h.moves (moves_send s ctx ticket networkUp) x
  | deliver sender received => exact h.deliver hmove served
  | expire ticket =>
    rw [hmove] at hserved
    rw [← (Prod.mk.inj hserved).2]
    exact h.moves (moves_expire s ticket) x
  | finish ticket =>
    rw [hmove] at hserved
    rw [← (Prod.mk.inj hserved).2]
    exact h.finish ctx ticket x
  | release ticket =>
    rw [hmove] at hserved
    rw [← (Prod.mk.inj hserved).2]
    exact h.release ticket x

end Attested

/-- **Every request on its way has its slot and its datagram from the history.** -/
theorem attested_of_run (run : Run ctx next turns s) : Attested turns s :=
  run.preserves ⟨InFlight.sound_idle next, fun _ hp => (List.not_mem_nil hp).elim⟩
    fun _ _ _ _ h order served => h.turn order served

/-! ## 3. The guarantee -/

/-- What holds of the requests after any turns. -/
structure KeptApart (ctx : WritingContext) (turns : List Turn) (s : InFlight) : Prop where
  /-- Every request has a ticket of its own. -/
  tickets : s.pending.Pairwise fun p q => p.ticket ≠ q.ticket
  /-- No two requests that wait for one server have one identifier. -/
  slots : ∀ {p q}, p ∈ s.pending → q ∈ s.pending → p.Waits → q.Waits → p.slot = q.slot → p = q
  /-- A datagram is handed to a request exactly if it is long enough, comes from the request's
  server, names its identifier, and the request still waits. -/
  handed : ∀ sender received ticket, (s.deliver sender received).1 = some ticket ↔
    headSize ≤ received.length ∧ ∃ p ∈ s.pending, p.ticket = ticket ∧ p.Waits ∧
      p.slot.server = sender ∧ received[1]? = some p.slot.identifier
  /-- It is put into the box of that request and of no other. -/
  filled : ∀ sender received, (s.deliver sender received).2.pending = s.pending.map fun p =>
    if (s.deliver sender received).1 = some p.ticket then
      { p with box := some (received.take Packet.maxSize) } else p
  /-- A request that waits stands in the table, and no release takes it out. -/
  held : ∀ p ∈ s.pending, p.Waits → (p.slot, p.ticket) ∈ s.table ∧
    ∀ ticket, (p.slot, p.ticket) ∈ (s.release ticket).2.table
  /-- Where no request is on its way, no slot is in use. -/
  idle : s.pending = [] → s.table = []
  /-- A request is refused exactly if every identifier towards its server stands in the table. -/
  refused : ∀ ticket request server,
    (s.start ticket request server).1 = .error .noFreeIdentifier ↔
      ∀ identifier, ∃ t, (⟨identifier, server⟩, t) ∈ s.table
  /-- A reply ends a request only if the datagram that was handed to it verifies against that very
  request, and names the identifier that it was given. -/
  replies : ∀ ticket reply, (s.finish ctx ticket).1 = some reply →
    ∃ p datagram, p.ticket = ticket ∧ (∃ x ∈ turns, x.Claims p) ∧ (∃ x ∈ turns, x.Hands p datagram) ∧
      Authenticator.verifyResponse ctx.digests datagram p.request.authenticator
        p.request.secret.bytes = true ∧
      reply.identifier = p.slot.identifier

/-- A reply was verified, and carries the identifier of its datagram. -/
theorem verified_of_accept {request reply : Packet} {datagram : Bytes}
    (h : accept ctx request datagram = .ok reply) :
    Authenticator.verifyResponse ctx.digests datagram request.authenticator
      request.secret.bytes = true ∧ datagram[1]? = some reply.identifier := by
  unfold accept at h
  split at h
  · rename_i hverified
    split at h
    · rename_i hread
      cases h
      exact ⟨hverified, identifier_of_read hread⟩
    · cases h
  · cases h

section Datagrams

open InFlight

/-- A datagram reaches exactly the request that waits for it. -/
theorem handed_iff (h : s.Sound) (sender : Endpoint) (received : Bytes) (ticket : Nat) :
    (s.deliver sender received).1 = some ticket ↔
      headSize ≤ received.length ∧ ∃ p ∈ s.pending, p.ticket = ticket ∧ p.Waits ∧
        p.slot.server = sender ∧ received[1]? = some p.slot.identifier := by
  have hentry {p : Pending} {identifier : UInt8} (hp : p ∈ s.pending) (hwaits : p.Waits)
      (hserver : p.slot.server = sender) (hidentifier : p.slot.identifier = identifier) :
      (⟨identifier, sender⟩, p.ticket) ∈ s.table := by
    rw [← hserver, ← hidentifier]
    exact h.held p hp hwaits
  rcases deliver_cases s sender received with
    ⟨hnothing, hfree⟩ | ⟨identifier, t, hlong, hidentifier, howned, hdeliver⟩
  · rw [hnothing]
    constructor
    · intro hnone
      cases hnone
    · rintro ⟨hlong, p, hp, -, hwaits, hserver, hidentifier⟩
      have htaken := isTaken_iff.mpr ⟨_, hentry hp hwaits hserver rfl⟩
      rw [hfree hlong _ hidentifier] at htaken
      cases htaken
  · rw [hdeliver]
    obtain ⟨p, hp, rfl, hslot, hempty⟩ := h.owned _ howned
    constructor
    · intro hsome
      split at hsome
      · rename_i htakes
        refine ⟨hlong, p, hp, Option.some.inj hsome, (h.takes_iff hp hempty).mp htakes, ?_, ?_⟩
        · rw [hslot]
        · rw [hslot]
          exact hidentifier
      · cases hsome
    · rintro ⟨-, q, hq, rfl, hwaits, hserver, hsecond⟩
      have hsame : p.ticket = q.ticket := h.eq_of_entry howned
        (hentry hq hwaits hserver (Option.some.inj (hsecond.symm.trans hidentifier)))
      rw [hsame, if_pos ((h.takes_iff hq hwaits.empty).mpr hwaits)]

/-- It changes that request alone. -/
theorem pending_deliver (s : InFlight) (sender : Endpoint) (received : Bytes) :
    (s.deliver sender received).2.pending = s.pending.map fun p =>
      if (s.deliver sender received).1 = some p.ticket then
        { p with box := some (received.take Packet.maxSize) } else p := by
  have hsame : s.pending = s.pending.map fun p => if (none : Option Nat) = some p.ticket then
      { p with box := some (received.take Packet.maxSize) } else p :=
    (List.map_id _).symm.trans (List.map_congr_left fun _ _ => (if_neg nofun).symm)
  rcases deliver_cases s sender received with ⟨hnothing, -⟩ | ⟨identifier, t, -, -, -, hdeliver⟩
  · rw [hnothing]
    exact hsame
  · rw [hdeliver]
    split
    · refine List.map_congr_left fun p _ => ?_
      simp only [Option.some.injEq, eq_comm]
    · exact hsame

end Datagrams

/-- **Requests are never confused.** -/
theorem keptApart_of_run (run : Run ctx next turns s) : KeptApart ctx turns s := by
  have h := attested_of_run run
  refine ⟨h.sound.tickets, h.sound.eq_of_slot, handed_iff h.sound, pending_deliver s, ?_,
    h.sound.table_eq_nil, s.refused_iff, ?_⟩
  · exact fun p hp hwaits => ⟨h.sound.held p hp hwaits, h.sound.mem_release hp hwaits⟩
  · intro ticket reply hreply
    rcases InFlight.finish_cases s ctx ticket with
      ⟨hnone, -⟩ | ⟨p, datagram, r, found, hbox, hok, hfinish⟩
    · rw [hnone] at hreply
      cases hreply
    · rw [hfinish] at hreply
      obtain rfl := Option.some.inj hreply
      obtain ⟨hp, hticket⟩ := InFlight.mem_of_find? found
      have hknown := h.known p hp
      obtain ⟨hverified, hidentifier⟩ := verified_of_accept hok
      obtain ⟨x, hx, hhands⟩ := hknown.handed datagram hbox
      refine ⟨p, datagram, hticket, hknown.claimed, ⟨x, hx, hhands⟩, hverified, ?_⟩
      obtain ⟨received, -, -, -, hsecond, rfl⟩ := hhands
      rw [List.getElem?_take_of_lt (by decide), hsecond] at hidentifier
      exact (Option.some.inj hidentifier).symm

/-! ## 4. Two requests for one server -/

/-- The remote server of a sample. -/
def sampleServer : Endpoint := .v4 (.ofOctets [10, 0, 0, 20]) 1812

/-- A request for it. -/
def sampleRequest : Packet := .new .accessRequest 0 ⟨Utf8.encode "nps_secret"⟩ .zero

/-- The step as a turn. -/
def played (s : InFlight) (move : Move) : Turn :=
  ⟨move, (s.perform ⟨.standard, .standard⟩ move).1, (s.perform ⟨.standard, .standard⟩ move).2⟩

theorem serves_played (s : InFlight) (move : Move) :
    (played s move).Serves ⟨.standard, .standard⟩ s := rfl

/-- The first request gets the last identifier of all. -/
def firstTurn : Turn := played (.idle 255) (.start 0 sampleRequest sampleServer)

def secondTurn : Turn := played firstTurn.after (.start 1 sampleRequest sampleServer)

theorem run_two_requests :
    Run ⟨.standard, .standard⟩ 255 [firstTurn, secondTurn] secondTurn.after := by
  refine .event [firstTurn] _ secondTurn (.event [] _ firstTurn .start
    (fun _ hy => (List.not_mem_nil hy).elim) (serves_played _ _)) ?_ (serves_played _ _)
  rintro y hy ticket ⟨request, server, hfirst⟩ ⟨request', server', hsecond⟩
  rw [List.mem_singleton.mp hy] at hfirst
  obtain rfl : 0 = ticket := (Move.start.inj hfirst).1
  exact absurd (Move.start.inj hsecond).1 (by decide)

/-- After the last identifier comes the first, and a datagram with it is the second request's. -/
theorem keptApart_two_requests :
    Run ⟨.standard, .standard⟩ 255 [firstTurn, secondTurn] secondTurn.after ∧
    KeptApart ⟨.standard, .standard⟩ [firstTurn, secondTurn] secondTurn.after ∧
    secondTurn.after.table = [(⟨255, sampleServer⟩, 0), (⟨0, sampleServer⟩, 1)] ∧
    (secondTurn.after.deliver sampleServer (2 :: 0 :: Bytes.zeros 18)).1 = some 1 :=
  ⟨run_two_requests, keptApart_of_run run_two_requests, by decide +kernel, by decide +kernel⟩

end AccessGate.Remote
