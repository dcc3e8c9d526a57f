import AccessGate.Remote.InFlight
import AccessGate.Proofs.Lists
import Mathlib.Data.List.Nodup

/-!
# Who holds a slot

The table of the requests in flight and the requests themselves are changed by steps that interleave
in any way. What holds between them at every moment is `Sound`: no slot is claimed twice, whoever
stands in the table is a request without a datagram, and a request that still waits stands there.

* `Sound.eq_of_slot`: two requests that wait do not hold one slot;
* `Sound.takes_iff`: a slot's holder takes a datagram exactly while it waits;
* `start_cases`, `deliver_cases`, `finish_cases`, `Moves`: what each step can do;
* `Sound.started`, `Sound.moves`, `Sound.delivered`, `Sound.finished`, `Sound.released`: no step
  breaks it.
-/

namespace AccessGate.Remote

open Radius FirstFactor

/-- The request still waits for a datagram. -/
structure Pending.Waits (p : Pending) : Prop where
  unfailed : ∀ fault, p.phase ≠ .failed fault
  empty : p.box = none

/-- The two are one request at two moments. -/
structure Pending.Same (p p' : Pending) : Prop where
  ticket : p'.ticket = p.ticket
  slot : p'.slot = p.slot
  request : p'.request = p.request

/-- The request has gone on without a datagram, and waits no longer unless it did. -/
structure Pending.GoesOn (p p' : Pending) : Prop extends p.Same p' where
  box : p'.box = none ∨ p'.box = p.box
  waits : p'.Waits → p.Waits

theorem Pending.goesOn_failed (p : Pending) (fault : RemoteFault) :
    p.GoesOn { p with phase := .failed fault, box := none } :=
  ⟨⟨rfl, rfl, rfl⟩, Or.inl rfl, fun h => absurd rfl (h.unfailed fault)⟩

namespace InFlight

variable {s s' : InFlight} {ticket : Nat} {p q : Pending} {slot : Slot} {server : Endpoint}
  {request : Packet} {identifier : UInt8}

/-- The slots and the requests fit together. -/
structure Sound (s : InFlight) : Prop where
  tickets : s.pending.Pairwise fun p q => p.ticket ≠ q.ticket
  slots : s.table.Pairwise fun e f => e.1 ≠ f.1
  owned : ∀ e ∈ s.table, ∃ p ∈ s.pending, p.ticket = e.2 ∧ p.slot = e.1 ∧ p.box = none
  held : ∀ p ∈ s.pending, p.Waits → (p.slot, p.ticket) ∈ s.table

theorem sound_idle (next : UInt8) : Sound (idle next) :=
  ⟨.nil, .nil, fun _ he => (List.not_mem_nil he).elim, fun _ hp => (List.not_mem_nil hp).elim⟩

/-! ## 1. Looking up -/

theorem Sound.eq_of_ticket (h : Sound s) (hp : p ∈ s.pending) (hq : q ∈ s.pending)
    (ticket : p.ticket = q.ticket) : p = q :=
  List.inj_on_of_nodup_map (List.pairwise_map.mpr h.tickets) hp hq ticket

theorem Sound.eq_of_entry (h : Sound s) {t t' : Nat} (ht : (slot, t) ∈ s.table)
    (ht' : (slot, t') ∈ s.table) : t = t' :=
  (Prod.mk.inj (List.inj_on_of_nodup_map (List.pairwise_map.mpr h.slots) ht ht' rfl)).2

/-- **Two requests that wait do not hold one slot.** -/
theorem Sound.eq_of_slot (h : Sound s) (hp : p ∈ s.pending) (hq : q ∈ s.pending)
    (waits : p.Waits) (waits' : q.Waits) (slot : p.slot = q.slot) : p = q := by
  have hentry := h.held p hp waits
  rw [slot] at hentry
  exact h.eq_of_ticket hp hq (h.eq_of_entry hentry (h.held q hq waits'))

theorem mem_of_find? (found : s.find? ticket = some p) : p ∈ s.pending ∧ p.ticket = ticket :=
  ⟨List.mem_of_find?_eq_some found, by simpa using List.find?_some found⟩

theorem Sound.find? (h : Sound s) (hp : p ∈ s.pending) : s.find? p.ticket = some p := by
  refine find?_of_pairwise hp (decide_eq_true rfl) (h.tickets.imp fun hne hboth => hne ?_)
  exact (of_decide_eq_true hboth.1).trans (of_decide_eq_true hboth.2).symm

/-- **The holder of a slot takes a datagram exactly while it waits.** -/
theorem Sound.takes_iff (h : Sound s) (hp : p ∈ s.pending) (empty : p.box = none) :
    s.takes p.ticket = true ↔ p.Waits := by
  unfold takes
  rw [h.find? hp]
  simp only
  split
  · rename_i fault hfailed
    exact ⟨fun hfalse => absurd hfalse Bool.false_ne_true,
      fun hwaits => absurd hfailed (hwaits.unfailed fault)⟩
  · rename_i hunfailed
    exact ⟨fun _ => ⟨fun fault hfailed => hunfailed fault hfailed, empty⟩, fun _ => rfl⟩

/-- An entry of the table belongs to the request with its ticket. -/
theorem Sound.owner (h : Sound s) (entry : (slot, ticket) ∈ s.table) (hp : p ∈ s.pending)
    (same : p.ticket = ticket) : p.slot = slot ∧ p.box = none := by
  obtain ⟨q, hq, hticket, hslot, hempty⟩ := h.owned _ entry
  rw [h.eq_of_ticket hp hq (same.trans hticket.symm)]
  exact ⟨hslot, hempty⟩

/-! ## 2. Requests that go on -/

theorem mem_change {f : Pending → Pending} :
    q ∈ (s.change ticket f).pending ↔
      ∃ p ∈ s.pending, (if p.ticket = ticket then f p else p) = q := List.mem_map

/-- A change reaches the request with the ticket and no other. -/
theorem Sound.mem_changed (h : Sound s) {f : Pending → Pending} (found : s.find? ticket = some p) :
    q ∈ (s.change ticket f).pending ↔ q = f p ∨ q ∈ s.pending ∧ q.ticket ≠ ticket := by
  obtain ⟨hp, hticket⟩ := mem_of_find? found
  rw [mem_change]
  constructor
  · rintro ⟨a, ha, rfl⟩
    split
    · rename_i hsame
      rw [h.eq_of_ticket ha hp (hsame.trans hticket.symm)]
      exact Or.inl rfl
    · rename_i hother
      exact Or.inr ⟨ha, hother⟩
  · rintro (rfl | ⟨hq, hother⟩)
    · exact ⟨p, hp, if_pos hticket⟩
    · exact ⟨q, hq, if_neg hother⟩

/-- A change that keeps the ticket keeps the tickets apart. -/
theorem Sound.tickets_change (h : Sound s) {f : Pending → Pending}
    (keeps : ∀ p, (f p).ticket = p.ticket) :
    (s.change ticket f).pending.Pairwise fun p q => p.ticket ≠ q.ticket := by
  refine List.pairwise_map.mpr (h.tickets.imp fun {a b} hne => ?_)
  have hsame (p : Pending) : (if p.ticket = ticket then f p else p).ticket = p.ticket := by
    split
    · exact keeps p
    · rfl
  rw [hsame, hsame]
  exact hne

/-- At most one request goes on, and the table stays. -/
inductive Moves (s : InFlight) : InFlight → Prop where
  | still : Moves s s
  | on {ticket : Nat} {p : Pending} {f : Pending → Pending} (found : s.find? ticket = some p)
      (keeps : ∀ q, (f q).ticket = q.ticket) (goesOn : p.GoesOn (f p)) : Moves s (s.change ticket f)

theorem moves_fail (found : s.find? ticket = some p) (fault : RemoteFault) :
    Moves s (s.fail ticket fault) := .on found (fun _ => rfl) (p.goesOn_failed fault)

theorem moves_send (s : InFlight) (ctx : WritingContext) (ticket : Nat) (networkUp : Bool) :
    Moves s (s.send ctx ticket networkUp) := by
  unfold send
  split
  · rename_i found
    split
    · exact moves_fail found _
    · split
      · refine .on found (fun _ => rfl) ⟨⟨rfl, rfl, rfl⟩, Or.inr rfl, fun hwaits => ?_⟩
        exact ⟨fun _ hphase => Phase.noConfusion hphase, hwaits.empty⟩
      · exact moves_fail found _
  · exact .still

theorem moves_expire (s : InFlight) (ticket : Nat) : Moves s (s.expire ticket) := by
  unfold expire
  split
  · rename_i found
    exact moves_fail found .timeout
  · exact .still

/-- **A request that goes on keeps its slot.** -/
theorem Sound.moves (h : Sound s) (moves : Moves s s') : Sound s' := by
  cases moves with
  | still => exact h
  | @on ticket p f found keeps goesOn =>
    obtain ⟨hp, hticket⟩ := mem_of_find? found
    refine ⟨h.tickets_change keeps, h.slots, fun e he => ?_, fun q hq hwaits => ?_⟩
    · obtain ⟨q, hq, hsame, hslot, hempty⟩ := h.owned e he
      by_cases hother : q.ticket = ticket
      · obtain rfl := h.eq_of_ticket hq hp (hother.trans hticket.symm)
        refine ⟨f q, (h.mem_changed found).mpr (Or.inl rfl), goesOn.ticket.trans hsame,
          goesOn.slot.trans hslot, ?_⟩
        rcases goesOn.box with hbox | hbox
        · exact hbox
        · exact hbox.trans hempty
      · exact ⟨q, (h.mem_changed found).mpr (Or.inr ⟨hq, hother⟩), hsame, hslot, hempty⟩
    · rcases (h.mem_changed found).mp hq with rfl | ⟨hq, -⟩
      · rw [goesOn.slot, goesOn.ticket]
        exact h.held p hp (goesOn.waits hwaits)
      · exact h.held q hq hwaits

/-! ## 3. Claiming a slot -/

theorem isTaken_iff : s.isTaken slot = true ↔ ∃ t, (slot, t) ∈ s.table := by
  unfold isTaken
  rw [List.any_eq_true]
  constructor
  · rintro ⟨⟨slot', t⟩, he, hslot⟩
    obtain rfl := of_decide_eq_true hslot
    exact ⟨t, he⟩
  · rintro ⟨t, he⟩
    exact ⟨_, he, decide_eq_true rfl⟩

/-- The search finds a free identifier, unless all that it looks at are taken. -/
theorem freeIdentifier_cases (s : InFlight) (server : Endpoint) (count : Nat) (start : UInt8) :
    (∃ identifier, (s.freeIdentifier server count start).1 = some identifier ∧
      s.isTaken ⟨identifier, server⟩ = false) ∨
    (s.freeIdentifier server count start).1 = none ∧
      ∀ k < count, s.isTaken ⟨start + UInt8.ofNat k, server⟩ = true := by
  induction count generalizing start with
  | zero => exact Or.inr ⟨rfl, fun _ hk => absurd hk (Nat.not_lt_zero _)⟩
  | succ count ih =>
    unfold freeIdentifier
    split
    · rename_i htaken
      rcases ih (start + 1) with hfound | ⟨hnone, hall⟩
      · exact Or.inl hfound
      · refine Or.inr ⟨hnone, fun k hk => ?_⟩
        cases k with
        | zero => simpa using htaken
        | succ k =>
          have hk' := hall k (Nat.lt_of_succ_lt_succ hk)
          rwa [UInt8.add_assoc, show (1 : UInt8) + UInt8.ofNat k = UInt8.ofNat (k + 1) from by
            rw [UInt8.add_comm, UInt8.ofNat_add]; rfl] at hk'
    · rename_i hfree
      exact Or.inl ⟨start, rfl, Bool.eq_false_iff.mpr hfree⟩

/-- Counting on from any identifier comes to every other. -/
theorem exists_count (start identifier : UInt8) :
    ∃ k < 256, identifier = start + UInt8.ofNat k := by
  refine ⟨(identifier - start).toNat, UInt8.toNat_lt _, ?_⟩
  rw [UInt8.ofNat_toNat, UInt8.add_comm, UInt8.sub_add_cancel]

/-- A request is refused where every identifier is taken, and gets a free one elsewhere. -/
theorem start_cases (s : InFlight) (ticket : Nat) (request : Packet) (server : Endpoint) :
    (∃ next, s.start ticket request server = (.error .noFreeIdentifier, { s with next }) ∧
      ∀ identifier, s.isTaken ⟨identifier, server⟩ = true) ∨
    ∃ identifier next, s.isTaken ⟨identifier, server⟩ = false ∧
      s.start ticket request server = (.ok identifier, { s with
        next
        table := s.table ++ [(⟨identifier, server⟩, ticket)]
        pending := s.pending ++
          [⟨ticket, { request with identifier }, ⟨identifier, server⟩, .claimed, none⟩] }) := by
  have hcases := freeIdentifier_cases s server 256 s.next
  unfold start
  rcases hfree : s.freeIdentifier server 256 s.next with ⟨_ | identifier, next⟩
  · rw [hfree] at hcases
    obtain ⟨identifier, hsome, -⟩ | ⟨-, hall⟩ := hcases
    · cases hsome
    · refine Or.inl ⟨next, rfl, fun identifier => ?_⟩
      obtain ⟨k, hk, rfl⟩ := exists_count s.next identifier
      exact hall k hk
  · rw [hfree] at hcases
    obtain ⟨identifier', hsome, hnot⟩ | ⟨hnone, -⟩ := hcases
    · cases hsome
      exact Or.inr ⟨identifier, next, hnot, rfl⟩
    · cases hnone

/-- **A request is refused exactly when every identifier towards its server stands in the table.** -/
theorem refused_iff (s : InFlight) (ticket : Nat) (request : Packet) (server : Endpoint) :
    (s.start ticket request server).1 = .error .noFreeIdentifier ↔
      ∀ identifier, ∃ t, (⟨identifier, server⟩, t) ∈ s.table := by
  rcases start_cases s ticket request server with ⟨next, hstart, hall⟩ | ⟨i, next, hfree, hstart⟩
  · rw [hstart]
    exact ⟨fun _ identifier => isTaken_iff.mp (hall identifier), fun _ => rfl⟩
  · rw [hstart]
    refine ⟨fun herror => ?_, fun hall => ?_⟩
    · cases herror
    · rw [isTaken_iff.mpr (hall i)] at hfree
      cases hfree

/-- A new request holds its slot. -/
theorem Sound.started (h : Sound s) (new : ∀ p ∈ s.pending, p.ticket ≠ ticket)
    (free : s.isTaken slot = false) (next : UInt8) :
    Sound { s with
      next
      table := s.table ++ [(slot, ticket)]
      pending := s.pending ++ [⟨ticket, request, slot, .claimed, none⟩] } := by
  have hfree : ∀ t, (slot, t) ∉ s.table := fun t he => by
    rw [isTaken_iff.mpr ⟨t, he⟩] at free
    cases free
  refine ⟨?_, ?_, fun e he => ?_, fun p hp hwaits => ?_⟩
  · refine List.pairwise_append.mpr ⟨h.tickets, List.pairwise_singleton _ _, fun p hp q hq => ?_⟩
    rw [List.mem_singleton.mp hq]
    exact new p hp
  · refine List.pairwise_append.mpr ⟨h.slots, List.pairwise_singleton _ _, fun e he f hf => ?_⟩
    rw [List.mem_singleton.mp hf]
    rintro rfl
    exact hfree e.2 he
  · rcases List.mem_append.mp he with he | he
    · obtain ⟨p, hp, howned⟩ := h.owned e he
      exact ⟨p, List.mem_append_left _ hp, howned⟩
    · rw [List.mem_singleton.mp he]
      exact ⟨_, List.mem_append_right _ (List.mem_singleton.mpr rfl), rfl, rfl, rfl⟩
  · rcases List.mem_append.mp hp with hp | hp
    · exact List.mem_append_left _ (h.held p hp hwaits)
    · rw [List.mem_singleton.mp hp]
      exact List.mem_append_right _ (List.mem_singleton.mpr rfl)

/-! ## 4. Giving slots back -/

/-- The table without a slot. -/
def free (s : InFlight) (slot : Slot) : InFlight :=
  { s with table := s.table.filter fun e => e.1 ≠ slot }

/-- Puts a datagram into a request's box. -/
def fill (s : InFlight) (ticket : Nat) (datagram : Bytes) : InFlight :=
  s.change ticket fun p => { p with box := some datagram }

theorem mem_free {e : Slot × Nat} : e ∈ (s.free slot).table ↔ e ∈ s.table ∧ e.1 ≠ slot := by
  unfold free
  rw [List.mem_filter, decide_eq_true_eq]

/-- Slots may be given back, but not those that a request waits for. -/
theorem Sound.thinned (h : Sound s) {table : List (Slot × Nat)} (thin : table.Sublist s.table)
    (held : ∀ p ∈ s.pending, p.Waits → (p.slot, p.ticket) ∈ table) : Sound { s with table } :=
  ⟨h.tickets, h.slots.sublist thin, fun e he => h.owned e (thin.subset he), held⟩

/-- **A request that gets a datagram gives its slot back.** -/
theorem Sound.filled (h : Sound s) (entry : (slot, ticket) ∈ s.table) (datagram : Bytes) :
    Sound ((s.free slot).fill ticket datagram) := by
  refine ⟨h.tickets_change fun _ => rfl, h.slots.sublist List.filter_sublist, fun e he => ?_,
    fun q hq hwaits => ?_⟩
  · obtain ⟨hentry, hslot⟩ := mem_free.mp he
    obtain ⟨p, hp, howned⟩ := h.owned e hentry
    have hother : p.ticket ≠ ticket := fun hsame =>
      hslot (howned.2.1.symm.trans (h.owner entry hp hsame).1)
    exact ⟨p, mem_change.mpr ⟨p, hp, if_neg hother⟩, howned⟩
  · obtain ⟨p, hp, rfl⟩ := mem_change.mp hq
    by_cases hsame : p.ticket = ticket
    · rw [if_pos hsame] at hwaits
      cases hwaits.empty
    · rw [if_neg hsame] at hwaits ⊢
      have hheld := h.held p hp hwaits
      refine mem_free.mpr ⟨hheld, fun hslot => hsame ?_⟩
      change p.slot = slot at hslot
      rw [hslot] at hheld
      exact h.eq_of_entry hheld entry

/-- A request that stands nowhere in the table may end. -/
theorem Sound.ended (h : Sound s) (gone : ∀ e ∈ s.table, e.2 ≠ ticket) : Sound (s.drop ticket) := by
  refine ⟨h.tickets.sublist List.filter_sublist, h.slots, fun e he => ?_, fun p hp hwaits => ?_⟩
  · obtain ⟨p, hp, howned⟩ := h.owned e he
    refine ⟨p, List.mem_filter.mpr ⟨hp, decide_eq_true fun hsame => gone e he ?_⟩, howned⟩
    exact howned.1.symm.trans hsame
  · exact h.held p (List.mem_filter.mp hp).1 hwaits

/-- A datagram is long enough and names a slot in the table, or nothing happens. -/
theorem deliver_cases (s : InFlight) (sender : Endpoint) (received : Bytes) :
    s.deliver sender received = (none, s) ∧ (headSize ≤ received.length →
      ∀ identifier, received[1]? = some identifier → s.isTaken ⟨identifier, sender⟩ = false) ∨
    ∃ identifier ticket, headSize ≤ received.length ∧ received[1]? = some identifier ∧
      (⟨identifier, sender⟩, ticket) ∈ s.table ∧
      s.deliver sender received = if s.takes ticket then
        (some ticket, (s.free ⟨identifier, sender⟩).fill ticket (received.take Packet.maxSize))
        else (none, s.free ⟨identifier, sender⟩) := by
  have hshort : headSize ≤ (received.take Packet.maxSize).length ↔ headSize ≤ received.length := by
    rw [List.length_take]
    unfold headSize Packet.maxSize
    omega
  unfold deliver
  simp only
  split
  · rename_i code identifier rest htake
    have hidentifier : received[1]? = some identifier := by
      rw [← List.getElem?_take_of_lt (j := Packet.maxSize) (by decide), htake]
      rfl
    split
    · rename_i hlt
      exact Or.inl ⟨rfl, fun long => absurd (hshort.mpr long) (Nat.not_le_of_lt hlt)⟩
    · rename_i hlong
      split
      · rename_i hnone
        refine Or.inl ⟨rfl, fun _ identifier' hsecond => ?_⟩
        obtain rfl := Option.some.inj (hidentifier.symm.trans hsecond)
        exact Bool.eq_false_iff.mpr fun htaken => by
          obtain ⟨t, he⟩ := isTaken_iff.mp htaken
          simpa using List.find?_eq_none.mp hnone _ he
      · rename_i slot ticket hfound
        obtain rfl : slot = ⟨identifier, sender⟩ := by simpa using List.find?_some hfound
        refine Or.inr ⟨identifier, ticket, hshort.mp (Nat.le_of_not_lt hlong), hidentifier,
          List.mem_of_find?_eq_some hfound, ?_⟩
        rfl
  · rename_i hnot
    refine Or.inl ⟨rfl, fun long => ?_⟩
    exfalso
    have hlong := hshort.mpr long
    rcases htake : received.take Packet.maxSize with _ | ⟨code, _ | ⟨identifier, rest⟩⟩
    · rw [htake] at hlong
      exact absurd hlong (by decide)
    · rw [htake] at hlong
      exact absurd hlong (Nat.not_le_of_lt (by decide : 1 < headSize))
    · exact hnot code identifier rest htake

/-- A request ends with the reply that its datagram brings, or goes on. -/
theorem finish_cases (s : InFlight) (ctx : WritingContext) (ticket : Nat) :
    (s.finish ctx ticket).1 = none ∧ Moves s (s.finish ctx ticket).2 ∨
    ∃ p datagram reply, s.find? ticket = some p ∧ p.box = some datagram ∧
      accept ctx p.request datagram = .ok reply ∧
      s.finish ctx ticket = (some reply, s.drop ticket) := by
  unfold finish
  split
  · rename_i request slot datagram found
    split
    · rename_i reply hreply
      exact Or.inr ⟨_, datagram, reply, found, rfl, hreply, rfl⟩
    · exact Or.inl ⟨rfl, moves_fail found _⟩
  · exact Or.inl ⟨rfl, .still⟩

/-- What is left of the table when the request with the slot gives it back: everything under other
slots, and what a request that takes a datagram holds under this one. -/
def vacate (s : InFlight) (slot : Slot) : InFlight :=
  { s with table := s.table.filter fun e => !(e.1 = slot && !s.takes e.2) }

/-- A request that has failed gives its slot back and ends, or nothing happens. -/
theorem release_cases (s : InFlight) (ticket : Nat) :
    s.release ticket = (none, s) ∨
    ∃ p fault, s.find? ticket = some p ∧ p.phase = .failed fault ∧
      s.release ticket = (some fault, (s.vacate p.slot).drop ticket) := by
  unfold release
  split
  · rename_i slot fault box found
    exact Or.inr ⟨_, fault, found, rfl, rfl⟩
  · exact Or.inl rfl

theorem mem_vacate {e : Slot × Nat} :
    e ∈ (s.vacate slot).table ↔ e ∈ s.table ∧ (e.1 = slot → s.takes e.2 = true) := by
  unfold vacate
  rw [List.mem_filter, imp_iff_not_or]
  simp

/-- **Giving a slot back takes it from nobody who waits.** -/
theorem Sound.mem_release (h : Sound s) (hp : p ∈ s.pending) (waits : p.Waits) (ticket : Nat) :
    (p.slot, p.ticket) ∈ (s.release ticket).2.table := by
  have hheld := h.held p hp waits
  rcases release_cases s ticket with hnothing | ⟨q, fault, -, -, hrelease⟩
  · rw [hnothing]
    exact hheld
  · rw [hrelease]
    exact mem_vacate.mpr ⟨hheld, fun _ => (h.takes_iff hp waits.empty).mpr waits⟩

/-- A failed request may give its slot back and end. -/
theorem Sound.released (h : Sound s) (ticket : Nat) : Sound (s.release ticket).2 := by
  rcases release_cases s ticket with hnothing | ⟨p, fault, found, hfailed, hrelease⟩
  · rw [hnothing]
    exact h
  · obtain ⟨hp, rfl⟩ := mem_of_find? found
    rw [hrelease]
    have hvacated : Sound (s.vacate p.slot) :=
      h.thinned List.filter_sublist fun q hq hwaits =>
        mem_vacate.mpr ⟨h.held q hq hwaits, fun _ => (h.takes_iff hq hwaits.empty).mpr hwaits⟩
    refine hvacated.ended fun e he hsame => ?_
    obtain ⟨hentry, htakes⟩ := mem_vacate.mp he
    -- the entry would be the failed request's own, which takes no datagram
    obtain ⟨hslot, hempty⟩ := h.owner hentry hp hsame.symm
    have hwaits := htakes hslot.symm
    rw [hsame] at hwaits
    exact ((h.takes_iff hp hempty).mp hwaits).unfailed fault hfailed

/-- Taking a datagram from the network keeps the table and the requests fitting. -/
theorem Sound.delivered (h : Sound s) (sender : Endpoint) (received : Bytes) :
    Sound (s.deliver sender received).2 := by
  rcases deliver_cases s sender received with
    ⟨hnothing, -⟩ | ⟨identifier, ticket, -, -, hentry, hdeliver⟩
  · rw [hnothing]
    exact h
  · rw [hdeliver]
    split
    · exact h.filled hentry _
    · -- whoever waited for the slot would have taken the datagram
      rename_i hnot
      refine h.thinned List.filter_sublist fun p hp hwaits => ?_
      have hheld := h.held p hp hwaits
      refine mem_free.mpr ⟨hheld, fun hslot => hnot ?_⟩
      change p.slot = _ at hslot
      rw [hslot] at hheld
      rw [← h.eq_of_entry hheld hentry]
      exact (h.takes_iff hp hwaits.empty).mpr hwaits

/-- So does an end with a reply. -/
theorem Sound.finished (h : Sound s) (ctx : WritingContext) (ticket : Nat) :
    Sound (s.finish ctx ticket).2 := by
  rcases finish_cases s ctx ticket with ⟨-, hmoves⟩ | ⟨p, datagram, reply, found, hbox, -, hfinish⟩
  · exact h.moves hmoves
  · obtain ⟨hp, rfl⟩ := mem_of_find? found
    rw [hfinish]
    refine h.ended fun e he hsame => ?_
    rw [(h.owner he hp hsame.symm).2] at hbox
    cases hbox

/-- Where no request is on its way, no slot is in use. -/
theorem Sound.table_eq_nil (h : Sound s) (none_ : s.pending = []) : s.table = [] := by
  refine List.eq_nil_iff_forall_not_mem.mpr fun e he => ?_
  obtain ⟨p, hp, -⟩ := h.owned e he
  rw [none_] at hp
  exact List.not_mem_nil hp

end InFlight

end AccessGate.Remote
