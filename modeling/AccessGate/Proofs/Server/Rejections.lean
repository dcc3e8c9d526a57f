import AccessGate.Proofs.Server.Retransmissions

/-!
# Rejected datagrams have no influence

A datagram with a bad header, of nobody known, that is no packet or asks for nothing that is served
makes no request. Others can send such datagrams at will, so it matters that they change nothing.
Here the others' part is a function that answers every question and may remember all it was ever
asked, and a play is the list of arrivals that a list of datagrams leads to.

* `arrive_of_error`: a rejected datagram asks nobody and leaves the server as it is;
* `play_without_rejected`: the play without it has the same other arrivals: the same exchanges and
  replies, and the same servers after them.
-/

namespace AccessGate

open Dialogue

/-- A datagram as it comes from the network. -/
structure Incoming where
  now : Time
  sender : Endpoint
  datagram : Bytes

namespace Server

variable {V σ : Type} (respond : σ → (q : Question V) → q.Answer × σ) {s : Server V} {w w' : σ}
  {i : Incoming} {x : Arrival V} {earlier later : List Incoming}

/-! ## 1. One datagram -/

/-- The datagram made no request: it was dropped, and not because a request came twice. -/
def Handled.isRejected : Handled → Bool
  | .dropped .retransmission => false
  | .dropped _ => true
  | .unwritable _ | .sent _ => false

/-- The datagram on its way, while `respond` answers. -/
def arrive (w : σ) (s : Server V) (i : Incoming) : Arrival V × σ :=
  let ((es, handled, after), w) := (s.handle i.now i.sender i.datagram).transcript respond w
  (⟨i.now, i.sender, i.datagram, es, handled, after⟩, w)

/-- What arrives is served. -/
theorem serves_arrive (w : σ) (s : Server V) (i : Incoming) :
    s.Serves (s.arrive respond w i).1 :=
  trace_transcript respond w (s.handle i.now i.sender i.datagram)

/-- **A datagram is rejected exactly if it makes no request**: whatever the server has seen. -/
theorem Serves.isRejected_iff (h : s.Serves x) :
    x.handled.isRejected = true ↔ ∃ drop, s.request x.sender x.datagram = .error drop := by
  obtain ⟨drop, hdrop, -, hhandled, -⟩ | ⟨request, seen, noted, hasks, -, hways⟩ := handle_cases h
  · have hnew : drop ≠ .retransmission := by
      obtain ⟨drop', hdrop', hnew⟩ | ⟨relayed, client, packet, -, -, -, hasks⟩ :=
        request_cases s x.sender x.datagram
      · obtain rfl := Except.error.inj (hdrop.symm.trans hdrop')
        exact hnew
      · rw [hdrop] at hasks
        cases hasks
    rw [hhandled]
    refine ⟨fun _ => ⟨drop, hdrop⟩, fun _ => ?_⟩
    cases drop with
    | retransmission => exact absurd rfl hnew
    | badHeader => rfl
    | unknownClient => rfl
    | badPacket => rfl
    | unsupportedCode => rfl
  · have hrejected : x.handled.isRejected = false := by
      obtain ⟨-, -, hhandled, -⟩ | ⟨-, d, -, hhandled, -⟩ := hways
      · rw [hhandled]
        rfl
      · rw [hhandled]
        cases s.outgoing d.request (d.packet x.now) <;> rfl
    rw [hrejected, hasks]
    simp

/-- A datagram that makes no request asks nobody and changes nothing. -/
theorem arrive_of_error {drop : Drop} (error : s.request i.sender i.datagram = .error drop) :
    s.arrive respond w i = (⟨i.now, i.sender, i.datagram, [], .dropped drop, s⟩, w) := by
  have hhandle : s.handle i.now i.sender i.datagram = .done (.dropped drop, s) := by
    unfold handle newRequest
    rw [error]
  unfold arrive
  rw [hhandle]
  rfl

/-! ## 2. Plays -/

/-- The arrivals of a list of datagrams, and what the others remember after them. -/
def play : σ → Server V → List Incoming → List (Arrival V) × σ
  | w, _, [] => ([], w)
  | w, s, i :: rest =>
    let (x, w) := s.arrive respond w i
    let (xs, w) := play w x.after rest
    (x :: xs, w)

theorem play_cons (w : σ) (s : Server V) (i : Incoming) (rest : List Incoming) :
    play respond w s (i :: rest) =
      ((s.arrive respond w i).1 ::
          (play respond (s.arrive respond w i).2 (s.arrive respond w i).1.after rest).1,
        (play respond (s.arrive respond w i).2 (s.arrive respond w i).1.after rest).2) := rfl

/-- **Rejected datagrams have no influence**: a datagram of a play that is rejected has nobody
asked and gets no reply, and the play without it has the same other arrivals, with the same exchanges
and replies and the same servers after them, and leaves the others with the same memory. -/
theorem play_without_rejected {before after : List (Arrival V)}
    (h : play respond w s (earlier ++ i :: later) = (before ++ x :: after, w'))
    (place : before.length = earlier.length) (rejected : x.handled.isRejected = true) :
    x.exchanges = [] ∧ (∀ reply, x.handled ≠ .sent reply) ∧
      play respond w s (earlier ++ later) = (before ++ after, w') := by
  induction earlier generalizing w s before with
  | nil =>
    obtain rfl := List.length_eq_zero_iff.mp place
    rw [List.nil_append, play_cons] at h
    obtain ⟨harrivals, hmemory⟩ := Prod.mk.inj h
    obtain ⟨hx, hafter⟩ := List.cons.inj harrivals
    have hserves : s.Serves x := hx ▸ serves_arrive respond w s i
    obtain ⟨drop, hdrop⟩ := hserves.isRejected_iff.mp rejected
    have hincoming : i.sender = x.sender ∧ i.datagram = x.datagram := by
      rw [← hx]
      exact ⟨rfl, rfl⟩
    rw [← hincoming.1, ← hincoming.2] at hdrop
    rw [arrive_of_error respond hdrop] at hx hafter hmemory
    refine ⟨by rw [← hx], fun reply hreply => ?_, Prod.ext hafter hmemory⟩
    rw [hreply] at rejected
    cases rejected
  | cons j earlier ih =>
    obtain ⟨y, before, rfl⟩ := List.exists_cons_of_length_eq_add_one place
    rw [List.cons_append, play_cons] at h
    obtain ⟨harrivals, hmemory⟩ := Prod.mk.inj h
    obtain ⟨hy, hrest⟩ := List.cons.inj harrivals
    obtain ⟨hunasked, hsilent, hplay⟩ := ih (Prod.ext hrest hmemory) (Nat.succ.inj place)
    refine ⟨hunasked, hsilent, ?_⟩
    rw [List.cons_append, play_cons, hplay, hy]
    rfl

end Server

/-! ## 3. A forged datagram of the sample -/

namespace Login

open Server

/-- Others who refuse whatever they are asked. -/
def refusal : Unit → (q : Question FirstFactor.Verifier) → q.Answer × Unit
  | _, .verify _ _ => (.bare (.ok .reject), ())
  | _, .changePassword _ _ _ => (.failed, ())
  | _, .service _ _ => (.error (.transport false), ())
  | _, .token => (.zero, ())

/-- A request that is signed with nothing but zeros. -/
def forged : Incoming := ⟨1, device, [1, 7, 0, 38] ++ Bytes.zeros 16 ++ [80, 18] ++ Bytes.zeros 16⟩

/-- The device's own datagram. -/
def genuine : Incoming := ⟨2, device, statusDatagram⟩

theorem request_forged : server.request forged.sender forged.datagram =
    .error (.badPacket .invalidMessageAuthenticator) := by
  decide +kernel

/-- The forged datagram takes nothing from the genuine one after it. -/
theorem forged_without_influence : ∃ x after w,
    play refusal () server ([] ++ forged :: [genuine]) = ([] ++ x :: after, w) ∧
      x.handled.isRejected = true ∧ x.exchanges = [] ∧
      play refusal () server ([] ++ [genuine]) = ([] ++ after, w) := by
  have hrejected : (server.arrive refusal () forged).1.handled.isRejected = true := by
    rw [arrive_of_error refusal request_forged]
    rfl
  have hplay := play_cons refusal () server forged [genuine]
  have hempty : ([] : List (Arrival FirstFactor.Verifier)).length =
      ([] : List Incoming).length := rfl
  obtain ⟨hunasked, -, hwithout⟩ := play_without_rejected refusal hplay hempty hrejected
  exact ⟨_, _, _, hplay, hrejected, hunasked, hwithout⟩

end Login

end AccessGate
