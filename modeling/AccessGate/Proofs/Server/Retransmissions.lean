import AccessGate.Proofs.Access.Acceptance
import AccessGate.Proofs.Net.Printed
import AccessGate.Proofs.Server.Arrivals
import AccessGate.Proofs.Store.Telling

/-!
# Each request is routed once

A device that gets no answer repeats its request, and the server remembers the requests that it has
routed by a text. This file says what that text is worth and what is remembered by it:

* `requestKey_inj`: two requests have one text exactly if they are alike (`Request.Alike`), whatever
  stands in a user name, for the text ends with an authenticator of fixed size and the other parts
  hold no separator;
* `recalls_of_run`: the texts that are live are those of the requests routed at most the time to live
  ago, and to notice a request again does not make it younger;
* `routed_iff_new`: a request is routed exactly if none like it was routed at most the time to live
  ago.
-/

namespace AccessGate

open Dialogue

variable {V : Type}

/-! ## 1. The text of a request -/

/-- The requests agree in what tells a request from every other: code, identifier, authenticator,
sender, and user name, where none is an empty one. -/
structure Request.Alike (a b : Request) : Prop where
  code : a.packet.code = b.packet.code
  identifier : a.packet.identifier = b.packet.identifier
  authenticator : a.packet.authenticator = b.packet.authenticator
  remote : a.remote = b.remote
  userName : a.packet.userName?.getD "" = b.packet.userName?.getD ""

namespace Retransmissions

variable {p q : Radius.Packet} {sender sender' : Endpoint}

/-- The characters of the text. -/
theorem toList_requestKey (p : Radius.Packet) (sender : Endpoint) :
    (requestKey p sender).toList =
      Nat.toDigits 10 p.code.number.toNat ++ '|' :: (Nat.toDigits 10 p.identifier.toNat ++
        '|' :: (sender.print.toList ++ '|' :: ((p.userName?.getD "").toList ++
          '|' :: Base64.encodeChars p.authenticator.octets))) := by
  unfold requestKey Base64.encode
  simp only [String.toList_intercalate, List.map_cons, List.map_nil, toList_toString,
    String.toList_ofList]
  simp [List.intercalate_cons_cons, List.append_assoc]

/-- A code is told by its number. -/
theorem code_injective {c c' : Radius.Code} (h : c.number = c'.number) : c = c' := by
  have hcode := Radius.Code.ofNumber?_number c
  rw [h, Radius.Code.ofNumber?_number] at hcode
  exact (Option.some.inj hcode).symm

theorem octet_injective {b b' : UInt8} (h : Nat.toDigits 10 b.toNat = Nat.toDigits 10 b'.toNat) :
    b = b' := UInt8.toNat_inj.mp (toDigits_injective (by decide) (by decide) h)

theorem length_authenticator (p : Radius.Packet) :
    (Base64.encodeChars p.authenticator.octets).length = 24 := by
  rw [Base64.length_encodeChars, p.authenticator.length_octets]

/-- **The text tells requests apart**, also where a user name holds the separator: what stands
before the name holds none, and what stands after it is of fixed length. -/
theorem requestKey_inj : requestKey p sender = requestKey q sender' ↔
    p.code = q.code ∧ p.identifier = q.identifier ∧ p.authenticator = q.authenticator ∧
      sender = sender' ∧ p.userName?.getD "" = q.userName?.getD "" := by
  constructor
  · intro h
    have hlist := congrArg String.toList h
    rw [toList_requestKey, toList_requestKey] at hlist
    have hdigits (n : Nat) : '|' ∉ Nat.toDigits 10 n :=
      fun hc => absurd (mem_toDigits (by decide) (by decide) hc) (by decide +kernel)
    have hprint (e : Endpoint) : '|' ∉ e.print.toList :=
      fun hc => absurd (Endpoint.mem_print hc) (by decide +kernel)
    obtain ⟨hcode, hlist⟩ := cut_unique (hdigits _) (hdigits _) (by simp) (by simp) hlist
    obtain ⟨hidentifier, hlist⟩ := cut_unique (hdigits _) (hdigits _) (by simp) (by simp)
      (List.tail_eq_of_cons_eq hlist)
    obtain ⟨hsender, hlist⟩ := cut_unique (hprint _) (hprint _) (by simp) (by simp)
      (List.tail_eq_of_cons_eq hlist)
    obtain ⟨hname, hauthenticator⟩ := List.append_inj' (List.tail_eq_of_cons_eq hlist)
      (by simp only [List.length_cons, length_authenticator])
    refine ⟨code_injective (octet_injective hcode), octet_injective hidentifier, ?_,
      Endpoint.print_injective (String.toList_inj.mp hsender), String.toList_inj.mp hname⟩
    have hoctets : p.authenticator.octets = q.authenticator.octets :=
      Base64.encodeChars_injective
        (p.authenticator.length_octets.trans q.authenticator.length_octets.symm)
        (List.tail_eq_of_cons_eq hauthenticator)
    exact (Block.mk.injEq ..).mpr hoctets
  · rintro ⟨hcode, hidentifier, hauthenticator, hsender, hname⟩
    unfold requestKey
    rw [hcode, hidentifier, hauthenticator, hsender, hname]

/-- The text of a whole request. -/
def keyOf (request : Request) : String := requestKey request.packet request.remote

theorem keyOf_inj {a b : Request} : keyOf a = keyOf b ↔ a.Alike b := by
  unfold keyOf
  rw [requestKey_inj]
  constructor
  · rintro ⟨hcode, hidentifier, hauthenticator, hremote, hname⟩
    exact ⟨hcode, hidentifier, hauthenticator, hremote, hname⟩
  · rintro ⟨hcode, hidentifier, hauthenticator, hremote, hname⟩
    exact ⟨hcode, hidentifier, hauthenticator, hremote, hname⟩

/-- **To note a request** is to look for its text, and to put it in where it is not live. -/
theorem note_cases (r : Retransmissions) (now : Time) (request : Request)
    (distinct : r.seen.Distinct) (room : r.seen.HasRoom now) :
    (∃ looked : Retransmissions, (r.seen.live? now (keyOf request)).isSome = true ∧
      r.note now request.packet request.remote = (true, looked) ∧
        TimedMap.Looked now r.seen looked.seen) ∨
    (r.seen.live? now (keyOf request)).isSome = false ∧
      r.note now request.packet request.remote =
        (false, ⟨r.seen.insert now (keyOf request) ()⟩) := by
  unfold note
  rcases TimedMap.insertIfAbsent_cases distinct room () with ⟨hlive, hold, hlooked⟩ | ⟨hnone, hnew⟩
  · refine Or.inl ⟨⟨(r.seen.insertIfAbsent now (keyOf request) ()).2⟩, hlive, ?_, hlooked⟩
    show (!(r.seen.insertIfAbsent now (keyOf request) ()).1, _) = _
    rw [hold]
    rfl
  · refine Or.inr ⟨hnone, ?_⟩
    show (!(r.seen.insertIfAbsent now (keyOf request) ()).1,
      (⟨(r.seen.insertIfAbsent now (keyOf request) ()).2⟩ : Retransmissions)) = _
    rw [hnew]
    rfl

end Retransmissions

open Retransmissions

namespace Server

variable {s s₀ : Server V} {arrivals earlier later : List (Arrival V)} {x : Arrival V}
  {request : Request} {lifetime started : Time}

/-! ## 2. What one datagram does -/

/-- **A request is dropped if its text is live, and else routed and remembered.** -/
theorem Serves.noted (h : s.Serves x) (asks : s.request x.sender x.datagram = .ok request)
    (distinct : s.retransmissions.seen.Distinct) (room : s.retransmissions.seen.HasRoom x.now) :
    (∃ looked : Retransmissions,
      (s.retransmissions.seen.live? x.now (keyOf request)).isSome = true ∧
        x.handled = .dropped .retransmission ∧ x.exchanges = [] ∧
        x.after = { s with retransmissions := looked } ∧
        TimedMap.Looked x.now s.retransmissions.seen looked.seen) ∨
    ∃ d, (s.retransmissions.seen.live? x.now (keyOf request)).isSome = false ∧
      Trace (s.router.route x.now request) x.exchanges d ∧
      x.handled = .ofOutgoing (s.outgoing d.request (d.packet x.now)) ∧
      x.after = { s with
        retransmissions := ⟨s.retransmissions.seen.insert x.now (keyOf request) ()⟩
        router := d.router } := by
  obtain ⟨drop, hdrop, -⟩ | ⟨request', seen, noted, hasks, hnote, hways⟩ := handle_cases h
  · rw [asks] at hdrop
    cases hdrop
  · obtain rfl : request = request' := Except.ok.inj (asks.symm.trans hasks)
    obtain ⟨looked, hlive, hold, hlooked⟩ | ⟨hnone, hnew⟩ :=
      note_cases s.retransmissions x.now request distinct room
    · obtain ⟨rfl, rfl⟩ := Prod.mk.inj (hnote.symm.trans hold)
      obtain ⟨-, hes, hhandled, hafter⟩ | ⟨hseen, -⟩ := hways
      · exact Or.inl ⟨noted, hlive, hhandled, hes, hafter, hlooked⟩
      · cases hseen
    · obtain ⟨rfl, rfl⟩ := Prod.mk.inj (hnote.symm.trans hnew)
      obtain ⟨hseen, -⟩ | ⟨-, d, hroute, hhandled, hafter⟩ := hways
      · cases hseen
      · exact Or.inr ⟨d, hnone, hroute, hhandled, hafter⟩

/-! ## 3. What is remembered along a run -/

/-- The arrival's request was routed, and this is its text. -/
def Noted (s₀ : Server V) (x : Arrival V) (key : String) : Prop :=
  x.handled.isRouted = true ∧
    ∃ request, s₀.request x.sender x.datagram = .ok request ∧ keyOf request = key

/-- The arrival was routed at most the lifetime before the instant. -/
def isRecent (lifetime t : Time) (x : Arrival V) : Bool :=
  x.handled.isRouted && decide (x.now ≤ t ∧ t - x.now ≤ lifetime)

/-- In no window of the lifetime are as many requests routed as can be remembered. -/
def Sparse (lifetime : Time) (arrivals : List (Arrival V)) : Prop :=
  ∀ t, arrivals.countP (isRecent lifetime t) < TimedMap.defaultMaxEntries

theorem Sparse.of_append {more : List (Arrival V)} (h : Sparse lifetime (arrivals ++ more)) :
    Sparse lifetime arrivals := by
  intro t
  have hall := h t
  rw [List.countP_append] at hall
  omega

/-- The server remembers the texts of what it has routed lately. -/
structure Recalls (s₀ : Server V) (lifetime : Time) (arrivals : List (Arrival V)) (s : Server V) :
    Prop where
  setup : SameSetup s₀ s
  size : s.retransmissions.seen.maxEntries = TimedMap.defaultMaxEntries
  tells : TimedMap.Tells Arrival.now (Noted s₀) lifetime arrivals s.retransmissions.seen

/-- Every live text is that of a recent arrival, so there is room while they are few. -/
theorem Recalls.hasRoom (h : Recalls s₀ lifetime arrivals s) (sparse : Sparse lifetime arrivals)
    {now : Time} (order : ∀ y ∈ arrivals, y.now ≤ now) :
    s.retransmissions.seen.HasRoom now := by
  refine TimedMap.hasRoom_of_keys h.tells.distinct
    ((arrivals.filter (isRecent lifetime now)).filterMap fun y =>
      (s₀.request y.sender y.datagram).toOption.map keyOf) ?_ ?_
  · intro key hlive
    obtain ⟨y, hy, ⟨hrouted, request, hasks, hkey⟩, hage⟩ := (h.tells.live now key order).mp hlive
    refine List.mem_filterMap.mpr ⟨y, List.mem_filter.mpr ⟨hy, ?_⟩, ?_⟩
    · unfold isRecent
      rw [hrouted, decide_eq_true ⟨order y hy, hage⟩]
      rfl
    · rw [hasks, ← hkey]
      rfl
  · rw [h.size]
    refine Nat.lt_of_le_of_lt (List.length_filterMap_le _ _) ?_
    rw [← List.countP_eq_length_filter]
    exact sparse now

/-- **An arrival leaves the server with what it has routed lately.** -/
theorem Recalls.arrival (h : Recalls s₀ lifetime arrivals s) (sparse : Sparse lifetime arrivals)
    (order : ∀ y ∈ arrivals, y.now ≤ x.now) (serves : s.Serves x) :
    Recalls s₀ lifetime (arrivals ++ [x]) x.after := by
  have hsetup : SameSetup s₀ x.after :=
    ⟨serves.setup.registry.trans h.setup.registry, serves.setup.writing.trans h.setup.writing⟩
  have hsilent {reason : Drop} (dropped : x.handled = .dropped reason) (key : String) :
      ¬ Noted s₀ x key := by
    rintro ⟨hrouted, -⟩
    rw [dropped] at hrouted
    cases hrouted
  cases hasks : s.request x.sender x.datagram with
  | error drop =>
    obtain ⟨drop', -, -, hhandled, hafter⟩ | ⟨request, -, -, hother, -⟩ := handle_cases serves
    · refine ⟨hsetup, ?_, ?_⟩
      · rw [hafter]
        exact h.size
      · rw [hafter]
        exact h.tells.look order (.refl _ _) (hsilent hhandled)
    · rw [hasks] at hother
      cases hother
  | ok request =>
    have hroom := h.hasRoom sparse order
    obtain ⟨looked, -, hhandled, -, hafter, hlooked⟩ | ⟨d, -, -, hhandled, hafter⟩ :=
      serves.noted hasks h.tells.distinct hroom
    · refine ⟨hsetup, ?_, ?_⟩
      · rw [hafter]
        exact hlooked.thinned.maxEntries.trans h.size
      · rw [hafter]
        exact h.tells.look order hlooked (hsilent hhandled)
    · have hfirst : s₀.request x.sender x.datagram = .ok request := by
        rw [← h.setup.request, hasks]
      have hrouted : x.handled.isRouted = true := by
        rw [hhandled]
        exact isRouted_ofOutgoing _
      refine ⟨hsetup, ?_, ?_⟩
      · rw [hafter]
        exact (TimedMap.thinned_makeRoom _ _).maxEntries.trans h.size
      · rw [hafter]
        refine h.tells.put order (.refl _ _) hroom ⟨hrouted, request, hfirst, rfl⟩ ?_ ()
        rintro other ⟨-, request', hasks', rfl⟩
        rw [Except.ok.inj (hasks'.symm.trans hfirst)]

/-- **The texts that are live are those of the requests routed lately.** -/
theorem recalls_of_run (run : Run s₀ arrivals s)
    (started : s₀.retransmissions = .make lifetime started) (sparse : Sparse lifetime arrivals) :
    Recalls s₀ lifetime arrivals s := by
  refine run.preserves (P := fun arrivals s => Sparse lifetime arrivals →
    Recalls s₀ lifetime arrivals s) ?_ ?_ sparse
  · intro _
    refine ⟨⟨rfl, rfl⟩, ?_, ?_⟩
    · rw [started]
      rfl
    · rw [started]
      exact TimedMap.tells_make _ _
  · intro arrivals s x _ ih order serves sparse
    exact (ih sparse.of_append).arrival sparse.of_append order serves

/-! ## 4. Each request once -/

/-- A request like this one was routed, at most the lifetime ago. -/
def RoutedBefore (s₀ : Server V) (lifetime : Time) (earlier : List (Arrival V)) (now : Time)
    (request : Request) : Prop :=
  ∃ y ∈ earlier, y.handled.isRouted = true ∧ now - y.now ≤ lifetime ∧
    ∃ before, s₀.request y.sender y.datagram = .ok before ∧ before.Alike request

/-- **Each request is routed once**: along a run a datagram's request is routed exactly if none like
it was routed at most the lifetime ago. If it is not, the datagram is dropped, nobody is asked, and
the router stays as it is. -/
theorem routed_iff_new (run : Run s₀ arrivals s)
    (started : s₀.retransmissions = .make lifetime started) (sparse : Sparse lifetime arrivals)
    (cut : arrivals = earlier ++ x :: later)
    (asks : s₀.request x.sender x.datagram = .ok request) :
    (x.handled.isRouted = true ↔ ¬ RoutedBefore s₀ lifetime earlier x.now request) ∧
    ∃ met, Run s₀ earlier met ∧
      (x.handled.isRouted = true → ∃ d, Trace (met.router.route x.now request) x.exchanges d ∧
        x.handled = .ofOutgoing (met.outgoing d.request (d.packet x.now)) ∧
        x.after.router = d.router) ∧
      (x.handled.isRouted = false → x.handled = .dropped .retransmission ∧ x.exchanges = [] ∧
        x.after.router = met.router) := by
  obtain ⟨met, past, order, serves⟩ := run.split cut
  have hsparse : Sparse lifetime earlier := Sparse.of_append (cut ▸ sparse)
  have recalls := recalls_of_run past started hsparse
  have hasks : met.request x.sender x.datagram = .ok request := by rw [Run.request past, asks]
  have hlive : (met.retransmissions.seen.live? x.now (keyOf request)).isSome = true ↔
      RoutedBefore s₀ lifetime earlier x.now request := by
    rw [recalls.tells.live x.now (keyOf request) order]
    constructor
    · rintro ⟨y, hy, ⟨hrouted, before, hbefore, hkey⟩, hage⟩
      exact ⟨y, hy, hrouted, hage, before, hbefore, keyOf_inj.mp hkey⟩
    · rintro ⟨y, hy, hrouted, hage, before, hbefore, halike⟩
      exact ⟨y, hy, ⟨hrouted, before, hbefore, keyOf_inj.mpr halike⟩, hage⟩
  obtain ⟨looked, hsome, hhandled, hes, hafter, -⟩ | ⟨d, hnone, hroute, hhandled, hafter⟩ :=
    serves.noted hasks recalls.tells.distinct (recalls.hasRoom hsparse order)
  · have hdropped : x.handled.isRouted = false := by
      rw [hhandled]
      rfl
    refine ⟨?_, met, past, fun h => ?_, fun _ => ⟨hhandled, hes, ?_⟩⟩
    · rw [← hlive, hsome, hdropped]
      simp
    · rw [hdropped] at h
      cases h
    · rw [hafter]
  · have hrouted : x.handled.isRouted = true := by
      rw [hhandled]
      exact isRouted_ofOutgoing _
    refine ⟨?_, met, past, fun _ => ⟨d, hroute, hhandled, ?_⟩, fun h => ?_⟩
    · rw [← hlive, hnone, hrouted]
      simp
    · rw [hafter]
    · rw [hrouted] at h
      cases h

end Server

/-! ## 5. A datagram of the sample that comes twice -/

namespace Login

open Radius Server

/-- A server of the sample configuration's first client, which remembers requests for ten
seconds. -/
def server : Server FirstFactor.Verifier where
  listen := .v4 (.ofOctets [0, 0, 0, 0]) 1812
  bound := none
  registry := ⟨[], [(⟨.v4 (.ofOctets [10, 0, 0, 0]), 8⟩, Config.exampleDirectoryClient)]⟩
  writing := ⟨.standard, .standard⟩
  router
  retransmissions := .make (.ofSeconds 10) 0
  rejectDelay := ⟨0, 0⟩

/-- The device of the sample. -/
def device : Endpoint := .v4 (.ofOctets [10, 0, 0, 1]) 40000

/-- The device asks whether the gateway is there. -/
def statusDatagram : Bytes := [12, 7, 0, 20] ++ Bytes.zeros 16

/-- The request that it makes. -/
def statusRequest : Request := .make device none Config.exampleDirectoryClient
  ⟨.statusServer, 7, .zero, none, Config.exampleDirectoryClient.secret, .empty⟩

theorem request_status : server.request device statusDatagram = .ok statusRequest := by
  decide +kernel

/-- The datagram on its way: nobody has to be asked for the answer. -/
def statusAt (now : Time) (handled : Handled) (after : Server FirstFactor.Verifier) :
    Arrival FirstFactor.Verifier := ⟨now, device, statusDatagram, [], handled, after⟩

theorem serves_status {s : Server FirstFactor.Verifier} {arrivals}
    (run : Run server arrivals s) (now : Time) :
    ∃ handled after, s.Serves (statusAt now handled after) := by
  have hasks : s.request device statusDatagram = .ok statusRequest := by
    rw [Run.request run, request_status]
  have hroute : Trace (s.router.route now statusRequest) []
      ⟨.decision .accept, statusRequest, s.router⟩ := trace_done_iff.mpr ⟨rfl, rfl⟩
  obtain ⟨⟨seen, noted⟩, hnote⟩ : ∃ noted, s.retransmissions.note now statusRequest.packet
      statusRequest.remote = noted := ⟨_, rfl⟩
  cases seen with
  | true => exact ⟨_, _, trace_handle_seen hasks hnote⟩
  | false => exact ⟨_, _, trace_handle hasks hnote hroute⟩

/-- The second of two equal datagrams is dropped when it comes in time. -/
theorem status_routed_once : ∃ first second after, Run server [first, second] after ∧
    server.retransmissions = .make (.ofSeconds 10) 0 ∧
    Sparse (.ofSeconds 10) [first, second] ∧
    server.request first.sender first.datagram = .ok statusRequest ∧
    server.request second.sender second.datagram = .ok statusRequest ∧
    first.handled.isRouted = true ∧ second.handled = .dropped .retransmission := by
  obtain ⟨handled, after, hfirst⟩ := serves_status .start 1
  have hone : Run server [statusAt 1 handled after] after :=
    .event [] server _ .start (fun _ hy => nomatch hy) hfirst
  obtain ⟨handled', after', hsecond⟩ := serves_status hone 2
  have htwo : Run server [statusAt 1 handled after, statusAt 2 handled' after'] after' := by
    refine .event [_] after _ hone ?_ hsecond
    intro y hy
    rw [List.mem_singleton.mp hy]
    exact Nat.le_succ 1
  have sparse : Sparse (.ofSeconds 10) [statusAt 1 handled after, statusAt 2 handled' after'] :=
    fun t => Nat.lt_of_le_of_lt List.countP_le_length (show 2 < 100000 by decide)
  have hcut : [statusAt 1 handled after, statusAt 2 handled' after'] =
      [] ++ statusAt 1 handled after :: [statusAt 2 handled' after'] := rfl
  have hnew : handled.isRouted = true := by
    refine (routed_iff_new htwo rfl sparse hcut request_status).1.mpr ?_
    rintro ⟨y, hy, -⟩
    cases hy
  have hcut' : [statusAt 1 handled after, statusAt 2 handled' after'] =
      [statusAt 1 handled after] ++ statusAt 2 handled' after' :: [] := rfl
  obtain ⟨hiff, met, -, -, hdropped⟩ := routed_iff_new htwo rfl sparse hcut' request_status
  have hold : handled'.isRouted = false := by
    refine Bool.eq_false_iff.mpr fun h => hiff.mp h ?_
    refine ⟨_, List.mem_singleton_self _, hnew, show 2 - 1 ≤ 10 * 1000000000 by decide,
      statusRequest, request_status, ?_⟩
    exact ⟨rfl, rfl, rfl, rfl, rfl⟩
  exact ⟨_, _, after', htwo, rfl, sparse, request_status, request_status, hnew, (hdropped hold).1⟩

end Login

end AccessGate
