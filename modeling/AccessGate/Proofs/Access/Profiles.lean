import AccessGate.Proofs.Access.Stores
import AccessGate.Proofs.Histories

/-!
# The profile goes along

What a directory said of a user is known to the request whose first factor was verified, and the
requests that answer its challenges are new ones that nothing is known of. The gateway keeps the
profile with each challenge, under an identifier that the service chooses, and keeps it again with
the next.

* `Chain`: a conversation of challenges, told from the visits alone: each visit of it answers the
  challenge of the one before in time, and all others have nothing to do with its tokens;
* `Carries`: the last of its challenges is open with the profile of its first visit;
* `profile_survives`: so whoever answers that challenge has this profile, however long the chain is.
-/

namespace AccessGate

open Dialogue

variable {V : Type}

/-! ## 1. Conversations of challenges -/

namespace Visit

/-- The visit has nothing to do with the tokens: it brings none of them back, opens no challenge
under one and draws none. -/
structure Apart (tokens : String → Prop) (x : Visit V) : Prop where
  brings : ∀ token, tokens token → x.request.token ≠ some token
  opens : ∀ token, tokens token → ¬ x.Opened token
  draws : ∀ token, tokens token → ¬ Drawn x.exchanges token

/-- The visit has a user and brings back what the other went out with, in time. -/
structure Echoes (ttl : Time) (x last : Visit V) : Prop where
  token : x.request.token = last.routed.request.state
  inTime : x.now - last.now ≤ ttl
  user : x.request.user ≠ ""

end Visit

/-- **A conversation of challenges among visits**, under some of the tokens: `first` opened its first
challenge and `last` its latest. -/
inductive Chain (ttl : Time) (tokens : String → Prop) :
    List (Visit V) → Visit V → Visit V → Prop where
  | opened (earlier : List (Visit V)) (x : Visit V) (token : String)
      (apart : ∀ y ∈ earlier, y.Apart tokens) (named : tokens token) (opens : x.Opened token) :
      Chain ttl tokens (earlier ++ [x]) x x
  | aside (visits : List (Visit V)) (first last x : Visit V)
      (past : Chain ttl tokens visits first last) (apart : x.Apart tokens) :
      Chain ttl tokens (visits ++ [x]) first last
  | link (visits : List (Visit V)) (first last x : Visit V) (token : String)
      (past : Chain ttl tokens visits first last) (echoes : x.Echoes ttl last)
      (named : tokens token) (opens : x.Opened token) : Chain ttl tokens (visits ++ [x]) first x

variable {ttl started : Time} {tokens : String → Prop} {visits : List (Visit V)}
  {first last x : Visit V}

/-- The latest visit starts a conversation, has nothing to do with it, or goes on with it. -/
theorem chain_snoc (h : Chain ttl tokens (visits ++ [x]) first last) :
    ((∀ y ∈ visits, y.Apart tokens) ∧ first = x ∧ last = x ∧ ∃ token, tokens token ∧ x.Opened token) ∨
    (Chain ttl tokens visits first last ∧ x.Apart tokens) ∨
    last = x ∧ ∃ before, Chain ttl tokens visits first before ∧ x.Echoes ttl before ∧
      ∃ token, tokens token ∧ x.Opened token := by
  generalize hcut : visits ++ [x] = all at h
  cases h with
  | opened earlier y token apart named opens =>
    obtain ⟨hvisits, hx⟩ := List.append_inj' hcut rfl
    obtain rfl := List.head_eq_of_cons_eq hx
    rw [hvisits]
    exact Or.inl ⟨apart, rfl, rfl, token, named, opens⟩
  | aside visits' _ _ y past apart =>
    obtain ⟨hvisits, hx⟩ := List.append_inj' hcut rfl
    obtain rfl := List.head_eq_of_cons_eq hx
    rw [hvisits]
    exact Or.inr (Or.inl ⟨past, apart⟩)
  | link visits' _ before y token past echoes named opens =>
    obtain ⟨hvisits, hx⟩ := List.append_inj' hcut rfl
    obtain rfl := List.head_eq_of_cons_eq hx
    rw [hvisits]
    exact Or.inr (Or.inr ⟨rfl, before, past, echoes, token, named, opens⟩)

theorem not_chain_nil (h : Chain ttl tokens [] first last) : False := by
  generalize hnil : ([] : List (Visit V)) = visits at h
  cases h with
  | opened => simp at hnil
  | aside => simp at hnil
  | link => simp at hnil

namespace Router

variable {r₀ r : Router V}

/-! ## 2. One visit -/

/-- What the router does for one visit, with a request that nothing is known of yet, while there is
room for one more challenge. -/
structure Attends (r : Router V) (x : Visit V) : Prop where
  made : ∃ remote relay client packet, x.request = .make remote relay client packet
  trace : Trace (r.route x.now x.request) x.exchanges x.routed
  room : r.secondFactor.challenges.HasRoom x.now

/-- The visits led from the router `r₀` to this, and the clock never went back. -/
abbrev Attended (r₀ : Router V) : List (Visit V) → Router V → Prop :=
  History (fun y x : Visit V => y.now ≤ x.now) Attends (fun x => x.routed.router) r₀

/-- Challenges last for the time to live, none stands twice, and no password change is open under
one of the tokens. -/
structure Steady (ttl : Time) (tokens : String → Prop) (r : Router V) : Prop where
  ttl : r.secondFactor.challenges.ttl = ttl
  distinct : r.secondFactor.challenges.Distinct
  free : ∀ e ∈ r.changes.conversations.entries, ¬ tokens e.key

theorem Attends.steady (h : r.Attends x) (steady : Steady ttl tokens r)
    (undrawn : ∀ token, tokens token → ¬ Drawn x.exchanges token) :
    Steady ttl tokens x.routed.router := by
  have moves := moves_of_route h.trace
  have hstep := moves.challenges steady.distinct
  refine ⟨hstep.ttl.trans steady.ttl, hstep.distinct steady.distinct, fun e he named => ?_⟩
  rcases moves.changes e he with ⟨e', he', hkey⟩ | hdrawn
  · exact steady.free e' he' (hkey ▸ named)
  · exact undrawn e.key named hdrawn

theorem Attends.status (h : r.Attends x) {token : String} (opens : x.Opened token) :
    x.request.isStatusServer = false := by
  refine Bool.eq_false_iff.mpr fun hstatus => opens.not_unasked ?_
  rw [(trace_status hstatus h.trace).1]
  exact unasked_nil

/-- **A visit that opens a challenge** goes out with its token, and leaves it open with the profile
that it has itself. -/
theorem Attends.opened (h : r.Attends x) (steady : Steady ttl tokens r) {token : String}
    (opens : x.Opened token) :
    Steady ttl tokens x.routed.router ∧ x.routed.request.state = some token ∧
      ∀ t, t - x.now ≤ ttl → x.routed.router.secondFactor.challenges.live? t token =
        some ⟨token, x.routed.request.profile, x.now⟩ := by
  have hundrawn := (way_of_trace (h.status opens) h.trace).undrawn_of_opening opens
  have hstep := (moves_of_route h.trace).challenges steady.distinct
  obtain ⟨hstate, hlive⟩ := hstep.live_of_opening opens
  rw [steady.ttl] at hlive
  exact ⟨h.steady steady fun _ _ => hundrawn.not_drawn, hstate, hlive⟩

/-! ## 3. What the last challenge of a conversation holds -/

/-- The last challenge of the conversation is open as long as challenges last, with the profile of
its first visit. -/
structure Carries (ttl : Time) (tokens : String → Prop) (visits : List (Visit V))
    (first last : Visit V) (r : Router V) : Prop where
  steady : Steady ttl tokens r
  held : ∃ token, tokens token ∧ last.routed.request.state = some token ∧
    ∀ t, (∀ y ∈ visits, y.now ≤ t) → t - last.now ≤ ttl →
      r.secondFactor.challenges.live? t token =
        some ⟨token, first.routed.request.profile, last.now⟩

/-- **Whoever answers the last challenge in time has the profile of the first visit.** -/
theorem Carries.answered (h : Carries ttl tokens visits first last r) (attends : r.Attends x)
    (order : ∀ y ∈ visits, y.now ≤ x.now) (echoes : x.Echoes ttl last)
    (status : x.request.isStatusServer = false) :
    ∃ call answer, x.exchanges = [⟨.service x.request.client call, answer⟩] ∧
      x.routed.request.profile = first.routed.request.profile ∧
      (SecondFactor.Grants x.request answer → x.routed.outcome = .decision .accept) := by
  obtain ⟨token, hnamed, hstate, hheld⟩ := h.held
  have hunknown : x.request.profile = .empty := by
    obtain ⟨remote, relay, client, packet, hmade⟩ := attends.made
    rw [hmade]
    rfl
  have huser : x.request.user.isEmpty = false := by
    refine Bool.eq_false_iff.mpr fun hempty => echoes.user ?_
    exact String.isEmpty_iff.mp hempty
  exact answered_of_live status (echoes.token.trans hstate)
    (fun e he hkey => h.steady.free e he (hkey ▸ hnamed)) h.steady.distinct
    (hheld x.now order echoes.inTime) hunknown huser attends.trace

theorem Carries.aside (h : Carries ttl tokens visits first last r) (attends : r.Attends x)
    (apart : x.Apart tokens) : Carries ttl tokens (visits ++ [x]) first last x.routed.router := by
  have moves := moves_of_route attends.trace
  refine ⟨attends.steady h.steady apart.draws, ?_⟩
  obtain ⟨token, hnamed, hstate, hheld⟩ := h.held
  refine ⟨token, hnamed, hstate, fun t past inTime => ?_⟩
  have hbrings : x.routed.request.token ≠ some token := by
    obtain ⟨-, -, -, hpacket, -⟩ := origin_of_route attends.trace
    unfold Request.token
    rw [hpacket]
    exact apart.brings token hnamed
  rw [(moves.challenges h.steady.distinct).live_of_apart h.steady.distinct attends.room hbrings
    (apart.opens token hnamed) (past x (by simp))]
  exact hheld t (fun y hy => past y (List.mem_append_left _ hy)) inTime

/-- **The last challenge of a conversation holds the profile of its first visit.** -/
theorem carries_of_chain (challenges : r₀.secondFactor.challenges =
      .make ttl TimedMap.defaultMaxEntries started)
    (none : r₀.changes.conversations.entries = []) (run : Attended r₀ visits r) :
    ((∀ y ∈ visits, y.Apart tokens) → Steady ttl tokens r) ∧
      ∀ first last, Chain ttl tokens visits first last →
        Carries ttl tokens visits first last r := by
  refine run.preserves (P := fun visits r => ((∀ y ∈ visits, y.Apart tokens) → Steady ttl tokens r) ∧
    ∀ first last, Chain ttl tokens visits first last → Carries ttl tokens visits first last r) ?_ ?_
  · refine ⟨fun _ => ⟨?_, ?_, ?_⟩, fun first last chain => (not_chain_nil chain).elim⟩
    · rw [challenges]
      rfl
    · rw [challenges]
      exact .nil
    · rw [none]
      exact fun _ he => nomatch he
  · intro visits r x _ ih order attends
    refine ⟨fun apart => ?_, fun first last chain => ?_⟩
    · exact attends.steady (ih.1 fun y hy => apart y (List.mem_append_left _ hy))
        (apart x (by simp)).draws
    · obtain ⟨apart, rfl, rfl, token, named, opens⟩ | ⟨past, apart⟩ |
        ⟨rfl, before, past, echoes, token, named, opens⟩ := chain_snoc chain
      · obtain ⟨hsteady, hstate, hlive⟩ := attends.opened (ih.1 apart) opens
        exact ⟨hsteady, token, named, hstate, fun t _ inTime => hlive t inTime⟩
      · exact (ih.2 first last past).aside attends apart
      · have carries := ih.2 first before past
        obtain ⟨hsteady, hstate, hlive⟩ := attends.opened carries.steady opens
        obtain ⟨-, -, -, hprofile, -⟩ := carries.answered attends order echoes (attends.status opens)
        rw [hprofile] at hlive
        exact ⟨hsteady, token, named, hstate, fun t _ inTime => hlive t inTime⟩

/-- The rules that ask a profile say of two requests with one profile the same. -/
theorem texts_of_profile {rule : ReplyRule} {a b : Request} (same : a.profile = b.profile)
    (asks : rule.condition = .userGroup ∨ rule.condition = .fromDirectory) :
    rule.texts a = rule.texts b := by
  unfold ReplyRule.texts
  rcases asks with hgroup | hdirectory
  · simp only [hgroup, same]
  · simp only [hdirectory, same]

/-- **The profile survives a chain of challenges of any length**: whoever answers the last of them in
time is put before the service with the profile of the first visit, is let in if the service grants,
and the rules that ask the profile say what they would have said then. -/
theorem profile_survives (challenges : r₀.secondFactor.challenges =
      .make ttl TimedMap.defaultMaxEntries started)
    (none : r₀.changes.conversations.entries = []) (run : Attended r₀ visits r)
    (chain : Chain ttl tokens visits first last) (attends : r.Attends x)
    (order : ∀ y ∈ visits, y.now ≤ x.now) (echoes : x.Echoes ttl last)
    (status : x.request.isStatusServer = false) :
    ∃ call answer, x.exchanges = [⟨.service x.request.client call, answer⟩] ∧
      x.routed.request.profile = first.routed.request.profile ∧
      (∀ model, answer = .ok model → model.status = .granted →
        x.routed.outcome = .decision .accept) ∧
      ∀ rule : ReplyRule, rule.condition = .userGroup ∨ rule.condition = .fromDirectory →
        rule.texts x.routed.request = rule.texts first.routed.request := by
  have carries := (carries_of_chain challenges none run).2 first last chain
  obtain ⟨call, answer, hes, hprofile, haccept⟩ := carries.answered attends order echoes status
  refine ⟨call, answer, hes, hprofile, fun model hmodel granted => ?_,
    fun rule => texts_of_profile hprofile⟩
  rw [hmodel] at haccept
  exact haccept granted

end Router

/-! ## 4. Two challenges of the sample -/

namespace Login

open Router Verification

/-- What the directory says of alice. -/
def aliceProfile : Profile := ⟨some "Alice", none, none, ["VPN Admins"], []⟩

/-- The directory accepts alice, and the service challenges her twice before it grants. -/
def script : Nat → (q : Question FirstFactor.Verifier) → q.Answer × Nat
  | n, .verify _ _ => (⟨.ok .accept, some aliceProfile, none, false⟩, n)
  | n, .changePassword _ _ _ => (.failed, n)
  | 0, .service _ _ => (reply .awaiting "req-1", 1)
  | 1, .service _ _ => (reply .awaiting "req-2", 2)
  | n, .service _ _ => (reply .granted "req-2", n + 1)
  | n, .token => (.zero, n)

/-- A visit of alice after so many answers of the service. -/
def scripted (r : Router FirstFactor.Verifier) (answered : Nat) (now : Time)
    (token : Option String) : Visit FirstFactor.Verifier :=
  let (es, d) := ((r.route now (request "alice" token)).transcript script answered).1
  ⟨now, request "alice" token, es, d⟩

/-- She comes, and is challenged. -/
def firstVisit : Visit FirstFactor.Verifier := scripted router 0 1 none

/-- She answers, and is challenged again under another token. -/
def secondVisit : Visit FirstFactor.Verifier :=
  scripted firstVisit.routed.router 1 2 (some "req-1")

/-- She answers again. -/
def thirdVisit : Visit FirstFactor.Verifier :=
  scripted secondVisit.routed.router 2 3 (some "req-2")

theorem attends_scripted {r : Router FirstFactor.Verifier} {answered : Nat} {now : Time}
    {token : Option String} (room : r.secondFactor.challenges.HasRoom now) :
    r.Attends (scripted r answered now token) :=
  ⟨⟨_, _, _, _, rfl⟩, trace_transcript script answered _, room⟩

/-- The tokens of her conversation. -/
def aliceTokens (token : String) : Prop := token = "req-1" ∨ token = "req-2"

/-- Alice is let in with the profile that the directory reported before both challenges. -/
theorem alice_keeps_profile :
    router.secondFactor.challenges =
      .make (.ofSeconds 300) TimedMap.defaultMaxEntries 0 ∧
    router.changes.conversations.entries = [] ∧
    Attended router [firstVisit, secondVisit] secondVisit.routed.router ∧
    Chain (.ofSeconds 300) aliceTokens [firstVisit, secondVisit] firstVisit secondVisit ∧
    secondVisit.routed.router.Attends thirdVisit ∧
    (∀ y ∈ [firstVisit, secondVisit], y.now ≤ thirdVisit.now) ∧
    thirdVisit.Echoes (.ofSeconds 300) secondVisit ∧
    thirdVisit.request.isStatusServer = false ∧
    firstVisit.routed.request.profile = aliceProfile ∧
    thirdVisit.routed.request.profile = aliceProfile ∧
    thirdVisit.routed.outcome = .decision .accept := by
  have hfirst : router.Attends firstVisit := attends_scripted (by decide +kernel)
  have hsecond : firstVisit.routed.router.Attends secondVisit :=
    attends_scripted (by decide +kernel)
  have hthird : secondVisit.routed.router.Attends thirdVisit := attends_scripted (by decide +kernel)
  have hone : Attended router [firstVisit] firstVisit.routed.router :=
    .event [] router firstVisit .start (fun _ hy => nomatch hy) hfirst
  have htwo : Attended router [firstVisit, secondVisit] secondVisit.routed.router := by
    refine .event [firstVisit] _ secondVisit hone (fun y hy => ?_) hsecond
    rw [List.mem_singleton.mp hy]
    exact Nat.le_succ 1
  have hopened : Opening firstVisit.exchanges "req-1" := by decide +kernel
  have hopened' : Opening secondVisit.exchanges "req-2" := by decide +kernel
  have hechoes : secondVisit.Echoes (.ofSeconds 300) firstVisit :=
    ⟨by decide +kernel, by decide, by decide +kernel⟩
  have hechoes' : thirdVisit.Echoes (.ofSeconds 300) secondVisit :=
    ⟨by decide +kernel, by decide, by decide +kernel⟩
  have hchain : Chain (.ofSeconds 300) aliceTokens [firstVisit] firstVisit firstVisit :=
    .opened [] firstVisit "req-1" (fun _ hy => nomatch hy) (Or.inl rfl) hopened
  have hchain' : Chain (.ofSeconds 300) aliceTokens [firstVisit, secondVisit] firstVisit
      secondVisit :=
    .link [firstVisit] firstVisit firstVisit secondVisit "req-2" hchain hechoes (Or.inr rfl) hopened'
  have horder : ∀ y ∈ [firstVisit, secondVisit], y.now ≤ thirdVisit.now := by
    intro y hy
    rcases List.mem_cons.mp hy with rfl | hy
    · exact (by decide : 1 ≤ 3)
    · rw [List.mem_singleton.mp hy]
      exact (by decide : 2 ≤ 3)
  have hprofile : firstVisit.routed.request.profile = aliceProfile := by decide +kernel
  have hstart : router.secondFactor.challenges =
      .make (.ofSeconds 300) TimedMap.defaultMaxEntries 0 := rfl
  have hnone : router.changes.conversations.entries = [] := rfl
  obtain ⟨-, -, -, hsame, -, -⟩ :=
    profile_survives hstart hnone htwo hchain' hthird horder hechoes' rfl
  exact ⟨hstart, hnone, htwo, hchain', hthird, horder, hechoes', rfl, hprofile,
    hsame.trans hprofile, by decide +kernel⟩

end Login

end AccessGate
