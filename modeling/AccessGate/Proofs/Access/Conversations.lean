import AccessGate.Proofs.Access.Acceptance
import AccessGate.Proofs.Access.Changing
import AccessGate.Proofs.Histories
import AccessGate.Proofs.Store.Live
import AccessGate.Text.Utf8.Inverse

/-!
# Conversations about a new password

Many users change their passwords at once, and every request may find any of their conversations.
Here are all runs of starts and answers, with tokens that do not come twice, texts that stay what they
are when sealed and room for one more conversation. What a conversation has come to is told from the
turns alone, without the store (`Standing`):

* `matches_of_run`: the store holds what the turns tell, for as long as the conversation lasts;
* `Matches.standing_of_asks`, `Matches.exchanges_of_standing`: a password is changed exactly when it
  comes twice in a row, and the verifier gets the domain and the old password of the start and that
  new one;
* `gone_of_run`, `rejected_of_gone`: a conversation that ended, or whose time is over, calls nobody;
* `apart_of_serves`: no turn is seen in a conversation that it does not concern.
-/

namespace AccessGate

open Dialogue

/-- What is sealed can be revealed. -/
def Sealer.Faithful (sealer : Sealer) : Prop :=
  ∀ text, ∃ octets, sealer.hide text = some octets ∧ sealer.reveal octets = some text

theorem Sealer.plain_faithful : Sealer.plain.Faithful := fun text =>
  ⟨Utf8.encode text, rfl, Utf8.decode?_encode text⟩

theorem Sealer.Faithful.reveal {sealer : Sealer} (faithful : sealer.Faithful) {text : String}
    {octets : Bytes} (h : sealer.hide text = some octets) : sealer.reveal octets = some text := by
  obtain ⟨octets', hhide, hreveal⟩ := faithful text
  obtain rfl := Option.some.inj (h.symm.trans hhide)
  exact hreveal

namespace PasswordChanges

variable {V : Type}

/-! ## 1. Turns -/

/-- What a turn is for: to start a conversation, or to answer in one. -/
inductive Call (V : Type) where
  | initiate (domain : String)
  | resume (token : String) (verifier : V)

/-- One use of the password changes, with what was exchanged and how it ended. -/
structure Turn (V : Type) where
  now : Time
  request : Request
  call : Call V
  exchanges : Exchanges V
  progress : Progress

namespace Turn

def talk (x : Turn V) (c : PasswordChanges) : Talk V Progress :=
  match x.call with
  | .initiate domain => c.initiate x.now x.request domain
  | .resume token verifier => c.resume x.now x.request token verifier

/-- The turn starts a conversation under the token that was drawn for it. -/
def Starts (x : Turn V) (token : String) : Prop :=
  ∃ domain random, x.call = .initiate domain ∧ x.exchanges = [⟨.token, random⟩] ∧
    token = tokenText random

/-- The turn answers in the conversation of the token. -/
def Resumes (x : Turn V) (token : String) : Prop := ∃ verifier, x.call = .resume token verifier

def Concerns (x : Turn V) (token : String) : Prop := x.Starts token ∨ x.Resumes token

/-- A verifier was asked to change a password, and this was its word. -/
def Told (x : Turn V) (outcome : FirstFactor.ChangeOutcome) : Prop :=
  ∃ verifier request change, ⟨.changePassword verifier request change, outcome⟩ ∈ x.exchanges

/-- The turn ends the conversation of the token: the password was changed, or could not be. -/
def Ends (x : Turn V) (token : String) : Prop :=
  x.Resumes token ∧ (x.Told .changed ∨ x.Told .failed)

/-- A verifier was asked to change a password. -/
def Asks (x : Turn V) : Prop := ∃ outcome, x.Told outcome

/-- The request is rejected, and nobody is asked anything. -/
def Rejected (x : Turn V) : Prop := x.progress.step = .rejected ∧ x.exchanges = []

/-- The first turn may come before the second: the clock does not go back, and no token is drawn
twice. -/
def Before (y x : Turn V) : Prop := y.now ≤ x.now ∧ ∀ token, y.Starts token → ¬ x.Starts token

theorem not_starts_of_resumes {x : Turn V} {token other : String} (h : x.Resumes token) :
    ¬ x.Starts other := by
  obtain ⟨verifier, hresume⟩ := h
  rintro ⟨domain, random, hinitiate, -, -⟩
  rw [hresume] at hinitiate
  cases hinitiate

/-- What a turn does to the new password that is waiting to be repeated, in a conversation of the
token that `opener` started. -/
inductive Move (ttl : Time) (token : String) (x opener : Turn V) :
    Option String → Option String → Prop where
  | aside (pending : Option String) (apart : ¬ x.Concerns token) :
      Move ttl token x opener pending pending
  | stored (resumes : x.Resumes token) (inTime : x.now - opener.now ≤ ttl) :
      Move ttl token x opener none (some x.request.password)
  | mismatched (previous : String) (resumes : x.Resumes token)
      (inTime : x.now - opener.now ≤ ttl) (differs : previous ≠ x.request.password) :
      Move ttl token x opener (some previous) none
  | tooSimple (resumes : x.Resumes token) (inTime : x.now - opener.now ≤ ttl)
      (told : x.Told .complexityNotMet) :
      Move ttl token x opener (some x.request.password) none

end Turn

/-- After the turns the conversation of the token, which `opener` started, goes on, and this new
password is waiting to be repeated. -/
inductive Standing (ttl : Time) (token : String) :
    List (Turn V) → Turn V → Option String → Prop where
  | opened (turns : List (Turn V)) (x : Turn V) (starts : x.Starts token) :
      Standing ttl token (turns ++ [x]) x none
  | moved (turns : List (Turn V)) (x opener : Turn V) (before after : Option String)
      (past : Standing ttl token turns opener before) (move : x.Move ttl token opener before after) :
      Standing ttl token (turns ++ [x]) opener after

section Standing

variable {ttl : Time} {token : String} {turns : List (Turn V)} {x opener : Turn V}
  {before after pending : Option String}

theorem standing_snoc (h : Standing ttl token (turns ++ [x]) opener pending) :
    x.Starts token ∧ opener = x ∧ pending = none ∨
      ∃ before, Standing ttl token turns opener before ∧ x.Move ttl token opener before pending := by
  generalize hcut : turns ++ [x] = all at h
  cases h with
  | opened turns' x' starts =>
    obtain ⟨-, hx⟩ := List.append_inj' hcut rfl
    obtain rfl := List.head_eq_of_cons_eq hx
    exact Or.inl ⟨starts, rfl, rfl⟩
  | moved turns' x' opener before after past move =>
    obtain ⟨rfl, hx⟩ := List.append_inj' hcut rfl
    obtain rfl := List.head_eq_of_cons_eq hx
    exact Or.inr ⟨before, past, move⟩

/-- A conversation was started by one of the turns. -/
theorem Standing.starts (h : Standing ttl token turns opener pending) :
    opener ∈ turns ∧ opener.Starts token := by
  induction h with
  | opened turns x starts => exact ⟨by simp, starts⟩
  | moved turns x opener before after past move ih =>
    exact ⟨List.mem_append_left _ ih.1, ih.2⟩

/-- **What an answer in time does to the waiting password.** -/
theorem Turn.Move.iff_of_resumes (resumes : x.Resumes token) (inTime : x.now - opener.now ≤ ttl) :
    x.Move ttl token opener before after ↔
      (before = none ∧ after = some x.request.password) ∨
      (∃ previous, before = some previous ∧ previous ≠ x.request.password ∧ after = none) ∨
      (before = some x.request.password ∧ x.Told .complexityNotMet ∧ after = none) := by
  constructor
  · intro h
    cases h with
    | aside pending apart => exact absurd (Or.inr resumes) apart
    | stored => exact Or.inl ⟨rfl, rfl⟩
    | mismatched previous _ _ differs => exact Or.inr (Or.inl ⟨previous, rfl, differs, rfl⟩)
    | tooSimple _ _ told => exact Or.inr (Or.inr ⟨rfl, told, rfl⟩)
  · rintro (⟨rfl, rfl⟩ | ⟨previous, rfl, differs, rfl⟩ | ⟨rfl, told, rfl⟩)
    · exact .stored resumes inTime
    · exact .mismatched previous resumes inTime differs
    · exact .tooSimple resumes inTime told

theorem Turn.Move.inTime (h : x.Move ttl token opener before after) (resumes : x.Resumes token) :
    x.now - opener.now ≤ ttl := by
  cases h with
  | aside pending apart => exact absurd (Or.inr resumes) apart
  | stored _ inTime => exact inTime
  | mismatched _ _ inTime _ => exact inTime
  | tooSimple _ inTime _ => exact inTime

end Standing

/-! ## 2. Runs -/

variable {c c' : PasswordChanges} {sealer : Sealer} {ttl started t : Time} {token other : String}
  {turns : List (Turn V)} {x y opener : Turn V}

/-- What is done for a turn while there is room for one more conversation. -/
structure Serves (c : PasswordChanges) (x : Turn V) : Prop where
  trace : Trace (x.talk c) x.exchanges x.progress
  room : c.conversations.HasRoom x.now

/-- The turns led from no conversations to these. -/
abbrev Run (sealer : Sealer) (ttl started : Time) : List (Turn V) → PasswordChanges → Prop :=
  History Turn.Before Serves (fun x => x.progress.after) (make sealer ttl started)

/-- What an answer did to its conversation: it ended it, or kept it with this new password. -/
structure Leaves (c : PasswordChanges) (now : Time) (token : String) (kept : Option (Option Bytes))
    (c' : PasswordChanges) : Prop where
  sealer : c'.sealer = c.sealer
  ttl : c'.conversations.ttl = c.conversations.ttl
  distinct : c'.conversations.Distinct
  live : ∀ t, now ≤ t → c'.conversations.live? t token =
    (c.conversations.live? t token).bind fun e => kept.map fun replacement =>
      { e with value := { e.value with replacement } }
  apart : ∀ t other, now ≤ t → other ≠ token →
    c'.conversations.live? t other = c.conversations.live? t other

theorem leaves_keep {now : Time} (distinct : c.conversations.Distinct) (token : String)
    (replacement : Option Bytes) :
    Leaves c now token (some replacement) (c.keep now token replacement) := by
  refine ⟨rfl, TimedMap.update_ttl .., TimedMap.distinct_update _ distinct, fun t order => ?_,
    fun t other _ ne => TimedMap.live?_update_of_ne _ ne⟩
  refine (TimedMap.live?_update_self _ order).trans ?_
  cases c.conversations.live? t token with
  | none => rfl
  | some e => rfl

theorem leaves_erase {now : Time} (distinct : c.conversations.Distinct) (token : String) :
    Leaves c now token none { c with conversations := c.conversations.erase token } := by
  refine ⟨rfl, rfl, (TimedMap.thinned_erase _ _).distinct distinct, fun t order => ?_,
    fun t other _ ne => TimedMap.live?_erase_of_ne distinct ne⟩
  refine (TimedMap.live?_erase_self _ t token).trans ?_
  cases c.conversations.live? t token with
  | none => rfl
  | some e => rfl

theorem leaves_conclude {now : Time} {request : Request} (distinct : c.conversations.Distinct)
    (token : String) (outcome : FirstFactor.ChangeOutcome) :
    Leaves c now token (if outcome = .complexityNotMet then some none else none)
      (c.conclude now request token outcome).after := by
  cases outcome with
  | changed => exact leaves_erase distinct token
  | complexityNotMet => exact leaves_keep distinct token none
  | failed => exact leaves_erase distinct token

/-- The entry is what the turns have told of a conversation. -/
structure Fits (sealer : Sealer) (e : TimedEntry String Conversation) (opener : Turn V)
    (pending : Option String) : Prop where
  domain : opener.call = .initiate e.value.domain
  current : sealer.reveal e.value.current = some opener.request.password
  pending : e.value.replacement.map sealer.reveal = pending.map some
  since : e.since = opener.now

/-- The store holds what the turns tell of each conversation, for as long as it lasts. -/
structure Matches (sealer : Sealer) (ttl : Time) (turns : List (Turn V)) (c : PasswordChanges) :
    Prop where
  sameSealer : c.sealer = sealer
  sameTtl : c.conversations.ttl = ttl
  distinct : c.conversations.Distinct
  told : ∀ t token e, (∀ y ∈ turns, y.now ≤ t) → c.conversations.live? t token = some e →
    ∃ opener pending, Standing ttl token turns opener pending ∧ Fits sealer e opener pending
  held : ∀ t token opener pending, (∀ y ∈ turns, y.now ≤ t) →
    Standing ttl token turns opener pending → t - opener.now ≤ ttl →
      ∃ e, c.conversations.live? t token = some e ∧ Fits sealer e opener pending

theorem Matches.inTime (h : Matches sealer ttl turns c) {e : TimedEntry String Conversation}
    {pending : Option String} (live : c.conversations.live? t token = some e)
    (fits : Fits sealer e opener pending) : t - opener.now ≤ ttl := by
  have hage := TimedMap.age_of_live? live
  rwa [fits.since, h.sameTtl] at hage

/-- A conversation that a turn does not concern is where it was. -/
theorem standing_snoc_of_apart {pending : Option String} (apart : ¬ x.Concerns token) :
    Standing ttl token (turns ++ [x]) opener pending ↔ Standing ttl token turns opener pending := by
  constructor
  · intro h
    obtain ⟨starts, -, -⟩ | ⟨before, past, move⟩ := standing_snoc h
    · exact absurd (Or.inl starts) apart
    · cases move with
      | aside => exact past
      | stored resumes => exact absurd (Or.inr resumes) apart
      | mismatched _ resumes => exact absurd (Or.inr resumes) apart
      | tooSimple resumes => exact absurd (Or.inr resumes) apart
  · intro h
    exact .moved turns x opener pending pending h (.aside pending apart)

theorem eq_of_starts (h : x.Starts token) (h' : x.Starts other) : token = other := by
  obtain ⟨-, random, -, hes, rfl⟩ := h
  obtain ⟨-, random', -, hes', rfl⟩ := h'
  obtain ⟨⟩ := hes.symm.trans hes'
  rfl

theorem eq_of_resumes (h : x.Resumes token) (h' : x.Resumes other) : token = other := by
  obtain ⟨verifier, hcall⟩ := h
  obtain ⟨verifier', hcall'⟩ := h'
  obtain ⟨⟩ := hcall.symm.trans hcall'
  rfl

/-- What a turn tells of the other conversations, it tells of the store. -/
theorem Matches.apart (h : Matches sealer ttl turns c) (apart : ¬ x.Concerns other)
    (same : ∀ t, x.now ≤ t → c'.conversations.live? t other = c.conversations.live? t other)
    (past : ∀ y ∈ turns ++ [x], y.now ≤ t) :
    (∀ e, c'.conversations.live? t other = some e → ∃ opener pending,
      Standing ttl other (turns ++ [x]) opener pending ∧ Fits sealer e opener pending) ∧
    ∀ opener pending, Standing ttl other (turns ++ [x]) opener pending → t - opener.now ≤ ttl →
      ∃ e, c'.conversations.live? t other = some e ∧ Fits sealer e opener pending := by
  have earlier : ∀ y ∈ turns, y.now ≤ t := fun y hy => past y (List.mem_append_left _ hy)
  rw [same t (past x (by simp))]
  constructor
  · intro e hlive
    obtain ⟨opener, pending, standing, fits⟩ := h.told t other e earlier hlive
    exact ⟨opener, pending, (standing_snoc_of_apart apart).mpr standing, fits⟩
  · intro opener pending standing inTime
    exact h.held t other opener pending earlier ((standing_snoc_of_apart apart).mp standing) inTime

/-- A start keeps the store what the turns tell. -/
theorem Matches.start (h : Matches sealer ttl turns c) (faithful : sealer.Faithful)
    (order : ∀ y ∈ turns, y.Before x) (room : c.conversations.HasRoom x.now) {domain : String}
    {random : Block} {current : Bytes} (call : x.call = .initiate domain)
    (exchanges : x.exchanges = [⟨.token, random⟩])
    (hidden : sealer.hide x.request.password = some current) :
    Matches sealer ttl (turns ++ [x])
      { c with conversations :=
          c.conversations.insert x.now (tokenText random) ⟨domain, current, none⟩ } := by
  have starts : x.Starts (tokenText random) := ⟨domain, random, call, exchanges, rfl⟩
  have apart {other : String} (ne : other ≠ tokenText random) : ¬ x.Concerns other := by
    rintro (hstarts | ⟨verifier, hresume⟩)
    · exact ne (eq_of_starts hstarts starts)
    · rw [call] at hresume
      cases hresume
  have same {other : String} (ne : other ≠ tokenText random) (t : Time) (order : x.now ≤ t) :=
    TimedMap.live?_insert_of_ne h.distinct room order ne ⟨domain, current, none⟩
  have fits : Fits sealer ⟨tokenText random, ⟨domain, current, none⟩, x.now⟩ x none :=
    ⟨call, faithful.reveal hidden, rfl, rfl⟩
  refine ⟨h.sameSealer, (TimedMap.insert_ttl ..).trans h.sameTtl, TimedMap.distinct_insert h.distinct _,
    ?_, ?_⟩
  · intro t other e past hlive
    by_cases hother : other = tokenText random
    · subst hother
      rw [TimedMap.live?_insert_self] at hlive
      split at hlive
      · obtain rfl := Option.some.inj hlive
        exact ⟨x, none, .opened turns x starts, fits⟩
      · cases hlive
    · exact (h.apart (apart hother) (same hother) past).1 e hlive
  · intro t other opener pending past standing inTime
    by_cases hother : other = tokenText random
    · subst hother
      obtain ⟨-, rfl, rfl⟩ | ⟨before, hpast, -⟩ := standing_snoc standing
      · refine ⟨_, ?_, fits⟩
        rw [TimedMap.live?_insert_self, h.sameTtl, if_pos inTime]
      · -- the token was not drawn before
        obtain ⟨hmem, hstarts⟩ := hpast.starts
        exact absurd starts ((order opener hmem).2 _ hstarts)
    · exact (h.apart (apart hother) (same hother) past).2 opener pending standing inTime

/-- **An answer keeps the store what the turns tell**, if it leaves its conversation as the turn
moves it. -/
theorem Matches.answer (h : Matches sealer ttl turns c) {verifier : V}
    (call : x.call = .resume token verifier) {kept : Option (Option Bytes)}
    (moved : Option (Option String)) (leaves : Leaves c x.now token kept c')
    (reveals : kept.map (·.map sealer.reveal) = moved.map (·.map some))
    (agree : ∀ e opener before after, c.conversations.live? x.now token = some e →
      Fits sealer e opener before → x.now - opener.now ≤ ttl →
        (x.Move ttl token opener before after ↔ moved = some after)) :
    Matches sealer ttl (turns ++ [x]) c' := by
  have resumes : x.Resumes token := ⟨verifier, call⟩
  have apart {other : String} (ne : other ≠ token) : ¬ x.Concerns other := by
    rintro (hstarts | hresumes)
    · exact Turn.not_starts_of_resumes resumes hstarts
    · exact ne (eq_of_resumes hresumes resumes)
  refine ⟨leaves.sealer.trans h.sameSealer, leaves.ttl.trans h.sameTtl, leaves.distinct, ?_, ?_⟩
  · intro t other e past hlive
    have hnow : x.now ≤ t := past x (by simp)
    by_cases hother : other = token
    · subst hother
      rw [leaves.live t hnow] at hlive
      obtain ⟨e₁, hbefore, hkept⟩ := Option.bind_eq_some_iff.mp hlive
      obtain ⟨replacement, rfl, rfl⟩ := Option.map_eq_some_iff.mp hkept
      obtain ⟨opener, before, standing, fits⟩ :=
        h.told t other e₁ (fun y hy => past y (List.mem_append_left _ hy)) hbefore
      have hlive₁ := TimedMap.live?_of_le hnow hbefore
      obtain ⟨after, rfl, hafter⟩ := Option.map_eq_some_iff.mp reveals.symm
      have move := (agree e₁ opener before after hlive₁ fits (h.inTime hlive₁ fits)).mpr rfl
      exact ⟨opener, after, .moved turns x opener before after standing move,
        fits.domain, fits.current, hafter.symm, fits.since⟩
    · exact (h.apart (apart hother) (fun t order => leaves.apart t other order hother) past).1 e hlive
  · intro t other opener after past standing inTime
    have hnow : x.now ≤ t := past x (by simp)
    by_cases hother : other = token
    · subst hother
      obtain ⟨starts, -, -⟩ | ⟨before, hpast, move⟩ := standing_snoc standing
      · exact absurd starts (Turn.not_starts_of_resumes resumes)
      · obtain ⟨e₁, hbefore, fits⟩ := h.held t other opener before
          (fun y hy => past y (List.mem_append_left _ hy)) hpast inTime
        have hlive₁ := TimedMap.live?_of_le hnow hbefore
        obtain rfl := (agree e₁ opener before after hlive₁ fits (h.inTime hlive₁ fits)).mp move
        obtain ⟨replacement, rfl, hafter⟩ := Option.map_eq_some_iff.mp reveals
        refine ⟨{ e₁ with value := { e₁.value with replacement } }, ?_, fits.domain, fits.current,
          hafter, fits.since⟩
        rw [leaves.live t hnow, hbefore]
        rfl
    · exact (h.apart (apart hother) (fun t order => leaves.apart t other order hother) past).2 opener
        after standing inTime

section Fits

variable {e : TimedEntry String Conversation} {pending : Option String}

theorem Fits.pending_none (fits : Fits sealer e opener pending)
    (first : e.value.replacement = none) : pending = none := by
  have hpending := fits.pending
  rw [first] at hpending
  exact Option.map_eq_none_iff.mp hpending.symm

theorem Fits.pending_some (fits : Fits sealer e opener pending) {sealed : Bytes}
    (second : e.value.replacement = some sealed) :
    ∃ text, pending = some text ∧ sealer.reveal sealed = some text := by
  have hpending := fits.pending
  rw [second] at hpending
  obtain ⟨text, rfl, htext⟩ := Option.map_eq_some_iff.mp hpending.symm
  exact ⟨text, rfl, htext.symm⟩

end Fits

theorem told_iff {verifier : V} {request : Request} {change : PasswordReplacement}
    {outcome word : FirstFactor.ChangeOutcome}
    (exchanges : x.exchanges = [⟨.changePassword verifier request change, outcome⟩]) :
    x.Told word ↔ word = outcome := by
  unfold Turn.Told
  rw [exchanges]
  constructor
  · rintro ⟨verifier', request', change', hmem⟩
    obtain ⟨⟩ := List.mem_singleton.mp hmem
    rfl
  · rintro rfl
    exact ⟨verifier, request, change, List.mem_singleton_self _⟩

theorem not_told {word : FirstFactor.ChangeOutcome} (exchanges : x.exchanges = []) :
    ¬ x.Told word := by
  rintro ⟨verifier, request, change, hmem⟩
  rw [exchanges] at hmem
  cases hmem

/-- Where every text can be sealed and revealed, sealing does not fail an answer. -/
theorem Matches.sealed (h : Matches sealer ttl turns c) (faithful : sealer.Faithful)
    (order : ∀ y ∈ turns, y.now ≤ x.now) {e : TimedEntry String Conversation}
    (found : c.conversations.live? x.now token = some e) :
    ¬ (c.sealer.hide x.request.password = none ∨ c.sealer.reveal e.value.current = none ∨
      ∃ sealed, e.value.replacement = some sealed ∧ c.sealer.reveal sealed = none) := by
  obtain ⟨opener, pending, -, fits⟩ := h.told x.now token e order found
  rw [h.sameSealer]
  rintro (hhide | hcurrent | ⟨sealed, hsecond, hreveal⟩)
  · obtain ⟨octets, hoctets, -⟩ := faithful x.request.password
    rw [hhide] at hoctets
    cases hoctets
  · rw [fits.current] at hcurrent
    cases hcurrent
  · obtain ⟨text, -, htext⟩ := fits.pending_some hsecond
    rw [hreveal] at htext
    cases htext

/-- **An answer keeps the store what the turns tell**, in each of its ways. -/
theorem Matches.resumed (h : Matches sealer ttl turns c) (faithful : sealer.Faithful)
    (order : ∀ y ∈ turns, y.Before x) {verifier : V} (call : x.call = .resume token verifier)
    (way : c.Answer x.now x.request token verifier x.exchanges x.progress) :
    Matches sealer ttl (turns ++ [x]) x.progress.after := by
  have resumes : x.Resumes token := ⟨verifier, call⟩
  generalize hes : x.exchanges = es at way
  generalize hp : x.progress = p at way
  cases way with
  | closed gone =>
    refine h.answer call none (leaves_erase h.distinct token) rfl ?_
    intro e opener before after found
    rw [gone] at found
    cases found
  | unsealed e found fails =>
    exact absurd fails (h.sealed faithful (fun y hy => (order y hy).1) found)
  | stored e sealed found first hidden =>
    rw [h.sameSealer] at hidden
    refine h.answer call (some (some x.request.password))
      (leaves_keep h.distinct token (some sealed)) ?_ ?_
    · simp [faithful.reveal hidden]
    · intro e' opener before after found' fits inTime
      obtain rfl := Option.some.inj (found.symm.trans found')
      rw [Turn.Move.iff_of_resumes resumes inTime, fits.pending_none first]
      simp [eq_comm]
  | mismatched e sealed previous found second revealed differs =>
    rw [h.sameSealer] at revealed
    refine h.answer call (some none) (leaves_keep h.distinct token none) rfl ?_
    intro e' opener before after found' fits inTime
    obtain rfl := Option.some.inj (found.symm.trans found')
    obtain ⟨text, rfl, htext⟩ := fits.pending_some second
    obtain rfl := Option.some.inj (revealed.symm.trans htext)
    rw [Turn.Move.iff_of_resumes resumes inTime]
    simp [differs, eq_comm]
  | asked e sealed current outcome found second revealed opened =>
    rw [h.sameSealer] at revealed
    refine h.answer call (if outcome = .complexityNotMet then some none else none)
      (leaves_conclude h.distinct token outcome) ?_ ?_
    · split <;> rfl
    · intro e' opener before after found' fits inTime
      obtain rfl := Option.some.inj (found.symm.trans found')
      obtain ⟨text, rfl, htext⟩ := fits.pending_some second
      obtain rfl := Option.some.inj (revealed.symm.trans htext)
      rw [Turn.Move.iff_of_resumes resumes inTime, told_iff hes]
      by_cases hsimple : outcome = .complexityNotMet
      · simp [hsimple, eq_comm]
      · simp [hsimple, eq_comm]

theorem Serves.cases (h : c.Serves x) :
    (∃ domain random, x.call = .initiate domain ∧ x.exchanges = [⟨.token, random⟩] ∧
      (c.sealer.hide x.request.password = none ∧ x.progress.after = c ∨
        ∃ current, c.sealer.hide x.request.password = some current ∧
          x.progress.after =
            { c with conversations :=
                c.conversations.insert x.now (tokenText random) ⟨domain, current, none⟩ })) ∨
    ∃ token verifier, x.call = .resume token verifier ∧
      c.Answer x.now x.request token verifier x.exchanges x.progress := by
  have htrace := h.trace
  unfold Turn.talk at htrace
  cases hcall : x.call with
  | initiate domain =>
    rw [hcall] at htrace
    obtain ⟨random, hes, ⟨hhide, hp⟩ | ⟨current, hhide, hp⟩⟩ := initiate_cases htrace
    · refine Or.inl ⟨domain, random, rfl, hes, Or.inl ⟨hhide, ?_⟩⟩
      rw [hp]
    · refine Or.inl ⟨domain, random, rfl, hes, Or.inr ⟨current, hhide, ?_⟩⟩
      rw [hp]
  | resume token verifier =>
    rw [hcall] at htrace
    exact Or.inr ⟨token, verifier, rfl, answer_of_resume htrace⟩

/-- **The store holds what the turns tell**, after every run. -/
theorem matches_of_run (faithful : sealer.Faithful) (run : Run sealer ttl started turns c) :
    Matches sealer ttl turns c := by
  refine run.preserves ?_ ?_
  · refine ⟨rfl, rfl, List.Pairwise.nil, fun t token e _ hlive => ?_, ?_⟩
    · cases hlive
    · intro t token opener pending _ standing
      obtain ⟨hmem, -⟩ := standing.starts
      cases hmem
  · intro turns c x _ ih order serves
    rcases serves.cases with ⟨domain, random, hcall, hes, hways⟩ | ⟨token, verifier, hcall, hway⟩
    · rcases hways with ⟨hnone, -⟩ | ⟨current, hhide, hafter⟩
      · obtain ⟨octets, hoctets, -⟩ := faithful x.request.password
        rw [ih.sameSealer, hoctets] at hnone
        cases hnone
      · show Matches sealer ttl (turns ++ [x]) x.progress.after
        rw [ih.sameSealer] at hhide
        rw [hafter]
        exact ih.start faithful order serves.room hcall hes hhide
    · exact ih.resumed faithful order hcall hway

/-! ## 3. What a run does -/

/-- **A password is changed only where it has come twice in a row**, in time. -/
theorem Matches.standing_of_asks (h : Matches sealer ttl turns c)
    (order : ∀ y ∈ turns, y.now ≤ x.now) (serves : c.Serves x) (asks : x.Asks) :
    ∃ token verifier opener, x.call = .resume token verifier ∧
      Standing ttl token turns opener (some x.request.password) ∧ x.now - opener.now ≤ ttl := by
  obtain ⟨outcome, htold⟩ := asks
  rcases serves.cases with ⟨domain, random, -, hes, -⟩ | ⟨token, verifier, hcall, hway⟩
  · obtain ⟨verifier, request, change, hmem⟩ := htold
    rw [hes] at hmem
    cases List.mem_singleton.mp hmem
  · generalize hes : x.exchanges = es at hway
    generalize hp : x.progress = p at hway
    cases hway with
    | closed => exact absurd htold (not_told hes)
    | unsealed => exact absurd htold (not_told hes)
    | stored => exact absurd htold (not_told hes)
    | mismatched => exact absurd htold (not_told hes)
    | asked e sealed current outcome' found second revealed opened =>
      obtain ⟨opener, pending, standing, fits⟩ := h.told x.now token e order found
      obtain ⟨text, rfl, htext⟩ := fits.pending_some second
      rw [h.sameSealer] at revealed
      obtain rfl := Option.some.inj (revealed.symm.trans htext)
      exact ⟨token, verifier, opener, hcall, standing, h.inTime found fits⟩

/-- **Where it has come twice in a row, the verifier is asked to change it**: it gets the domain and
the old password of the start, and the new one. -/
theorem Matches.exchanges_of_standing (h : Matches sealer ttl turns c) (faithful : sealer.Faithful)
    (order : ∀ y ∈ turns, y.now ≤ x.now) (serves : c.Serves x) {verifier : V}
    (call : x.call = .resume token verifier)
    (standing : Standing ttl token turns opener (some x.request.password))
    (inTime : x.now - opener.now ≤ ttl) :
    ∃ domain outcome, opener.call = .initiate domain ∧ x.exchanges =
      [⟨.changePassword verifier x.request ⟨domain, opener.request.password, x.request.password⟩,
        outcome⟩] := by
  obtain ⟨e, hlive, fits⟩ := h.held x.now token opener _ order standing inTime
  rcases serves.cases with ⟨domain, random, hcall, -, -⟩ | ⟨token', verifier', hcall, hway⟩
  · rw [call] at hcall
    cases hcall
  · obtain ⟨rfl, rfl⟩ := Call.resume.inj (call.symm.trans hcall)
    generalize hes : x.exchanges = es at hway
    generalize hp : x.progress = p at hway
    cases hway with
    | closed gone =>
      rw [gone] at hlive
      cases hlive
    | unsealed e' found fails => exact absurd fails (h.sealed faithful order found)
    | stored e' sealed found first =>
      obtain rfl := Option.some.inj (hlive.symm.trans found)
      cases fits.pending_none first
    | mismatched e' sealed previous found second revealed differs =>
      obtain rfl := Option.some.inj (hlive.symm.trans found)
      obtain ⟨text, hpending, htext⟩ := fits.pending_some second
      rw [h.sameSealer, htext] at revealed
      exact absurd (Option.some.inj (revealed.symm.trans hpending.symm)) differs
    | asked e' sealed current outcome found second revealed opened =>
      obtain rfl := Option.some.inj (hlive.symm.trans found)
      rw [h.sameSealer, fits.current] at opened
      obtain rfl := Option.some.inj opened
      exact ⟨e.value.domain, outcome, fits.domain, rfl⟩

/-- Who answers in no conversation is rejected, and opens none. -/
theorem rejected_of_gone (serves : c.Serves x) (resumes : x.Resumes token)
    (gone : c.conversations.live? x.now token = none) :
    x.Rejected ∧ ∀ t, x.progress.after.conversations.live? t token = none := by
  have absent {e : TimedEntry String Conversation} {token' : String} (same : token' = token)
      (found : c.conversations.live? x.now token' = some e) : False := by
    rw [same, gone] at found
    cases found
  rcases serves.cases with ⟨domain, random, hcall, -, -⟩ | ⟨token', verifier, hcall, hway⟩
  · obtain ⟨verifier, hresume⟩ := resumes
    rw [hcall] at hresume
    cases hresume
  · have same := eq_of_resumes ⟨verifier, hcall⟩ resumes
    generalize hes : x.exchanges = es at hway
    generalize hp : x.progress = p at hway
    cases hway with
    | closed =>
      refine ⟨⟨by rw [hp], hes⟩, fun t => ?_⟩
      rw [same]
      exact TimedMap.live?_erase_self _ t token
    | unsealed _ found => exact (absent same found).elim
    | stored _ _ found => exact (absent same found).elim
    | mismatched _ _ _ found => exact (absent same found).elim
    | asked _ _ _ _ found => exact (absent same found).elim

/-- **No turn is seen in a conversation that it does not concern.** -/
theorem apart_of_serves (distinct : c.conversations.Distinct) (serves : c.Serves x)
    (apart : ¬ x.Concerns token) (t : Time) (order : x.now ≤ t) :
    x.progress.after.conversations.live? t token = c.conversations.live? t token := by
  rcases serves.cases with ⟨domain, random, hcall, hes, hways⟩ | ⟨token', verifier, hcall, hway⟩
  · have ne : token ≠ tokenText random := fun h => apart (Or.inl ⟨domain, random, hcall, hes, h⟩)
    rcases hways with ⟨-, hafter⟩ | ⟨current, -, hafter⟩
    · rw [hafter]
    · rw [hafter]
      exact TimedMap.live?_insert_of_ne distinct serves.room order ne _
  · have ne : token ≠ token' := by
      rintro rfl
      exact apart (Or.inr ⟨verifier, hcall⟩)
    generalize x.exchanges = es at hway
    generalize x.progress = p at hway
    cases hway with
    | closed => exact (leaves_erase distinct token').apart t token order ne
    | unsealed => rfl
    | stored => exact (leaves_keep distinct token' _).apart t token order ne
    | mismatched => exact (leaves_keep distinct token' _).apart t token order ne
    | asked => exact (leaves_conclude distinct token' _).apart t token order ne

/-- A conversation that a turn ends is gone. -/
theorem gone_of_ends (distinct : c.conversations.Distinct) (serves : c.Serves x)
    (ends : x.Ends token) (t : Time) (order : x.now ≤ t) :
    x.progress.after.conversations.live? t token = none := by
  obtain ⟨resumes, htold⟩ := ends
  have silent (hes : x.exchanges = []) : False := by
    rcases htold with htold | htold
    · exact not_told hes htold
    · exact not_told hes htold
  rcases serves.cases with ⟨domain, random, hcall, -, -⟩ | ⟨token', verifier, hcall, hway⟩
  · obtain ⟨verifier, hresume⟩ := resumes
    rw [hcall] at hresume
    cases hresume
  · obtain rfl := eq_of_resumes ⟨verifier, hcall⟩ resumes
    generalize hes : x.exchanges = es at hway
    generalize x.progress = p at hway
    cases hway with
    | closed => exact (silent hes).elim
    | unsealed => exact (silent hes).elim
    | stored => exact (silent hes).elim
    | mismatched => exact (silent hes).elim
    | asked e sealed current outcome found second revealed opened =>
      have hended : outcome ≠ .complexityNotMet := by
        rintro rfl
        rcases htold with htold | htold
        · cases (told_iff hes).mp htold
        · cases (told_iff hes).mp htold
      have hleaves : Leaves c x.now token' (if outcome = .complexityNotMet then some none else none)
          (c.conclude x.now x.request token' outcome).after := leaves_conclude distinct token' outcome
      have hlive := hleaves.live t order
      rw [if_neg hended] at hlive
      rw [hlive]
      cases c.conversations.live? t token' with
      | none => rfl
      | some e => rfl

/-- Who has a password changed answers a conversation that was started. -/
theorem started_of_asks (faithful : sealer.Faithful) (run : Run sealer ttl started turns c)
    (hy : y ∈ turns) (resumes : y.Resumes token) (asks : y.Asks) :
    ∃ opener ∈ turns, opener.Starts token := by
  obtain ⟨earlier, later, rfl⟩ := List.append_of_mem hy
  obtain ⟨c', past, order, serves⟩ := run.split rfl
  obtain ⟨token', verifier, opener, hcall, standing, -⟩ :=
    (matches_of_run faithful past).standing_of_asks (fun z hz => (order z hz).1) serves asks
  obtain rfl := eq_of_resumes resumes ⟨verifier, hcall⟩
  obtain ⟨hmem, hstarts⟩ := standing.starts
  exact ⟨opener, List.mem_append_left _ hmem, hstarts⟩

/-- **A conversation that ended is gone for good.** -/
theorem gone_of_run (faithful : sealer.Faithful) (run : Run sealer ttl started turns c) :
    ∀ y ∈ turns, ∀ token, y.Ends token → ∀ t, (∀ z ∈ turns, z.now ≤ t) →
      c.conversations.live? t token = none := by
  refine run.preserves (P := fun turns c => ∀ y ∈ turns, ∀ token, y.Ends token → ∀ t,
    (∀ z ∈ turns, z.now ≤ t) → c.conversations.live? t token = none) ?_ ?_
  · intro y hy
    cases hy
  · intro turns c x past ih order serves y hy token ends t later
    have distinct := (matches_of_run faithful past).distinct
    have hnow : x.now ≤ t := later x (by simp)
    rcases List.mem_append.mp hy with hy | hy
    · by_cases hstarts : x.Starts token
      · have hasks : y.Asks := by
          rcases ends.2 with htold | htold
          · exact ⟨_, htold⟩
          · exact ⟨_, htold⟩
        obtain ⟨opener, hopener, hfirst⟩ := started_of_asks faithful past hy ends.1 hasks
        exact absurd hstarts ((order opener hopener).2 token hfirst)
      · by_cases hresumes : x.Resumes token
        · have hgone := ih y hy token ends x.now fun z hz => (order z hz).1
          exact (rejected_of_gone serves hresumes hgone).2 t
        · have hapart : ¬ x.Concerns token := by
            rintro (h | h)
            · exact hstarts h
            · exact hresumes h
          show x.progress.after.conversations.live? t token = none
          rw [apart_of_serves distinct serves hapart t hnow]
          exact ih y hy token ends t fun z hz => later z (List.mem_append_left _ hz)
    · obtain rfl := List.mem_singleton.mp hy
      exact gone_of_ends distinct serves ends t hnow

/-- A token is drawn once. -/
theorem eq_of_started (run : Run sealer ttl started turns c) :
    ∀ y ∈ turns, ∀ z ∈ turns, y.Starts token → z.Starts token → y = z := by
  refine run.preserves (P := fun turns _ => ∀ y ∈ turns, ∀ z ∈ turns, y.Starts token →
    z.Starts token → y = z) ?_ ?_
  · intro y hy
    cases hy
  · intro turns c x _ ih order _ y hy z hz hyStarts hzStarts
    rcases List.mem_append.mp hy with hy | hy
    · rcases List.mem_append.mp hz with hz | hz
      · exact ih y hy z hz hyStarts hzStarts
      · rw [List.mem_singleton.mp hz] at hzStarts
        exact absurd hzStarts ((order y hy).2 token hyStarts)
    · rcases List.mem_append.mp hz with hz | hz
      · rw [List.mem_singleton.mp hy] at hyStarts
        exact absurd hyStarts ((order z hz).2 token hzStarts)
      · exact (List.mem_singleton.mp hy).trans (List.mem_singleton.mp hz).symm

/-- What a turn after the others does, whatever conversations are going on. -/
structure Turn.Orderly (ttl : Time) (turns : List (Turn V)) (c : PasswordChanges) (x : Turn V) :
    Prop where
  /-- A password is changed exactly when a new one comes twice in a row, and in time. -/
  asks : x.Asks ↔ ∃ token verifier opener, x.call = .resume token verifier ∧
    Standing ttl token turns opener (some x.request.password) ∧ x.now - opener.now ≤ ttl
  /-- The verifier gets the domain and the password of the start, and the new password. -/
  change : ∀ token verifier opener, x.call = .resume token verifier →
    Standing ttl token turns opener (some x.request.password) → x.now - opener.now ≤ ttl →
      ∃ domain outcome, opener.call = .initiate domain ∧ x.exchanges =
        [⟨.changePassword verifier x.request
          ⟨domain, opener.request.password, x.request.password⟩, outcome⟩]
  /-- A conversation that ended stays so. -/
  ended : ∀ token, ∀ y ∈ turns, y.Ends token → x.Resumes token → x.Rejected
  /-- A conversation lasts for its time from its start, whatever came between. -/
  late : ∀ token, ∀ y ∈ turns, y.Starts token → ttl < x.now - y.now → x.Resumes token → x.Rejected
  /-- Nothing is seen of the turn in the other conversations. -/
  apart : ∀ token, ¬ x.Concerns token → ∀ t, x.now ≤ t →
    x.progress.after.conversations.live? t token = c.conversations.live? t token

/-- **Conversations about a new password are orderly**, however many there are and however their
turns mix. -/
theorem orderly_of_run (faithful : sealer.Faithful) (run : Run sealer ttl started turns c)
    (order : ∀ y ∈ turns, y.Before x) (serves : c.Serves x) : x.Orderly ttl turns c := by
  have h := matches_of_run faithful run
  have clock : ∀ y ∈ turns, y.now ≤ x.now := fun y hy => (order y hy).1
  refine ⟨⟨h.standing_of_asks clock serves, ?_⟩, ?_, ?_, ?_,
    fun _ => apart_of_serves h.distinct serves⟩
  · rintro ⟨token, verifier, opener, call, standing, inTime⟩
    obtain ⟨domain, outcome, -, hes⟩ :=
      h.exchanges_of_standing faithful clock serves call standing inTime
    exact ⟨outcome, (told_iff hes).mpr rfl⟩
  · intro token verifier opener call standing inTime
    exact h.exchanges_of_standing faithful clock serves call standing inTime
  · intro token y hy ends resumes
    have hgone := gone_of_run faithful run y hy token ends x.now clock
    exact (rejected_of_gone serves resumes hgone).1
  · intro token y hy hstarts hlate resumes
    have hgone : c.conversations.live? x.now token = none := by
      by_contra hlive
      obtain ⟨e, he⟩ := Option.ne_none_iff_exists'.mp hlive
      obtain ⟨opener, pending, standing, fits⟩ := h.told x.now token e clock he
      obtain ⟨hopener, hopens⟩ := standing.starts
      obtain rfl := eq_of_started run y hy opener hopener hstarts hopens
      exact absurd hlate (Nat.not_lt.mpr (h.inTime he fits))
    exact (rejected_of_gone serves resumes hgone).1

end PasswordChanges

/-! ## 4. A password changed in the sample -/

namespace Login

open PasswordChanges

/-- What the device sends for alice with a password. -/
def withPassword (password : String) : Request :=
  { request "alice" none with passphrase := some password }

/-- Password changes that last a minute, and none so far. -/
def unchanged : PasswordChanges := make .plain (.ofSeconds 60) 0

/-- The token of the only conversation. -/
def token : String := tokenText .zero

/-- The directory wants a new password of alice. -/
def started : PasswordChanges.Turn FirstFactor.Verifier where
  now := 0
  request := withPassword "old"
  call := .initiate "EXAMPLE"
  exchanges := [⟨.token, .zero⟩]
  progress := ⟨.challenge, prompted (withPassword "old") token enterPrompt, { unchanged with
    conversations := unchanged.conversations.insert 0 token
      ⟨"EXAMPLE", Utf8.encode "old", none⟩ }⟩

/-- She enters it. -/
def entered : PasswordChanges.Turn FirstFactor.Verifier where
  now := 1
  request := withPassword "new"
  call := .resume token (.directory .activeDirectory)
  exchanges := []
  progress := ⟨.challenge, prompted (withPassword "new") token repeatPrompt,
    started.progress.after.keep 1 token (some (Utf8.encode "new"))⟩

/-- She repeats it, and the directory takes it. -/
def repeated : PasswordChanges.Turn FirstFactor.Verifier where
  now := 2
  request := withPassword "new"
  call := .resume token (.directory .activeDirectory)
  exchanges := [⟨.changePassword (.directory .activeDirectory) (withPassword "new")
    ⟨"EXAMPLE", "old", "new"⟩, .changed⟩]
  progress := entered.progress.after.conclude 2 (withPassword "new") token .changed

/-- Alice changes her password: it came twice in a row, so it was asked for. -/
theorem alice_changes_password : Sealer.plain.Faithful ∧
    Run .plain (.ofSeconds 60) 0 [started, entered] entered.progress.after ∧
      (∀ y ∈ [started, entered], y.Before repeated) ∧ entered.progress.after.Serves repeated ∧
      Standing (.ofSeconds 60) token [started, entered] started (some "new") ∧ repeated.Asks := by
  have starts : started.Starts token := ⟨"EXAMPLE", .zero, rfl, rfl, rfl⟩
  have later {x : PasswordChanges.Turn FirstFactor.Verifier} (resumes : x.Resumes token)
      (y : PasswordChanges.Turn FirstFactor.Verifier) (order : y.now ≤ x.now) : y.Before x :=
    ⟨order, fun _ _ => Turn.not_starts_of_resumes resumes⟩
  have found : started.progress.after.conversations.live? 1 token =
      some ⟨token, ⟨"EXAMPLE", Utf8.encode "old", none⟩, 0⟩ := TimedMap.live?_insert_self ..
  have again : entered.progress.after.conversations.live? 2 token =
      some ⟨token, ⟨"EXAMPLE", Utf8.encode "old", some (Utf8.encode "new")⟩, 0⟩ := by
    refine (TimedMap.live?_update_self _ (by decide)).trans ?_
    rw [show started.progress.after.conversations.live? 2 token = _ from
      TimedMap.live?_insert_self ..]
    rfl
  have run : Run .plain (.ofSeconds 60) 0 [started, entered] entered.progress.after := by
    refine .event [started] _ entered (.event [] _ started .start ?_ ⟨?_, by decide⟩) ?_ ⟨?_, ?_⟩
    · exact fun y hy => nomatch hy
    · exact trace_ask_iff.mpr ⟨.zero, [], rfl, .done _⟩
    · intro y hy
      rw [List.mem_singleton.mp hy]
      exact later ⟨_, rfl⟩ started (by decide)
    · exact trace_resume_stored (.directory .activeDirectory) found rfl rfl
    · decide +kernel
  have order : ∀ y ∈ [started, entered], y.Before repeated := by
    intro y hy
    rcases List.mem_cons.mp hy with rfl | hy
    · exact later ⟨_, rfl⟩ _ (by decide)
    · rw [List.mem_singleton.mp hy]
      exact later ⟨_, rfl⟩ _ (by decide)
  have serves : entered.progress.after.Serves repeated := by
    have revealed : entered.progress.after.sealer.reveal (Utf8.encode "new") =
        some (withPassword "new").password := Utf8.decode?_encode "new"
    have opened : entered.progress.after.sealer.reveal (Utf8.encode "old") = some "old" :=
      Utf8.decode?_encode "old"
    exact ⟨trace_resume_asked (V := FirstFactor.Verifier) (.directory .activeDirectory) again rfl
      revealed opened .changed, by decide +kernel⟩
  have standing : Standing (.ofSeconds 60) token [started, entered] started (some "new") :=
    .moved [started] entered started none _ (.opened [] started starts)
      (.stored ⟨_, rfl⟩ (by decide))
  have orderly := orderly_of_run Sealer.plain_faithful run order serves
  exact ⟨Sealer.plain_faithful, run, order, serves, standing,
    orderly.asks.mpr ⟨token, _, started, rfl, standing, by decide⟩⟩

end Login

end AccessGate
