import AccessGate.Access.PasswordChange
import AccessGate.Proofs.Access.Settling

/-!
# What a password change can do

* `initiate_cases`: the start draws one token and asks for a new password, or cannot seal the old;
* `Answer`: the ways of an answer, each with the conversation that it found; so an answer asks
  nobody, or has a verifier change the password once (`resume_cases`), and only then can the
  password be changed (`step_conclude`);
* nothing of what the device submitted is touched, and neither factor moves.
-/

namespace AccessGate.PasswordChanges

open Dialogue

variable {V : Type} {c : PasswordChanges} {now : Time} {request : Request} {es : Exchanges V}
  {p : Progress}

/-- A step that leaves the submission and both factors as they are. -/
structure Progress.LeavesFactors (p : Progress) (request : Request) : Prop where
  submission : p.request.SameSubmission request
  factors : p.request.factors = request.factors

theorem leavesFactors_same (step : Step) (after : PasswordChanges) :
    (Progress.mk step request after).LeavesFactors request := ⟨.refl request, rfl⟩

theorem leavesFactors_prompted (step : Step) (token prompt : String) (after : PasswordChanges) :
    (Progress.mk step (prompted request token prompt) after).LeavesFactors request :=
  ⟨⟨rfl, rfl, rfl, rfl⟩, rfl⟩

/-- **What the start of a password change can do.** -/
theorem initiate_cases {domain : String} (h : Trace (c.initiate now request domain) es p) :
    ∃ random, es = [⟨.token, random⟩] ∧
      (c.sealer.hide request.password = none ∧ p = ⟨.sealingFailed, request, c⟩ ∨
        ∃ current, c.sealer.hide request.password = some current ∧
          p = ⟨.challenge, prompted request (tokenText random) enterPrompt,
            { c with conversations :=
              c.conversations.insert now (tokenText random) ⟨domain, current, none⟩ }⟩) := by
  obtain ⟨random, rest, rfl, hrest⟩ := trace_ask_iff.mp h
  simp only at hrest
  split at hrest
  · rename_i hhide
    obtain ⟨rfl, rfl⟩ := trace_done_iff.mp hrest
    exact ⟨random, rfl, Or.inl ⟨hhide, rfl⟩⟩
  · rename_i current hhide
    obtain ⟨rfl, rfl⟩ := trace_done_iff.mp hrest
    exact ⟨random, rfl, Or.inr ⟨current, hhide, rfl⟩⟩

/-- The directory's word decides whether the password was changed. -/
theorem step_conclude (token : String) (outcome : FirstFactor.ChangeOutcome) :
    (c.conclude now request token outcome).step = .changed ↔ outcome = .changed := by
  cases outcome <;> simp [conclude]

theorem conclude_leavesFactors (token : String) (outcome : FirstFactor.ChangeOutcome) :
    (c.conclude now request token outcome).LeavesFactors request := by
  cases outcome with
  | changed => exact leavesFactors_same _ _
  | complexityNotMet => exact leavesFactors_prompted _ _ _ _
  | failed => exact leavesFactors_same _ _

/-- **The ways of an answer in a password change.** -/
inductive Answer (c : PasswordChanges) (now : Time) (request : Request) (token : String)
    (verifier : V) : Exchanges V → Progress → Prop where
  /-- No conversation is open under the token. -/
  | closed (gone : c.conversations.live? now token = none) :
      Answer c now request token verifier []
        ⟨.rejected, request, { c with conversations := c.conversations.erase token }⟩
  /-- A password could not be sealed or opened. -/
  | unsealed (e : TimedEntry String Conversation)
      (found : c.conversations.live? now token = some e)
      (fails : c.sealer.hide request.password = none ∨ c.sealer.reveal e.value.current = none ∨
        ∃ sealed, e.value.replacement = some sealed ∧ c.sealer.reveal sealed = none) :
      Answer c now request token verifier [] ⟨.sealingFailed, request, c⟩
  /-- The new password has come once. -/
  | stored (e : TimedEntry String Conversation) (sealed : Bytes)
      (found : c.conversations.live? now token = some e) (first : e.value.replacement = none)
      (hidden : c.sealer.hide request.password = some sealed) :
      Answer c now request token verifier []
        ⟨.challenge, prompted request token repeatPrompt, c.keep now token (some sealed)⟩
  /-- The new password has come twice, and otherwise the second time. -/
  | mismatched (e : TimedEntry String Conversation) (sealed : Bytes) (previous : String)
      (found : c.conversations.live? now token = some e)
      (second : e.value.replacement = some sealed)
      (revealed : c.sealer.reveal sealed = some previous) (differs : previous ≠ request.password) :
      Answer c now request token verifier []
        ⟨.challenge, prompted request token mismatchPrompt, c.keep now token none⟩
  /-- The new password has come twice: the only question of the conversation. -/
  | asked (e : TimedEntry String Conversation) (sealed : Bytes) (current : String)
      (outcome : FirstFactor.ChangeOutcome)
      (found : c.conversations.live? now token = some e)
      (second : e.value.replacement = some sealed)
      (revealed : c.sealer.reveal sealed = some request.password)
      (opened : c.sealer.reveal e.value.current = some current) :
      Answer c now request token verifier
        [⟨.changePassword verifier request ⟨e.value.domain, current, request.password⟩, outcome⟩]
        (c.conclude now request token outcome)

theorem answer_of_resume {token : String} {verifier : V}
    (h : Trace (c.resume now request token verifier) es p) :
    c.Answer now request token verifier es p := by
  unfold resume at h
  cases hlive : c.conversations.live? now token with
  | none =>
    rw [TimedMap.get?_of_none hlive] at h
    obtain ⟨rfl, rfl⟩ := trace_done_iff.mp h
    exact .closed hlive
  | some e =>
    rw [TimedMap.get?_of_live hlive] at h
    simp only at h
    split at h
    · rename_i hfirst
      split at h
      · rename_i hhide
        obtain ⟨rfl, rfl⟩ := trace_done_iff.mp h
        exact .unsealed e hlive (Or.inl hhide)
      · rename_i sealed hhide
        obtain ⟨rfl, rfl⟩ := trace_done_iff.mp h
        exact .stored e sealed hlive hfirst hhide
    · rename_i sealed hsecond
      split at h
      · rename_i hreveal
        obtain ⟨rfl, rfl⟩ := trace_done_iff.mp h
        exact .unsealed e hlive (Or.inr (Or.inr ⟨sealed, hsecond, hreveal⟩))
      · rename_i previous hreveal
        unfold commit at h
        split at h
        · rename_i hsame
          subst hsame
          split at h
          · rename_i hopen
            obtain ⟨rfl, rfl⟩ := trace_done_iff.mp h
            exact .unsealed e hlive (Or.inr (Or.inl hopen))
          · rename_i current hopen
            obtain ⟨outcome, rest, rfl, hrest⟩ := trace_ask_iff.mp h
            obtain ⟨rfl, rfl⟩ := trace_done_iff.mp hrest
            exact .asked e sealed current outcome hlive hsecond hreveal hopen
        · rename_i hdiffers
          obtain ⟨rfl, rfl⟩ := trace_done_iff.mp h
          exact .mismatched e sealed previous hlive hsecond hreveal hdiffers

section Converse

variable {token : String} (verifier : V) {e : TimedEntry String Conversation} {sealed : Bytes}
  {current : String}

/-- Conversely, a new password that comes once is kept. -/
theorem trace_resume_stored (found : c.conversations.live? now token = some e)
    (first : e.value.replacement = none) (hidden : c.sealer.hide request.password = some sealed) :
    Trace (c.resume now request token verifier) []
      ⟨.challenge, prompted request token repeatPrompt, c.keep now token (some sealed)⟩ := by
  unfold resume
  rw [TimedMap.get?_of_live found]
  simp only [first, hidden]
  exact trace_done_iff.mpr ⟨rfl, rfl⟩

/-- And the verifier gets one that comes twice, and may say anything. -/
theorem trace_resume_asked (found : c.conversations.live? now token = some e)
    (second : e.value.replacement = some sealed)
    (revealed : c.sealer.reveal sealed = some request.password)
    (opened : c.sealer.reveal e.value.current = some current)
    (outcome : FirstFactor.ChangeOutcome) :
    Trace (c.resume now request token verifier)
      [⟨.changePassword verifier request ⟨e.value.domain, current, request.password⟩, outcome⟩]
      (c.conclude now request token outcome) := by
  unfold resume
  rw [TimedMap.get?_of_live found]
  simp only [second, revealed]
  unfold commit
  rw [if_pos rfl]
  simp only [opened]
  exact trace_ask_iff.mpr ⟨outcome, [], rfl, trace_done_iff.mpr ⟨rfl, rfl⟩⟩

end Converse

/-- **What an answer in a password change can do**: nobody is asked and the password stays, or a
verifier is asked once and its word is followed. -/
theorem resume_cases {token : String} {verifier : V}
    (h : Trace (c.resume now request token verifier) es p) :
    (es = [] ∧ p.step ≠ .changed ∧ p.LeavesFactors request) ∨
    ∃ change outcome, es = [⟨.changePassword verifier request change, outcome⟩] ∧
      p = c.conclude now request token outcome := by
  cases answer_of_resume h with
  | closed gone => exact Or.inl ⟨rfl, nofun, leavesFactors_same _ _⟩
  | unsealed e found fails => exact Or.inl ⟨rfl, nofun, leavesFactors_same _ _⟩
  | stored e sealed found first hidden =>
    exact Or.inl ⟨rfl, nofun, leavesFactors_prompted _ _ _ _⟩
  | mismatched e sealed previous found second revealed differs =>
    exact Or.inl ⟨rfl, nofun, leavesFactors_prompted _ _ _ _⟩
  | asked e sealed current outcome found second revealed opened =>
    exact Or.inr ⟨_, outcome, rfl, rfl⟩

end AccessGate.PasswordChanges
