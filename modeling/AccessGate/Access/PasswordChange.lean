import AccessGate.Access.Question
import AccessGate.Store.TimedMap
import AccessGate.Text.Hex

/-!
# Changing a password

A user whose directory wants a new password is asked for it, and asked again to repeat it; then the
directory gets both the old and the new one. A conversation is named by a random token and lives for
a fixed time that its answers do not extend. Until it ends the passwords are kept sealed.

* two passwords that differ, or one that the directory finds too simple, send the user back to the
  first question;
* a change that is done or fails ends the conversation.

As on all of a request's way (`Router.route`), one time stands for a whole call. The last answer of a
conversation waits for the directory: what is looked up before and kept or ended after is here as of
the same time, and nothing else changes the conversations meanwhile.
-/

namespace AccessGate

/-- Hides texts, and reveals what it hid. -/
structure Sealer where
  hide : String → Option Bytes
  reveal : Bytes → Option String

/-- Texts that stay as they are. -/
def Sealer.plain : Sealer := ⟨fun s => some (Utf8.encode s), Utf8.decode?⟩

/-- What is known of a conversation: the domain, and the password so far and the new one, both
sealed. -/
structure Conversation where
  domain : String
  current : Bytes
  replacement : Option Bytes
  deriving DecidableEq, Repr

/-- The open conversations by token. -/
structure PasswordChanges where
  sealer : Sealer
  conversations : TimedMap String Conversation

namespace PasswordChanges

/-! ## 1. Prompts -/

/-- The first question. -/
def enterPrompt : String := "Please enter new password"

/-- The question for the same password again. -/
def repeatPrompt : String := "Please repeat new password"

/-- The first question after two passwords that differ. -/
def mismatchPrompt : String := "Passwords do not match. Please enter new password"

/-- The first question after a password that is too simple. -/
def complexityPrompt : String :=
  "New password does not meet complexity requirements. Please enter new password"

/-! ## 2. Steps -/

/-- Where a conversation stands after a request. -/
inductive Step where
  /-- The request holds the token and the next prompt. -/
  | challenge
  | changed
  | rejected
  /-- A password could not be sealed or opened. -/
  | sealingFailed
  deriving DecidableEq, Repr

/-- A step with the request and the conversations after it. -/
structure Progress where
  step : Step
  request : Request
  after : PasswordChanges

/-- No conversations. -/
def make (sealer : Sealer) (ttl now : Time) : PasswordChanges :=
  ⟨sealer, .make ttl TimedMap.defaultMaxEntries now⟩

/-- The token names an open conversation. -/
def owns (c : PasswordChanges) (now : Time) (token : String) : Bool × PasswordChanges :=
  let (hit, conversations) := c.conversations.contains now token
  (hit, { c with conversations })

/-- The text of a token. -/
def tokenText (token : Block) : String := Hex.encode token.octets

/-- The request that answers with a prompt. -/
def prompted (request : Request) (token prompt : String) : Request :=
  { request with state := some token, replyMessage := some prompt }

/-- Keeps the new password of a conversation, or forgets it. -/
def keep (c : PasswordChanges) (now : Time) (token : String) (replacement : Option Bytes) :
    PasswordChanges :=
  { c with conversations :=
      (c.conversations.update now token fun conversation => { conversation with replacement }).2 }

/-- Ends a conversation. -/
def finish (c : PasswordChanges) (now : Time) (token : String) : PasswordChanges :=
  { c with conversations := (c.conversations.remove now token).2 }

/-- Opens a conversation. -/
def initiate {V : Type} (c : PasswordChanges) (now : Time) (request : Request) (domain : String) :
    Talk V Progress :=
  .ask .token fun random =>
    let token := tokenText random
    match c.sealer.hide request.password with
    | none => .done ⟨.sealingFailed, request, c⟩
    | some current =>
      .done ⟨.challenge, prompted request token enterPrompt,
        { c with conversations := c.conversations.insert now token ⟨domain, current, none⟩ }⟩

/-- The step after the directory's word. -/
def conclude (c : PasswordChanges) (now : Time) (request : Request) (token : String) :
    FirstFactor.ChangeOutcome → Progress
  | .changed => ⟨.changed, request, c.finish now token⟩
  | .complexityNotMet =>
    ⟨.challenge, prompted request token complexityPrompt, c.keep now token none⟩
  | .failed => ⟨.rejected, request, c.finish now token⟩

/-- The new password has come twice. -/
def commit {V : Type} (c : PasswordChanges) (now : Time) (request : Request) (token : String)
    (verifier : V) (conversation : Conversation) (replacement : String) : Talk V Progress :=
  if replacement = request.password then
    match c.sealer.reveal conversation.current with
    | none => .done ⟨.sealingFailed, request, c⟩
    | some current =>
      .ask (.changePassword verifier request ⟨conversation.domain, current, replacement⟩)
        fun outcome => .done (c.conclude now request token outcome)
  else .done ⟨.challenge, prompted request token mismatchPrompt, c.keep now token none⟩

/-- Takes the next answer of a conversation. -/
def resume {V : Type} (c : PasswordChanges) (now : Time) (request : Request) (token : String)
    (verifier : V) : Talk V Progress :=
  let (conversation, conversations) := c.conversations.get? now token
  let c := { c with conversations }
  match conversation with
  | none => .done ⟨.rejected, request, c⟩
  | some conversation =>
    match conversation.replacement with
    | none =>
      match c.sealer.hide request.password with
      | none => .done ⟨.sealingFailed, request, c⟩
      | some replacement =>
        .done ⟨.challenge, prompted request token repeatPrompt,
          c.keep now token (some replacement)⟩
    | some sealed =>
      match c.sealer.reveal sealed with
      | none => .done ⟨.sealingFailed, request, c⟩
      | some replacement => c.commit now request token verifier conversation replacement

end PasswordChanges

end AccessGate
