import AccessGate.Dialogue
import AccessGate.FirstFactor.DirectoryProfile
import AccessGate.FirstFactor.Filter

/-!
# The first factor in a directory

A directory accepts a user who can bind with the request's passphrase.

* Active Directory binds as the user's principal name, and searches only where a profile is needed;
* a lightweight directory is searched by a service account first, and then binds as the entry found;
* `enrich` loads the profile of a user whom another source has accepted.

A request without a user name or without a passphrase is rejected before anything is asked, because
a bind without a password proves nothing.
-/

namespace AccessGate.FirstFactor

/-- The two ways in which directories are used. -/
inductive DirectoryKind where
  | activeDirectory
  | lightweight
  deriving DecidableEq, Repr

/-! ## 1. Talking to a directory -/

/-- What is asked of a directory. -/
inductive DirectoryQuestion where
  | connect (url : String) (timeout : UInt64)
  | bind (dn password : String)
  | search (base : String) (filter : Filter) (names : List String)
  | unbind

/-- The word of a directory on a bind. -/
structure BindResult where
  code : Nat
  text : String
  deriving DecidableEq, Repr

/-- The answers of a directory; `none` where the connection broke or the search failed. -/
@[reducible] def DirectoryQuestion.Answer : DirectoryQuestion → Type
  | connect _ _ => Bool
  | bind _ _ => Option BindResult
  | search _ _ _ => Option (List Entry)
  | unbind => Unit

/-- A dialogue with a directory. -/
abbrev DirectoryTalk (α : Type) := Dialogue DirectoryQuestion DirectoryQuestion.Answer α

/-- What a bind says of the user. -/
inductive Bound where
  | accepted
  | refused
  | mustChangePassword
  deriving DecidableEq, Repr

/-- The code of a bind with bad credentials. -/
def invalidCredentials : Nat := 49

/-- The text occurs among the characters. -/
def occursIn (text : List Char) : List Char → Bool
  | [] => text.isEmpty
  | c :: rest => text.isPrefixOf (c :: rest) || occursIn text rest

/-- The directory adds a sub-code for a password that has to be changed or has expired. -/
def requiresChange (diagnosis : String) : Bool :=
  occursIn "data 773".toList diagnosis.toList || occursIn "data 532".toList diagnosis.toList

/-- What the result of a bind says. -/
def BindResult.settle (r : BindResult) : Except DirectoryFault Bound :=
  if r.code = 0 then .ok .accepted
  else if r.code = invalidCredentials then
    .ok (if requiresChange r.text then .mustChangePassword else .refused)
  else .error (.bind (.resultCode r.code r.text))

/-! ## 2. Parts of a dialogue -/

/-- Goes on with a value, or ends with the fault. -/
def orFault {α : Type} (d : DirectoryTalk (Except DirectoryFault α))
    (next : α → DirectoryTalk Report) : DirectoryTalk Report :=
  d.bind fun r =>
    match r with
    | .ok a => next a
    | .error fault => .done (.bare (.error (.directory fault)))

/-- Takes leave of the directory with a report. -/
def leave (r : Report) : DirectoryTalk Report := .ask .unbind fun _ => .done r

/-- Connects to the directory of the settings. -/
def connect (s : LdapSettings) : DirectoryTalk (Except DirectoryFault Unit) :=
  .ask (.connect s.url s.timeout) fun up => .done (if up then .ok () else .error .connection)

/-- Binds with a name and a password. -/
def bindAs (dn password : String) : DirectoryTalk (Except DirectoryFault Bound) :=
  .ask (.bind dn password) fun answer => .done <|
    match answer with
    | some r => r.settle
    | none => .error (.bind .broken)

/-- Binds the service account. -/
def bindService (s : LdapSettings) : DirectoryTalk (Except DirectoryFault Unit) :=
  match s.bindDn, s.bindPassword with
  | some dn, some password =>
    (bindAs dn password).bind fun r => .done <|
      match r with
      | .ok .accepted => .ok ()
      | .ok _ => .error (.bind (.serviceAccountRefused dn))
      | .error fault => .error fault
  | _, _ => .error (.bind .noServiceAccount) |> .done

/-- The text of the filter that finds a user. -/
def userFilter (s : LdapSettings) (user : String) : String :=
  s.searchFilter.replace "\x7busername\x7d" (Filter.escape (accountName user))

/-- Searches for a user; of several entries the first is taken. -/
def findUser (s : LdapSettings) (request : Request) :
    DirectoryTalk (Except DirectoryFault (Option Entry)) :=
  match Filter.parse? (userFilter s request.user) with
  | none => .done (.error .search)
  | some filter =>
    .ask (.search s.baseDn filter (requestedAttributes request.client s)) fun answer => .done <|
      match answer with
      | some entries => .ok entries.head?
      | none => .error .search

/-- Loads the profile of a user who is known to be the one that asks. -/
def loadProfile (s : LdapSettings) (request : Request) : DirectoryTalk Report :=
  orFault (findUser s request) fun found =>
    leave <|
      match found with
      | some entry => membership s (profileOf s entry)
      | none => .bare (.ok .reject)

/-! ## 3. Verifying -/

/-- Verifies with a bind as the user. -/
def verifyActiveDirectory (s : LdapSettings) (request : Request) : DirectoryTalk Report :=
  orFault (connect s) fun _ =>
  orFault (bindAs (principalName request.user (domainOf s)) request.password) fun bound =>
    match bound with
    | .mustChangePassword => leave (.bare (.ok (.mustChangePassword ((domainOf s).getD ""))))
    | .refused => leave (.bare (.ok .reject))
    | .accepted =>
      if needsProfile request.client s then loadProfile s request else leave (.bare (.ok .accept))

/-- The report after the bind as the entry that was found. -/
def boundReport (s : LdapSettings) (entry : Entry) : Bound → Report
  | .accepted => membership s (profileOf s entry)
  | .mustChangePassword => .bare (.ok (.mustChangePassword s.baseDn))
  | .refused => .bare (.ok .reject)

/-- Verifies with a search by the service account and a bind as the entry found. -/
def verifyLightweight (s : LdapSettings) (request : Request) : DirectoryTalk Report :=
  orFault (connect s) fun _ =>
  orFault (bindService s) fun _ =>
  orFault (findUser s request) fun found =>
    match found with
    | none => leave (.bare (.ok .reject))
    | some entry =>
      orFault (bindAs entry.dn request.password) fun bound => leave (boundReport s entry bound)

/-- Verifies the first factor of a request. -/
def verifyDirectory (kind : DirectoryKind) (request : Request) : DirectoryTalk Report :=
  match request.client.ldap with
  | none => .done (.bare (.error (.missingConfiguration request.client.name)))
  | some s =>
    if request.user.isEmpty || request.password.isEmpty then .done (.bare (.ok .reject))
    else
      match kind with
      | .activeDirectory => verifyActiveDirectory s request
      | .lightweight => verifyLightweight s request

/-- Loads the profile of a user whom another source has accepted. -/
def enrich (request : Request) : DirectoryTalk Report :=
  match request.client.ldap with
  | none => .done (.bare (.ok .accept))
  | some s =>
    orFault (connect s) fun _ =>
      if s.bindDn.isSome then orFault (bindService s) fun _ => loadProfile s request
      else
        orFault (bindAs (principalName request.user (domainOf s)) request.password) fun bound =>
          if bound = .accepted then loadProfile s request else leave (.bare (.ok .reject))

end AccessGate.FirstFactor
