import AccessGate.FirstFactor.Directory
import AccessGate.Proofs.Traces

/-!
# What a directory has to say before a user passes

A directory is asked in several steps, and each of them may fail. Whatever it answers, the ways in
which a verification can end are few (`Way`):

* `way_of_trace`: it fails, it rejects, it wants a new password, or it accepts, with the user's
  profile or without;
* `verified_of_trace`: so nobody passes without a bind under his name and with his passphrase, and
  nobody is spared the second factor but by the groups of the entry that was found.
-/

namespace AccessGate.FirstFactor

open Dialogue

/-- What was exchanged with a directory. -/
abbrev DirectoryExchange := Exchange DirectoryQuestion DirectoryQuestion.Answer

variable {kind : DirectoryKind} {s : LdapSettings} {request : Request}
  {es : List DirectoryExchange} {r report : Report} {dn password : String}

/-! ## 1. Words and groups -/

/-- A text occurs where it stands between two others. -/
theorem occursIn_iff {text cs : List Char} : occursIn text cs = true ↔ text <:+: cs := by
  induction cs with
  | nil =>
    unfold occursIn
    rw [List.isEmpty_iff, List.infix_nil]
  | cons c rest ih =>
    unfold occursIn
    rw [Bool.or_eq_true, List.isPrefixOf_iff_prefix, ih, List.infix_cons_iff]

/-- The text says that the password has to be changed, or that it has expired. -/
def SaysChange (text : String) : Prop :=
  "data 773".toList <:+: text.toList ∨ "data 532".toList <:+: text.toList

theorem requiresChange_iff {text : String} : requiresChange text = true ↔ SaysChange text := by
  unfold requiresChange
  rw [Bool.or_eq_true, occursIn_iff, occursIn_iff]
  rfl

/-- One of the user's groups is one of these, whatever the case of its letters. -/
def MemberOf (p : Profile) (groups : List String) : Prop :=
  ∃ g ∈ p.groups, ∃ group ∈ groups, Text.sameIgnoringCase g group = true

theorem isMemberOfAny_iff {p : Profile} {groups : List String} :
    p.isMemberOfAny groups = true ↔ MemberOf p groups := by
  unfold Profile.isMemberOfAny Profile.isMemberOf
  simp only [List.any_eq_true]
  constructor
  · rintro ⟨group, hgroup, g, hg, hsame⟩
    exact ⟨g, hg, group, hgroup, hsame⟩
  · rintro ⟨g, hg, group, hgroup, hsame⟩
    exact ⟨group, hgroup, g, hg, hsame⟩

/-- The user's groups spare him the second factor. -/
def Spared (s : LdapSettings) (p : Profile) : Prop :=
  s.mfaGroups ≠ [] ∧ ¬ MemberOf p s.mfaGroups ∨ MemberOf p s.mfaBypassGroups

theorem isSpared_iff {p : Profile} : isSpared s p = true ↔ Spared s p := by
  unfold isSpared Spared
  rw [Bool.or_eq_true, Bool.and_eq_true, isMemberOfAny_iff, Bool.not_eq_true', Bool.not_eq_true',
    Bool.eq_false_iff, Bool.eq_false_iff, Ne, Ne, isMemberOfAny_iff, List.isEmpty_iff]

theorem isAdmitted_iff {p : Profile} :
    isAdmitted s p = true ↔ (s.requiredGroups ≠ [] → MemberOf p s.requiredGroups) := by
  unfold isAdmitted
  rw [Bool.or_eq_true, isMemberOfAny_iff, List.isEmpty_iff,
    Classical.or_iff_not_imp_left]

/-! ## 2. Parts of a dialogue -/

/-- What goes on only with a value goes on, or fails. -/
theorem trace_orFault {α : Type} {d : DirectoryTalk (Except DirectoryFault α)}
    {next : α → DirectoryTalk Report} (talk : Trace (orFault d next) es r) :
    (∃ fault, r = .bare (.error fault)) ∨
      ∃ xs a ys, es = xs ++ ys ∧ Trace d xs (.ok a) ∧ Trace (next a) ys r := by
  obtain ⟨xs, outcome, ys, hes, hfirst, hrest⟩ := trace_bind_iff.mp talk
  cases outcome with
  | ok a => exact Or.inr ⟨xs, a, ys, hes, hfirst, hrest⟩
  | error fault => exact Or.inl ⟨_, (trace_done_iff.mp hrest).2⟩

theorem trace_leave (talk : Trace (leave report) es r) : r = report := by
  obtain ⟨-, rest, -, hrest⟩ := trace_ask_iff.mp talk
  exact (trace_done_iff.mp hrest).2

theorem trace_connect {u : Unit} (talk : Trace (connect s) es (.ok u)) :
    es = [⟨.connect s.url s.timeout, true⟩] := by
  obtain ⟨up, rest, hes, hrest⟩ := trace_ask_iff.mp talk
  obtain ⟨rfl, hup⟩ := trace_done_iff.mp hrest
  cases up with
  | true => exact hes
  | false => cases hup

theorem trace_bindAs {bound : Bound} (talk : Trace (bindAs dn password) es (.ok bound)) :
    ∃ result, es = [⟨.bind dn password, some result⟩] ∧ result.settle = .ok bound := by
  obtain ⟨answer, rest, hes, hrest⟩ := trace_ask_iff.mp talk
  obtain ⟨rfl, hsettle⟩ := trace_done_iff.mp hrest
  cases answer with
  | some result => exact ⟨result, hes, hsettle.symm⟩
  | none => cases hsettle

/-- A bind is accepted with the code zero. -/
theorem eq_of_accepted {result : BindResult} (h : result.settle = .ok .accepted) :
    result = ⟨0, result.text⟩ := by
  obtain ⟨code, text⟩ := result
  unfold BindResult.settle at h
  split at h
  · rename_i hcode
    exact congrArg (BindResult.mk · text) hcode
  · split at h
    · split at h <;> cases h
    · cases h

/-- A new password is wanted with the code of bad credentials and a text that says so. -/
theorem eq_of_mustChange {result : BindResult} (h : result.settle = .ok .mustChangePassword) :
    result = ⟨invalidCredentials, result.text⟩ ∧ SaysChange result.text := by
  obtain ⟨code, text⟩ := result
  unfold BindResult.settle at h
  split at h
  · cases h
  · split at h
    · rename_i hcode
      split at h
      · rename_i hchange
        exact ⟨congrArg (BindResult.mk · text) hcode, requiresChange_iff.mp hchange⟩
      · cases h
    · cases h

theorem trace_bindService {u : Unit} (talk : Trace (bindService s) es (.ok u)) :
    ∃ dn password text, s.bindDn = some dn ∧ s.bindPassword = some password ∧
      es = [⟨.bind dn password, some ⟨0, text⟩⟩] := by
  unfold bindService at talk
  split at talk
  · rename_i dn password hdn hpassword
    obtain ⟨xs, bound, ys, rfl, hbind, hrest⟩ := trace_bind_iff.mp talk
    obtain ⟨rfl, hbound⟩ := trace_done_iff.mp hrest
    split at hbound
    · obtain ⟨result, rfl, hsettle⟩ := trace_bindAs hbind
      rw [eq_of_accepted hsettle]
      exact ⟨dn, password, result.text, hdn, hpassword, rfl⟩
    · cases hbound
    · cases hbound
  · cases (trace_done_iff.mp talk).2

theorem trace_findUser {found : Option Entry} (talk : Trace (findUser s request) es (.ok found)) :
    ∃ filter entries, Filter.parse? (userFilter s request.user) = some filter ∧
      es = [⟨.search s.baseDn filter (requestedAttributes request.client s), some entries⟩] ∧
      found = entries.head? := by
  unfold findUser at talk
  split at talk
  · cases (trace_done_iff.mp talk).2
  · rename_i filter hfilter
    obtain ⟨answer, rest, rfl, hrest⟩ := trace_ask_iff.mp talk
    obtain ⟨rfl, hfound⟩ := trace_done_iff.mp hrest
    cases answer with
    | some entries => exact ⟨filter, entries, hfilter, rfl, Except.ok.inj hfound⟩
    | none => cases hfound

/-! ## 3. The ways of a verification -/

/-- The directory was asked for the user and put this entry first. -/
def Found (s : LdapSettings) (request : Request) (es : List DirectoryExchange) (entry : Entry) :
    Prop :=
  ∃ filter more, Filter.parse? (userFilter s request.user) = some filter ∧
    ⟨.search s.baseDn filter (requestedAttributes request.client s), some (entry :: more)⟩ ∈ es

/-- The result of a bind as the user and with the passphrase of the request: under the user's
principal name, or under the name of the first entry that was found for the service account. -/
inductive BoundAs (s : LdapSettings) (request : Request) (es : List DirectoryExchange)
    (result : BindResult) : DirectoryKind → Prop where
  | principal (rest : List DirectoryExchange)
      (shape : es = ⟨.connect s.url s.timeout, true⟩ ::
        ⟨.bind (principalName request.user (domainOf s)) request.password, some result⟩ :: rest) :
      BoundAs s request es result .activeDirectory
  | entry {dn password text : String} {filter : Filter} {entry : Entry} {more : List Entry}
      (account : s.bindDn = some dn ∧ s.bindPassword = some password)
      (sought : Filter.parse? (userFilter s request.user) = some filter)
      (rest : List DirectoryExchange)
      (shape : es = ⟨.connect s.url s.timeout, true⟩ ::
        ⟨.bind dn password, some ⟨0, text⟩⟩ ::
        ⟨.search s.baseDn filter (requestedAttributes request.client s), some (entry :: more)⟩ ::
        ⟨.bind entry.dn request.password, some result⟩ :: rest) :
      BoundAs s request es result .lightweight

/-- A directory is asked only with settings, a user name and a passphrase. -/
structure Asks (s : LdapSettings) (request : Request) : Prop where
  settings : request.client.ldap = some s
  named : request.user ≠ ""
  secret : request.password ≠ ""

/-- How a verification can end. -/
inductive Way (kind : DirectoryKind) (request : Request) (es : List DirectoryExchange) :
    Report → Prop where
  | failed (fault : Fault) : Way kind request es (.bare (.error fault))
  | rejected : Way kind request es (.bare (.ok .reject))
  | mustChange {s : LdapSettings} {text domain : String} (asks : Asks s request)
      (bound : BoundAs s request es ⟨invalidCredentials, text⟩ kind) (told : SaysChange text) :
      Way kind request es (.bare (.ok (.mustChangePassword domain)))
  | unexamined {s : LdapSettings} {text : String} (asks : Asks s request)
      (bound : BoundAs s request es ⟨0, text⟩ kind) (active : kind = .activeDirectory)
      (unneeded : needsProfile request.client s = false) :
      Way kind request es (.bare (.ok .accept))
  | examined {s : LdapSettings} {text : String} {entry : Entry} (asks : Asks s request)
      (bound : BoundAs s request es ⟨0, text⟩ kind) (found : Found s request es entry) :
      Way kind request es (membership s (profileOf s entry))

theorem way_of_activeDirectory (asks : Asks s request)
    (talk : Trace (verifyActiveDirectory s request) es r) : Way .activeDirectory request es r := by
  obtain ⟨fault, rfl⟩ | ⟨xs, u, ys, rfl, hconnect, hbound⟩ := trace_orFault talk
  · exact .failed fault
  obtain rfl := trace_connect hconnect
  obtain ⟨fault, rfl⟩ | ⟨xs, bound, zs, rfl, hbind, hrest⟩ := trace_orFault hbound
  · exact .failed fault
  obtain ⟨result, rfl, hsettle⟩ := trace_bindAs hbind
  cases bound with
  | mustChangePassword =>
    obtain rfl := trace_leave hrest
    obtain ⟨hresult, hsays⟩ := eq_of_mustChange hsettle
    rw [hresult]
    exact .mustChange asks (.principal zs rfl) hsays
  | refused =>
    obtain rfl := trace_leave hrest
    exact .rejected
  | accepted =>
    rw [eq_of_accepted hsettle]
    simp only at hrest
    split at hrest
    · obtain ⟨fault, rfl⟩ | ⟨xs, found, ws, rfl, hfind, hleave⟩ := trace_orFault hrest
      · exact .failed fault
      obtain ⟨filter, entries, hfilter, rfl, rfl⟩ := trace_findUser hfind
      obtain rfl := trace_leave hleave
      cases entries with
      | nil => exact .rejected
      | cons entry more =>
        refine .examined asks (.principal _ rfl) ⟨filter, more, hfilter, ?_⟩
        exact List.mem_cons_of_mem _ (List.mem_cons_of_mem _ List.mem_cons_self)
    · rename_i hneeds
      obtain rfl := trace_leave hrest
      exact .unexamined asks (.principal _ rfl) rfl (Bool.eq_false_iff.mpr hneeds)

theorem way_of_lightweight (asks : Asks s request)
    (talk : Trace (verifyLightweight s request) es r) : Way .lightweight request es r := by
  obtain ⟨fault, rfl⟩ | ⟨xs, u, ys, rfl, hconnect, hservice⟩ := trace_orFault talk
  · exact .failed fault
  obtain rfl := trace_connect hconnect
  obtain ⟨fault, rfl⟩ | ⟨xs, u, zs, rfl, haccount, hfind⟩ := trace_orFault hservice
  · exact .failed fault
  obtain ⟨dn, password, text, hdn, hpassword, rfl⟩ := trace_bindService haccount
  obtain ⟨fault, rfl⟩ | ⟨xs, found, ws, rfl, hfound, hrest⟩ := trace_orFault hfind
  · exact .failed fault
  obtain ⟨filter, entries, hfilter, rfl, rfl⟩ := trace_findUser hfound
  cases entries with
  | nil =>
    obtain rfl := trace_leave hrest
    exact .rejected
  | cons entry more =>
    obtain ⟨fault, rfl⟩ | ⟨xs, bound, vs, rfl, hbind, hleave⟩ := trace_orFault hrest
    · exact .failed fault
    obtain ⟨result, rfl, hsettle⟩ := trace_bindAs hbind
    obtain rfl := trace_leave hleave
    cases bound with
    | mustChangePassword =>
      obtain ⟨hresult, hsays⟩ := eq_of_mustChange hsettle
      rw [hresult]
      exact .mustChange asks (.entry ⟨hdn, hpassword⟩ hfilter _ rfl) hsays
    | refused => exact .rejected
    | accepted =>
      rw [eq_of_accepted hsettle]
      refine .examined asks (.entry ⟨hdn, hpassword⟩ hfilter _ rfl) ⟨filter, more, hfilter, ?_⟩
      exact List.mem_cons_of_mem _ (List.mem_cons_of_mem _ List.mem_cons_self)

/-- **Whatever a directory answers, a verification ends in one of these ways.** -/
theorem way_of_trace (talk : Trace (verifyDirectory kind request) es r) :
    Way kind request es r := by
  unfold verifyDirectory at talk
  split at talk
  · rw [(trace_done_iff.mp talk).2]
    exact .failed _
  · rename_i s hsettings
    split at talk
    · rw [(trace_done_iff.mp talk).2]
      exact .rejected
    · rename_i hgiven
      rw [Bool.or_eq_true, not_or, String.isEmpty_iff, String.isEmpty_iff] at hgiven
      have asks : Asks s request := ⟨hsettings, hgiven.1, hgiven.2⟩
      cases kind with
      | activeDirectory => exact way_of_activeDirectory asks talk
      | lightweight => exact way_of_lightweight asks talk

/-! ## 4. The guarantee -/

/-- What holds of every verification. -/
structure Verified (kind : DirectoryKind) (request : Request) (es : List DirectoryExchange)
    (r : Report) : Prop where
  /-- Who is accepted has bound with the passphrase; where a profile is needed, his entry was found
  and he belongs to one of the required groups. -/
  accepted : r.outcome = .ok .accept → request.user ≠ "" ∧ request.password ≠ "" ∧
    ∃ s text, request.client.ldap = some s ∧ BoundAs s request es ⟨0, text⟩ kind ∧
      (kind = .lightweight ∨ needsProfile request.client s = true →
        ∃ entry, Found s request es entry ∧ r.profile = some (profileOf s entry) ∧
          (s.requiredGroups ≠ [] → MemberOf (profileOf s entry) s.requiredGroups))
  /-- A new password is only wanted where the bind of the user was refused with words for it. -/
  mustChange : ∀ domain, r.outcome = .ok (.mustChangePassword domain) →
    ∃ s text, request.client.ldap = some s ∧ BoundAs s request es ⟨49, text⟩ kind ∧
      SaysChange text
  /-- A profile is that of the entry that was found. -/
  profile : ∀ p, r.profile = some p → ∃ s entry, request.client.ldap = some s ∧
    Found s request es entry ∧ p = profileOf s entry
  /-- The second factor is spared exactly to those who are accepted with a profile whose groups
  spare it. -/
  bypass : (r.applyTo request).factors.second = .bypass ↔ r.outcome = .ok .accept ∧
    ∃ s p, request.client.ldap = some s ∧ r.profile = some p ∧ Spared s p
  /-- Otherwise the factors stay as they are. -/
  unchanged : (r.applyTo request).factors.second ≠ .bypass →
    (r.applyTo request).factors = request.factors

theorem second_applyTo_iff (awaiting : request.factors.second = .awaiting) :
    (r.applyTo request).factors.second = .bypass ↔ r.bypass = true := by
  unfold Report.applyTo
  cases hbypass : r.bypass with
  | true => exact ⟨fun _ => rfl, fun _ => rfl⟩
  | false =>
    refine ⟨fun h => ?_, fun h => absurd h Bool.false_ne_true⟩
    exact absurd (awaiting.symm.trans h) (by decide)

theorem factors_applyTo (h : (r.applyTo request).factors.second ≠ .bypass) :
    (r.applyTo request).factors = request.factors := by
  unfold Report.applyTo at h ⊢
  cases hbypass : r.bypass with
  | true =>
    rw [hbypass] at h
    exact absurd rfl h
  | false => rfl

theorem profile_membership (s : LdapSettings) (p : Profile) : (membership s p).profile = some p := by
  unfold membership
  split <;> rfl

theorem accept_membership_iff {p : Profile} :
    (membership s p).outcome = .ok .accept ↔ isAdmitted s p = true := by
  unfold membership
  split
  · rename_i hadmitted
    exact ⟨fun _ => hadmitted, fun _ => rfl⟩
  · rename_i hrefused
    refine ⟨fun h => ?_, fun h => absurd h hrefused⟩
    cases h

theorem bypass_membership_iff {p : Profile} :
    (membership s p).bypass = true ↔ isAdmitted s p = true ∧ isSpared s p = true := by
  unfold membership
  split
  · rename_i hadmitted
    exact ⟨fun h => ⟨hadmitted, h⟩, fun h => h.2⟩
  · rename_i hrefused
    exact ⟨fun h => absurd h Bool.false_ne_true, fun h => absurd h.1 hrefused⟩

/-- **No directory lets anybody pass unduly.** -/
theorem verified_of_trace (talk : Trace (verifyDirectory kind request) es r)
    (awaiting : request.factors.second = .awaiting) : Verified kind request es r := by
  refine ⟨fun h => ?_, fun domain h => ?_, fun p h => ?_, ?_, factors_applyTo⟩
  · cases way_of_trace talk with
    | failed fault => cases h
    | rejected => cases h
    | mustChange asks bound told => cases h
    | unexamined asks bound active unneeded =>
      refine ⟨asks.named, asks.secret, _, _, asks.settings, bound, ?_⟩
      rintro (light | needed)
      · rw [active] at light
        cases light
      · rw [unneeded] at needed
        cases needed
    | examined asks bound found =>
      refine ⟨asks.named, asks.secret, _, _, asks.settings, bound, fun _ => ?_⟩
      exact ⟨_, found, profile_membership _ _, isAdmitted_iff.mp (accept_membership_iff.mp h)⟩
  · cases way_of_trace talk with
    | failed fault => cases h
    | rejected => cases h
    | mustChange asks bound told => exact ⟨_, _, asks.settings, bound, told⟩
    | unexamined asks bound active unneeded => cases h
    | examined asks bound found =>
      unfold membership at h
      split at h <;> cases h
  · cases way_of_trace talk with
    | examined asks bound found =>
      rw [profile_membership] at h
      exact ⟨_, _, asks.settings, found, (Option.some.inj h).symm⟩
    | _ => cases h
  · rw [second_applyTo_iff awaiting]
    cases way_of_trace talk with
    | @examined s text entry asks bound found =>
      rw [bypass_membership_iff, accept_membership_iff, profile_membership, isSpared_iff]
      constructor
      · rintro ⟨hadmitted, hspared⟩
        exact ⟨hadmitted, s, _, asks.settings, rfl, hspared⟩
      · rintro ⟨hadmitted, s', p, hsettings, hprofile, hspared⟩
        obtain rfl := Option.some.inj (asks.settings.symm.trans hsettings)
        obtain rfl := Option.some.inj hprofile
        exact ⟨hadmitted, hspared⟩
    | _ =>
      refine ⟨fun h => absurd h Bool.false_ne_true, ?_⟩
      rintro ⟨-, s, p, -, hprofile, -⟩
      cases hprofile

/-! ## 5. A user of the sample -/

/-- The settings of the sample, where nothing depends on a user's entry. -/
def sampleClient : Client :=
  { Config.exampleDirectoryClient with
    ldap := Config.exampleDirectoryClient.ldap.map fun s =>
      { s with requiredGroups := [], loadProfile := false } }

/-- A user's request. -/
def sampleRequest (password : String) : Request :=
  { Request.make (.v4 (.ofOctets [10, 0, 0, 1]) 1812) none sampleClient
      (.new .accessRequest 7 sampleClient.secret .zero) with
    userName := some "alice"
    passphrase := some password }

/-- A directory with one user, who has to change an old password. -/
def sampleDirectory : Unit → (q : DirectoryQuestion) → q.Answer × Unit
  | _, .connect _ _ => (true, ())
  | _, .bind dn password =>
    (some (if dn = "alice@example.com" ∧ password = "new" then ⟨0, ""⟩
      else ⟨49, "80090308: data 773, v4563"⟩), ())
  | _, .search _ _ _ => (some [], ())
  | _, .unbind => ((), ())

/-- What is exchanged about the request, and the report. -/
def sampleTalk (password : String) : List DirectoryExchange × Report :=
  ((verifyDirectory .activeDirectory (sampleRequest password)).transcript sampleDirectory ()).1

/-- The new password is accepted, and the old one is to be changed. -/
theorem verified_alice :
    (sampleRequest "new").factors.second = .awaiting ∧
    Verified .activeDirectory (sampleRequest "new") (sampleTalk "new").1 (sampleTalk "new").2 ∧
    (sampleTalk "new").2.accepts = true ∧
    Verified .activeDirectory (sampleRequest "old") (sampleTalk "old").1 (sampleTalk "old").2 ∧
    (sampleTalk "old").2.outcome.toOption = some (.mustChangePassword "example.com") :=
  ⟨rfl, verified_of_trace (trace_transcript ..) rfl, by decide +kernel,
    verified_of_trace (trace_transcript ..) rfl, by decide +kernel⟩

end AccessGate.FirstFactor
