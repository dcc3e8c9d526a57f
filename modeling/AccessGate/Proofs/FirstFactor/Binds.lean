import AccessGate.FirstFactor.Standard
import AccessGate.Proofs.FirstFactor.Directory
import AccessGate.Proofs.Radius.Values

/-!
# With which passwords a directory is asked to bind

A bind without a password is answered as one of nobody, so it says nothing of the user. This file
tells all binds that a verifier sends, whatever anybody answers:

* `bindsOf`: what a dialogue with a directory sends, and `userBinds` what of it is the user's, who
  comes after the service account where there is one;
* `binds_activeDirectory`, `binds_lightweight`, `binds_enrich`: the binds of the three ways to use a
  directory;
* `binding_of_trace`: so the user's bind has the passphrase of the request, and it is empty exactly
  where a remote server has accepted a request without one and the directory is asked for the
  profile without a service account (`Exposed`);
* `exposed_without_passphrase`: which happens under a configuration that passes its checks.
-/

namespace AccessGate.FirstFactor

open Dialogue

variable {s : LdapSettings} {request : Request} {es : List DirectoryExchange} {r report : Report}
  {dn password : String}

/-! ## 1. Binds in a dialogue -/

/-- The name and the password of a bind. -/
structure Credentials where
  name : String
  password : String
  deriving DecidableEq, Repr

/-- The credentials that an exchange sends. -/
def bindOf? : DirectoryExchange → Option Credentials
  | ⟨.bind dn password, _⟩ => some ⟨dn, password⟩
  | _ => none

/-- All credentials that are sent. -/
def bindsOf (es : List DirectoryExchange) : List Credentials := es.filterMap bindOf?

@[simp] theorem bindsOf_append (xs ys : List DirectoryExchange) :
    bindsOf (xs ++ ys) = bindsOf xs ++ bindsOf ys := List.filterMap_append

/-- The credentials of the service account. -/
structure IsAccount (s : LdapSettings) (b : Credentials) : Prop where
  name : s.bindDn = some b.name
  password : s.bindPassword = some b.password

/-- What goes on only with a value goes on, or ends with the dialogue before it. -/
theorem split_orFault {α : Type} {d : DirectoryTalk (Except DirectoryFault α)}
    {next : α → DirectoryTalk Report} (talk : Trace (orFault d next) es r) :
    (∃ fault, Trace d es (.error fault)) ∨
      ∃ xs a ys, es = xs ++ ys ∧ Trace d xs (.ok a) ∧ Trace (next a) ys r := by
  obtain ⟨xs, outcome, ys, rfl, hfirst, hrest⟩ := trace_bind_iff.mp talk
  cases outcome with
  | ok a => exact Or.inr ⟨xs, a, ys, rfl, hfirst, hrest⟩
  | error fault =>
    obtain ⟨rfl, -⟩ := trace_done_iff.mp hrest
    rw [List.append_nil]
    exact Or.inl ⟨fault, hfirst⟩

theorem binds_leave (talk : Trace (leave report) es r) : bindsOf es = [] := by
  obtain ⟨-, rest, rfl, hrest⟩ := trace_ask_iff.mp talk
  rw [(trace_done_iff.mp hrest).1]
  rfl

theorem binds_connect {outcome : Except DirectoryFault Unit} (talk : Trace (connect s) es outcome) :
    bindsOf es = [] := by
  obtain ⟨up, rest, rfl, hrest⟩ := trace_ask_iff.mp talk
  rw [(trace_done_iff.mp hrest).1]
  rfl

theorem binds_bindAs {outcome : Except DirectoryFault Bound}
    (talk : Trace (bindAs dn password) es outcome) : bindsOf es = [⟨dn, password⟩] := by
  obtain ⟨answer, rest, rfl, hrest⟩ := trace_ask_iff.mp talk
  rw [(trace_done_iff.mp hrest).1]
  rfl

theorem binds_bindService {outcome : Except DirectoryFault Unit}
    (talk : Trace (bindService s) es outcome) :
    bindsOf es = [] ∨ ∃ account, IsAccount s account ∧ bindsOf es = [account] := by
  unfold bindService at talk
  split at talk
  · rename_i dn password hdn hpassword
    obtain ⟨xs, bound, ys, rfl, hbind, hrest⟩ := trace_bind_iff.mp talk
    rw [(trace_done_iff.mp hrest).1, List.append_nil]
    exact Or.inr ⟨⟨dn, password⟩, ⟨hdn, hpassword⟩, binds_bindAs hbind⟩
  · rw [(trace_done_iff.mp talk).1]
    exact Or.inl rfl

theorem binds_findUser {outcome : Except DirectoryFault (Option Entry)}
    (talk : Trace (findUser s request) es outcome) : bindsOf es = [] := by
  unfold findUser at talk
  split at talk
  · rw [(trace_done_iff.mp talk).1]
    rfl
  · obtain ⟨answer, rest, rfl, hrest⟩ := trace_ask_iff.mp talk
    rw [(trace_done_iff.mp hrest).1]
    rfl

theorem binds_loadProfile (talk : Trace (loadProfile s request) es r) : bindsOf es = [] := by
  obtain ⟨fault, hfind⟩ | ⟨xs, found, ys, rfl, hfind, hleave⟩ := split_orFault talk
  · exact binds_findUser hfind
  · rw [bindsOf_append, binds_findUser hfind, binds_leave hleave]
    rfl

/-! ## 2. The three ways to use a directory -/

/-- The user under the principal name and with the passphrase of the request. -/
def asPrincipal (s : LdapSettings) (request : Request) : Credentials :=
  ⟨principalName request.user (domainOf s), request.password⟩

/-- A bind as the user, after which nobody binds, is the only one. -/
theorem binds_asPrincipal {next : Bound → DirectoryTalk Report}
    (talk : Trace (orFault (bindAs (principalName request.user (domainOf s)) request.password) next)
      es r)
    (silent : ∀ bound ys, Trace (next bound) ys r → bindsOf ys = []) :
    bindsOf es = [asPrincipal s request] := by
  obtain ⟨fault, hbind⟩ | ⟨xs, bound, ys, rfl, hbind, hrest⟩ := split_orFault talk
  · exact binds_bindAs hbind
  · rw [bindsOf_append, binds_bindAs hbind, silent bound ys hrest]
    rfl

theorem binds_activeDirectory (talk : Trace (verifyActiveDirectory s request) es r) :
    bindsOf es <+: [asPrincipal s request] := by
  obtain ⟨fault, hconnect⟩ | ⟨xs, u, ys, rfl, hconnect, hbound⟩ := split_orFault talk
  · rw [binds_connect hconnect]
    exact List.nil_prefix
  · rw [bindsOf_append, binds_connect hconnect, binds_asPrincipal hbound]
    · exact List.prefix_rfl
    · intro bound zs hrest
      cases bound with
      | mustChangePassword => exact binds_leave hrest
      | refused => exact binds_leave hrest
      | accepted =>
        simp only at hrest
        split at hrest
        · exact binds_loadProfile hrest
        · exact binds_leave hrest

theorem binds_lightweight (talk : Trace (verifyLightweight s request) es r) :
    bindsOf es = [] ∨
      ∃ account dn, IsAccount s account ∧ bindsOf es <+: [account, ⟨dn, request.password⟩] := by
  obtain ⟨fault, hconnect⟩ | ⟨xs, u, ys, rfl, hconnect, hservice⟩ := split_orFault talk
  · exact Or.inl (binds_connect hconnect)
  rw [bindsOf_append, binds_connect hconnect, List.nil_append]
  obtain ⟨fault, haccount⟩ | ⟨xs, u, zs, rfl, haccount, hfind⟩ := split_orFault hservice
  · refine (binds_bindService haccount).imp_right fun ⟨account, his, hbinds⟩ => ?_
    exact ⟨account, "", his, hbinds ▸ ⟨[_], rfl⟩⟩
  obtain ⟨dn, password, text, hdn, hpassword, rfl⟩ := trace_bindService haccount
  have his : IsAccount s ⟨dn, password⟩ := ⟨hdn, hpassword⟩
  refine Or.inr ⟨⟨dn, password⟩, ?_⟩
  rw [bindsOf_append]
  obtain ⟨fault, hfound⟩ | ⟨xs, found, ws, rfl, hfound, hrest⟩ := split_orFault hfind
  · rw [binds_findUser hfound]
    exact ⟨"", his, ⟨[_], rfl⟩⟩
  rw [bindsOf_append, binds_findUser hfound, List.nil_append]
  cases found with
  | none =>
    rw [binds_leave hrest]
    exact ⟨"", his, ⟨[_], rfl⟩⟩
  | some entry =>
    obtain ⟨fault, hbind⟩ | ⟨xs, bound, vs, rfl, hbind, hleave⟩ := split_orFault hrest
    · rw [binds_bindAs hbind]
      exact ⟨entry.dn, his, List.prefix_rfl⟩
    · rw [bindsOf_append, binds_bindAs hbind, binds_leave hleave]
      exact ⟨entry.dn, his, List.prefix_rfl⟩

/-- The directory could be reached. -/
def Connects : DirectoryExchange → Prop
  | ⟨.connect _ _, up⟩ => up = true
  | _ => False

/-- Without a service account the profile is loaded as the user, once the directory is reached. -/
theorem binds_enrich_asPrincipal (settings : request.client.ldap = some s) (free : s.bindDn = none)
    (talk : Trace (enrich request) es r) :
    (bindsOf es = [] ∧ ∀ e ∈ es, ¬ Connects e) ∨
      (bindsOf es = [asPrincipal s request] ∧ ∃ e ∈ es, Connects e) := by
  unfold enrich at talk
  rw [settings] at talk
  simp only [free] at talk
  obtain ⟨fault, hconnect⟩ | ⟨xs, u, ys, rfl, hconnect, hbound⟩ := split_orFault talk
  · refine Or.inl ⟨binds_connect hconnect, ?_⟩
    obtain ⟨up, rest, rfl, hrest⟩ := trace_ask_iff.mp hconnect
    obtain ⟨rfl, hup⟩ := trace_done_iff.mp hrest
    intro e he
    obtain rfl := List.mem_singleton.mp he
    cases up with
    | true => cases hup
    | false => exact Bool.false_ne_true
  · refine Or.inr ⟨?_, ?_⟩
    · rw [bindsOf_append, binds_connect hconnect, binds_asPrincipal hbound]
      · rfl
      · intro bound zs hrest
        split at hrest
        · exact binds_loadProfile hrest
        · exact binds_leave hrest
    · rw [trace_connect hconnect]
      exact ⟨_, List.mem_cons_self, rfl⟩

/-- With a service account nobody else binds. -/
theorem binds_enrich_account (settings : request.client.ldap = some s)
    (has : s.bindDn.isSome = true) (talk : Trace (enrich request) es r) :
    bindsOf es = [] ∨ ∃ account, IsAccount s account ∧ bindsOf es = [account] := by
  unfold enrich at talk
  rw [settings] at talk
  simp only [has] at talk
  obtain ⟨fault, hconnect⟩ | ⟨xs, u, ys, rfl, hconnect, hservice⟩ := split_orFault talk
  · exact Or.inl (binds_connect hconnect)
  rw [bindsOf_append, binds_connect hconnect, List.nil_append]
  obtain ⟨fault, haccount⟩ | ⟨xs, u, zs, rfl, haccount, hload⟩ := split_orFault hservice
  · exact binds_bindService haccount
  · rw [bindsOf_append, binds_loadProfile hload, List.append_nil]
    exact binds_bindService haccount

/-! ## 3. Binds of a verifier -/

/-- What was exchanged by a verifier. -/
abbrev VerifierExchange := Exchange VerifierQuestion VerifierQuestion.Answer

/-- What a verifier exchanged with a directory. -/
def directoryPart (es : List VerifierExchange) : List DirectoryExchange :=
  es.filterMap fun
    | ⟨.directory q, answer⟩ => some ⟨q, answer⟩
    | _ => none

theorem directoryPart_map (replies : List DirectoryExchange) :
    directoryPart (replies.map fun e => ⟨.directory e.1, e.2⟩) = replies := by
  induction replies with
  | nil => rfl
  | cons e rest ih => exact congrArg (e :: ·) ih

theorem trace_withDirectory {α : Type} {d : DirectoryTalk α} {es : List VerifierExchange} {a : α}
    (talk : Trace (withDirectory d) es a) : Trace d (directoryPart es) a := by
  obtain ⟨replies, rfl, htrace⟩ := trace_via talk
  rw [directoryPart_map]
  simpa using htrace

/-- Before the user's bind comes one of the service account. -/
def usesAccount (c : Client) : Bool :=
  match c.source, c.ldap with
  | .adLds, _ => true
  | .remoteServer, some s => s.bindDn.isSome
  | _, _ => false

/-- What is sent to a directory as the service account. -/
def accountBinds (c : Client) (es : List VerifierExchange) : List Credentials :=
  if usesAccount c then (bindsOf (directoryPart es)).take 1 else []

/-- What is sent to a directory as the user. -/
def userBinds (c : Client) (es : List VerifierExchange) : List Credentials :=
  if usesAccount c then (bindsOf (directoryPart es)).drop 1 else bindsOf (directoryPart es)

/-- A remote server accepted. -/
def Accepts : VerifierExchange → Prop
  | ⟨.relay _ _, .ok reply⟩ => reply.code = .accessAccept
  | _ => False

/-- A remote server accepted a request without a passphrase, and the directory that is to tell the
profile is there but has no service account. -/
structure Exposed (request : Request) (es : List VerifierExchange) : Prop where
  source : request.client.source = .remoteServer
  empty : request.password = ""
  settings : ∃ s, request.client.ldap = some s ∧ s.bindDn = none
  accepted : ∃ e ∈ es, Accepts e
  connected : ∃ e ∈ directoryPart es, Connects e

/-- What holds of the binds of every verification. -/
structure Binding (request : Request) (es : List VerifierExchange) : Prop where
  /-- The service account binds as it is configured. -/
  account : ∀ b ∈ accountBinds request.client es,
    ∃ s, request.client.ldap = some s ∧ IsAccount s b
  /-- The user binds once at most, and with the passphrase. -/
  user : userBinds request.client es = [] ∨
    ∃ dn, userBinds request.client es = [⟨dn, request.password⟩]
  /-- The passphrase may be empty in one case. -/
  empty : (∃ b ∈ userBinds request.client es, b.password = "") ↔ Exposed request es

section Verifying

variable {es : List VerifierExchange} {v : Verifier}

/-- Nothing is sent. -/
theorem binding_of_nil (nil : bindsOf (directoryPart es) = []) (hidden : ¬ Exposed request es) :
    Binding request es where
  account := by simp [accountBinds, nil]
  user := Or.inl (by simp [userBinds, nil])
  empty := by simp [userBinds, nil, hidden]

/-- Nothing but the service account is sent. -/
theorem binding_of_account {account : Credentials} (settings : request.client.ldap = some s)
    (his : IsAccount s account) (uses : usesAccount request.client = true)
    (only : bindsOf (directoryPart es) = [account]) (hidden : ¬ Exposed request es) :
    Binding request es where
  account := by
    intro b hb
    obtain rfl : b = account := by simpa [accountBinds, uses, only] using hb
    exact ⟨s, settings, his⟩
  user := Or.inl (by simp [userBinds, uses, only])
  empty := by simp [userBinds, uses, only, hidden]

/-- Nothing but the user is sent. -/
theorem binding_of_user (free : usesAccount request.client = false)
    (only : bindsOf (directoryPart es) = [⟨dn, request.password⟩])
    (empty : request.password = "" ↔ Exposed request es) : Binding request es where
  account := by simp [accountBinds, free]
  user := Or.inr ⟨dn, by simp [userBinds, free, only]⟩
  empty := by
    rw [← empty]
    simp [userBinds, free, only]

/-- The user is sent behind the service account. -/
theorem binding_of_both {account : Credentials} (settings : request.client.ldap = some s)
    (his : IsAccount s account) (uses : usesAccount request.client = true)
    (both : bindsOf (directoryPart es) = [account, ⟨dn, request.password⟩])
    (empty : request.password = "" ↔ Exposed request es) : Binding request es where
  account := by
    intro b hb
    obtain rfl : b = account := by simpa [accountBinds, uses, both] using hb
    exact ⟨s, settings, his⟩
  user := Or.inr ⟨dn, by simp [userBinds, uses, both]⟩
  empty := by
    rw [← empty]
    simp [userBinds, uses, both]

theorem prefix_singleton_cases {b : Credentials} {bs : List Credentials} (h : bs <+: [b]) :
    bs = [] ∨ bs = [b] := by
  rcases List.prefix_cons_iff.mp h with hnil | ⟨rest, rfl, hrest⟩
  · exact Or.inl hnil
  · rw [List.prefix_nil.mp hrest]
    exact Or.inr rfl

/-- A directory that verifies is not asked without a passphrase. -/
theorem binding_of_directory {kind : DirectoryKind}
    (registered : usesAccount request.client = decide (kind = .lightweight))
    (source : request.client.source ≠ .remoteServer)
    (talk : Trace (withDirectory (verifyDirectory kind request)) es r) : Binding request es := by
  have hidden : ¬ Exposed request es := fun exposed => source exposed.source
  have htalk := trace_withDirectory talk
  unfold verifyDirectory at htalk
  split at htalk
  · refine binding_of_nil ?_ hidden
    rw [(trace_done_iff.mp htalk).1]
    rfl
  rename_i s hsettings
  split at htalk
  · refine binding_of_nil ?_ hidden
    rw [(trace_done_iff.mp htalk).1]
    rfl
  rename_i hgiven
  rw [Bool.or_eq_true, not_or, String.isEmpty_iff, String.isEmpty_iff] at hgiven
  have hempty : request.password = "" ↔ Exposed request es :=
    ⟨fun h => absurd h hgiven.2, fun exposed => absurd exposed hidden⟩
  cases kind with
  | activeDirectory =>
    rcases prefix_singleton_cases (binds_activeDirectory htalk) with hnil | hsent
    · exact binding_of_nil hnil hidden
    · exact binding_of_user registered hsent hempty
  | lightweight =>
    rcases binds_lightweight htalk with hnil | ⟨account, dn, his, hsent⟩
    · exact binding_of_nil hnil hidden
    rcases List.prefix_cons_iff.mp hsent with hnil | ⟨rest, hrest, hsent⟩
    · exact binding_of_nil hnil hidden
    rcases prefix_singleton_cases hsent with rfl | rfl
    · exact binding_of_account hsettings his registered hrest hidden
    · exact binding_of_both hsettings his registered hrest hempty

/-- What is exchanged once a remote server has accepted. -/
theorem binding_of_enrich (before : List VerifierExchange) {outcome : Report}
    (source : request.client.source = .remoteServer)
    (silent : directoryPart before = []) (accepted : ∃ e ∈ before, Accepts e)
    (talk : Trace (withDirectory (enrich request)) es outcome) :
    Binding request (before ++ es) := by
  have htalk := trace_withDirectory talk
  have hpart : directoryPart (before ++ es) = directoryPart es := by
    unfold directoryPart at silent ⊢
    rw [List.filterMap_append, silent, List.nil_append]
  cases hsettings : request.client.ldap with
  | none =>
    refine binding_of_nil ?_ fun exposed => ?_
    · unfold enrich at htalk
      rw [hsettings] at htalk
      rw [hpart, (trace_done_iff.mp htalk).1]
      rfl
    · obtain ⟨s, hs, -⟩ := exposed.settings
      rw [hsettings] at hs
      cases hs
  | some s =>
    have huses : usesAccount request.client = s.bindDn.isSome := by
      simp [usesAccount, source, hsettings]
    cases hdn : s.bindDn with
    | some dn =>
      have hidden : ¬ Exposed request (before ++ es) := by
        intro exposed
        obtain ⟨s', hs', hfree⟩ := exposed.settings
        obtain rfl := Option.some.inj (hsettings.symm.trans hs')
        rw [hdn] at hfree
        cases hfree
      rw [hdn] at huses
      rcases binds_enrich_account hsettings (by rw [hdn]; rfl) htalk with
        hnil | ⟨account, his, honly⟩
      · exact binding_of_nil (by rw [hpart, hnil]) hidden
      · exact binding_of_account hsettings his huses (by rw [hpart, honly]) hidden
    | none =>
      rw [hdn] at huses
      rcases binds_enrich_asPrincipal hsettings hdn htalk with ⟨hnil, hoff⟩ | ⟨honly, hup⟩
      · refine binding_of_nil (by rw [hpart, hnil]) fun exposed => ?_
        obtain ⟨e, he, hconnects⟩ := exposed.connected
        exact hoff e (hpart ▸ he) hconnects
      · refine binding_of_user huses (hpart ▸ honly) ⟨fun h => ?_, (·.empty)⟩
        obtain ⟨e, he, haccepts⟩ := accepted
        exact ⟨source, h, ⟨s, hsettings, hdn⟩, ⟨e, List.mem_append_left _ he, haccepts⟩,
          hpart ▸ hup⟩

/-- Until a remote server has accepted nothing is sent. -/
theorem binding_of_refused (silent : directoryPart es = []) : Binding request es := by
  refine binding_of_nil (by rw [silent]; rfl) fun exposed => ?_
  obtain ⟨e, he, -⟩ := exposed.connected
  rw [silent] at he
  exact absurd he List.not_mem_nil

theorem binding_of_remote (source : request.client.source = .remoteServer)
    (talk : Trace (verifyRemote request) es r) : Binding request es := by
  unfold verifyRemote at talk
  split at talk
  · rw [(trace_done_iff.mp talk).1]
    exact binding_of_refused rfl
  obtain ⟨drawn, rest, rfl, hdrawn⟩ := trace_ask_iff.mp talk
  obtain ⟨answer, rest, rfl, hanswer⟩ := trace_ask_iff.mp hdrawn
  cases answer with
  | error fault =>
    rw [(trace_done_iff.mp hanswer).1]
    exact binding_of_refused rfl
  | ok reply =>
    simp only [afterReply] at hanswer
    split at hanswer
    · rename_i haccept
      obtain ⟨xs, outcome, ys, rfl, henrich, hdone⟩ := trace_bind_iff.mp hanswer
      obtain ⟨rfl, -⟩ := trace_done_iff.mp hdone
      rw [List.append_nil]
      exact binding_of_enrich [_, _] source rfl
        ⟨_, List.mem_cons_of_mem _ List.mem_cons_self, haccept⟩ henrich
    · rw [(trace_done_iff.mp hanswer).1]
      exact binding_of_refused rfl

/-- **The user's bind has the passphrase of the request, which is empty in one case.** -/
theorem binding_of_trace (found : Verifiers.standard.find request.client.source = .ok v)
    (talk : Trace (v.verify request) es r) : Binding request es := by
  cases hsource : request.client.source with
  | activeDirectory =>
    rw [hsource] at found
    obtain rfl : Verifier.directory .activeDirectory = v := Except.ok.inj found
    exact binding_of_directory (by simp [usesAccount, hsource]) (by simp [hsource]) talk
  | adLds =>
    rw [hsource] at found
    obtain rfl : Verifier.directory .lightweight = v := Except.ok.inj found
    exact binding_of_directory (by simp [usesAccount, hsource]) (by simp [hsource]) talk
  | remoteServer =>
    rw [hsource] at found
    obtain rfl : Verifier.remote = v := Except.ok.inj found
    exact binding_of_remote hsource talk
  | unchecked =>
    rw [hsource] at found
    obtain rfl : Verifier.unchecked = v := Except.ok.inj found
    rw [(trace_done_iff.mp talk).1]
    exact binding_of_refused rfl

end Verifying

/-- A remote server that accepts every request, and a directory that accepts every bind but has
nobody. -/
def obliging : Unit → (q : VerifierQuestion) → q.Answer × Unit
  | _, .authenticator => (.zero, ())
  | _, .relay request _ => (.ok (request.reply .accessAccept), ())
  | _, .directory (.connect _ _) => (true, ())
  | _, .directory (.bind _ _) => (some ⟨0, ""⟩, ())
  | _, .directory (.search _ _ _) => (some [], ())
  | _, .directory .unbind => ((), ())

/-- What is exchanged about a user's request, where a directory verifies. -/
def obligingTalk (password : String) : List VerifierExchange × Report :=
  ((Verifier.directory .activeDirectory).verify (sampleRequest password)).transcript obliging ()
    |>.1

/-- The directory of the sample is asked to bind with the passphrase, and not at all without one. -/
theorem binding_alice :
    Verifiers.standard.find sampleClient.source = .ok (.directory .activeDirectory) ∧
    Binding (sampleRequest "new") (obligingTalk "new").1 ∧
    userBinds sampleClient (obligingTalk "new").1 = [⟨"alice@example.com", "new"⟩] ∧
    Binding (sampleRequest "") (obligingTalk "").1 ∧
    userBinds sampleClient (obligingTalk "").1 = [] :=
  ⟨rfl, binding_of_trace (v := .directory .activeDirectory) rfl (trace_transcript ..),
    by decide +kernel,
    binding_of_trace (v := .directory .activeDirectory) rfl (trace_transcript ..),
    by decide +kernel⟩

/-! ## 4. The bind of nobody -/

/-- **Whoever comes without a passphrase is bound for as nobody, if those who are asked oblige.** -/
theorem exists_exposed {remote : RemoteSettings} (source : request.client.source = .remoteServer)
    (sends : request.client.remote = some remote) (settings : request.client.ldap = some s)
    (free : s.bindDn = none) (empty : request.password = "") :
    ∃ es r, Trace (verifyRemote request) es r ∧ Exposed request es ∧
      ⟨.bind (principalName request.user (domainOf s)) request.password, some ⟨0, ""⟩⟩ ∈
        directoryPart es := by
  obtain ⟨rest, outcome, hload⟩ : ∃ rest outcome,
      Trace (withDirectory (loadProfile s request)) rest outcome :=
    ⟨_, _, trace_transcript obliging () _⟩
  let asNobody : List VerifierExchange := [⟨.directory (.connect s.url s.timeout), true⟩,
    ⟨.directory (.bind (principalName request.user (domainOf s)) request.password), some ⟨0, ""⟩⟩]
  have henrich : Trace (withDirectory (enrich request)) (asNobody ++ rest) outcome := by
    unfold enrich
    rw [settings]
    simp only [free]
    exact trace_ask_iff.mpr ⟨true, _, rfl, trace_ask_iff.mpr ⟨some ⟨0, ""⟩, rest, rfl, hload⟩⟩
  let relayed := Remote.outbound request.packet (.ofString remote.sharedSecret)
    remote.nasIdentifier .zero
  let reply := relayed.reply .accessAccept
  have htalk : Trace (verifyRemote request) (⟨.authenticator, Block.zero⟩ ::
      ⟨.relay relayed remote.address, .ok reply⟩ :: (asNobody ++ rest ++ []))
      { outcome with remoteReply := some reply } := by
    unfold verifyRemote
    rw [sends]
    refine trace_ask_iff.mpr ⟨Block.zero, _, rfl, trace_ask_iff.mpr ⟨.ok reply, _, rfl, ?_⟩⟩
    exact henrich.bind (.done { outcome with remoteReply := some reply })
  refine ⟨_, _, htalk, ⟨source, empty, ⟨s, settings, free⟩, ?_, ?_⟩, ?_⟩
  · exact ⟨_, List.mem_cons_of_mem _ List.mem_cons_self, rfl⟩
  · exact ⟨_, List.mem_cons_self, rfl⟩
  · exact List.mem_cons_of_mem _ List.mem_cons_self

/-- The client of the sample with a remote server, and with a directory for the profiles. -/
def profiledClient : Client :=
  { Config.exampleRemoteClient with ldap := Config.exampleDirectoryClient.ldap }

/-- What a user sends who answers a challenge of the device, and so sends no password. -/
def chapAttributes : List (Radius.Name × Radius.Value) :=
  [(Radius.Name.userName, .text "alice"), ("CHAP-Password", .octets (Bytes.zeros 17))]

/-- The request with them. -/
def chapRequest : Request :=
  .make (.v4 (.ofOctets [10, 0, 0, 1]) 1812) none profiledClient
    { Radius.Packet.new .accessRequest 7 profiledClient.secret .zero with
      attributes := .ofList chapAttributes }

theorem password_chapRequest : chapRequest.password = "" := by
  have hother : ∀ a ∈ chapAttributes, Radius.Name.same a.1 Radius.Name.userPassword = false := by
    intro a ha
    rw [Bool.eq_false_iff, Ne, Radius.Name.same_iff_letters]
    revert a
    decide +kernel
  have hnone : (Radius.Attributes.ofList chapAttributes).getAll Radius.Name.userPassword = [] := by
    rw [Radius.Attributes.getAll_ofList]
    exact Radius.Attributes.valuesOf_of_ne hother
  have hpassword : chapRequest.passphrase = none := by
    show (Radius.Attributes.ofList chapAttributes).text? Radius.Name.userPassword = none
    unfold Radius.Attributes.text? Radius.Attributes.get?
    rw [hnone]
    rfl
  unfold Request.password
  rw [hpassword]
  rfl

/-- A configuration that passes its checks lets a directory be asked to bind without a password. -/
theorem exposed_without_passphrase :
    { Config.sample with clients := [profiledClient] }.check = .ok () ∧
    Verifiers.standard.find chapRequest.client.source = .ok .remote ∧
    ∃ es r, Trace (Verifier.remote.verify chapRequest) es r ∧
      ∃ b ∈ userBinds profiledClient es, b.password = "" := by
  refine ⟨rfl, rfl, ?_⟩
  obtain ⟨es, r, talk, exposed, -⟩ := exists_exposed
    (show chapRequest.client.source = .remoteServer from rfl) rfl rfl rfl password_chapRequest
  exact ⟨es, r, talk, (binding_of_remote rfl talk).empty.mpr exposed⟩

end AccessGate.FirstFactor
