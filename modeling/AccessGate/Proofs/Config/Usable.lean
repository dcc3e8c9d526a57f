import AccessGate.Config.Registry
import AccessGate.FirstFactor.Standard
import AccessGate.Proofs.Checks
import AccessGate.Proofs.Traces
import AccessGate.Store.Sessions

/-!
# A checked configuration can be put to use

A configuration is checked once, and other parts of the gateway take for granted what was checked:
the listener an address, the registry a network of every client, and each verifier the sections that
it reads.

* `Client.check_ok_iff`, `Config.check_ok_iff`: what exactly is checked;
* `Registry.exists_ofList`: then the registry can be made, and leads to nobody but the clients;
* `Client.Configured.served`: a client with the sections that its source needs has a verifier that
  never misses one, whatever is answered;
* `Config.usable_of_check`: all of it together.
-/

namespace AccessGate

/-! ## 1. What is checked -/

namespace Client

variable {c : Client}

/-- A client that makes sense. -/
structure Sensible (c : Client) : Prop where
  named : c.name ≠ ""
  secret : c.sharedSecret ≠ ""
  reachable : c.address ≠ none ∨ c.nasIdentifier ≠ none
  network : ∃ net, c.network = .ok net
  source : c.checkSource = .ok ()
  rules : ∀ rule ∈ c.replyRules, c.checkRule rule = .ok ()

theorem check_ok_iff : c.check = .ok () ↔ c.Sensible := by
  unfold check
  simp only [guard_ok_iff, bind_ok_iff, forM_ok_iff, String.isEmpty_iff, Bool.and_eq_true,
    Option.isNone_iff_eq_none, Classical.not_and_iff_not_or_not]
  constructor
  · rintro ⟨named, secret, reachable, net, network, _, source, rules⟩
    exact ⟨named, secret, reachable, ⟨net, network⟩, source, rules⟩
  · rintro ⟨named, secret, reachable, ⟨net, network⟩, source, rules⟩
    exact ⟨named, secret, reachable, net, network, (), source, rules⟩

/-- The sections that the client's first factor reads are there. -/
structure Configured (c : Client) : Prop where
  directory : c.source = .activeDirectory ∨ c.source = .adLds → ∃ s, c.ldap = some s
  remote : c.source = .remoteServer → ∃ s, c.remote = some s

theorem configured_of_checkSource (h : c.checkSource = .ok ()) : c.Configured := by
  unfold checkSource at h
  constructor
  · rintro (hsource | hsource)
    · cases hldap : c.ldap <;> simp_all
    · cases hldap : c.ldap <;> simp_all
  · intro hsource
    cases hremote : c.remote <;> simp_all

end Client

namespace Config

variable {c : Config}

/-- Clients in order are each sensible, and no name comes twice or is among those before. -/
theorem checkClients_ok_iff {names : List String} {clients : List Client} :
    checkClients names clients = .ok () ↔ (∀ client ∈ clients, client.Sensible) ∧
      (∀ client ∈ clients, Text.lower client.name ∉ names) ∧
        clients.Pairwise fun a b => Text.lower a.name ≠ Text.lower b.name := by
  induction clients generalizing names with
  | nil => simp [checkClients]
  | cons client rest ih =>
    have hnames (other : Client) : Text.lower other.name ∉ Text.lower client.name :: names ↔
        Text.lower other.name ≠ Text.lower client.name ∧ Text.lower other.name ∉ names := by
      rw [List.mem_cons, not_or]
    unfold checkClients
    simp only [check_then_ok_iff, guard_ok_iff, ih, Client.check_ok_iff, List.contains_iff_mem,
      List.forall_mem_cons, List.pairwise_cons, hnames]
    constructor
    · rintro ⟨sensible, new, all, news, distinct⟩
      exact ⟨⟨sensible, all⟩, ⟨new, fun other hother => (news other hother).2⟩,
        fun other hother => Ne.symm (news other hother).1, distinct⟩
    · rintro ⟨⟨sensible, all⟩, ⟨new, news⟩, different, distinct⟩
      exact ⟨sensible, new, all,
        fun other hother => ⟨Ne.symm (different other hother), news other hother⟩, distinct⟩

/-- A configuration that makes sense. -/
structure Sensible (c : Config) : Prop where
  listens : ∃ e, c.endpoint = .ok e
  service : c.apiUrl ≠ "" ∧
    ("http://".toList <+: c.apiUrl.toList ∨ "https://".toList <+: c.apiUrl.toList)
  delays : ∃ range, c.delay = .ok range
  waits : c.proxyTimeout ≠ 0
  clients : ∀ client ∈ c.clients, client.Sensible
  distinct : c.clients.Pairwise fun a b => Text.lower a.name ≠ Text.lower b.name

theorem check_ok_iff : c.check = .ok () ↔ c.Sensible := by
  unfold check
  simp only [bind_ok_iff, guard_ok_iff, checkClients_ok_iff, String.isEmpty_iff,
    Bool.not_eq_true', Bool.not_eq_false, Bool.or_eq_true, List.isPrefixOf_iff_prefix]
  constructor
  · rintro ⟨e, listens, named, service, range, delays, waits, clients, -, distinct⟩
    exact ⟨⟨e, listens⟩, ⟨named, service⟩, ⟨range, delays⟩, waits, clients, distinct⟩
  · rintro ⟨⟨e, listens⟩, ⟨named, service⟩, ⟨range, delays⟩, waits, clients, distinct⟩
    exact ⟨e, listens, named, service, range, delays, waits, clients,
      fun _ _ => List.not_mem_nil, distinct⟩

end Config

/-- A range of delays has its bounds in order. -/
theorem DelayRange.min_le_of_parse {text : String} {range : DelayRange}
    (h : parse text = .ok range) : range.min ≤ range.max := by
  unfold parse at h
  simp only at h
  split at h
  · split at h
    · rename_i hle
      rw [← Except.ok.inj h]
      exact hle
    · cases h
  · cases h

/-! ## 2. The registry -/

namespace Registry

variable {r : Registry} {c : Client}

/-- The clients that can be found. -/
def clients (r : Registry) : List Client := r.byNas.map (·.2) ++ r.byNetwork.map (·.2)

/-- Whoever stands in a list of entries is new or stood there before. -/
theorem eq_or_mem_of_entered {κ : Type} {kept old new : List (κ × Client)} (sub : kept ⊆ old)
    (own : ∀ e ∈ new, e.2 = c) {x : Client} (mem : x ∈ (kept ++ new).map (·.2)) :
    x = c ∨ x ∈ old.map (·.2) := by
  obtain ⟨e, he, rfl⟩ := List.mem_map.mp mem
  rcases List.mem_append.mp he with he | he
  · exact Or.inr (List.mem_map_of_mem (sub he))
  · exact Or.inl (own e he)

/-- A client whose network is right can be registered. -/
theorem exists_insert (r : Registry) (network : ∃ net, c.network = .ok net) :
    ∃ r', r.insert c = .ok r' ∧ ∀ x ∈ r'.clients, x = c ∨ x ∈ r.clients := by
  obtain ⟨net, hnet⟩ := network
  obtain ⟨byNas, hnas, hinsert⟩ : ∃ byNas : List (String × Client),
      (∀ x ∈ byNas.map (·.2), x = c ∨ x ∈ r.byNas.map (·.2)) ∧
      r.insert c = .ok ⟨byNas, r.byNetwork ++ net.toList.map fun n => (n, c)⟩ := by
    unfold insert
    rw [hnet]
    cases c.nasIdentifier with
    | none =>
      refine ⟨r.byNas, fun x => Or.inr, ?_⟩
      cases net with
      | none => rw [Option.toList_none, List.map_nil, List.append_nil]; rfl
      | some net => rfl
    | some nas =>
      have hown : ∀ e ∈ [(Text.lower nas, c)], e.2 = c := by simp
      refine ⟨r.byNas.filter (fun e => e.1 ≠ Text.lower nas) ++ [(Text.lower nas, c)],
        fun x => eq_or_mem_of_entered List.filter_sublist.subset hown, ?_⟩
      cases net with
      | none => rw [Option.toList_none, List.map_nil, List.append_nil]; rfl
      | some net => rfl
  refine ⟨_, hinsert, fun x hx => ?_⟩
  rcases List.mem_append.mp hx with hx | hx
  · exact (hnas x hx).imp_right (List.mem_append_left _)
  · have hown : ∀ e ∈ net.toList.map (fun n => (n, c)), e.2 = c := by simp
    have hmem := eq_or_mem_of_entered (List.Subset.refl r.byNetwork) hown hx
    exact hmem.imp_right (List.mem_append_right _)

/-- **The registry of clients whose networks are right can be made**, and holds no others. -/
theorem exists_ofList {clients : List Client}
    (networks : ∀ c ∈ clients, ∃ net, c.network = .ok net) :
    ∃ r, ofList clients = .ok r ∧ ∀ x ∈ r.clients, x ∈ clients := by
  have hfold (r : Registry) : ∃ r', clients.foldlM insert r = .ok r' ∧
      ∀ x ∈ r'.clients, x ∈ clients ∨ x ∈ r.clients := by
    induction clients generalizing r with
    | nil => exact ⟨r, rfl, fun x hx => Or.inr hx⟩
    | cons c rest ih =>
      obtain ⟨r₁, hr₁, hmem₁⟩ := exists_insert r (networks c List.mem_cons_self)
      obtain ⟨r₂, hr₂, hmem₂⟩ := ih (fun c hc => networks c (List.mem_cons_of_mem _ hc)) r₁
      refine ⟨r₂, ?_, fun x hx => ?_⟩
      · rw [List.foldlM_cons, hr₁]
        exact hr₂
      · rcases hmem₂ x hx with hx | hx
        · exact Or.inl (List.mem_cons_of_mem _ hx)
        · rcases hmem₁ x hx with rfl | hx
          · exact Or.inl List.mem_cons_self
          · exact Or.inr hx
  obtain ⟨r, hr, hmem⟩ := hfold empty
  exact ⟨r, hr, fun x hx => (hmem x hx).resolve_right List.not_mem_nil⟩

/-- Whoever is found is registered. -/
theorem mem_of_resolve? {nas : Option String} {address : IpAddress}
    (h : r.resolve? nas address = some c) : c ∈ r.clients := by
  have hnas (name : String) (h : r.findByNas? name = some c) : c ∈ r.clients := by
    obtain ⟨e, he, rfl⟩ := Option.map_eq_some_iff.mp h
    exact List.mem_append_left _ (List.mem_map_of_mem (List.mem_of_find?_eq_some he))
  have haddress (h : r.findByAddress? address = some c) : c ∈ r.clients := by
    obtain ⟨e, he, rfl⟩ := Option.map_eq_some_iff.mp h
    exact List.mem_append_right _ (List.mem_map_of_mem (List.mem_of_find?_eq_some he))
  unfold resolve? at h
  cases nas with
  | none => exact haddress h
  | some name =>
    cases hfind : r.findByNas? name with
    | none => exact haddress (by simpa [hfind] using h)
    | some _ => exact hnas name (by simpa [hfind] using h)

end Registry

open FirstFactor

/-! ## 3. Verifiers that miss nothing -/

namespace FirstFactor

open Dialogue (Ends ends_done ends_ask ends_bind)

variable {request : Request} {s : LdapSettings} {report : Report}

/-- The report is no complaint about the configuration. -/
def Report.MissesNothing (r : Report) : Prop :=
  (∀ client, r.outcome ≠ .error (.missingConfiguration client)) ∧
    ∀ source, r.outcome ≠ .error (.noVerifier source)

theorem missesNothing_ok (outcome : Outcome) : (Report.bare (.ok outcome)).MissesNothing :=
  ⟨nofun, nofun⟩

theorem missesNothing_directory (cause : DirectoryFault) :
    (Report.bare (.error (.directory cause))).MissesNothing := ⟨nofun, nofun⟩

theorem missesNothing_remote (cause : RemoteFault) :
    (Report.bare (.error (.remote cause))).MissesNothing := ⟨nofun, nofun⟩

theorem missesNothing_membership (s : LdapSettings) (p : Profile) :
    (membership s p).MissesNothing := by
  unfold membership
  split <;> exact ⟨nofun, nofun⟩

/-- A fault of a directory is none of the configuration. -/
theorem ends_orFault {α : Type} {d : DirectoryTalk (Except DirectoryFault α)}
    {next : α → DirectoryTalk Report} (h : ∀ a, Ends Report.MissesNothing (next a)) :
    Ends Report.MissesNothing (orFault d next) := by
  refine ends_bind.mpr fun es outcome _ => ?_
  cases outcome with
  | ok a => exact h a
  | error cause => exact ends_done.mpr (missesNothing_directory cause)

theorem ends_leave (h : report.MissesNothing) : Ends Report.MissesNothing (leave report) := by
  simp [leave, h]

theorem ends_loadProfile (s : LdapSettings) (request : Request) :
    Ends Report.MissesNothing (loadProfile s request) := by
  refine ends_orFault fun found => ends_leave ?_
  cases found with
  | none => exact missesNothing_ok .reject
  | some entry => exact missesNothing_membership s _

theorem ends_activeDirectory (s : LdapSettings) (request : Request) :
    Ends Report.MissesNothing (verifyActiveDirectory s request) := by
  refine ends_orFault fun _ => ends_orFault fun bound => ?_
  cases bound with
  | mustChangePassword => exact ends_leave (missesNothing_ok _)
  | refused => exact ends_leave (missesNothing_ok _)
  | accepted =>
    simp only
    split
    · exact ends_loadProfile s request
    · exact ends_leave (missesNothing_ok _)

theorem ends_lightweight (s : LdapSettings) (request : Request) :
    Ends Report.MissesNothing (verifyLightweight s request) := by
  refine ends_orFault fun _ => ends_orFault fun _ => ends_orFault fun found => ?_
  cases found with
  | none => exact ends_leave (missesNothing_ok _)
  | some entry =>
    refine ends_orFault fun bound => ends_leave ?_
    cases bound with
    | accepted => exact missesNothing_membership s _
    | mustChangePassword => exact missesNothing_ok _
    | refused => exact missesNothing_ok _

theorem ends_verifyDirectory (kind : DirectoryKind) (settings : request.client.ldap = some s) :
    Ends Report.MissesNothing (verifyDirectory kind request) := by
  unfold verifyDirectory
  rw [settings]
  simp only
  split
  · exact ends_done.mpr (missesNothing_ok _)
  · cases kind with
    | activeDirectory => exact ends_activeDirectory s request
    | lightweight => exact ends_lightweight s request

/-- A directory that only adds a profile may be absent. -/
theorem ends_enrich (request : Request) : Ends Report.MissesNothing (enrich request) := by
  unfold enrich
  split
  · exact ends_done.mpr (missesNothing_ok _)
  · rename_i s _
    refine ends_orFault fun _ => ?_
    split
    · exact ends_orFault fun _ => ends_loadProfile s request
    · refine ends_orFault fun bound => ?_
      split
      · exact ends_loadProfile s request
      · exact ends_leave (missesNothing_ok _)

theorem ends_verifyRemote {remote : RemoteSettings} (settings : request.client.remote = some remote) :
    Ends Report.MissesNothing (verifyRemote request) := by
  unfold verifyRemote
  rw [settings]
  refine ends_ask.mpr fun drawn => ends_ask.mpr fun answer => ?_
  cases answer with
  | error fault => exact ends_done.mpr (missesNothing_remote fault)
  | ok reply =>
    show Ends Report.MissesNothing (afterReply request reply)
    unfold afterReply
    split
    · refine ends_bind.mpr ((ends_enrich request).via.mono fun r hr => ?_)
      exact ends_done.mpr hr
    · exact ends_done.mpr ⟨nofun, nofun⟩

end FirstFactor

namespace Client

open Dialogue (Ends ends_done)

/-- Somebody verifies the client's requests, and is never without configuration for it. -/
def Served (c : Client) : Prop :=
  ∃ verifier, Verifiers.standard.find c.source = .ok verifier ∧
    ∀ request : Request, request.client = c → Ends Report.MissesNothing (verifier.verify request)

/-- **A client with the sections that its source needs is served.** -/
theorem Configured.served {c : Client} (h : c.Configured) : c.Served := by
  unfold Served
  cases hsource : c.source with
  | unchecked => exact ⟨.unchecked, rfl, fun request _ => ends_done.mpr (missesNothing_ok _)⟩
  | activeDirectory =>
    obtain ⟨s, hs⟩ := h.directory (Or.inl hsource)
    refine ⟨.directory .activeDirectory, rfl, fun request hclient => ?_⟩
    exact (ends_verifyDirectory .activeDirectory (hclient ▸ hs)).via
  | adLds =>
    obtain ⟨s, hs⟩ := h.directory (Or.inr hsource)
    refine ⟨.directory .lightweight, rfl, fun request hclient => ?_⟩
    exact (ends_verifyDirectory .lightweight (hclient ▸ hs)).via
  | remoteServer =>
    obtain ⟨s, hs⟩ := h.remote hsource
    exact ⟨.remote, rfl, fun request hclient => ends_verifyRemote (hclient ▸ hs)⟩

end Client

/-! ## 4. The whole -/

namespace Config

/-- What a gateway needs of its configuration. -/
structure Usable (c : Config) : Prop where
  listens : ∃ e, c.endpoint = .ok e
  delays : ∃ range, c.delay = .ok range ∧ range.min ≤ range.max
  /-- No two clients share a name. -/
  distinct : c.clients.Pairwise fun a b => Text.lower a.name ≠ Text.lower b.name
  /-- So no two clients share a session. -/
  apart : c.clients.Pairwise fun a b => ∀ station user station' user',
    Sessions.key a.name station user ≠ Sessions.key b.name station' user'
  reachable : ∀ client ∈ c.clients, client.address ≠ none ∨ client.nasIdentifier ≠ none
  /-- The registry can be made, and whoever is found in it is a client who is served. -/
  served : ∃ registry, Registry.ofList c.clients = .ok registry ∧
    ∀ nas address client, registry.resolve? nas address = some client →
      client ∈ c.clients ∧ client.Served

/-- **A configuration that passes its checks can be put to use.** -/
theorem usable_of_check {c : Config} (h : c.check = .ok ()) : c.Usable := by
  have sensible := check_ok_iff.mp h
  obtain ⟨range, hrange⟩ := sensible.delays
  obtain ⟨registry, hregistry, hmem⟩ :=
    Registry.exists_ofList fun client hclient => (sensible.clients client hclient).network
  refine ⟨sensible.listens, ⟨range, hrange, DelayRange.min_le_of_parse hrange⟩, sensible.distinct,
    ?_, fun client hclient => (sensible.clients client hclient).reachable,
    registry, hregistry, fun nas address client hfound => ?_⟩
  · refine sensible.distinct.imp fun hne station user station' user' hkey => hne ?_
    rw [(SessionKey.mk.inj hkey).1]
  · have hclient := hmem client (Registry.mem_of_resolve? hfound)
    exact ⟨hclient, (Client.configured_of_checkSource (sensible.clients client hclient).source).served⟩

/-- The sample has a client of a directory and one of a remote server, and both are found. -/
theorem usable_sample : sample.check = .ok () ∧ sample.Usable ∧
    ∃ registry, Registry.ofList sample.clients = .ok registry ∧
      registry.resolve? none (.v4 (.ofOctets [10, 0, 0, 1])) = some exampleDirectoryClient ∧
      registry.resolve? (some "WLC-01") (.v4 (.ofOctets [10, 0, 0, 1])) =
        some exampleRemoteClient := by
  have hcheck : sample.check = .ok () := by rfl
  exact ⟨hcheck, usable_of_check hcheck, _, rfl, rfl, rfl⟩

end Config

end AccessGate
