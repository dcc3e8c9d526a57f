import Mathlib.Data.List.Induction
import Mathlib.Data.List.Perm.Subperm
import AccessGate.Proofs.Config.Usable
import AccessGate.Proofs.Lists
import AccessGate.Proofs.Net.Addresses

/-!
# Whose a datagram is

The registry keeps two tables with opposite rules for what comes twice. What is found in them is
told here by the list of clients alone:

* `Registers`: what the tables hold, kept up client by client (`Registers.entered`);
* `ofList_cases`: so the registry of a list is made, unless some client's address is none, and then
  the first such client is named;
* `Resolves`: the last client with the name of the device, or else the first in whose network it is,
  and `resolve?_eq_some_iff`: that client is found;
* `resolution`: all of it together.
-/

namespace AccessGate

/-! ## 1. Clients -/

namespace Client

variable {c : Client} {name text : String} {address : IpAddress}

/-- The text that should be the client's address is neither a network nor an address. -/
structure Unaddressed (c : Client) (text : String) : Prop where
  given : c.address = some text
  noNetwork : Network.parse? text = none
  noAddress : IpAddress.parse? text = none

/-- The device goes by this name, whatever the case of its letters. -/
def Named (name : String) (c : Client) : Prop :=
  ∃ own, c.nasIdentifier = some own ∧ Text.lower own = Text.lower name

/-- The address is in the client's network. -/
def Within (address : IpAddress) (c : Client) : Prop :=
  ∃ text net, c.address = some text ∧ Network.parse? text = some net ∧ net.Holds address

/-- The network of the client, if there is one. -/
def networkOf? (c : Client) : Option Network := c.address.bind Network.parse?

theorem network_cases (c : Client) :
    (c.network = .ok c.networkOf? ∧ ∀ text, ¬ c.Unaddressed text) ∨
      ∃ text, c.Unaddressed text ∧ c.network = .error (.clientAddress c.name text) := by
  unfold network networkOf?
  cases haddress : c.address with
  | none =>
    refine Or.inl ⟨rfl, fun text h => ?_⟩
    rw [h.given] at haddress
    cases haddress
  | some text =>
    cases hnetwork : Network.parse? text with
    | some net =>
      refine Or.inl ⟨by simp [hnetwork], fun text' h => ?_⟩
      obtain rfl := Option.some.inj (haddress.symm.trans h.given)
      rw [h.noNetwork] at hnetwork
      cases hnetwork
    | none =>
      refine Or.inr ⟨text, ⟨haddress, hnetwork, ?_⟩, by simp [hnetwork]⟩
      -- a text of an address would be one of a network
      cases hread : IpAddress.parse? text with
      | none => rfl
      | some a =>
        rw [Network.parse?_of_address hread] at hnetwork
        cases hnetwork

/-- The table of names is asked for this. -/
def goesBy (name : String) (c : Client) : Bool :=
  c.nasIdentifier.any fun own => Text.lower own == Text.lower name

theorem goesBy_iff : c.goesBy name = true ↔ c.Named name := by
  unfold goesBy Named
  simp [Option.any_eq_true]

/-- The table of networks is asked for this. -/
def holds (address : IpAddress) (c : Client) : Bool :=
  c.networkOf?.any fun net => net.contains address

theorem holds_iff : c.holds address = true ↔ c.Within address := by
  unfold holds networkOf? Within
  simp only [Option.any_eq_true, Option.bind_eq_some_iff, Network.contains_iff]
  constructor
  · intro ⟨net, ⟨text, hgiven, hparse⟩, hholds⟩
    exact ⟨text, net, hgiven, hparse, hholds⟩
  · intro ⟨text, net, hgiven, hparse, hholds⟩
    exact ⟨net, ⟨text, hgiven, hparse⟩, hholds⟩

end Client

namespace Registry

variable {r : Registry} {c : Client} {clients : List Client}

/-! ## 2. One more client -/

/-- The registry with one more client, whose address is right. -/
def entered (r : Registry) (c : Client) : Registry where
  byNas := match c.nasIdentifier with
    | none => r.byNas
    | some nas => r.byNas.filter (fun e => e.1 ≠ Text.lower nas) ++ [(Text.lower nas, c)]
  byNetwork := r.byNetwork ++ (c.networkOf?.map fun net => (net, c)).toList

theorem insert_ok (ok : c.network = .ok c.networkOf?) : r.insert c = .ok (r.entered c) := by
  unfold insert entered
  rw [ok]
  cases c.nasIdentifier <;> cases c.networkOf? <;> simp [Bind.bind, Except.bind, pure, Except.pure]

theorem insert_error {fault : ConfigFault} (h : c.network = .error fault) :
    r.insert c = .error fault := by
  unfold insert
  rw [h]
  rfl

/-- A later client takes the name over. -/
theorem findByNas?_entered (r : Registry) (c : Client) (name : String) :
    (r.entered c).findByNas? name = if c.goesBy name then some c else r.findByNas? name := by
  unfold findByNas? entered Client.goesBy
  cases hown : c.nasIdentifier with
  | none => rfl
  | some own =>
    simp only [Option.any_some, beq_iff_eq]
    by_cases hsame : Text.lower own = Text.lower name
    · have hold : (r.byNas.filter fun e => e.1 ≠ Text.lower own).find?
          (fun e => e.1 == Text.lower name) = none := by
        rw [List.find?_eq_none]
        intro e he
        rw [← hsame]
        simpa using (List.mem_filter.mp he).2
      rw [List.find?_append, hold, if_pos hsame]
      simp [hsame]
    · have hold : (r.byNas.filter fun e => e.1 ≠ Text.lower own).find?
          (fun e => e.1 == Text.lower name) = r.byNas.find? fun e => e.1 == Text.lower name := by
        rw [List.find?_filter]
        refine congrArg (List.find? · r.byNas) (funext fun e => ?_)
        by_cases he : e.1 = Text.lower name
        · simp [he, Ne.symm hsame]
        · simp [he]
      rw [List.find?_append, hold, if_neg hsame]
      simp [hsame]

/-- What the tables of the registry of a list hold. -/
structure Registers (clients : List Client) (r : Registry) : Prop where
  addressed : ∀ c ∈ clients, ∀ text, ¬ c.Unaddressed text
  byNas : ∀ name, r.findByNas? name = clients.reverse.find? (Client.goesBy name)
  byNetwork : r.byNetwork = clients.filterMap fun c => c.networkOf?.map fun net => (net, c)
  members : ∀ x ∈ r.clients, x ∈ clients

theorem registers_empty : Registers [] empty where
  addressed _ h := absurd h List.not_mem_nil
  byNas _ := rfl
  byNetwork := rfl
  members _ h := absurd h List.not_mem_nil

theorem Registers.entered (h : Registers clients r) (ok : c.network = .ok c.networkOf?)
    (addressed : ∀ text, ¬ c.Unaddressed text) : Registers (clients ++ [c]) (r.entered c) where
  addressed := by
    intro x hx
    rcases List.mem_append.mp hx with hx | hx
    · exact h.addressed x hx
    · rw [List.mem_singleton.mp hx]
      exact addressed
  byNas := by
    intro name
    rw [findByNas?_entered, h.byNas, List.reverse_append, List.reverse_singleton,
      List.singleton_append, List.find?_cons]
    split
    · rename_i hname
      rw [hname]
    · rename_i hname
      rw [Bool.eq_false_iff.mpr hname]
  byNetwork := by
    show r.byNetwork ++ (c.networkOf?.map fun net => (net, c)).toList = _
    rw [h.byNetwork, List.filterMap_append, List.filterMap_cons, List.filterMap_nil]
    cases c.networkOf? <;> rfl
  members := by
    obtain ⟨r', hinsert, hmembers⟩ := exists_insert r ⟨_, ok⟩
    obtain rfl := Except.ok.inj ((insert_ok ok).symm.trans hinsert)
    intro x hx
    rcases hmembers x hx with rfl | hx
    · exact List.mem_append_right _ List.mem_cons_self
    · exact List.mem_append_left _ (h.members x hx)

/-! ## 3. All clients -/

theorem ofList_snoc (clients : List Client) (c : Client) :
    ofList (clients ++ [c]) = ofList clients >>= fun r => r.insert c := by
  unfold ofList
  rw [List.foldlM_append]
  simp only [List.foldlM_cons, List.foldlM_nil, bind_pure]

/-- **The registry of a list is made, or the first client without an address is named.** -/
theorem ofList_cases (clients : List Client) :
    (∃ r, ofList clients = .ok r ∧ Registers clients r) ∨
      ∃ c text, IsFirst (fun c => ∃ text, c.Unaddressed text) clients c ∧ c.Unaddressed text ∧
        ofList clients = .error (.clientAddress c.name text) := by
  induction clients using List.reverseRecOn with
  | nil => exact Or.inl ⟨empty, rfl, registers_empty⟩
  | append_singleton clients c ih =>
    rw [ofList_snoc]
    rcases ih with ⟨r, hr, h⟩ | ⟨d, text, first, unaddressed, herror⟩
    · rw [hr]
      rcases c.network_cases with ⟨ok, addressed⟩ | ⟨text, unaddressed, herror⟩
      · exact Or.inl ⟨r.entered c, insert_ok ok, h.entered ok addressed⟩
      · refine Or.inr ⟨c, text, ⟨clients, [], rfl, ⟨text, unaddressed⟩, ?_⟩, unaddressed,
          insert_error herror⟩
        intro b hb ⟨text, hb'⟩
        exact h.addressed b hb text hb'
    · rw [herror]
      exact Or.inr ⟨d, text, first.concat c, unaddressed, rfl⟩

/-! ## 4. Who is found -/

/-- Whose a datagram is: that of the last client with the name that it carries, else that of the
first client whose network holds the address that it comes from. -/
inductive Resolves (clients : List Client) (nas : Option String) (address : IpAddress) :
    Client → Prop where
  | byName {name : String} {c : Client} (given : nas = some name)
      (last : IsLast (Client.Named name) clients c) : Resolves clients nas address c
  | byNetwork {c : Client} (nameless : ∀ name, nas = some name → ∀ d ∈ clients, ¬ d.Named name)
      (first : IsFirst (Client.Within address) clients c) : Resolves clients nas address c

theorem findByAddress?_of_registers (h : Registers clients r) (address : IpAddress) :
    r.findByAddress? address = clients.find? (Client.holds address) := by
  have hany : (fun c : Client => Option.any (fun e => e.1.contains address)
      (c.networkOf?.map fun net => (net, c))) = Client.holds address := by
    funext c
    unfold Client.holds
    cases c.networkOf? <;> rfl
  unfold findByAddress?
  rw [h.byNetwork, List.find?_filterMap, hany]
  cases hfind : clients.find? (Client.holds address) with
  | none => rfl
  | some c =>
    obtain ⟨text, net, hgiven, hparse, -⟩ := Client.holds_iff.mp (List.find?_some hfind)
    have hnet : c.networkOf? = some net := by
      unfold Client.networkOf?
      rw [hgiven]
      exact hparse
    simp [hnet]

theorem findByNas?_eq_some_iff (h : Registers clients r) {name : String} :
    r.findByNas? name = some c ↔ IsLast (Client.Named name) clients c := by
  rw [h.byNas]
  exact find?_reverse_eq_some_iff_last fun _ => Client.goesBy_iff

theorem findByNas?_eq_none_iff (h : Registers clients r) {name : String} :
    r.findByNas? name = none ↔ ∀ c ∈ clients, ¬ c.Named name := by
  rw [h.byNas, find?_eq_none_iff_none fun _ => Client.goesBy_iff]
  simp only [List.mem_reverse]

theorem findByAddress?_eq_some_iff (h : Registers clients r) {address : IpAddress} :
    r.findByAddress? address = some c ↔ IsFirst (Client.Within address) clients c := by
  rw [findByAddress?_of_registers h]
  exact find?_eq_some_iff_first fun _ => Client.holds_iff

theorem findByAddress?_eq_none_iff (h : Registers clients r) {address : IpAddress} :
    r.findByAddress? address = none ↔ ∀ c ∈ clients, ¬ c.Within address := by
  rw [findByAddress?_of_registers h]
  exact find?_eq_none_iff_none fun _ => Client.holds_iff

/-- **A name goes before an address.** -/
theorem resolve?_eq_some_iff (h : Registers clients r) {nas : Option String} {address : IpAddress} :
    r.resolve? nas address = some c ↔ Resolves clients nas address c := by
  cases nas with
  | none =>
    refine (findByAddress?_eq_some_iff h).trans ⟨.byNetwork nofun, fun resolves => ?_⟩
    cases resolves with
    | byName given last => cases given
    | byNetwork nameless first => exact first
  | some name =>
    cases hname : r.findByNas? name with
    | some d =>
      have hresolve : r.resolve? (some name) address = some d := by
        simp [resolve?, hname]
      have hlast := (findByNas?_eq_some_iff h).mp hname
      rw [hresolve]
      constructor
      · intro hd
        rw [← Option.some.inj hd]
        exact .byName rfl hlast
      · intro resolves
        cases resolves with
        | byName given last =>
          obtain rfl := Option.some.inj given
          rw [← hname, (findByNas?_eq_some_iff h).mpr last]
        | byNetwork nameless first =>
          obtain ⟨before, after, rfl, hd, -⟩ := hlast
          exact absurd hd (nameless name rfl d (by simp))
    | none =>
      have hresolve : r.resolve? (some name) address = r.findByAddress? address := by
        simp [resolve?, hname]
      have hnameless := (findByNas?_eq_none_iff h).mp hname
      rw [hresolve, findByAddress?_eq_some_iff h]
      constructor
      · intro first
        refine .byNetwork (fun name' given => ?_) first
        rw [← Option.some.inj given]
        exact hnameless
      · intro resolves
        cases resolves with
        | byName given last =>
          obtain rfl := Option.some.inj given
          obtain ⟨before, after, rfl, hc, -⟩ := last
          exact absurd hc (hnameless c (by simp))
        | byNetwork nameless first => exact first

theorem resolve?_eq_none_iff (h : Registers clients r) {nas : Option String} {address : IpAddress} :
    r.resolve? nas address = none ↔
      (∀ name, nas = some name → ∀ c ∈ clients, ¬ c.Named name) ∧
        ∀ c ∈ clients, ¬ c.Within address := by
  unfold resolve?
  rw [Option.orElse_eq_orElse, Option.orElse_eq_or, Option.or_eq_none_iff,
    findByAddress?_eq_none_iff h, Option.bind_eq_none_iff]
  refine and_congr_left fun _ => forall₂_congr fun name _ => ?_
  exact findByNas?_eq_none_iff h

/-- Every name is counted once, and is that of a client. -/
theorem size_le (h : Registers clients r) : r.size ≤ clients.length := by
  have hnames : (r.byNas.map fun e => e.2.name) ++ (r.byNetwork.map fun e => e.2.name) =
      r.clients.map Client.name := by
    simp [Registry.clients, Function.comp_def]
  have hcount : (clients.map Client.name).length = clients.length := List.length_map _
  unfold size
  rw [hnames, ← hcount]
  refine (List.Nodup.subperm (nodup_eraseDups _) fun name hname => ?_).length_le
  rw [List.mem_eraseDups] at hname
  exact List.map_subset _ h.members hname

theorem size_eq_zero_iff (r : Registry) : r.size = 0 ↔ r.isEmpty = true := by
  unfold size isEmpty
  rw [List.length_eq_zero_iff, Bool.and_eq_true, List.isEmpty_iff, List.isEmpty_iff]
  constructor
  · intro h
    have hnone : ∀ name, name ∉ (r.byNas.map fun e => e.2.name) ++
        r.byNetwork.map fun e => e.2.name := by
      intro name hname
      rw [← List.mem_eraseDups, h] at hname
      exact absurd hname List.not_mem_nil
    have hnil := List.eq_nil_iff_forall_not_mem.mpr hnone
    simpa using hnil
  · intro ⟨hnas, hnetwork⟩
    rw [hnas, hnetwork]
    rfl

/-! ## 5. The whole -/

/-- What holds of the registry of a list. -/
structure Follows (clients : List Client) (r : Registry) : Prop where
  addressed : ∀ c ∈ clients, ∀ text, ¬ c.Unaddressed text
  found : ∀ nas address c, r.resolve? nas address = some c ↔ Resolves clients nas address c
  /-- Nobody is found where nobody has the name and nobody's network holds the address. -/
  none : ∀ nas address, r.resolve? nas address = none ↔
    (∀ name, nas = some name → ∀ c ∈ clients, ¬ c.Named name) ∧ ∀ c ∈ clients, ¬ c.Within address
  size_le : r.size ≤ clients.length
  size_zero : r.size = 0 ↔ r.isEmpty = true

/-- **The registry of a list is that of its clients**: it cannot be made exactly if a client has no
address, and the first such client is named; otherwise whom it finds is told by the list. -/
theorem resolution (clients : List Client) :
    (∀ fault, ofList clients = .error fault ↔ ∃ c text,
      IsFirst (fun c => ∃ text, c.Unaddressed text) clients c ∧ c.Unaddressed text ∧
        fault = .clientAddress c.name text) ∧
    ∀ r, ofList clients = .ok r → Follows clients r := by
  rcases ofList_cases clients with ⟨r, hr, h⟩ | ⟨c, text, first, unaddressed, herror⟩
  · refine ⟨fun fault => ⟨fun herror => ?_, ?_⟩, fun r' hr' => ?_⟩
    · rw [hr] at herror
      cases herror
    · intro h
      obtain ⟨c, text, ⟨before, after, rfl, -, -⟩, unaddressed, -⟩ := h
      exact absurd unaddressed (h.addressed c (by simp) text)
    · obtain rfl := Except.ok.inj (hr.symm.trans hr')
      exact ⟨h.addressed, fun _ _ _ => resolve?_eq_some_iff h, fun _ _ => resolve?_eq_none_iff h,
        size_le h, size_eq_zero_iff r⟩
  · refine ⟨fun fault => ⟨fun hfault => ?_, ?_⟩, fun r hr => ?_⟩
    · obtain rfl := Except.error.inj (herror.symm.trans hfault)
      exact ⟨c, text, first, unaddressed, rfl⟩
    · intro h
      obtain ⟨d, text', first', unaddressed', rfl⟩ := h
      obtain rfl := first.unique first'
      obtain rfl := Option.some.inj (unaddressed.given.symm.trans unaddressed'.given)
      exact herror
    · rw [herror] at hr
      cases hr

/-- Two controllers with one name in two cases, and the network of the second inside that of the
first. -/
def controllers : List Client :=
  [{ Config.exampleRemoteClient with
      name := "Campus", address := some "10.1.2.3/8", nasIdentifier := some "WLC-01" },
    { Config.exampleRemoteClient with
      name := "Library", address := some "10.1.0.0/16", nasIdentifier := some "wlc-01" }]

/-- The later controller has the name, and the earlier one the network. -/
theorem resolution_controllers : ∃ r, ofList controllers = .ok r ∧ Follows controllers r ∧
    r.resolve? (some "Wlc-01") (.v4 (.ofOctets [10, 1, 0, 7])) = controllers[1]? ∧
    r.resolve? (some "WLC-02") (.v4 (.ofOctets [10, 1, 0, 7])) = controllers[0]? ∧
    r.resolve? none (.v4 (.ofOctets [11, 1, 0, 7])) = none ∧ r.size = 2 :=
  ⟨_, rfl, (resolution controllers).2 _ rfl, rfl, rfl, rfl, rfl⟩

end Registry

end AccessGate
