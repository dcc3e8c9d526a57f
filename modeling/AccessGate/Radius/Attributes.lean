import AccessGate.Radius.Value

/-!
# Attribute lists

A packet's attributes are groups in order: a name, under its first spelling, with its values. Names
are compared without regard to ASCII case. No name stands there twice, and none without a value: both
are part of the type, so every operation shows that it keeps them.

* `add` puts a value behind those of its name, a new name behind all others;
* `set` replaces the values of a name in place, `remove` takes the whole group out;
* `toList` is the order on the wire: group by group, value by value.
-/

namespace AccessGate.Radius

/-- The name of an attribute. -/
abbrev Name := String

namespace Name

/-- Who asks. -/
def userName : Name := "User-Name"

/-- The hidden password. -/
def userPassword : Name := "User-Password"

/-- Words for the user. -/
def replyMessage : Name := "Reply-Message"

/-- The token of an exchange. -/
def state : Name := "State"

/-- The station that is called. -/
def calledStationId : Name := "Called-Station-Id"

/-- The station that calls. -/
def callingStationId : Name := "Calling-Station-Id"

/-- The name of the device. -/
def nasIdentifier : Name := "NAS-Identifier"

/-- A mark that a relay puts on a packet. -/
def proxyState : Name := "Proxy-State"

/-- A piece of an EAP exchange. -/
def eapMessage : Name := "EAP-Message"

/-- The keyed digest of the packet. -/
def messageAuthenticator : Name := "Message-Authenticator"

/-- Two spellings of one name. -/
def same (a b : Name) : Bool := Text.sameIgnoringCase a b

end Name

/-- The values of one name. -/
structure Group where
  name : Name
  values : List Value
  deriving DecidableEq

/-- Groups of values in the order of their first insertion. -/
@[ext]
structure Attributes where
  groups : List Group
  /-- No name stands there twice. -/
  distinct : (groups.map (·.name)).Pairwise fun a b => Name.same a b = false
  /-- No name stands there without a value. -/
  filled : ∀ g ∈ groups, g.values ≠ []
  deriving DecidableEq

namespace Attributes

/-! ## 1. Changing one group -/

/-- Changes the first group of the name, or puts a new one at the end. -/
def upsert (name : Name) (change : List Value → List Value) : List Group → List Group
  | [] => [⟨name, change []⟩]
  | g :: rest =>
    if Name.same g.name name then ⟨g.name, change g.values⟩ :: rest
    else g :: upsert name change rest

/-- A name that is there keeps the names as they are; a new one comes last. -/
theorem names_upsert (name : Name) (change : List Value → List Value) (gs : List Group) :
    (upsert name change gs).map (·.name) =
      if gs.any fun g => Name.same g.name name then gs.map (·.name)
      else gs.map (·.name) ++ [name] := by
  induction gs with
  | nil => rfl
  | cons g rest ih =>
    unfold upsert
    split
    · rename_i h
      simp [h]
    · rename_i h
      rw [List.map_cons, ih, List.any_cons, Bool.eq_false_iff.mpr h, Bool.false_or]
      split <;> rfl

theorem distinct_upsert (name : Name) (change : List Value → List Value) {gs : List Group}
    (h : (gs.map (·.name)).Pairwise fun a b => Name.same a b = false) :
    ((upsert name change gs).map (·.name)).Pairwise fun a b => Name.same a b = false := by
  rw [names_upsert]
  split
  · exact h
  · rename_i hnew
    refine List.pairwise_append.mpr ⟨h, List.pairwise_singleton _ _, fun a ha b hb => ?_⟩
    obtain ⟨g, hg, rfl⟩ := List.mem_map.mp ha
    obtain rfl := List.mem_singleton.mp hb
    have hall := List.any_eq_false.mp (Bool.eq_false_iff.mpr hnew)
    exact Bool.eq_false_iff.mpr (hall g hg)

theorem filled_upsert (name : Name) {change : List Value → List Value} {gs : List Group}
    (hchange : ∀ vs, change vs ≠ []) (h : ∀ g ∈ gs, g.values ≠ []) :
    ∀ g ∈ upsert name change gs, g.values ≠ [] := by
  induction gs with
  | nil =>
    intro g hg
    obtain rfl := List.mem_singleton.mp hg
    exact hchange []
  | cons g₀ rest ih =>
    intro g hg
    unfold upsert at hg
    split at hg
    · rcases List.mem_cons.mp hg with rfl | hg
      · exact hchange g₀.values
      · exact h g (List.mem_cons_of_mem _ hg)
    · rcases List.mem_cons.mp hg with rfl | hg
      · exact h g List.mem_cons_self
      · exact ih (fun g hg => h g (List.mem_cons_of_mem _ hg)) g hg

/-! ## 2. Operations -/

/-- No attributes. -/
def empty : Attributes := ⟨[], .nil, fun _ h => nomatch h⟩

instance : Inhabited Attributes := ⟨empty⟩

/-- One more value under the name. -/
def add (as : Attributes) (name : Name) (value : Value) : Attributes where
  groups := upsert name (· ++ [value]) as.groups
  distinct := distinct_upsert name _ as.distinct
  filled := filled_upsert name (fun vs => by simp) as.filled

/-- The value alone under the name. -/
def set (as : Attributes) (name : Name) (value : Value) : Attributes where
  groups := upsert name (fun _ => [value]) as.groups
  distinct := distinct_upsert name _ as.distinct
  filled := filled_upsert name (fun _ => by simp) as.filled

/-- The group of the name. -/
def find? (as : Attributes) (name : Name) : Option Group :=
  as.groups.find? fun g => Name.same g.name name

/-- Everything but the group of the name. -/
def remove (as : Attributes) (name : Name) : Attributes where
  groups := as.groups.eraseP fun g => Name.same g.name name
  distinct := as.distinct.sublist (List.Sublist.map _ List.eraseP_sublist)
  filled := fun g hg => as.filled g (List.mem_of_mem_eraseP hg)

/-- The values under the name, in order. -/
def getAll (as : Attributes) (name : Name) : List Value :=
  match as.find? name with
  | some g => g.values
  | none => []

/-- The first value under the name. -/
def get? (as : Attributes) (name : Name) : Option Value := (as.getAll name).head?

/-- There is a group of the name. -/
def contains (as : Attributes) (name : Name) : Bool := (as.find? name).isSome

/-- The first value under the name, if it is a text. -/
def text? (as : Attributes) (name : Name) : Option String := (as.get? name).bind Value.text?

/-- Every value with its name, in order. -/
def toList (as : Attributes) : List (Name × Value) :=
  as.groups.flatMap fun g => g.values.map fun v => (g.name, v)

/-- The names in order. -/
def names (as : Attributes) : List Name := as.groups.map (·.name)

/-- The number of values, added up group by group. -/
def size (as : Attributes) : Nat := as.groups.foldl (fun n g => n + g.values.length) 0

/-- **Every value in order counts.** -/
theorem size_eq_length (as : Attributes) : as.size = as.toList.length := by
  have hgroups (gs : List Group) (n : Nat) : gs.foldl (fun n g => n + g.values.length) n =
      n + (gs.flatMap fun g => g.values.map fun v => (g.name, v)).length := by
    induction gs generalizing n with
    | nil => rfl
    | cons g gs ih =>
      rw [List.foldl_cons, ih, List.flatMap_cons, List.length_append, List.length_map,
        Nat.add_assoc]
  exact (hgroups as.groups 0).trans (Nat.zero_add _)

/-- There is no group. -/
def isEmpty (as : Attributes) : Bool := as.groups.isEmpty

/-- The values added one after the other. -/
def addAll (as : Attributes) (pairs : List (Name × Value)) : Attributes :=
  pairs.foldl (fun as p => as.add p.1 p.2) as

/-- The attributes of a list of pairs. -/
def ofList (pairs : List (Name × Value)) : Attributes := empty.addAll pairs

end Attributes

end AccessGate.Radius
