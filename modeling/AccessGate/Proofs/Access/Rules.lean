import AccessGate.Access.ReplyRules
import AccessGate.Proofs.Radius.Values

/-!
# What the rules of a client add

Rules are taken in order, and one that is sufficient ends the matter for those after it. What they
add is told here rule by rule, each by the rules before it (`Told`), without a record of what has been
settled:

* `yields_iff`: which texts a rule yields, by its condition;
* `adds_unique`: a rule adds one list of values, and it is settled or not by the rules before it;
* `exists_parts`: the rules of a client add such lists one after the other, each unless a sufficient
  rule before it has its spelling (`Spelled`);
* `apply_appends`: where rules spell an attribute alike, a reply gets the values of the rules that
  match and are not settled behind those it has, and keeps what it has.
-/

namespace AccessGate.ReplyRule

open Radius

section

variable {d : Dictionary} {request : Request} {r : ReplyRule} {texts texts' : List String}
  {e e' : Entry} {before rules : List ReplyRule} {part part' : List (Name × Value)}
  {parts parts' : List (List (Name × Value))} {stopped : Prop}

/-! ## 1. One rule -/

/-- **The texts that a rule yields**, one at least. -/
inductive Yields (request : Request) (r : ReplyRule) : List String → Prop where
  /-- A rule without a condition yields its text. -/
  | always (condition : r.condition = .always) : Yields request r [r.value]
  /-- The user belongs to the group. -/
  | member (condition : r.condition = .userGroup) (group : String)
      (mem : group ∈ request.profile.groups)
      (same : Text.sameIgnoringCase group (r.argument.getD "") = true) :
      Yields request r [r.value]
  /-- The user has the name. -/
  | user (condition : r.condition = .userName)
      (same : Text.sameIgnoringCase request.user (r.argument.getD "") = true) :
      Yields request r [r.value]
  /-- The directory has values of the attribute: all of them, in order, and not the rule's own
  text. -/
  | directory (condition : r.condition = .fromDirectory) (values : List String)
      (front back : List (String × List String))
      (listed : request.profile.attributes =
        front ++ (Text.lower (r.argument.getD ""), values) :: back)
      (first : ∀ a ∈ front, a.1 ≠ Text.lower (r.argument.getD "")) (nonempty : values ≠ []) :
      Yields request r values

theorem valuesOf_eq_iff {p : Profile} {name : String} {values : List String}
    (nonempty : values ≠ []) : p.valuesOf name = values ↔
      ∃ front back, p.attributes = front ++ (Text.lower name, values) :: back ∧
        ∀ a ∈ front, a.1 ≠ Text.lower name := by
  unfold Profile.valuesOf
  constructor
  · intro h
    cases hfind : p.attributes.find? fun a => a.1 == Text.lower name with
    | none =>
      rw [hfind] at h
      exact absurd h.symm nonempty
    | some a =>
      rw [hfind] at h
      obtain ⟨hname, front, back, hlist, hfront⟩ := List.find?_eq_some_iff_append.mp hfind
      have ha : a = (Text.lower name, values) := Prod.ext (eq_of_beq hname) h
      rw [ha] at hlist
      exact ⟨front, back, hlist, fun b hb => by simpa using hfront b hb⟩
  · intro h
    obtain ⟨front, back, hlist, hfront⟩ := h
    have hfind : p.attributes.find? (fun a => a.1 == Text.lower name) =
        some (Text.lower name, values) := by
      refine List.find?_eq_some_iff_append.mpr ⟨beq_self_eq_true _, front, back, hlist, ?_⟩
      exact fun b hb => by simpa using hfront b hb
    rw [hfind]
    rfl

theorem isMemberOf_iff {p : Profile} {group : String} : p.isMemberOf group = true ↔
    ∃ g ∈ p.groups, Text.sameIgnoringCase g group = true := List.any_eq_true

theorem yields_iff : Yields request r texts ↔ r.texts request = texts ∧ texts ≠ [] := by
  constructor
  · intro h
    cases h with
    | always condition => exact ⟨by simp only [ReplyRule.texts, condition], List.cons_ne_nil _ _⟩
    | member condition group mem same =>
      have hmember := isMemberOf_iff.mpr ⟨group, mem, same⟩
      exact ⟨by simp only [ReplyRule.texts, condition, hmember, if_true], List.cons_ne_nil _ _⟩
    | user condition same =>
      exact ⟨by simp only [ReplyRule.texts, condition, same, if_true], List.cons_ne_nil _ _⟩
    | directory condition _ front back listed first nonempty =>
      have hvalues := (valuesOf_eq_iff nonempty).mpr ⟨front, back, listed, first⟩
      exact ⟨by simp only [ReplyRule.texts, condition, hvalues], nonempty⟩
  · intro h
    obtain ⟨rfl, nonempty⟩ := h
    revert nonempty
    unfold ReplyRule.texts
    cases condition : r.condition with
    | always => exact fun _ => .always condition
    | userGroup =>
      dsimp only
      split
      · rename_i hmember
        obtain ⟨group, mem, same⟩ := isMemberOf_iff.mp hmember
        exact fun _ => .member condition group mem same
      · exact fun nonempty => absurd rfl nonempty
    | userName =>
      dsimp only
      split
      · rename_i same
        exact fun _ => .user condition same
      · exact fun nonempty => absurd rfl nonempty
    | fromDirectory =>
      intro nonempty
      obtain ⟨front, back, listed, first⟩ := (valuesOf_eq_iff nonempty).mp rfl
      exact .directory condition _ front back listed first nonempty

/-- A rule matches: its attribute has a definition, and its condition yields texts. -/
structure Matches (d : Dictionary) (request : Request) (r : ReplyRule) (e : Entry)
    (texts : List String) : Prop where
  defined : d.byName? r.name = some e
  yields : Yields request r texts

theorem Matches.unique (h : Matches d request r e texts) (h' : Matches d request r e' texts') :
    e = e' ∧ texts = texts' :=
  ⟨Option.some.inj (h.defined.symm.trans h'.defined),
    (yields_iff.mp h.yields).1.symm.trans (yields_iff.mp h'.yields).1⟩

theorem not_matches_of_undefined (h : d.byName? r.name = none) : ¬ Matches d request r e texts :=
  fun hmatches => nomatch h.symm.trans hmatches.defined

theorem not_matches_of_silent (h : r.texts request = []) : ¬ Matches d request r e texts := by
  intro hmatches
  obtain ⟨htexts, hnonempty⟩ := yields_iff.mp hmatches.yields
  exact hnonempty (htexts.symm.trans h)

/-- The values of texts under the name of their definition; a text that is none of its kind has no
value. -/
def valuesOfTexts (e : Entry) (texts : List String) : List (Name × Value) :=
  texts.filterMap fun text => (Value.parse e.kind text).toOption.map (Prod.mk e.name)

theorem filterMap_valueOf (e : Entry) (texts : List String) :
    texts.filterMap (valueOf e) = valuesOfTexts e texts := by
  unfold valuesOfTexts
  congr 1
  funext text
  unfold valueOf
  cases Value.parse e.kind text <;> rfl

/-- **What a rule adds**, where something may have stopped it. -/
inductive Adds (d : Dictionary) (request : Request) (stopped : Prop) (r : ReplyRule) :
    List (Name × Value) → Prop where
  | values (e : Entry) (texts : List String) (matched : Matches d request r e texts)
      (free : ¬ stopped) : Adds d request stopped r (valuesOfTexts e texts)
  | silent (unmatched : ∀ e texts, ¬ Matches d request r e texts) : Adds d request stopped r []
  | stopped (h : stopped) : Adds d request stopped r []

/-- A rule adds one list of values. -/
theorem adds_unique (h : Adds d request stopped r part) (h' : Adds d request stopped r part') :
    part = part' := by
  cases h with
  | values e texts matched free =>
    cases h' with
    | values e' texts' matched' _ =>
      obtain ⟨rfl, rfl⟩ := matched.unique matched'
      rfl
    | silent unmatched => exact absurd matched (unmatched e texts)
    | stopped h => exact absurd h free
  | silent unmatched =>
    cases h' with
    | values e texts matched _ => exact absurd matched (unmatched e texts)
    | silent | stopped => rfl
  | stopped h =>
    cases h' with
    | values _ _ _ free => exact absurd h free
    | silent | stopped => rfl

/-! ## 2. A rule and those before it -/

/-- A sufficient rule before this one matched, for the same attribute. -/
def Settled (d : Dictionary) (request : Request) (before : List ReplyRule) (r : ReplyRule) : Prop :=
  ∃ s ∈ before, s.sufficient = true ∧
    ∃ e texts, Matches d request s e texts ∧ d.byName? r.name = some e

/-- A sufficient rule before this one matched, in the same spelling. -/
def Spelled (d : Dictionary) (request : Request) (before : List ReplyRule) (name : Name) : Prop :=
  ∃ s ∈ before, s.sufficient = true ∧ s.name = name ∧ ∃ e texts, Matches d request s e texts

/-- Rules for one attribute spell it alike. -/
def Alike (d : Dictionary) (rules : List ReplyRule) : Prop :=
  ∀ r ∈ rules, ∀ s ∈ rules, ∀ e, d.byName? r.name = some e → d.byName? s.name = some e →
    r.name = s.name

theorem not_spelled_nil (name : Name) : ¬ Spelled d request [] name := by
  intro h
  obtain ⟨s, hs, _⟩ := h
  exact List.not_mem_nil hs

/-- One more rule before this one counts if it is sufficient, matched, and has the spelling. -/
theorem spelled_concat {name : Name} : Spelled d request (before ++ [r]) name ↔
    Spelled d request before name ∨
      r.sufficient = true ∧ r.name = name ∧ ∃ e texts, Matches d request r e texts := by
  unfold Spelled
  constructor
  · intro h
    obtain ⟨s, hs, h⟩ := h
    rcases List.mem_append.mp hs with hs | hs
    · exact Or.inl ⟨s, hs, h⟩
    · rw [List.mem_singleton.mp hs] at h
      exact Or.inr h
  · intro h
    rcases h with ⟨s, hs, h⟩ | h
    · exact ⟨s, List.mem_append_left _ hs, h⟩
    · exact ⟨r, List.mem_append_right _ (List.mem_singleton.mpr rfl), h⟩

theorem alike_of_spellings
    (h : ∀ r ∈ rules, ∀ s ∈ rules, Name.same r.name s.name = true → r.name = s.name) :
    Alike d rules := by
  intro r hr s hs e her hes
  refine h r hr s hs ?_
  rw [← Name.same_congr (Dictionary.of_byName? her).2]
  exact (Dictionary.of_byName? hes).2

/-- Where rules spell an attribute alike, the spelling decides. -/
theorem settled_iff_spelled (alike : Alike d rules) (sub : before ⊆ rules) (hr : r ∈ rules) :
    Settled d request before r ↔ Spelled d request before r.name := by
  constructor
  · intro h
    obtain ⟨s, hs, hsufficient, e, texts, hmatches, he⟩ := h
    exact ⟨s, hs, hsufficient, alike s (sub hs) r hr e hmatches.defined he, e, texts, hmatches⟩
  · intro h
    obtain ⟨s, hs, hsufficient, hname, e, texts, hmatches⟩ := h
    exact ⟨s, hs, hsufficient, e, texts, hmatches, hname ▸ hmatches.defined⟩

/-! ## 3. All rules -/

/-- Lists of values, one for each rule: those that it adds unless something before it stops it. -/
structure Parts (d : Dictionary) (request : Request) (stops : List ReplyRule → ReplyRule → Prop)
    (rules : List ReplyRule) (parts : List (List (Name × Value))) : Prop where
  length : parts.length = rules.length
  adds : ∀ (i : Nat) (r : ReplyRule) (part : List (Name × Value)), rules[i]? = some r →
    parts[i]? = some part → Adds d request (stops (rules.take i) r) r part

theorem Parts.unique {stops : List ReplyRule → ReplyRule → Prop}
    (h : Parts d request stops rules parts) (h' : Parts d request stops rules parts') :
    parts = parts' := by
  refine List.ext_getElem (h.length.trans h'.length.symm) fun i hi hi' => ?_
  have hrule : i < rules.length := h.length ▸ hi
  exact adds_unique (h.adds i _ _ (List.getElem?_eq_getElem hrule) (List.getElem?_eq_getElem hi))
    (h'.adds i _ _ (List.getElem?_eq_getElem hrule) (List.getElem?_eq_getElem hi'))

/-- A rule in front of others is in front of each of them. -/
theorem Parts.cons (head : Adds d request (Spelled d request before r.name) r part)
    (tail : Parts d request (fun more s => Spelled d request (before ++ [r] ++ more) s.name)
      rules parts) :
    Parts d request (fun more s => Spelled d request (before ++ more) s.name) (r :: rules)
      (part :: parts) where
  length := congrArg Nat.succ tail.length
  adds i s part' hs hpart := by
    cases i with
    | zero =>
      cases hs
      cases hpart
      rwa [List.take_zero, List.append_nil]
    | succ i =>
      have := tail.adds i s part' hs hpart
      rwa [List.append_assoc] at this

/-- The record of what is settled: the spellings that a rule before had, sufficient and matching. -/
def Records (d : Dictionary) (request : Request) (before : List ReplyRule) (record : List String) :
    Prop := ∀ name, record.contains name = true ↔ Spelled d request before name

/-- A rule leaves the record as it is, unless it is sufficient, matches, and is new to it. -/
theorem records_same {record : List String} (records : Records d request before record)
    (known : r.sufficient = true → (∃ e texts, Matches d request r e texts) →
      Spelled d request before r.name) :
    Records d request (before ++ [r]) record := by
  intro name
  rw [spelled_concat, records]
  constructor
  · exact Or.inl
  · intro h
    rcases h with h | ⟨hsufficient, rfl, hmatches⟩
    · exact h
    · exact known hsufficient hmatches

/-- A rule that matches is recorded if it is sufficient. -/
theorem records_next {record : List String} (records : Records d request before record)
    (matched : Matches d request r e texts) :
    Records d request (before ++ [r]) (if r.sufficient then r.name :: record else record) := by
  cases hsufficient : r.sufficient with
  | false => exact records_same records fun h => nomatch hsufficient.symm.trans h
  | true =>
    intro name
    rw [if_pos rfl, List.contains_cons, Bool.or_eq_true, records, spelled_concat, beq_iff_eq]
    constructor
    · intro h
      rcases h with rfl | h
      · exact Or.inr ⟨hsufficient, rfl, e, texts, matched⟩
      · exact Or.inl h
    · intro h
      rcases h with h | ⟨_, rfl, _⟩
      · exact Or.inr h
      · exact Or.inl rfl

/-- What the rules add behind others, where the record is theirs. -/
theorem exists_parts_from (d : Dictionary) (request : Request) (rules : List ReplyRule)
    {before : List ReplyRule} {record : List String} (records : Records d request before record) :
    ∃ parts, Parts d request (fun more s => Spelled d request (before ++ more) s.name) rules parts ∧
      valuesFrom d request record rules = parts.flatten := by
  induction rules generalizing before record with
  | nil => exact ⟨[], ⟨rfl, fun i r part h => nomatch h⟩, rfl⟩
  | cons r rules ih =>
    unfold valuesFrom
    split
    · rename_i hrecorded
      have hspelled := (records r.name).mp hrecorded
      obtain ⟨parts, hparts, hvalues⟩ := ih (records_same records fun _ _ => hspelled)
      exact ⟨[] :: parts, .cons (.stopped hspelled) hparts, hvalues⟩
    · rename_i hrecorded
      have hfree : ¬ Spelled d request before r.name := (records r.name).not.mp hrecorded
      -- a rule that does not match adds nothing and leaves the record as it is
      have hsilent (unmatched : ∀ e texts, ¬ Matches d request r e texts) :
          ∃ parts, Parts d request (fun more s => Spelled d request (before ++ more) s.name)
            (r :: rules) parts ∧ valuesFrom d request record rules = parts.flatten := by
        obtain ⟨parts, hparts, hvalues⟩ :=
          ih (records_same records fun _ ⟨e, texts, h⟩ => absurd h (unmatched e texts))
        exact ⟨[] :: parts, .cons (.silent unmatched) hparts, hvalues⟩
      cases hdefined : d.byName? r.name with
      | none => exact hsilent fun _ _ => not_matches_of_undefined hdefined
      | some e =>
        cases htexts : r.texts request with
        | nil =>
          simpa using hsilent fun _ _ => not_matches_of_silent htexts
        | cons text texts =>
          have hmatches : Matches d request r e (text :: texts) :=
            ⟨hdefined, yields_iff.mpr ⟨htexts, List.cons_ne_nil _ _⟩⟩
          obtain ⟨parts, hparts, hvalues⟩ := ih (records_next records hmatches)
          refine ⟨valuesOfTexts e (text :: texts) :: parts,
            .cons (.values e _ hmatches hfree) hparts, ?_⟩
          rw [List.flatten_cons, ← hvalues, ← filterMap_valueOf]
          simp

/-- **The rules of a client add one list after the other**, and a rule adds nothing where its
spelling is settled before it. -/
theorem exists_parts (d : Dictionary) (request : Request) (rules : List ReplyRule) :
    ∃ parts, Parts d request (fun before s => Spelled d request before s.name) rules parts ∧
      values d request rules = parts.flatten := by
  have hnone : Records d request [] [] := fun name =>
    ⟨fun h => (nomatch h), fun h => absurd h (not_spelled_nil name)⟩
  exact exists_parts_from d request rules hnone

/-- Rule by rule: one that matches and is not settled adds its values, and nothing else does. -/
abbrev Told (d : Dictionary) (request : Request) (rules : List ReplyRule)
    (parts : List (List (Name × Value))) : Prop := Parts d request (Settled d request) rules parts

theorem exists_told (request : Request) (alike : Alike d rules) :
    ∃ parts, Told d request rules parts ∧ values d request rules = parts.flatten := by
  obtain ⟨parts, hparts, hvalues⟩ := exists_parts d request rules
  refine ⟨parts, ⟨hparts.length, fun i r part hr hpart => ?_⟩, hvalues⟩
  have hsame : Settled d request (rules.take i) r ↔ Spelled d request (rules.take i) r.name :=
    settled_iff_spelled alike (List.take_subset i rules) (List.mem_of_getElem? hr)
  rw [hsame]
  exact hparts.adds i r part hr hpart

/-! ## 4. The reply -/

/-- A list of attributes with values behind those it has. -/
structure Appended (reply : Attributes) (added : List (Name × Value)) (after : Attributes) :
    Prop where
  result : after = reply.addAll added
  values : ∀ name, after.getAll name = reply.getAll name ++ Attributes.valuesOf name added
  names : reply.names <+: after.names
  size : after.size = reply.size + added.length

theorem appended_addAll (reply : Attributes) (added : List (Name × Value)) :
    Appended reply added (reply.addAll added) where
  result := rfl
  values _ := Attributes.getAll_addAll reply added
  names := Attributes.names_addAll reply added
  size := Attributes.size_addAll reply added

/-- **The reply gets the values of the rules that match and are not settled**, rule by rule, behind
what it has, and no others; they are as many as counted. -/
theorem apply_appends (d : Dictionary) (request : Request) (alike : Alike d rules)
    (reply : Attributes) :
    ∃ parts, (Told d request rules parts ∧ ∀ parts', Told d request rules parts' → parts' = parts) ∧
      Appended reply parts.flatten (apply d request rules reply) ∧
      count d request rules = parts.flatten.length := by
  obtain ⟨parts, htold, hvalues⟩ := exists_told request alike
  refine ⟨parts, ⟨htold, fun parts' h => h.unique htold⟩, ?_, ?_⟩
  · unfold apply
    rw [hvalues]
    exact appended_addAll reply parts.flatten
  · unfold count
    rw [hvalues]

end

namespace Clerk

/-- A dictionary of three definitions. -/
def dictionary : Dictionary :=
  .insertAll .empty [⟨11, "Filter-Id", .text, none⟩, ⟨27, "Session-Timeout", .integer, none⟩,
    ⟨18, "Reply-Message", .text, none⟩]

/-- A user of two departments who is an administrator. -/
def request : Request :=
  { Request.make (.v4 (.ofOctets [10, 0, 0, 1]) 1812) none Config.exampleRemoteClient
      (Packet.new .accessRequest 1 (.ofString "client_secret_2") .zero) with
    userName := some "Clerk"
    profile := ⟨none, none, none, ["Admins"], [("department", ["Finance", "Audit"])]⟩ }

/-- A rule for guests that does not match, one for administrators that does, and so on: a text that
is no number settles its attribute, a name without a definition adds nothing, and the directory tells
both departments. -/
def rules : List ReplyRule := [
  ⟨"Filter-Id", "guests", .userGroup, some "Guests", true⟩,
  ⟨"Filter-Id", "admins", .userGroup, some "admins", true⟩,
  ⟨"Filter-Id", "everyone", .always, none, false⟩,
  ⟨"Session-Timeout", "soon", .always, none, true⟩,
  ⟨"Session-Timeout", "3600", .always, none, false⟩,
  ⟨"Made-Up", "nothing", .userName, some "clerk", false⟩,
  ⟨"Reply-Message", "unread", .fromDirectory, some "Department", false⟩]

/-- What the rules add for this user. -/
def added : List (Name × Value) :=
  [("Filter-Id", .text "admins"), ("Reply-Message", .text "Finance"),
    ("Reply-Message", .text "Audit")]

/-- A reply that says something already. -/
def reply : Attributes := .ofList [("reply-message", .text "Welcome")]

/-- The rules spell each attribute alike. -/
theorem alike_rules : Alike dictionary rules := alike_of_spellings (by decide +kernel)

/-- Three values are added to the reply, behind the message that it has. -/
theorem apply_appends_clerk : Alike dictionary rules ∧ values dictionary request rules = added ∧
    ∃ parts, (Told dictionary request rules parts ∧
        ∀ parts', Told dictionary request rules parts' → parts' = parts) ∧
      Appended reply parts.flatten (apply dictionary request rules reply) ∧
      count dictionary request rules = parts.flatten.length :=
  ⟨alike_rules, by decide +kernel, apply_appends dictionary request alike_rules reply⟩

end Clerk

end AccessGate.ReplyRule
