import AccessGate.Proofs.Access.Rules
import AccessGate.Radius.StandardDictionary

/-!
# A settled attribute under another spelling

A sufficient rule that matches is to be the last one for its attribute, and an attribute has many
spellings: the dictionary takes them all for one. What is settled is recorded in the spelling of the
rule, so a later rule that spells it otherwise gets past (`GetsPast`).

* `nil_iff_of_adds`: a rule adds nothing exactly if it is stopped or has nothing to add by itself;
* `final_iff`: so what is settled stays settled exactly if no rule gets past;
* `settles_unless_respelled`: this is how the rules of a client fill a reply, and where they spell
  an attribute alike, none gets past;
* `everyone_gets_past`: but one that spells it otherwise does.
-/

namespace AccessGate.ReplyRule

open Radius

section

variable {d : Dictionary} {request : Request} {r : ReplyRule} {before rules : List ReplyRule}
  {part : List (Name × Value)} {parts : List (List (Name × Value))} {stopped : Prop}

/-- The rule has no values to add: it does not match, or none of its texts is a value. -/
def HasNothing (d : Dictionary) (request : Request) (r : ReplyRule) : Prop :=
  ∀ e texts, Matches d request r e texts → valuesOfTexts e texts = []

theorem nil_iff_of_adds (h : Adds d request stopped r part) :
    part = [] ↔ stopped ∨ HasNothing d request r := by
  cases h with
  | values e texts matched free =>
    constructor
    · intro hnil
      refine Or.inr fun e' texts' matched' => ?_
      obtain ⟨rfl, rfl⟩ := matched.unique matched'
      exact hnil
    · intro h
      exact (h.resolve_left free) e texts matched
  | silent unmatched =>
    exact ⟨fun _ => Or.inr fun e texts matched => absurd matched (unmatched e texts), fun _ => rfl⟩
  | stopped h => exact ⟨fun _ => Or.inl h, fun _ => rfl⟩

/-- A rule that matches adds its values before those of the rules behind it, and settles its
spelling if it is sufficient. -/
theorem valuesFrom_of_matches {record : List String} {e : Entry} {texts : List String}
    (free : record.contains r.name = false) (h : Matches d request r e texts) :
    valuesFrom d request record (r :: rules) = valuesOfTexts e texts ++
      valuesFrom d request (if r.sufficient then r.name :: record else record) rules := by
  obtain ⟨htexts, hnonempty⟩ := yields_iff.mp h.yields
  have hsome : texts.isEmpty = false := by
    rw [List.isEmpty_eq_false_iff]
    exact hnonempty
  rw [valuesFrom, free, h.defined, htexts, ← filterMap_valueOf]
  simp [hsome]

/-- A rule with values to add, whose attribute a sufficient rule before it settled, but none in its
spelling. -/
structure GetsPast (d : Dictionary) (request : Request) (before : List ReplyRule) (r : ReplyRule) :
    Prop where
  settled : Settled d request before r
  respelled : ¬ Spelled d request before r.name
  adds : ¬ HasNothing d request r

/-- What is settled stays settled: no rule for such an attribute adds a value. -/
def Final (d : Dictionary) (request : Request) (rules : List ReplyRule)
    (parts : List (List (Name × Value))) : Prop :=
  ∀ (i : Nat) (r : ReplyRule) (part : List (Name × Value)), rules[i]? = some r →
    parts[i]? = some part → Settled d request (rules.take i) r → part = []

/-- **What is settled stays settled exactly if no rule gets past.** -/
theorem final_iff
    (h : Parts d request (fun before s => Spelled d request before s.name) rules parts) :
    Final d request rules parts ↔
      ∀ i r, rules[i]? = some r → ¬ GetsPast d request (rules.take i) r := by
  constructor
  · intro final i r hr past
    have hi : i < parts.length := by
      rw [h.length]
      exact (List.getElem?_eq_some_iff.mp hr).1
    have hpart := List.getElem?_eq_getElem hi
    have hnil := final i r _ hr hpart past.settled
    rcases (nil_iff_of_adds (h.adds i r _ hr hpart)).mp hnil with hspelled | hnothing
    · exact past.respelled hspelled
    · exact past.adds hnothing
  · intro none_past i r part hr hpart settled
    rw [nil_iff_of_adds (h.adds i r part hr hpart)]
    by_contra hneither
    rw [not_or] at hneither
    exact none_past i r hr ⟨settled, hneither.1, hneither.2⟩

/-- **The rules of a client leave a settled attribute alone, unless one gets past**, which takes
another spelling of it. -/
theorem settles_unless_respelled (d : Dictionary) (request : Request) (rules : List ReplyRule)
    (reply : Attributes) :
    ∃ parts, Parts d request (fun before s => Spelled d request before s.name) rules parts ∧
      Appended reply parts.flatten (apply d request rules reply) ∧
      (Final d request rules parts ↔
        ∀ i r, rules[i]? = some r → ¬ GetsPast d request (rules.take i) r) ∧
      (Alike d rules → Final d request rules parts) := by
  obtain ⟨parts, hparts, hvalues⟩ := exists_parts d request rules
  refine ⟨parts, hparts, ?_, final_iff hparts, fun alike => ?_⟩
  · unfold apply
    rw [hvalues]
    exact appended_addAll reply parts.flatten
  · refine (final_iff hparts).mpr fun i r hr past => past.respelled ?_
    exact (settled_iff_spelled alike (List.take_subset i rules) (List.mem_of_getElem? hr)).mp
      past.settled

end

namespace Clerk

/-- The access list of administrators. -/
def admins : ReplyRule := ⟨"Filter-Id", "admin-acl", .userGroup, some "Admins", true⟩

/-- The access list of everyone else, spelled otherwise. -/
def everyone : ReplyRule := ⟨"filter-id", "default-acl", .always, none, false⟩

/-- The definition that both spellings lead to. -/
def filterId : Entry := ⟨11, "Filter-Id", .text, none⟩

theorem defines_filterId : filterId ∈ Dictionary.standard.entries := by
  have hmem : filterId ∈ Dictionary.standardEntries := by decide +kernel
  exact Dictionary.mem_standard_iff.mpr hmem

theorem matches_admins : Matches .standard request admins filterId ["admin-acl"] where
  defined := Dictionary.byName?_standard defines_filterId
  yields := .member rfl "Admins" List.mem_cons_self (Name.same_iff.mpr rfl)

theorem matches_everyone : Matches .standard request everyone filterId ["default-acl"] where
  defined := Dictionary.byName?_of_same defines_filterId
    (Name.same_iff_letters.mpr (by decide +kernel))
  yields := .always rfl

/-- The first rule settles the attribute for an administrator, and the second still adds its value
behind the first. -/
theorem everyone_gets_past :
    Settled .standard request [admins] everyone ∧
      (apply .standard request [admins, everyone] .empty).getAll "Filter-Id" =
        [.text "admin-acl", .text "default-acl"] := by
  have hsettled : Settled .standard request [admins] everyone :=
    ⟨admins, List.mem_singleton_self _, rfl, _, _, matches_admins, matches_everyone.defined⟩
  have hother : [admins.name].contains everyone.name = false := by simp [admins, everyone]
  have hbehind : valuesFrom .standard request [admins.name] [everyone] =
      [("Filter-Id", .text "default-acl")] := by
    rw [valuesFrom_of_matches hother matches_everyone]
    rfl
  have hvalues : values .standard request [admins, everyone] =
      ("Filter-Id", .text "admin-acl") :: valuesFrom .standard request [admins.name] [everyone] :=
    valuesFrom_of_matches rfl matches_admins
  refine ⟨hsettled, ?_⟩
  unfold apply
  rw [hvalues, hbehind, Attributes.getAll_addAll]
  exact Attributes.valuesOf_of_same (by simp [Name.same_iff])

end Clerk

end AccessGate.ReplyRule
