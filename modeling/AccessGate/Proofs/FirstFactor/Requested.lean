import Mathlib.Data.String.Basic
import AccessGate.FirstFactor.DirectoryProfile
import AccessGate.Proofs.Text.Words

/-!
# The attributes that a search asks for

A directory answers what it is asked for and nothing else, so a name that got lost would leave a rule
or the list of groups empty. The names are sorted by their lower case, and then neighbours that
differ only in case are merged:

* `mergeNeighbours_sublist`, `exists_merged`: nothing comes in, and what is merged stays there under
  another spelling;
* `pairwise_mergeNeighbours`: no name stays there twice, as long as the order and the comparison go
  by the same lower case, which they do on ASCII names (`Text.sameIgnoringCase_iff_lower`);
* `requests_of_ascii`: so the search asks for all that is wanted and for each of it once.
-/

namespace AccessGate.FirstFactor

open Text

variable {as : List String} {a : String} {client : Client} {s : LdapSettings}

/-! ## 1. Merging neighbours -/

theorem mergeNeighbours_of_short (short : ∀ a b rest, as = a :: b :: rest → False) :
    mergeNeighbours as = as := by
  rw [mergeNeighbours]
  exact short

theorem mergeNeighbours_sublist (as : List String) : (mergeNeighbours as).Sublist as := by
  induction as using mergeNeighbours.induct with
  | case1 a b rest same ih =>
    rw [mergeNeighbours, if_pos same]
    exact ih.trans ((List.sublist_cons_self b rest).cons_cons a)
  | case2 a b rest other ih =>
    rw [mergeNeighbours, if_neg other]
    exact ih.cons_cons a
  | case3 as short =>
    rw [mergeNeighbours_of_short short]

/-- **What is merged stays there under another spelling.** -/
theorem exists_merged (h : a ∈ as) : ∃ b ∈ mergeNeighbours as, sameIgnoringCase b a = true := by
  induction as using mergeNeighbours.induct generalizing a with
  | case1 b c rest same ih =>
    rw [mergeNeighbours, if_pos same]
    obtain ⟨first, hfirst, hspelled⟩ := ih List.mem_cons_self
    rcases List.mem_cons.mp h with rfl | h
    · exact ⟨first, hfirst, hspelled⟩
    · rcases List.mem_cons.mp h with rfl | h
      · -- the neighbour that goes is spelled by what its own neighbour goes on as
        refine ⟨first, hfirst, ?_⟩
        rw [sameIgnoringCase_iff] at same hspelled ⊢
        rw [hspelled, same]
      · exact ih (List.mem_cons_of_mem b h)
  | case2 b c rest other ih =>
    rw [mergeNeighbours, if_neg other]
    rcases List.mem_cons.mp h with rfl | h
    · exact ⟨a, List.mem_cons_self, sameIgnoringCase_iff.mpr rfl⟩
    · obtain ⟨d, hd, hspelled⟩ := ih h
      exact ⟨d, List.mem_cons_of_mem b hd, hspelled⟩
  | case3 as short =>
    rw [mergeNeighbours_of_short short]
    exact ⟨a, h, sameIgnoringCase_iff.mpr rfl⟩

/-- **No name stays there twice**, where the names are sorted by what they are compared by. -/
theorem pairwise_mergeNeighbours (sorted : as.Pairwise fun a b => lower a ≤ lower b)
    (agree : ∀ a ∈ as, ∀ b ∈ as, sameIgnoringCase a b = true ↔ lower a = lower b) :
    (mergeNeighbours as).Pairwise fun a b => lower a < lower b := by
  induction as using mergeNeighbours.induct with
  | case1 a b rest same ih =>
    have hfront : (a :: rest).Sublist (a :: b :: rest) := (List.sublist_cons_self b rest).cons_cons a
    rw [mergeNeighbours, if_pos same]
    exact ih (sorted.sublist hfront) fun x hx y hy => agree x (hfront.subset hx) y (hfront.subset hy)
  | case2 a b rest other ih =>
    rw [List.pairwise_cons] at sorted
    rw [mergeNeighbours, if_neg other, List.pairwise_cons]
    refine ⟨fun x hx => ?_, ih sorted.2 fun x hx y hy =>
      agree x (List.mem_cons_of_mem a hx) y (List.mem_cons_of_mem a hy)⟩
    have hb : b ∈ a :: b :: rest := List.mem_cons_of_mem a List.mem_cons_self
    have hab : lower a < lower b :=
      lt_of_le_of_ne (sorted.1 b List.mem_cons_self)
        (mt (agree a List.mem_cons_self b hb).mpr other)
    rcases List.mem_cons.mp ((mergeNeighbours_sublist (b :: rest)).subset hx) with rfl | hx
    · exact hab
    · exact lt_of_lt_of_le hab ((List.pairwise_cons.mp sorted.2).1 x hx)
  | case3 as short =>
    rw [mergeNeighbours_of_short short]
    cases as with
    | nil => exact .nil
    | cons a rest =>
      cases rest with
      | nil => exact List.pairwise_singleton _ a
      | cons b rest => exact absurd rfl (short a b rest)

/-! ## 2. Names that are wanted -/

/-- The names that something depends on: the groups, what a profile shows, the telephone numbers, and
what rules of the client take from the directory. -/
inductive Wanted (client : Client) (s : LdapSettings) : String → Prop where
  | groups : Wanted client s "memberOf"
  | displayName : Wanted client s "displayName"
  | email : Wanted client s "mail"
  | phone {a : String} (phone : a ∈ s.phoneAttributes) : Wanted client s a
  | argument {a : String} {r : ReplyRule} (rule : r ∈ client.replyRules)
      (directory : r.condition = .fromDirectory) (argument : r.argument = some a) :
      Wanted client s a

theorem mem_ruleArguments_iff : a ∈ ruleArguments client ↔
    ∃ r ∈ client.replyRules, r.condition = .fromDirectory ∧ r.argument = some a := by
  unfold ruleArguments
  simp only [List.mem_filterMap, List.mem_filter, decide_eq_true_eq, and_assoc]

theorem mem_wantedAttributes_iff : a ∈ wantedAttributes client s ↔ Wanted client s a := by
  unfold wantedAttributes
  simp only [List.mem_append, List.mem_cons, List.not_mem_nil, or_false, mem_ruleArguments_iff]
  constructor
  · intro h
    rcases h with ((rfl | rfl | rfl) | hphone) | ⟨r, hrule, hdirectory, hargument⟩
    · exact .groups
    · exact .displayName
    · exact .email
    · exact .phone hphone
    · exact .argument hrule hdirectory hargument
  · intro h
    cases h with
    | groups => exact Or.inl (Or.inl (Or.inl rfl))
    | displayName => exact Or.inl (Or.inl (Or.inr (Or.inl rfl)))
    | email => exact Or.inl (Or.inl (Or.inr (Or.inr rfl)))
    | phone hphone => exact Or.inl (Or.inr hphone)
    | argument hrule hdirectory hargument => exact Or.inr ⟨_, hrule, hdirectory, hargument⟩

/-- The wanted names in the order of their lower case. -/
def sortedAttributes (client : Client) (s : LdapSettings) : List String :=
  (wantedAttributes client s).mergeSort fun a b => lower a ≤ lower b

theorem mem_sortedAttributes_iff : a ∈ sortedAttributes client s ↔ Wanted client s a :=
  List.mem_mergeSort.trans mem_wantedAttributes_iff

theorem pairwise_sortedAttributes (client : Client) (s : LdapSettings) :
    (sortedAttributes client s).Pairwise fun a b => lower a ≤ lower b := by
  have htrans (a b c : String) (hab : decide (lower a ≤ lower b) = true)
      (hbc : decide (lower b ≤ lower c) = true) : decide (lower a ≤ lower c) = true := by
    rw [decide_eq_true_eq] at hab hbc ⊢
    exact le_trans hab hbc
  have htotal (a b : String) : (decide (lower a ≤ lower b) || decide (lower b ≤ lower a)) = true := by
    rw [Bool.or_eq_true, decide_eq_true_eq, decide_eq_true_eq]
    exact le_total _ _
  have hsorted := List.pairwise_mergeSort htrans htotal (wantedAttributes client s)
  exact hsorted.imp of_decide_eq_true

/-! ## 3. Names that are asked for -/

/-- The names ask for all that is wanted, and for each of it once. -/
structure Requests (client : Client) (s : LdapSettings) (names : List String) : Prop where
  distinct : names.Pairwise fun a b => sameIgnoringCase a b = false
  sorted : names.Pairwise fun a b => lower a < lower b
  wanted : ∀ a ∈ names, Wanted client s a
  complete : ∀ a, Wanted client s a → ∃ b ∈ names, sameIgnoringCase b a = true

/-- **A search asks for all attributes that are wanted, and for each of them once**, whatever ASCII
names are configured and in whatever case they repeat one another. -/
theorem requests_of_ascii (phones : ∀ a ∈ s.phoneAttributes, IsAscii a)
    (arguments : ∀ r ∈ client.replyRules, r.condition = .fromDirectory →
      ∀ a, r.argument = some a → IsAscii a) :
    Requests client s (requestedAttributes client s) := by
  have hascii : ∀ a ∈ sortedAttributes client s, IsAscii a := by
    intro a ha
    cases mem_sortedAttributes_iff.mp ha with
    | groups => decide
    | displayName => decide
    | email => decide
    | phone hphone => exact phones a hphone
    | argument hrule hdirectory hargument => exact arguments _ hrule hdirectory a hargument
  have hwanted : ∀ a ∈ requestedAttributes client s, a ∈ sortedAttributes client s :=
    fun a ha => (mergeNeighbours_sublist _).subset ha
  have hsorted : (requestedAttributes client s).Pairwise fun a b => lower a < lower b :=
    pairwise_mergeNeighbours (pairwise_sortedAttributes client s) fun a ha b hb =>
      sameIgnoringCase_iff_lower (hascii a ha) (hascii b hb)
  refine ⟨?_, hsorted, fun a ha => mem_sortedAttributes_iff.mp (hwanted a ha), fun a ha =>
    exists_merged (mem_sortedAttributes_iff.mpr ha)⟩
  refine hsorted.imp_of_mem fun {a b} ha hb hlt => Bool.eq_false_iff.mpr fun hsame => ?_
  rw [sameIgnoringCase_iff_lower (hascii a (hwanted a ha)) (hascii b (hwanted b hb))] at hsame
  exact absurd hsame (ne_of_lt hlt)

/-- A client that spells several names in more than one case. -/
def respellingClient : Client :=
  { Config.exampleDirectoryClient with
    ldap := Config.exampleDirectoryClient.ldap.map fun s =>
      { s with phoneAttributes := ["Mobile", "mobile", "memberof"] }
    replyRules := [⟨"Class", "", .fromDirectory, some "MAIL", false⟩,
      ⟨"Filter-Id", "", .fromDirectory, some "department", false⟩,
      ⟨"Reply-Message", "", .userName, some "Zoë", false⟩] }

/-- It wants the address under two spellings, and still asks for it once. -/
theorem requests_respelling : ∃ s, respellingClient.ldap = some s ∧
    Wanted respellingClient s "mail" ∧ Wanted respellingClient s "MAIL" ∧
    Requests respellingClient s (requestedAttributes respellingClient s) := by
  refine ⟨_, rfl, .email, .argument List.mem_cons_self rfl rfl, requests_of_ascii ?_ ?_⟩
  · decide
  · intro r hr hdirectory a ha
    have hall : ∀ r ∈ respellingClient.replyRules, r.condition = .fromDirectory →
        ∀ a ∈ r.argument.toList, IsAscii a := by decide +kernel
    exact hall r hr hdirectory a (Option.mem_toList.mpr ha)

/-- Beyond ASCII the two can part: the sign of the unit kelvin has the lower case of the letter, but
is compared as a character of its own, and keeps two spellings of the letter apart. -/
example : lower "\u212A" = lower "K" ∧ mergeNeighbours ["k", "\u212A", "K"] = ["k", "\u212A", "K"] := by
  decide +kernel

end AccessGate.FirstFactor
