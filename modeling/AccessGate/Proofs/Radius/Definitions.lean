import Mathlib.Data.List.Induction
import AccessGate.Proofs.Radius.Lookups

/-!
# A definition under its two keys

A definition is found under its place, which is what its values are read and written under, and
under its name. A new definition takes over each of the two on its own, and so the two can part.

* `atPlace?_insert`: what a new definition takes over at its place, as `byName?_insert` says of names;
* `agrees_insert_iff`: both keys go on leading to the same definitions exactly if the new one takes
  over nothing, or one definition under both keys (`Admits`);
* `agrees_all_along_iff`: so it is along every sequence of definitions, given one by one or by
  texts, on top of the standard ones (`agrees_standard`);
* `class_moved`: and a definition that moves a name to another code leaves the old code behind.
-/

namespace AccessGate.Radius.Dictionary

variable {d : Dictionary} {e old : Entry}

/-! ## 1. Two keys -/

/-- Both keys of a definition lead to it. -/
structure Agrees (d : Dictionary) : Prop where
  ofCode : ∀ code e, d.byCode? code = some e → d.byName? e.name = some e
  ofVendor : ∀ key e, d.byVendor? key = some e → d.byName? e.name = some e
  ofName : ∀ name e, d.byName? name = some e → d.Refinds e

/-- The definition of a place. -/
def atPlace? (d : Dictionary) : Place → Option Entry
  | .code code => d.byCode? code
  | .vendor key => d.byVendor? key

theorem refinds_iff : d.Refinds e ↔ d.atPlace? e.place = some e := by
  unfold Refinds Entry.place
  cases e.vendor <;> rfl

theorem place_of_atPlace? {place : Place} (h : d.atPlace? place = some e) : e.place = place := by
  unfold Entry.place
  cases place with
  | code code =>
    obtain ⟨-, hvendor, hcode⟩ := of_byCode? h
    rw [hvendor, ← hcode]
  | vendor key => rw [(of_byVendor? h).2]

/-- The agreement in terms of places. -/
theorem agrees_iff : d.Agrees ↔
    (∀ place e, d.atPlace? place = some e → d.byName? e.name = some e) ∧
      ∀ name e, d.byName? name = some e → d.atPlace? e.place = some e := by
  constructor
  · intro h
    refine ⟨fun place e he => ?_, fun name e he => refinds_iff.mp (h.ofName name e he)⟩
    cases place with
    | code code => exact h.ofCode code e he
    | vendor key => exact h.ofVendor key e he
  · intro ⟨hplace, hname⟩
    exact ⟨fun code => hplace (.code code), fun key => hplace (.vendor key),
      fun name e he => refinds_iff.mpr (hname name e he)⟩

/-! ## 2. One more definition -/

theorem atPlace?_insert (d : Dictionary) (e : Entry) (place : Place) :
    (d.insert e).atPlace? place = if e.place = place then some e else d.atPlace? place := by
  have hplace : e.place = place ↔ match place with
      | .code code => e.vendor = none ∧ e.code = code
      | .vendor key => e.vendor = some key := by
    unfold Entry.place
    cases e.vendor <;> cases place <;> simp
  cases place with
  | code code =>
    simp only [hplace]
    exact byCode?_insert d e code
  | vendor key =>
    simp only [hplace]
    exact byVendor?_insert d e key

/-- A definition that takes over nothing, or one definition under both keys. -/
structure Admits (d : Dictionary) (e : Entry) : Prop where
  name : ∀ old, d.atPlace? e.place = some old → Name.same old.name e.name = true
  place : ∀ old, d.byName? e.name = some old → old.place = e.place

/-- A definition that is not admitted leaves one behind that is found under one key alone. -/
theorem admits_of_agrees (h : d.Agrees) (h' : (d.insert e).Agrees) : d.Admits e := by
  obtain ⟨hplace, hname⟩ := agrees_iff.mp h
  obtain ⟨hplace', hname'⟩ := agrees_iff.mp h'
  refine ⟨fun old hold => ?_, fun old hold => ?_⟩
  · -- the old definition would still be found under its name, and no more at its place
    by_contra hother
    have hnamed : (d.insert e).byName? old.name = some old := by
      rw [byName?_insert, Name.same_comm, if_neg hother]
      exact hplace e.place old hold
    have hfound := hname' old.name old hnamed
    rw [atPlace?_insert, place_of_atPlace? hold, if_pos rfl] at hfound
    rw [Option.some.inj hfound] at hother
    exact hother (Name.same_iff.mpr rfl)
  · -- it would still be found at its place, and no more under its name
    by_contra hother
    have hfound : (d.insert e).atPlace? old.place = some old := by
      rw [atPlace?_insert, if_neg fun heq => hother heq.symm]
      exact hname e.name old hold
    have hsame : Name.same e.name old.name = true := by
      rw [Name.same_comm]
      exact (of_byName? hold).2
    have hnamed := hplace' old.place old hfound
    rw [byName?_insert, if_pos hsame] at hnamed
    rw [Option.some.inj hnamed] at hother
    exact hother rfl

theorem agrees_insert (h : d.Agrees) (admits : d.Admits e) : (d.insert e).Agrees := by
  obtain ⟨hplace, hname⟩ := agrees_iff.mp h
  refine agrees_iff.mpr ⟨fun place x hx => ?_, fun name x hx => ?_⟩
  · rw [atPlace?_insert] at hx
    split at hx
    · obtain rfl := Option.some.inj hx
      rw [byName?_insert, if_pos (Name.same_iff.mpr rfl)]
    · rename_i hne
      have hx' := hplace place x hx
      have hother : ¬ Name.same e.name x.name = true := by
        intro hsame
        have hnamed : d.byName? e.name = some x := by
          rw [byName?_congr hsame]
          exact hx'
        rw [← admits.place x hnamed, place_of_atPlace? hx] at hne
        exact hne rfl
      rw [byName?_insert, if_neg hother, hx']
  · rw [byName?_insert] at hx
    split at hx
    · obtain rfl := Option.some.inj hx
      rw [atPlace?_insert, if_pos rfl]
    · rename_i hne
      have hx' := hname name x hx
      have hother : e.place ≠ x.place := by
        intro heq
        have hsame := Name.same_iff.mp (admits.name x (heq ▸ hx'))
        refine hne (Name.same_iff.mpr ?_)
        rw [← hsame, Name.same_iff.mp ((of_byName? hx).2)]
      rw [atPlace?_insert, if_neg hother, hx']

/-- **One more definition keeps the agreement exactly if it is admitted.** -/
theorem agrees_insert_iff (h : d.Agrees) : (d.insert e).Agrees ↔ d.Admits e :=
  ⟨admits_of_agrees h, agrees_insert h⟩

/-! ## 3. Sequences of definitions -/

/-- The definitions on lines up to the first that is none. -/
def definitionsOf : List (List Char) → List Entry
  | [] => []
  | raw :: rest =>
    if (stripped raw).isEmpty then definitionsOf rest
    else
      match entryOfLine (String.ofList (stripped raw)) with
      | .ok e => e :: definitionsOf rest
      | .error _ => []

theorem dictionary_loadLines (d : Dictionary) (lineNumber count : Nat) (ls : List (List Char)) :
    (d.loadLines lineNumber count ls).dictionary = d.insertAll (definitionsOf ls) := by
  induction ls generalizing d lineNumber count with
  | nil => rfl
  | cons raw rest ih =>
    unfold loadLines definitionsOf
    by_cases hblank : (stripped raw).isEmpty = true
    · simp only [hblank, ↓reduceIte]
      exact ih d _ _
    · cases hline : entryOfLine (String.ofList (stripped raw)) with
      | ok e =>
        simp only [hblank, hline]
        exact ih (d.insert e) _ _
      | error cause =>
        simp only [hblank, hline]
        rfl

/-- What a dictionary is extended by: a definition, or the text of a file. -/
inductive Addition where
  | definition (e : Entry)
  | file (text : String)

/-- The definitions that it adds, in order. -/
def Addition.definitions : Addition → List Entry
  | .definition e => [e]
  | .file text => definitionsOf (Text.lines text)

/-- The dictionary with an addition. -/
def extend (d : Dictionary) : Addition → Dictionary
  | .definition e => d.insert e
  | .file text => (d.load text).dictionary

theorem extend_eq (d : Dictionary) (a : Addition) : d.extend a = d.insertAll a.definitions := by
  cases a with
  | definition e => rfl
  | file text => exact dictionary_loadLines d 1 0 _

theorem foldl_extend (d : Dictionary) (additions : List Addition) :
    additions.foldl extend d = d.insertAll (additions.flatMap Addition.definitions) := by
  induction additions generalizing d with
  | nil => rfl
  | cons a rest ih =>
    rw [List.foldl_cons, ih, extend_eq, List.flatMap_cons, insertAll_append]

/-- Each definition is admitted by those before it. -/
def Orderly (d : Dictionary) (es : List Entry) : Prop :=
  ∀ earlier e, earlier ++ [e] <+: es → (d.insertAll earlier).Admits e

/-- **The agreement lasts exactly as long as each new definition is admitted.** -/
theorem agrees_iff_orderly (h : d.Agrees) (es : List Entry) :
    (∀ earlier, earlier <+: es → (d.insertAll earlier).Agrees) ↔ d.Orderly es := by
  constructor
  · intro all earlier e hpre
    have hbefore := all earlier ((List.prefix_append earlier [e]).trans hpre)
    refine (agrees_insert_iff hbefore).mp ?_
    rw [← insertAll_concat]
    exact all _ hpre
  · intro orderly earlier hpre
    induction earlier using List.reverseRecOn with
    | nil => exact h
    | append_singleton earlier e ih =>
      have hbefore := ih ((List.prefix_append earlier [e]).trans hpre)
      rw [insertAll_concat]
      exact (agrees_insert_iff hbefore).mpr (orderly earlier e hpre)

/-- The standard definitions agree. -/
theorem agrees_standard : standard.Agrees := by
  refine ⟨fun code e he => ?_, fun key e he => ?_, fun name e he => ?_⟩
  · exact byName?_standard (of_byCode? he).1
  · exact byName?_standard (of_byVendor? he).1
  · exact refinds_standard (of_byName? he).1

/-- **Places and names of a gateway's dictionary go together** exactly as long as each definition
that is added, by itself or in a text, takes over nothing or one definition under both keys. -/
theorem agrees_all_along_iff (additions : List Addition) :
    additions.foldl extend standard =
        standard.insertAll (additions.flatMap Addition.definitions) ∧
      ((∀ es, es <+: additions.flatMap Addition.definitions → (standard.insertAll es).Agrees) ↔
        standard.Orderly (additions.flatMap Addition.definitions)) :=
  ⟨foldl_extend standard additions, agrees_iff_orderly agrees_standard _⟩

/-- The standard definitions, and a text that defines a name of theirs under another code. -/
def withMovedClass : Dictionary := [Addition.file "Attribute 250 Class string\n"].foldl extend standard

/-- The old code keeps the old definition, which is no more the one of its name. -/
theorem class_moved :
    withMovedClass.byCode? 25 = some ⟨25, "Class", .octets, none⟩ ∧
      withMovedClass.byName? "Class" = some ⟨250, "Class", .text, none⟩ ∧
        ¬ withMovedClass.Agrees := by
  have hloaded : withMovedClass = standard.insert ⟨250, "Class", .text, none⟩ := by
    have hlines : definitionsOf (Text.lines "Attribute 250 Class string\n") =
        [⟨250, "Class", .text, none⟩] := by decide +kernel
    refine (foldl_extend standard _).trans ?_
    show standard.insertAll (definitionsOf _ ++ []) = _
    rw [hlines]
    rfl
  have hcode : withMovedClass.byCode? 25 = some ⟨25, "Class", .octets, none⟩ := by
    have hmem : ⟨25, "Class", .octets, none⟩ ∈ standardEntries := by decide +kernel
    rw [hloaded, byCode?_insert, if_neg (by decide)]
    exact byCode?_standard (mem_standard_iff.mpr hmem) rfl
  have hname : withMovedClass.byName? "Class" = some ⟨250, "Class", .text, none⟩ := by
    rw [hloaded, byName?_insert, if_pos (Name.same_iff.mpr rfl)]
  refine ⟨hcode, hname, fun h => ?_⟩
  have hagree := h.ofCode 25 _ hcode
  rw [hname] at hagree
  exact absurd hagree (by decide)

end AccessGate.Radius.Dictionary
