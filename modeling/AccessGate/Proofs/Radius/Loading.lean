import Mathlib.Data.Finset.Card
import Mathlib.Data.List.ReduceOption
import AccessGate.Proofs.Checks
import AccessGate.Proofs.Radius.Definitions
import AccessGate.Proofs.Text.Numerals
import AccessGate.Proofs.Text.Words

/-!
# Dictionaries from texts

Loading a text goes line by line and stops at the first that is neither empty nor a definition. What
is on a line is told by how the line is put together (`States`), and from there follow:

* `result_ok_iff`, `result_error_iff`: which texts are loaded, with what count, and otherwise which
  line stops them;
* `effective_iff`: what takes effect, which are the definitions before that line;
* `load_exact`: and so, after any texts, what each look-up answers, which is the last definition of
  all that took effect, and how many names there are.
-/

namespace AccessGate.Radius.Dictionary

variable {d : Dictionary} {e : Entry} {raw : List Char} {ls : List (List Char)}

/-! ## 1. Lines -/

/-- What words define. The kind may be any word. -/
inductive Defines : List String → Entry → Prop
  | plain {keyword code name kind : String} {n : UInt8}
    (named : Text.sameIgnoringCase keyword "Attribute" = true)
    (coded : Numeral.Writes code.toList n.toNat) :
    Defines [keyword, code, name, kind] ⟨n, name, Kind.ofName kind, none⟩
  | vendor {keyword vendor code name kind : String} {v : UInt32} {n : UInt8}
    (named : Text.sameIgnoringCase keyword "VendorSpecificAttribute" = true)
    (numbered : Numeral.Writes vendor.toList v.toNat) (coded : Numeral.Writes code.toList n.toNat) :
    Defines [keyword, vendor, code, name, kind]
      ⟨Attribute.vendorSpecific, name, Kind.ofName kind, some ⟨v, n⟩⟩

/-- A line up to its comment. -/
def content (raw : List Char) : List Char := raw.takeWhile (· ≠ '#')

/-- What a line says: nothing, or a definition. -/
inductive States (raw : List Char) : Option Entry → Prop
  | nothing (blank : Text.Blank (content raw)) : States raw none
  | definition {ws : List String} {e : Entry} (spaced : Text.Spaced (content raw) ws)
    (defines : Defines ws e) : States raw (some e)

/-- A line that says something; any other is bad. -/
def Good (raw : List Char) : Prop := ∃ said, States raw said

theorem number_ok_iff {bound : Nat} {fault : String → Numeral.Fault → LineFault} {word : String}
    {n : Nat} : number bound fault word = .ok n ↔ Numeral.Writes word.toList n ∧ n ≤ bound := by
  rw [← Numeral.parseChars_ok_iff]
  unfold number Numeral.parse
  split
  · rename_i hread
    rw [hread, Except.ok.injEq, Except.ok.injEq]
  · rename_i hread
    rw [hread]
    exact ⟨nofun, nofun⟩

/-- A number is read as what it stands for, where that has room for all numbers in the bound. -/
theorem number_as_iff {α : Type} {ofNat : Nat → α} {toNat : α → Nat} {bound : Nat}
    (room : ∀ m ≤ bound, toNat (ofNat m) = m) (back : ∀ a, ofNat (toNat a) = a)
    (le : ∀ a, toNat a ≤ bound) {fault : String → Numeral.Fault → LineFault} {word : String}
    {a : α} : (∃ m, number bound fault word = .ok m ∧ ofNat m = a) ↔
      Numeral.Writes word.toList (toNat a) := by
  constructor
  · intro h
    obtain ⟨m, hm, rfl⟩ := h
    obtain ⟨hwrites, hle⟩ := number_ok_iff.mp hm
    rwa [room m hle]
  · intro hwrites
    exact ⟨toNat a, number_ok_iff.mpr ⟨hwrites, le a⟩, back a⟩

theorem number8_iff {fault : String → Numeral.Fault → LineFault} {word : String} {n : UInt8} :
    (∃ m, number Numeral.max8 fault word = .ok m ∧ UInt8.ofNat m = n) ↔
      Numeral.Writes word.toList n.toNat :=
  number_as_iff (fun _ hle => UInt8.toNat_ofNat_of_lt' (Nat.lt_succ_of_le hle))
    (fun _ => UInt8.ofNat_toNat) fun n => Nat.le_of_lt_succ n.toNat_lt

theorem number32_iff {fault : String → Numeral.Fault → LineFault} {word : String} {n : UInt32} :
    (∃ m, number Numeral.max32 fault word = .ok m ∧ UInt32.ofNat m = n) ↔
      Numeral.Writes word.toList n.toNat :=
  number_as_iff (fun _ hle => UInt32.toNat_ofNat_of_lt' (Nat.lt_succ_of_le hle))
    (fun _ => UInt32.ofNat_toNat) fun n => Nat.le_of_lt_succ n.toNat_lt

/-- **A line is a definition exactly as its words define one.** -/
theorem entryOfLine_ok_iff {line : String} :
    entryOfLine line = .ok e ↔ Defines (Text.words line) e := by
  constructor
  · intro h
    unfold entryOfLine at h
    split at h
    · rename_i keyword code name kind hwords
      rw [hwords]
      split at h
      · rename_i hnamed
        obtain ⟨n, hcode, hentry⟩ := bind_ok_iff.mp h
        rw [← Except.ok.inj hentry]
        exact .plain hnamed (number8_iff.mp ⟨n, hcode, rfl⟩)
      · cases h
    · rename_i keyword vendor code name kind hwords
      rw [hwords]
      split at h
      · rename_i hnamed
        obtain ⟨v, hvendor, h⟩ := bind_ok_iff.mp h
        obtain ⟨n, hcode, hentry⟩ := bind_ok_iff.mp h
        rw [← Except.ok.inj hentry]
        exact .vendor hnamed (number32_iff.mp ⟨v, hvendor, rfl⟩) (number8_iff.mp ⟨n, hcode, rfl⟩)
      · cases h
    · cases h
  · intro h
    generalize hwords : Text.words line = ws at h
    unfold entryOfLine
    rw [hwords]
    cases h with
    | plain named coded =>
      obtain ⟨n, hcode, rfl⟩ := number8_iff.mpr coded
      simp only [named, if_true]
      exact bind_ok_iff.mpr ⟨n, hcode, rfl⟩
    | vendor named numbered coded =>
      obtain ⟨v, hvendor, rfl⟩ := number32_iff.mpr numbered
      obtain ⟨n, hcode, rfl⟩ := number8_iff.mpr coded
      simp only [named, if_true]
      exact bind_ok_iff.mpr ⟨v, hvendor, bind_ok_iff.mpr ⟨n, hcode, rfl⟩⟩

/-! ## 2. What a line does -/

theorem stripped_isEmpty_iff : (stripped raw).isEmpty = true ↔ Text.Blank (content raw) := by
  rw [List.isEmpty_iff]
  exact Text.trimChars_eq_nil_iff

theorem defines_words_iff :
    Defines (Text.words (String.ofList (stripped raw))) e ↔ States raw (some e) := by
  have hwords : Text.words (String.ofList (stripped raw)) =
      Text.words (String.ofList (content raw)) := Text.words_trimChars (content raw)
  rw [hwords]
  constructor
  · intro h
    exact .definition (Text.words_eq_iff.mp rfl) h
  · intro h
    cases h with
    | definition spaced defines => rwa [Text.words_eq_iff.mpr spaced]

/-- A line with a definition is not empty. -/
theorem States.not_blank (h : States raw (some e)) : ¬ Text.Blank (content raw) := by
  intro hblank
  cases h with
  | definition spaced defines =>
    obtain rfl := (Text.words_eq_iff.mpr spaced).symm.trans (Text.words_eq_iff.mpr (.none hblank))
    cases defines

theorem States.isEmpty_stripped (h : States raw none) : (stripped raw).isEmpty = true := by
  cases h with
  | nothing blank => exact stripped_isEmpty_iff.mpr blank

theorem entryOfLine_of_states (h : States raw (some e)) :
    ¬ (stripped raw).isEmpty = true ∧ entryOfLine (String.ofList (stripped raw)) = .ok e :=
  ⟨mt stripped_isEmpty_iff.mp h.not_blank, entryOfLine_ok_iff.mpr (defines_words_iff.mpr h)⟩

theorem entryOfLine_of_bad (bad : ¬ Good raw) : ¬ (stripped raw).isEmpty = true ∧
    ∃ cause, entryOfLine (String.ofList (stripped raw)) = .error cause := by
  refine ⟨fun hblank => bad ⟨none, .nothing (stripped_isEmpty_iff.mp hblank)⟩, ?_⟩
  cases hline : entryOfLine (String.ofList (stripped raw)) with
  | ok e => exact absurd ⟨_, defines_words_iff.mp (entryOfLine_ok_iff.mp hline)⟩ bad
  | error cause => exact ⟨cause, rfl⟩

theorem loadLines_nothing (h : States raw none) (d : Dictionary) (lineNumber count : Nat)
    (rest : List (List Char)) :
    d.loadLines lineNumber count (raw :: rest) = d.loadLines (lineNumber + 1) count rest := by
  rw [loadLines]
  exact if_pos h.isEmpty_stripped

theorem loadLines_definition (h : States raw (some e)) (d : Dictionary) (lineNumber count : Nat)
    (rest : List (List Char)) : d.loadLines lineNumber count (raw :: rest) =
      (d.insert e).loadLines (lineNumber + 1) (count + 1) rest := by
  obtain ⟨hnonempty, hline⟩ := entryOfLine_of_states h
  rw [loadLines]
  refine (if_neg hnonempty).trans ?_
  rw [hline]

theorem loadLines_bad (bad : ¬ Good raw) (d : Dictionary) (lineNumber count : Nat)
    (rest : List (List Char)) : ∃ cause, d.loadLines lineNumber count (raw :: rest) =
      ⟨d, .error ⟨lineNumber, cause⟩⟩ := by
  obtain ⟨hnonempty, cause, hline⟩ := entryOfLine_of_bad bad
  refine ⟨cause, ?_⟩
  rw [loadLines]
  refine (if_neg hnonempty).trans ?_
  rw [hline]

theorem definitionsOf_nothing (h : States raw none) (rest : List (List Char)) :
    definitionsOf (raw :: rest) = definitionsOf rest := by
  rw [definitionsOf]
  exact if_pos h.isEmpty_stripped

theorem definitionsOf_definition (h : States raw (some e)) (rest : List (List Char)) :
    definitionsOf (raw :: rest) = e :: definitionsOf rest := by
  obtain ⟨hnonempty, hline⟩ := entryOfLine_of_states h
  rw [definitionsOf]
  refine (if_neg hnonempty).trans ?_
  rw [hline]

theorem definitionsOf_bad (bad : ¬ Good raw) (rest : List (List Char)) :
    definitionsOf (raw :: rest) = [] := by
  obtain ⟨hnonempty, cause, hline⟩ := entryOfLine_of_bad bad
  rw [definitionsOf]
  refine (if_neg hnonempty).trans ?_
  rw [hline]

/-! ## 3. What lines do -/

/-- The lines that are not empty. -/
def written (ls : List (List Char)) : List (List Char) :=
  ls.filter fun raw => ¬ Text.Blank (content raw)

/-- What takes effect: what the lines before the first bad one define. -/
inductive Effective : List (List Char) → List Entry → Prop
  | intro {before after : List (List Char)} {said : List (Option Entry)}
    (states : List.Forall₂ States before said) (stops : ∀ raw ∈ after.head?, ¬ Good raw) :
    Effective (before ++ after) said.reduceOption

variable {before after : List (List Char)} {said : List (Option Entry)}

theorem States.written_cons (h : States raw none) (rest : List (List Char)) :
    written (raw :: rest) = written rest := by
  cases h with
  | nothing blank => exact List.filter_cons_of_neg (by simpa using blank)

/-- **Good lines add what they define**, and each that is not empty counts. -/
theorem loadLines_append (states : List.Forall₂ States before said) (d : Dictionary)
    (lineNumber count : Nat) (after : List (List Char)) :
    d.loadLines lineNumber count (before ++ after) =
      (d.insertAll said.reduceOption).loadLines (lineNumber + before.length)
        (count + (written before).length) after := by
  induction states generalizing d lineNumber count with
  | nil => rfl
  | @cons raw o before said h _ ih =>
    -- the line moves to the front of both counts, where one step of the loop has put it
    rw [List.cons_append, List.length_cons, Nat.add_comm before.length, ← Nat.add_assoc]
    cases o with
    | none => rw [loadLines_nothing h, ih, h.written_cons, List.reduceOption_cons_of_none]
    | some e =>
      have hwritten : written (raw :: before) = raw :: written before :=
        List.filter_cons_of_pos (by simpa using h.not_blank)
      rw [loadLines_definition h, ih, hwritten, List.reduceOption_cons_of_some, List.length_cons,
        Nat.add_comm (written before).length, ← Nat.add_assoc]
      rfl

/-- Lines are all good, or there is a first bad one. -/
theorem good_or_stopped (ls : List (List Char)) :
    (∀ raw ∈ ls, Good raw) ∨ ∃ before bad after, ls = before ++ bad :: after ∧
      (∀ raw ∈ before, Good raw) ∧ ¬ Good bad := by
  induction ls with
  | nil => exact Or.inl nofun
  | cons raw rest ih =>
    by_cases hgood : Good raw
    · rcases ih with hall | ⟨before, bad, after, rfl, hbefore, hbad⟩
      · exact Or.inl (List.forall_mem_cons.mpr ⟨hgood, hall⟩)
      · exact Or.inr ⟨raw :: before, bad, after, rfl,
          List.forall_mem_cons.mpr ⟨hgood, hbefore⟩, hbad⟩
    · exact Or.inr ⟨[], raw, rest, rfl, nofun, hgood⟩

theorem exists_states (good : ∀ raw ∈ ls, Good raw) : ∃ said, List.Forall₂ States ls said := by
  induction ls with
  | nil => exact ⟨[], .nil⟩
  | cons raw rest ih =>
    obtain ⟨⟨o, ho⟩, hrest⟩ := List.forall_mem_cons.mp good
    obtain ⟨said, hsaid⟩ := ih hrest
    exact ⟨o :: said, .cons ho hsaid⟩

theorem exists_effective (ls : List (List Char)) : ∃ es, Effective ls es := by
  rcases good_or_stopped ls with hall | ⟨before, bad, after, rfl, hbefore, hbad⟩
  · obtain ⟨said, hsaid⟩ := exists_states hall
    have heffective := @Effective.intro ls [] said hsaid nofun
    rw [List.append_nil] at heffective
    exact ⟨_, heffective⟩
  · obtain ⟨said, hsaid⟩ := exists_states hbefore
    exact ⟨_, .intro hsaid fun raw hraw => Option.some.inj hraw ▸ hbad⟩

theorem definitionsOf_append (states : List.Forall₂ States before said)
    (after : List (List Char)) :
    definitionsOf (before ++ after) = said.reduceOption ++ definitionsOf after := by
  induction states with
  | nil => rfl
  | @cons raw o before said h _ ih =>
    rw [List.cons_append]
    cases o with
    | none => rw [definitionsOf_nothing h, ih, List.reduceOption_cons_of_none]
    | some e =>
      rw [definitionsOf_definition h, ih, List.reduceOption_cons_of_some, List.cons_append]

theorem Effective.eq_definitionsOf {es : List Entry} (h : Effective ls es) :
    es = definitionsOf ls := by
  cases h with
  | @intro before after said states stops =>
    rw [definitionsOf_append states]
    cases after with
    | nil => exact (List.append_nil _).symm
    | cons bad after => rw [definitionsOf_bad (stops bad rfl), List.append_nil]

/-- There is one list of definitions that takes effect. -/
theorem effective_iff {es : List Entry} : Effective ls es ↔ es = definitionsOf ls := by
  constructor
  · exact Effective.eq_definitionsOf
  · intro hes
    obtain ⟨es', heffective⟩ := exists_effective ls
    rwa [hes, ← heffective.eq_definitionsOf]

theorem result_of_good (good : ∀ raw ∈ ls, Good raw) (d : Dictionary) (lineNumber count : Nat) :
    (d.loadLines lineNumber count ls).result = .ok (count + (written ls).length) := by
  obtain ⟨said, hsaid⟩ := exists_states good
  have happend := loadLines_append hsaid d lineNumber count []
  rw [List.append_nil] at happend
  rw [happend]
  rfl

theorem result_of_bad (good : ∀ raw ∈ before, Good raw) (bad : ¬ Good raw) (d : Dictionary)
    (lineNumber count : Nat) (after : List (List Char)) :
    ∃ cause, (d.loadLines lineNumber count (before ++ raw :: after)).result =
      .error ⟨lineNumber + before.length, cause⟩ := by
  obtain ⟨said, hsaid⟩ := exists_states good
  obtain ⟨cause, hcause⟩ := loadLines_bad bad (d.insertAll said.reduceOption)
    (lineNumber + before.length) (count + (written before).length) after
  exact ⟨cause, by rw [loadLines_append hsaid, hcause]⟩

/-- **Lines are loaded exactly if all are good**, and counted if they are not empty. -/
theorem result_ok_iff {lineNumber count n : Nat} :
    (d.loadLines lineNumber count ls).result = .ok n ↔
      (∀ raw ∈ ls, Good raw) ∧ n = count + (written ls).length := by
  constructor
  · intro h
    rcases good_or_stopped ls with hall | ⟨before, bad, after, rfl, hbefore, hbad⟩
    · rw [result_of_good hall] at h
      exact ⟨hall, (Except.ok.inj h).symm⟩
    · obtain ⟨cause, hcause⟩ := result_of_bad hbefore hbad d lineNumber count after
      rw [hcause] at h
      cases h
  · intro ⟨hall, hn⟩
    rw [result_of_good hall, hn]

/-- **Otherwise the first bad line is told.** -/
theorem result_error_iff {lineNumber count k : Nat} :
    (∃ cause, (d.loadLines lineNumber count ls).result = .error ⟨k, cause⟩) ↔
      ∃ before bad after, ls = before ++ bad :: after ∧ (∀ raw ∈ before, Good raw) ∧ ¬ Good bad ∧
        k = lineNumber + before.length := by
  constructor
  · intro ⟨cause, h⟩
    rcases good_or_stopped ls with hall | ⟨before, bad, after, rfl, hbefore, hbad⟩
    · rw [result_of_good hall] at h
      cases h
    · obtain ⟨cause', hcause'⟩ := result_of_bad hbefore hbad d lineNumber count after
      rw [hcause'] at h
      cases h
      exact ⟨before, bad, after, rfl, hbefore, hbad, rfl⟩
  · intro ⟨before, bad, after, hcut, hbefore, hbad, hk⟩
    obtain ⟨cause, hcause⟩ := result_of_bad hbefore hbad d lineNumber count after
    exact ⟨cause, by rw [hcut, hk, hcause]⟩

/-! ## 4. Texts one after the other -/

/-- What loading a text does. -/
structure LoadsExactly (d : Dictionary) (text : String) : Prop where
  /-- It succeeds if all lines are good, with the number of those that are not empty. -/
  ok_iff : ∀ n, (d.load text).result = .ok n ↔
    (∀ raw ∈ Text.lines text, Good raw) ∧ n = (written (Text.lines text)).length
  /-- Otherwise it tells the first bad line, counted from one. -/
  error_iff : ∀ k, (∃ cause, (d.load text).result = .error ⟨k, cause⟩) ↔
    ∃ before bad after, Text.lines text = before ++ bad :: after ∧ (∀ raw ∈ before, Good raw) ∧
      ¬ Good bad ∧ k = before.length + 1
  /-- Either way it adds what the lines before that define, and no more. -/
  effect : ∃ es, (∀ es', Effective (Text.lines text) es' ↔ es' = es) ∧
    (d.load text).dictionary = d.insertAll es

/-- What is found after definitions were added to a dictionary: the last of them with the key, or
else what was found before. Every name counts once. -/
structure Finds (d : Dictionary) (es : List Entry) (d' : Dictionary) : Prop where
  byCode : ∀ code e, d'.byCode? code = some e ↔
    IsLast (fun e => e.vendor = none ∧ e.code = code) ((d.byCode? code).toList ++ es) e
  byVendor : ∀ key e, d'.byVendor? key = some e ↔
    IsLast (fun e => e.vendor = some key) ((d.byVendor? key).toList ++ es) e
  byName : ∀ name e, d'.byName? name = some e ↔
    IsLast (fun e => Name.same e.name name = true) ((d.byName? name).toList ++ es) e
  size : d'.size = (d.names.keys ++ es.map fun e => e.name.toLower).toFinset.card

/-- The dictionary after texts. -/
def loadAll (d : Dictionary) (texts : List String) : Dictionary :=
  texts.foldl (fun d text => (d.load text).dictionary) d

theorem loadsExactly (d : Dictionary) (text : String) : LoadsExactly d text := by
  refine ⟨fun n => ?_, fun k => ?_, ?_⟩
  · rw [load, result_ok_iff, Nat.zero_add]
  · rw [load, result_error_iff]
    simp only [Nat.add_comm 1]
  · exact ⟨_, fun _ => effective_iff, dictionary_loadLines d 1 0 _⟩

theorem finds_insertAll (d : Dictionary) (es : List Entry) : Finds d es (d.insertAll es) :=
  ⟨byCode?_insertAll d es, byVendor?_insertAll d es, byName?_insertAll d es, size_insertAll d es⟩

/-- Texts add what takes effect of each, one after the other. -/
theorem loadAll_eq (d : Dictionary) (texts : List String) :
    d.loadAll texts = d.insertAll (texts.flatMap fun text => definitionsOf (Text.lines text)) := by
  have hextend : d.loadAll texts = (texts.map Addition.file).foldl extend d := by
    rw [List.foldl_map]
    rfl
  rw [hextend, foldl_extend, List.flatMap_map]
  rfl

/-- **Dictionaries are loaded exactly**: each text counts its definitions or tells its first bad line,
and after any texts the last of all definitions before such a line is found. Of a dictionary that was
built of definitions these stand before them. -/
theorem load_exact :
    (∀ d text, LoadsExactly d text) ∧
      ∀ texts, ∃ ess, List.Forall₂ (fun text es => Effective (Text.lines text) es) texts ess ∧
        (∀ d : Dictionary, Finds d ess.flatten (d.loadAll texts)) ∧
          ∀ es, Finds empty (es ++ ess.flatten) ((empty.insertAll es).loadAll texts) := by
  refine ⟨loadsExactly, fun texts =>
    ⟨texts.map fun text => definitionsOf (Text.lines text), ?_, fun d => ?_, fun es => ?_⟩⟩
  · rw [List.forall₂_map_right_iff, List.forall₂_same]
    exact fun text _ => effective_iff.mpr rfl
  · rw [← List.flatMap_def, loadAll_eq]
    exact finds_insertAll d _
  · rw [← List.flatMap_def, loadAll_eq, ← insertAll_append]
    exact finds_insertAll empty _

/-- Comments and empty lines count as lines, and what was defined before the bad one stays. -/
example : let loaded := empty.load "Attribute 1 User-Name string # who\n\nAttribute abc Broken string\n"
    loaded.result = .error ⟨3, .attributeCode "abc" .foreignCharacter⟩ ∧
      loaded.dictionary.codes.rows = [(1, ⟨1, "User-Name", .text, none⟩)] := by
  decide +kernel

end AccessGate.Radius.Dictionary
