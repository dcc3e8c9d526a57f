import Mathlib.Data.List.DropRight
import AccessGate.Text.Blank
import AccessGate.Text.Lower

/-!
# Texts up to case and blanks

How texts are compared, trimmed and split into words, told by how a text is put together and not by
how it is taken apart:

* `sameIgnoringCase_iff_letters`: texts that are alike but for the case of ASCII letters, and
  `sameIgnoringCase_iff_lower`: on ASCII texts that is to have one lower case;
* `Padded`: blanks around characters that neither begin nor end with one, and `trimChars_eq_iff`:
  those characters are what trimming leaves;
* `Spaced`: words with blanks around and between them, and `words_eq_iff`: they are the words of the
  text. Blanks at the ends make no difference to them (`words_trimChars`).
-/

namespace AccessGate.Text

variable {a b : String} {cs core : List Char}

/-! ## 1. Case -/

theorem sameIgnoringCase_iff : sameIgnoringCase a b = true ↔ a.toLower = b.toLower := beq_iff_eq

/-- Letter by letter. -/
theorem sameIgnoringCase_iff_letters :
    sameIgnoringCase a b = true ↔ a.toList.map Char.toLower = b.toList.map Char.toLower := by
  rw [sameIgnoringCase_iff, ← String.toList_inj]
  unfold String.toLower
  rw [String.toList_map, String.toList_map]

/-- Only capital letters have another lower case. -/
theorem toLower_of_small {c : Char} (h : ¬ (65 ≤ c.toNat ∧ c.toNat ≤ 90)) : c.toLower = c := by
  unfold Char.toLower
  refine dif_neg fun hcapital => h ?_
  exact ⟨UInt32.le_iff_toNat_le.mp hcapital.1, UInt32.le_iff_toNat_le.mp hcapital.2⟩

/-- Blanks have no case. -/
theorem toLower_of_isBlank {c : Char} (h : isBlank c = true) : c.toLower = c := by
  refine toLower_of_small fun hcapital => ?_
  unfold isBlank at h
  simp only [Bool.or_eq_true, Bool.and_eq_true, decide_eq_true_eq, beq_iff_eq] at h
  omega

/-- The characters are ASCII. -/
def IsAscii (text : String) : Prop := ∀ c ∈ text.toList, c.toNat < 128

instance (text : String) : Decidable (IsAscii text) :=
  List.decidableBAll (fun c : Char => c.toNat < 128) text.toList

/-- The lower case of ASCII characters is their own, whatever stands around them. -/
theorem lowerAfter_of_ascii {cs : List Char} (ascii : ∀ c ∈ cs, c.toNat < 128)
    (before : List Char) : lowerAfter before cs = cs.map Char.toLower := by
  induction cs generalizing before with
  | nil => rfl
  | cons c cs ih =>
    have hc := ascii c List.mem_cons_self
    have hdotted : c ≠ 'İ' := fun h => absurd (h ▸ hc) (by decide)
    have hsigma : c ≠ 'Σ' := fun h => absurd (h ▸ hc) (by decide)
    have hsimple : lowerSimple c = c.toLower := if_pos hc
    rw [lowerAfter, if_neg hdotted, if_neg hsigma, hsimple,
      ih fun d hd => ascii d (List.mem_cons_of_mem _ hd)]
    rfl

theorem lower_of_ascii (ascii : IsAscii a) : lower a = a.toLower := by
  unfold lower String.toLower
  rw [lowerAfter_of_ascii ascii, ← String.toList_inj, String.toList_ofList, String.toList_map]

/-- **On ASCII texts the two ways to leave case aside agree.** -/
theorem sameIgnoringCase_iff_lower (ha : IsAscii a) (hb : IsAscii b) :
    sameIgnoringCase a b = true ↔ lower a = lower b := by
  rw [lower_of_ascii ha, lower_of_ascii hb]
  exact sameIgnoringCase_iff

/-! ## 2. Trimming -/

/-- Nothing but blanks. -/
def Blank (cs : List Char) : Prop := ∀ c ∈ cs, isBlank c = true

instance (cs : List Char) : Decidable (Blank cs) :=
  List.decidableBAll (fun c => isBlank c = true) cs

/-- Blanks neither at the beginning nor at the end. -/
structure Trimmed (cs : List Char) : Prop where
  head : ∀ c ∈ cs.head?, isBlank c = false
  last : ∀ c ∈ cs.getLast?, isBlank c = false

theorem trimmed_iff : Trimmed cs ↔
    cs.head?.all (fun c => !isBlank c) = true ∧ cs.getLast?.all (fun c => !isBlank c) = true := by
  simp only [Option.all_eq_true, Bool.not_eq_true']
  exact ⟨fun h => ⟨h.head, h.last⟩, fun h => ⟨h.1, h.2⟩⟩

instance (cs : List Char) : Decidable (Trimmed cs) := decidable_of_iff _ trimmed_iff.symm

theorem blank_nil : Blank [] := fun _ h => absurd h List.not_mem_nil

theorem trimmed_nil : Trimmed [] :=
  ⟨fun _ h => absurd h (Option.not_mem_none _), fun _ h => absurd h (Option.not_mem_none _)⟩

/-- Blanks around characters that have none at their ends. -/
inductive Padded : List Char → List Char → Prop where
  | intro {before core after : List Char} (blank : Blank before) (trimmed : Trimmed core)
      (blank' : Blank after) : Padded (before ++ core ++ after) core

theorem trimChars_eq (cs : List Char) : trimChars cs = (cs.dropWhile isBlank).rdropWhile isBlank := rfl

theorem trimmed_trimChars (cs : List Char) : Trimmed (trimChars cs) := by
  constructor
  · intro c hc
    obtain ⟨tail, hprefix⟩ := List.rdropWhile_prefix (p := isBlank) (l := cs.dropWhile isBlank)
    have hhead : (cs.dropWhile isBlank).head? = some c := by
      rw [← hprefix, List.head?_append]
      exact Option.or_eq_some_iff.mpr (Or.inl hc)
    have hnot := List.head?_dropWhile_not isBlank cs
    rw [hhead] at hnot
    exact hnot
  · intro c hc
    have hne : trimChars cs ≠ [] := List.ne_nil_of_mem (List.mem_of_getLast? hc)
    have hlast := List.rdropWhile_last_not isBlank (cs.dropWhile isBlank) hne
    rw [List.getLast?_eq_some_getLast hne] at hc
    rw [← Option.some.inj hc]
    exact Bool.eq_false_iff.mpr hlast

theorem padded_trimChars (cs : List Char) : Padded cs (trimChars cs) := by
  have hcs : cs = cs.takeWhile isBlank ++ trimChars cs ++
      (cs.dropWhile isBlank).rtakeWhile isBlank := by
    rw [List.append_assoc, trimChars_eq, List.rdropWhile_append_rtakeWhile,
      List.takeWhile_append_dropWhile]
  have hpadded : Padded _ (trimChars cs) := @Padded.intro (cs.takeWhile isBlank)
    (trimChars cs) ((cs.dropWhile isBlank).rtakeWhile isBlank)
    (fun c hc => List.mem_takeWhile_imp hc) (trimmed_trimChars cs)
    (fun c hc => List.mem_rtakeWhile_imp hc)
  rwa [← hcs] at hpadded

theorem rdropWhile_blank (cs : List Char) {after : List Char} (blank : Blank after) :
    (cs ++ after).rdropWhile isBlank = cs.rdropWhile isBlank := by
  unfold List.rdropWhile
  rw [List.reverse_append, List.dropWhile_append_of_pos fun c hc => blank c (List.mem_reverse.mp hc)]

theorem Trimmed.rdropWhile (h : Trimmed core) : core.rdropWhile isBlank = core := by
  rw [List.rdropWhile_eq_self_iff]
  exact fun hne => Bool.eq_false_iff.mp (h.last _ (List.getLast?_eq_some_getLast hne))

/-- **Trimming takes off the blanks around.** -/
theorem trimChars_eq_iff : trimChars cs = core ↔ Padded cs core := by
  constructor
  · intro h
    rw [← h]
    exact padded_trimChars cs
  · intro h
    cases h with
    | intro blank trimmed blank' =>
      rw [trimChars_eq, List.append_assoc, List.dropWhile_append_of_pos blank]
      cases core with
      | nil =>
        rw [List.nil_append, List.dropWhile_eq_nil_iff.mpr blank']
        rfl
      | cons c core =>
        have hc := Bool.eq_false_iff.mp (trimmed.head c rfl)
        rw [List.cons_append, List.dropWhile_cons_of_neg hc, ← List.cons_append,
          rdropWhile_blank _ blank', trimmed.rdropWhile]

theorem Trimmed.trimChars (h : Trimmed core) : trimChars core = core := by
  have hpadded := Padded.intro blank_nil h blank_nil
  rw [List.append_nil, List.nil_append] at hpadded
  exact trimChars_eq_iff.mpr hpadded

theorem trimChars_eq_nil_iff : trimChars cs = [] ↔ Blank cs := by
  rw [trimChars_eq_iff]
  constructor
  · intro h
    generalize hcore : ([] : List Char) = core at h
    cases h with
    | intro blank trimmed blank' =>
      subst hcore
      rw [List.append_nil]
      exact List.forall_mem_append.mpr ⟨blank, blank'⟩
  · intro h
    have hpadded := Padded.intro h trimmed_nil blank_nil
    rwa [List.append_nil, List.append_nil] at hpadded

/-! ## 3. Words -/

theorem splitChars_ne_nil (p : Char → Bool) (cs : List Char) : splitChars p cs ≠ [] := by
  cases cs with
  | nil => exact List.cons_ne_nil _ _
  | cons c cs =>
    unfold splitChars
    split <;> split <;> exact List.cons_ne_nil _ _

theorem splitChars_cons (p : Char → Bool) (c : Char) (cs : List Char) : ∃ piece pieces,
    splitChars p cs = piece :: pieces ∧
      splitChars p (c :: cs) = if p c then [] :: piece :: pieces else (c :: piece) :: pieces := by
  obtain ⟨piece, pieces, hpieces⟩ := List.exists_cons_of_ne_nil (splitChars_ne_nil p cs)
  refine ⟨piece, pieces, hpieces, ?_⟩
  rw [splitChars, hpieces]

/-- The words of characters. -/
def wordsOf (cs : List Char) : List String :=
  ((splitChars isBlank cs).filter fun w => !w.isEmpty).map String.ofList

theorem words_ofList (cs : List Char) : words (String.ofList cs) = wordsOf cs := by
  unfold words wordsOf
  rw [String.toList_ofList]

theorem wordsOf_blank {before : List Char} (blank : Blank before) (cs : List Char) :
    wordsOf (before ++ cs) = wordsOf cs := by
  induction before with
  | nil => rfl
  | cons c before ih =>
    obtain ⟨hc, hbefore⟩ := List.forall_mem_cons.mp blank
    obtain ⟨piece, pieces, hpieces, hsplit⟩ := splitChars_cons isBlank c (before ++ cs)
    rw [← ih hbefore]
    unfold wordsOf
    rw [List.cons_append, hsplit, if_pos hc, hpieces]
    rfl

/-- What has no blank belongs to the first piece. -/
theorem splitChars_solid {p : Char → Bool} {w rest : List Char} {piece : List Char}
    {pieces : List (List Char)} (solid : ∀ c ∈ w, p c = false)
    (hrest : splitChars p rest = piece :: pieces) :
    splitChars p (w ++ rest) = (w ++ piece) :: pieces := by
  induction w with
  | nil => exact hrest
  | cons c w ih =>
    obtain ⟨hc, hw⟩ := List.forall_mem_cons.mp solid
    rw [List.cons_append, splitChars, ih hw]
    simp only [hc, Bool.false_eq_true, ↓reduceIte, List.cons_append]

theorem wordsOf_word {w rest : List Char} (some_ : w ≠ []) (solid : ∀ c ∈ w, isBlank c = false)
    (ends : ∀ c ∈ rest.head?, isBlank c = true) :
    wordsOf (w ++ rest) = String.ofList w :: wordsOf rest := by
  have hword : (!w.isEmpty) = true := by simpa using some_
  cases rest with
  | nil =>
    unfold wordsOf
    rw [splitChars_solid solid rfl, List.append_nil,
      List.filter_cons_of_pos (p := fun w : List Char => !w.isEmpty) hword]
    rfl
  | cons c rest =>
    obtain ⟨piece, pieces, hpieces, hsplit⟩ := splitChars_cons isBlank c rest
    rw [if_pos (ends c rfl)] at hsplit
    unfold wordsOf
    rw [splitChars_solid solid hsplit, hsplit, List.append_nil,
      List.filter_cons_of_pos (p := fun w : List Char => !w.isEmpty) hword]
    rfl

/-- Words with blanks around and between them. -/
inductive Spaced : List Char → List String → Prop where
  | none {cs : List Char} (blank : Blank cs) : Spaced cs []
  | word {before w rest : List Char} {ws : List String} (blank : Blank before) (some_ : w ≠ [])
      (solid : ∀ c ∈ w, isBlank c = false) (ends : ∀ c ∈ rest.head?, isBlank c = true)
      (more : Spaced rest ws) : Spaced (before ++ w ++ rest) (String.ofList w :: ws)

/-- Blanks before the words make no difference. -/
theorem Spaced.append_left {before : List Char} {ws : List String} (h : Spaced cs ws)
    (blank : Blank before) : Spaced (before ++ cs) ws := by
  cases h with
  | none blank' => exact .none (List.forall_mem_append.mpr ⟨blank, blank'⟩)
  | @word before' w rest _ blank' some_ solid ends more =>
    rw [← List.append_assoc, ← List.append_assoc]
    exact .word (List.forall_mem_append.mpr ⟨blank, blank'⟩) some_ solid ends more

/-- Nor do blanks behind them. -/
theorem Spaced.append_right {after : List Char} {ws : List String} (h : Spaced cs ws)
    (blank : Blank after) : Spaced (cs ++ after) ws := by
  induction h with
  | none blank' => exact .none (List.forall_mem_append.mpr ⟨blank', blank⟩)
  | @word before w rest ws blank' some_ solid ends more ih =>
    rw [List.append_assoc]
    refine .word blank' some_ solid (fun c hc => ?_) ih
    cases rest with
    | nil => exact blank c (List.mem_of_head? hc)
    | cons d rest => exact ends c hc

theorem spaced_wordsOf (cs : List Char) : Spaced cs (wordsOf cs) := by
  induction hn : cs.length using Nat.strongRecOn generalizing cs with
  | _ n ih =>
    have hblank : Blank (cs.takeWhile isBlank) := fun c hc => List.mem_takeWhile_imp hc
    rw [← List.takeWhile_append_dropWhile (p := isBlank) (l := cs), wordsOf_blank hblank]
    refine Spaced.append_left ?_ hblank
    have hnot := List.head?_dropWhile_not isBlank cs
    have hshort : (cs.dropWhile isBlank).length ≤ n := by
      rw [← hn]
      exact (List.dropWhile_suffix isBlank).length_le
    generalize cs.dropWhile isBlank = front at hnot hshort
    cases front with
    | nil => exact .none blank_nil
    | cons c rest =>
      -- what is left begins with a word, which ends before the next blank
      have hfront : c :: rest.takeWhile (fun c => !isBlank c) ++ rest.dropWhile (fun c => !isBlank c) =
          c :: rest := congrArg (c :: ·) List.takeWhile_append_dropWhile
      have hsolid : ∀ d ∈ c :: rest.takeWhile (fun c => !isBlank c), isBlank d = false :=
        List.forall_mem_cons.mpr ⟨hnot, fun d hd => by simpa using List.mem_takeWhile_imp hd⟩
      have hends : ∀ d ∈ (rest.dropWhile fun c => !isBlank c).head?, isBlank d = true := by
        intro d hd
        have hblank := List.head?_dropWhile_not (fun c => !isBlank c) rest
        rw [Option.mem_def.mp hd] at hblank
        simpa using hblank
      have hless : (rest.dropWhile fun c => !isBlank c).length < n :=
        Nat.lt_of_le_of_lt (List.dropWhile_suffix _).length_le hshort
      rw [← hfront, wordsOf_word (List.cons_ne_nil _ _) hsolid hends]
      exact Spaced.word blank_nil (List.cons_ne_nil _ _) hsolid hends (ih _ hless _ rfl)

theorem Spaced.wordsOf_eq {ws : List String} (h : Spaced cs ws) : wordsOf cs = ws := by
  induction h with
  | none blank =>
    have hwords := wordsOf_blank blank []
    rwa [List.append_nil] at hwords
  | word blank some_ solid ends more ih =>
    rw [List.append_assoc, wordsOf_blank blank, wordsOf_word some_ solid ends, ih]

/-- **The words of a text are what stands between its blanks.** -/
theorem words_eq_iff {ws : List String} : words (String.ofList cs) = ws ↔ Spaced cs ws := by
  rw [words_ofList]
  constructor
  · intro h
    rw [← h]
    exact spaced_wordsOf cs
  · exact Spaced.wordsOf_eq

theorem words_trimChars (cs : List Char) :
    words (String.ofList (trimChars cs)) = words (String.ofList cs) := by
  refine (words_eq_iff.mpr ?_).symm
  have hspaced := spaced_wordsOf (trimChars cs)
  rw [← words_ofList] at hspaced
  have hpadded := padded_trimChars cs
  generalize trimChars cs = core at hspaced hpadded
  cases hpadded with
  | intro blank trimmed blank' => exact (hspaced.append_left blank).append_right blank'

end AccessGate.Text
