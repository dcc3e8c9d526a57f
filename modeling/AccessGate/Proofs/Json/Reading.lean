import AccessGate.Json.Parser
import AccessGate.Json.Printer
import AccessGate.Proofs.Text.Numerals

/-!
# JSON is read as it is written

A text is cut into tokens and the tokens are read one by one with the open containers in a list. Both
are followed at once (`Scan`), so that what is written of a value takes the reader from where a value
has to come to where this value is complete, whatever stands around it:

* `stringBody_escape`, `joinUnits_toNat`: a string comes back character by character;
* `scan_pretty`: by induction on the value, with its items and fields inside;
* `parse?_pretty`: so a value that its text says all of (`Plain`) comes back whole.
-/

namespace AccessGate.Json

/-- A value that its text says all of: every string denotes a text, and every number is written in
plain digits. -/
inductive Plain : Json → Prop where
  | null : Plain .null
  | bool (b : Bool) : Plain (.bool b)
  | number (n : Nat) : Plain (.number (toString n))
  | text (s : String) : Plain (.text (some s))
  | array (items : List Json) (plain : ∀ v ∈ items, Plain v) : Plain (.array items)
  | object (fields : List (Option String × Json)) (named : ∀ f ∈ fields, f.1 ≠ none)
      (plain : ∀ f ∈ fields, Plain f.2) : Plain (.object fields)

/-! ## 1. Strings -/

/-- A control character has a short escape or two digits. -/
theorem escape_control : ∀ n < 32,
    (['b', 't', 'n', 'f', 'r'].any fun e => escape (Char.ofNat n) = ['\\', e] ∧
      shortEscape? e = some n) = true ∨
    escape (Char.ofNat n) = ['\\', 'u', '0', '0', (n / 16).digitChar, (n % 16).digitChar] ∧
      fourDigits? '0' '0' (n / 16).digitChar (n % 16).digitChar = some n := by
  decide +kernel

/-- Any other character but the quote and the backslash stands for itself. -/
theorem stringBody_plain {c : Char} (quote : c ≠ '"') (backslash : c ≠ '\\') (large : 32 ≤ c.toNat)
    (units : List Nat) (rest : List Char) :
    stringBody units (c :: rest) = stringBody (c.toNat :: units) rest := by
  rw [stringBody.eq_def]
  split
  · simp_all
  · simp_all
  · simp_all
  · rename_i hcs
    obtain ⟨rfl, rfl⟩ := List.cons.inj hcs
    rw [if_neg (Nat.not_lt.mpr large)]
  · simp_all

/-- A character in four digits. -/
theorem stringBody_unit (units : List Nat) (a b c d : Char) (rest : List Char) :
    stringBody units ('\\' :: 'u' :: a :: b :: c :: d :: rest) =
      (fourDigits? a b c d).bind fun u => stringBody (u :: units) rest := by
  rw [stringBody]
  cases fourDigits? a b c d <;> rfl

/-- **A character is read as it is escaped.** -/
theorem stringBody_escape (c : Char) (units : List Nat) (rest : List Char) :
    stringBody units (escape c ++ rest) = stringBody (c.toNat :: units) rest := by
  by_cases hcontrol : c.toNat < 32
  · have hforms := escape_control c.toNat hcontrol
    rw [Char.ofNat_toNat] at hforms
    obtain hshort | ⟨hescape, hdigits⟩ := hforms
    · obtain ⟨e, he, hform⟩ := List.any_eq_true.mp hshort
      obtain ⟨hescape, hvalue⟩ := of_decide_eq_true hform
      have hread : stringBody units ('\\' :: e :: rest) =
          (shortEscape? e).bind fun u => stringBody (u :: units) rest := by
        simp only [List.mem_cons, List.not_mem_nil, or_false] at he
        obtain rfl | rfl | rfl | rfl | rfl := he <;> rfl
      rw [hescape]
      exact hread.trans (by rw [hvalue, Option.bind_some])
    · rw [hescape]
      exact (stringBody_unit units _ _ _ _ rest).trans (by rw [hdigits, Option.bind_some])
  · by_cases hquote : c = '"'
    · subst hquote
      rfl
    · by_cases hbackslash : c = '\\'
      · subst hbackslash
        rfl
      · have hescape : escape c = [c] := by
          unfold escape
          rw [if_neg hquote, if_neg hbackslash]
          exact if_pos (Nat.not_lt.mp hcontrol)
        rw [hescape]
        exact stringBody_plain hquote hbackslash (Nat.not_lt.mp hcontrol) units rest

/-- The characters of a string, last first, and what follows its closing quote. -/
theorem stringBody_quoted (cs : List Char) (units : List Nat) (rest : List Char) :
    stringBody units (cs.flatMap escape ++ '"' :: rest) =
      some ((cs.map Char.toNat).reverse ++ units, rest) := by
  induction cs generalizing units with
  | nil => rfl
  | cons c cs ih =>
    rw [List.flatMap_cons, List.append_assoc, stringBody_escape, ih]
    simp

/-- No character is half of a surrogate pair. -/
theorem joinUnits_toNat (cs : List Char) : joinUnits (cs.map Char.toNat) = some cs := by
  have hwhole (c : Char) : ¬ (0xD800 ≤ c.toNat ∧ c.toNat < 0xE000) := by
    have hvalid : c.toNat < 0xD800 ∨ 0xDFFF < c.toNat ∧ c.toNat < 0x110000 := c.valid
    omega
  induction cs with
  | nil => rfl
  | cons c cs ih =>
    cases cs with
    | nil =>
      show (if 0xD800 ≤ c.toNat ∧ c.toNat < 0xE000 then none else some [Char.ofNat c.toNat]) = _
      rw [if_neg (hwhole c), Char.ofNat_toNat]
    | cons d cs =>
      have hc := hwhole c
      have hhigh : ¬ (0xD800 ≤ c.toNat ∧ c.toNat < 0xDC00) := by omega
      have hlow : ¬ (0xDC00 ≤ c.toNat ∧ c.toNat < 0xE000) := by omega
      rw [List.map_cons, List.map_cons, joinUnits, if_neg hhigh, if_neg hlow, ← List.map_cons, ih,
        Option.map_some, Char.ofNat_toNat]

/-- A text is one token. -/
theorem token?_quoted (s : String) (rest : List Char) :
    ∃ cs, quoted (some s) ++ rest = '"' :: (cs ++ rest) ∧
      token? '"' (cs ++ rest) = some (.scalar (.text (some s)), rest) := by
  refine ⟨s.toList.flatMap escape ++ ['"'], by simp [quoted], ?_⟩
  show (stringBody [] _).map _ = _
  rw [List.append_assoc, List.singleton_append, stringBody_quoted]
  simp [joinUnits_toNat]

/-! ## 2. Numbers -/

/-- What may follow a value in a text of several lines. -/
def Stops (rest : List Char) : Prop := ∀ c ∈ rest.head?, c = ',' ∨ c = '\n'

theorem fraction?_of_stops {rest : List Char} (stops : Stops rest) :
    fraction? rest = some ([], rest) := by
  cases rest with
  | nil => rfl
  | cons c rest => obtain rfl | rfl := stops c rfl <;> rfl

theorem exponent?_of_stops {rest : List Char} (stops : Stops rest) :
    exponent? rest = some ([], rest) := by
  cases rest with
  | nil => rfl
  | cons c rest => obtain rfl | rfl := stops c rfl <;> rfl

theorem wholePart?_toDigits (n : Nat) {rest : List Char} (stops : Stops rest) :
    wholePart? (Nat.toDigits 10 n ++ rest) = some (Nat.toDigits 10 n, rest) := by
  by_cases hn : n = 0
  · subst hn
    rfl
  · have hdigits : ∀ c ∈ Nat.toDigits 10 n, isDigit c = true := by
      have hall : ∀ d < 10, isDigit (Nat.digitChar d) = true := by decide +kernel
      intro c hc
      obtain ⟨d, hd, rfl⟩ := digit_of_mem_toDigits (by decide) hc
      exact hall d hd
    have hrest : rest.takeWhile isDigit = [] ∧ rest.dropWhile isDigit = rest := by
      cases rest with
      | nil => exact ⟨rfl, rfl⟩
      | cons c rest => obtain rfl | rfl := stops c rfl <;> exact ⟨rfl, rfl⟩
    have htake : (Nat.toDigits 10 n ++ rest).takeWhile isDigit = Nat.toDigits 10 n := by
      rw [List.takeWhile_append_of_pos hdigits, hrest.1, List.append_nil]
    have hdrop : (Nat.toDigits 10 n ++ rest).dropWhile isDigit = rest := by
      rw [List.dropWhile_append_of_pos hdigits, hrest.2]
    have hhead : (Nat.toDigits 10 n).head? ≠ some '0' :=
      head_toDigits (by decide) (by decide) hn
    unfold wholePart?
    split
    · rename_i hzero
      rw [← List.head?_append_of_ne_nil _ Nat.toDigits_ne_nil, hzero] at hhead
      exact absurd rfl hhead
    · unfold someDigits?
      simp [htake, hdrop, Nat.toDigits_ne_nil]

/-- The first character of a numeral begins neither another token nor a blank. -/
theorem digit_begins : ∀ d < 10, d.digitChar ≠ '-' ∧
    ¬ (d.digitChar = ' ' ∨ d.digitChar = '\t' ∨ d.digitChar = '\n' ∨ d.digitChar = '\r') := by
  decide +kernel

theorem token?_digit {d : Nat} (small : d < 10) (rest : List Char) :
    token? d.digitChar rest = number? (d.digitChar :: rest) := by
  match d, small with
  | 0, _ | 1, _ | 2, _ | 3, _ | 4, _ | 5, _ | 6, _ | 7, _ | 8, _ | 9, _ => rfl

/-- **A numeral is one token.** -/
theorem token?_number (n : Nat) {rest : List Char} (stops : Stops rest) :
    ∃ c cs, (toString n).toList ++ rest = c :: (cs ++ rest) ∧
      ¬ (c = ' ' ∨ c = '\t' ∨ c = '\n' ∨ c = '\r') ∧
      token? c (cs ++ rest) = some (.scalar (.number (toString n)), rest) := by
  obtain ⟨c, cs, hdigits⟩ := List.exists_cons_of_ne_nil (Nat.toDigits_ne_nil (b := 10) (n := n))
  obtain ⟨d, hd, rfl⟩ : ∃ d < 10, c = d.digitChar :=
    digit_of_mem_toDigits (by decide) (hdigits ▸ List.mem_cons_self)
  obtain ⟨hsign, hblank⟩ := digit_begins d hd
  have hwhole := wholePart?_toDigits n stops
  have htext : String.ofList (d.digitChar :: cs) = toString n := by
    rw [← String.toList_inj, String.toList_ofList, toList_toString, hdigits]
  rw [hdigits, List.cons_append] at hwhole
  refine ⟨d.digitChar, cs, by rw [toList_toString, hdigits]; rfl, hblank, ?_⟩
  rw [token?_digit hd]
  unfold number?
  split
  rename_i heq
  split at heq
  · rename_i hminus
    exact absurd (List.head_eq_of_cons_eq hminus) hsign
  · obtain ⟨rfl, rfl⟩ := Prod.mk.inj heq
    simp [hwhole, fraction?_of_stops stops, exponent?_of_stops stops, htext]

/-! ## 3. Texts and values -/

/-- The reader goes from one state to another on the characters in front and leaves the rest: blanks
are passed over, and each token is a step. -/
inductive Scan : Progress → List Char → Progress → List Char → Prop where
  | refl (p : Progress) (cs : List Char) : Scan p cs p cs
  | blank {p q : Progress} {cs rest : List Char} (c : Char)
      (blank : c = ' ' ∨ c = '\t' ∨ c = '\n' ∨ c = '\r') (next : Scan p cs q rest) :
      Scan p (c :: cs) q rest
  | token {p p' q : Progress} {t : Token} {cs rest : List Char} (c : Char) (inside : List Char)
      (solid : ¬ (c = ' ' ∨ c = '\t' ∨ c = '\n' ∨ c = '\r'))
      (cut : token? c (inside ++ cs) = some (t, cs)) (step : p.step? t = some p')
      (next : Scan p' cs q rest) : Scan p (c :: (inside ++ cs)) q rest

namespace Scan

variable {p p' q : Progress} {cs mid rest : List Char}

theorem trans (h : Scan p cs p' mid) (h' : Scan p' mid q rest) : Scan p cs q rest := by
  induction h with
  | refl => exact h'
  | blank c blank _ ih => exact .blank c blank (ih h')
  | token c inside solid cut step _ ih => exact .token c inside solid cut step (ih h')

/-- A token of one character. -/
theorem sign {t : Token} (c : Char) (solid : ¬ (c = ' ' ∨ c = '\t' ∨ c = '\n' ∨ c = '\r'))
    (cut : token? c cs = some (t, cs)) (step : p.step? t = some p') (next : Scan p' cs q rest) :
    Scan p (c :: cs) q rest := .token c [] solid cut step next

/-- A new line is blank. -/
theorem newline (level : Nat) (h : Scan p cs q rest) : Scan p (newline level ++ cs) q rest := by
  refine .blank '\n' (by decide) ?_
  induction 2 * level with
  | zero => exact h
  | succ k ih => exact .blank ' ' (by decide) ih

/-- **The tokens of a text that is followed to its end**, each of which takes a character. -/
theorem tokens (h : Scan p cs q []) :
    ∃ ts : List Token, ts.foldlM Progress.step? p = some q ∧ ∀ fuel done, cs.length ≤ fuel →
      tokensFrom fuel done cs = some (ts.reverse ++ done) := by
  generalize hrest : ([] : List Char) = rest at h
  induction h with
  | refl p cs =>
    subst hrest
    refine ⟨[], rfl, fun fuel done _ => ?_⟩
    cases fuel <;> rfl
  | blank c blank next ih =>
    obtain ⟨ts, hsteps, hcut⟩ := ih hrest
    refine ⟨ts, hsteps, fun fuel done hfuel => ?_⟩
    obtain ⟨fuel, rfl⟩ := Nat.exists_eq_add_one_of_ne_zero (Nat.ne_zero_of_lt hfuel)
    rw [tokensFrom, if_pos blank]
    exact hcut fuel done (Nat.le_of_succ_le_succ hfuel)
  | @token p p' q t cs rest c inside solid cut step next ih =>
    obtain ⟨ts, hsteps, hcut⟩ := ih hrest
    refine ⟨t :: ts, ?_, fun fuel done hfuel => ?_⟩
    · rw [List.foldlM_cons, step]
      exact hsteps
    · obtain ⟨fuel, rfl⟩ := Nat.exists_eq_add_one_of_ne_zero (Nat.ne_zero_of_lt hfuel)
      rw [List.length_cons, List.length_append] at hfuel
      rw [tokensFrom, if_neg solid, cut]
      simp only
      rw [hcut fuel (t :: done) (by omega)]
      simp

/-- A text that is followed to a complete value writes this value. -/
theorem parseChars? {v : Json} (h : Scan (.value []) cs (.complete v []) []) :
    parseChars? cs = some v := by
  obtain ⟨ts, hsteps, hcut⟩ := h.tokens
  unfold Json.parseChars? tokens?
  rw [hcut cs.length [] (Nat.le_refl _)]
  simp [hsteps]

end Scan

/-- A value may begin in this state, and will be complete inside these containers. -/
def Awaits (p : Progress) (frames : List Frame) : Prop :=
  ∀ t next, begin? frames t = some next → p.step? t = some next

theorem awaits_value (frames : List Frame) : Awaits (.value frames) frames := fun _ _ h => h

theorem awaits_firstItem (frames : List Frame) :
    Awaits (.firstItem frames) (.array [] :: frames) := by
  intro t next h
  cases t with
  | closeArray => cases h
  | _ => exact h

/-- What is written of a value, wherever it stands. -/
def Written (v : Json) : Prop := ∀ level p frames rest, Awaits p frames → Stops rest →
  Scan p (prettyChars level v ++ rest) (.complete v frames) rest

theorem stops_items (level : Nat) (vs : List Json) (rest : List Char) :
    Stops (prettyItems level vs ++ rest) := by
  intro c hc
  cases vs with
  | nil => exact Or.inr (Option.some.inj hc).symm
  | cons v vs => exact Or.inl (Option.some.inj hc).symm

theorem stops_fields (level : Nat) (fs : List (Option String × Json)) (rest : List Char) :
    Stops (prettyFields level fs ++ rest) := by
  intro c hc
  cases fs with
  | nil => exact Or.inr (Option.some.inj hc).symm
  | cons f fs => exact Or.inl (Option.some.inj hc).symm

/-- The items after the first close the array. -/
theorem scan_items {vs : List Json} (written : ∀ v ∈ vs, Written v) (level : Nat) (w : Json)
    (done : List Json) (frames : List Frame) (rest : List Char) :
    Scan (.complete w (.array done :: frames)) (prettyItems level vs ++ rest)
      (.complete (.array ((w :: done).reverse ++ vs)) frames) rest := by
  induction vs generalizing w done with
  | nil =>
    rw [prettyItems, List.append_assoc, List.append_nil]
    exact .newline level (.sign ']' (by decide) rfl rfl (.refl _ _))
  | cons v vs ih =>
    have hv := written v List.mem_cons_self (level + 1) _ (.array (w :: done) :: frames)
      (prettyItems level vs ++ rest) (awaits_value _) (stops_items level vs rest)
    have hvs := ih (fun v hv => written v (List.mem_cons_of_mem _ hv)) v (w :: done)
    rw [List.reverse_cons, List.append_assoc] at hvs
    rw [prettyItems, List.cons_append, List.append_assoc, List.append_assoc]
    exact .sign ',' (by decide) rfl rfl (.newline (level + 1) (hv.trans hvs))

/-- A name with its colon. -/
theorem scan_name {p : Progress} {fields : List (Option String × Json)} {frames : List Frame}
    {cs : List Char} {q : Progress} {rest : List Char} (key : String)
    (named : p.step? (.scalar (.text (some key))) = some (.colon fields (some key) frames))
    (next : Scan (.value (.object fields (some key) :: frames)) cs q rest) :
    Scan p (quoted (some key) ++ ([':', ' '] ++ cs)) q rest := by
  obtain ⟨inside, htext, hcut⟩ := token?_quoted key ([':', ' '] ++ cs)
  rw [htext]
  refine .token '"' inside (by decide) hcut named ?_
  exact .sign ':' (by decide) rfl rfl (.blank ' ' (by decide) next)

/-- The fields after the first close the object. -/
theorem scan_fields {fs : List (Option String × Json)} (named : ∀ f ∈ fs, f.1 ≠ none)
    (written : ∀ f ∈ fs, Written f.2) (level : Nat) (key : Option String) (w : Json)
    (done : List (Option String × Json)) (frames : List Frame) (rest : List Char) :
    Scan (.complete w (.object done key :: frames)) (prettyFields level fs ++ rest)
      (.complete (.object (((key, w) :: done).reverse ++ fs)) frames) rest := by
  induction fs generalizing key w done with
  | nil =>
    rw [prettyFields, List.append_assoc, List.append_nil]
    exact .newline level (.sign '\x7d' (by decide) rfl rfl (.refl _ _))
  | cons f fs ih =>
    obtain ⟨name, v⟩ := f
    obtain ⟨name, rfl⟩ := Option.ne_none_iff_exists'.mp (named _ List.mem_cons_self)
    have hv := written (some name, v) List.mem_cons_self (level + 1) _
      (.object ((key, w) :: done) (some name) :: frames) (prettyFields level fs ++ rest)
      (awaits_value _) (stops_fields level fs rest)
    have hfs := ih (fun f hf => named f (List.mem_cons_of_mem _ hf))
      (fun f hf => written f (List.mem_cons_of_mem _ hf)) (some name) v ((key, w) :: done)
    rw [List.reverse_cons, List.append_assoc] at hfs
    rw [prettyFields, List.cons_append]
    simp only [List.append_assoc]
    exact .sign ',' (by decide) rfl rfl
      (.newline (level + 1) (scan_name name rfl (hv.trans hfs)))

/-- **A value is read as it is written**, whatever stands around it. -/
theorem scan_pretty {v : Json} (h : Plain v) : Written v := by
  induction h with
  | null =>
    intro level p frames rest awaits _
    exact .token 'n' ['u', 'l', 'l'] (by decide) rfl (awaits (.scalar .null) _ rfl) (.refl _ _)
  | bool b =>
    intro level p frames rest awaits _
    cases b with
    | true =>
      exact .token 't' ['r', 'u', 'e'] (by decide) rfl (awaits (.scalar (.bool true)) _ rfl)
        (.refl _ _)
    | false =>
      exact .token 'f' ['a', 'l', 's', 'e'] (by decide) rfl
        (awaits (.scalar (.bool false)) _ rfl) (.refl _ _)
  | number n =>
    intro level p frames rest awaits stops
    obtain ⟨c, inside, htext, hsolid, hcut⟩ := token?_number n stops
    rw [prettyChars, htext]
    exact .token c inside hsolid hcut (awaits (.scalar (.number (toString n))) _ rfl) (.refl _ _)
  | text s =>
    intro level p frames rest awaits _
    obtain ⟨inside, htext, hcut⟩ := token?_quoted s rest
    rw [prettyChars, htext]
    exact .token '"' inside (by decide) hcut (awaits (.scalar (.text (some s))) _ rfl) (.refl _ _)
  | array items _ ih =>
    intro level p frames rest awaits _
    cases items with
    | nil =>
      exact .sign '[' (by decide) rfl (awaits .openArray _ rfl)
        (.sign ']' (by decide) rfl rfl (.refl _ _))
    | cons v vs =>
      have hv := ih v List.mem_cons_self (level + 1) _ _ (prettyItems level vs ++ rest)
        (awaits_firstItem frames) (stops_items level vs rest)
      have hvs := scan_items (fun v hv => ih v (List.mem_cons_of_mem _ hv)) level v [] frames rest
      rw [prettyChars, List.cons_append]
      simp only [List.append_assoc]
      exact .sign '[' (by decide) rfl (awaits .openArray _ rfl)
        (.newline (level + 1) (hv.trans hvs))
  | object fields named _ ih =>
    intro level p frames rest awaits _
    cases fields with
    | nil =>
      exact .sign '\x7b' (by decide) rfl (awaits .openObject _ rfl)
        (.sign '\x7d' (by decide) rfl rfl (.refl _ _))
    | cons f fs =>
      obtain ⟨name, v⟩ := f
      obtain ⟨name, rfl⟩ := Option.ne_none_iff_exists'.mp (named _ List.mem_cons_self)
      have hv := ih (some name, v) List.mem_cons_self (level + 1) _
        (.object [] (some name) :: frames) (prettyFields level fs ++ rest) (awaits_value _)
        (stops_fields level fs rest)
      have hfs := scan_fields (fun f hf => named f (List.mem_cons_of_mem _ hf))
        (fun f hf => ih f (List.mem_cons_of_mem _ hf)) level (some name) v [] frames rest
      rw [prettyChars, List.cons_append]
      simp only [List.append_assoc]
      exact .sign '\x7b' (by decide) rfl (awaits .openObject _ rfl)
        (.newline (level + 1) (scan_name name rfl (hv.trans hfs)))

/-- **JSON is read as it is written.** -/
theorem parse?_pretty {v : Json} (h : Plain v) : parse? v.pretty = some v := by
  have hscan := scan_pretty h 0 (.value []) [] [] (awaits_value []) nofun
  rw [List.append_nil] at hscan
  unfold parse? pretty
  rw [String.toList_ofList]
  exact hscan.parseChars?

end AccessGate.Json
