import AccessGate.FirstFactor.DirectoryNames
import AccessGate.Proofs.Lists
import AccessGate.Proofs.Text.Words

/-!
# Groups by their common names

Who may pass, and who without a second factor, goes by the names of groups, so two groups must not
get one name. A group is known by the common name at the front of its distinguished name. Here is
what a distinguished name begins with, told by how components are written:

* `Spells`: a component as it stands in a name, commas and backslashes behind a backslash, and
  `firstComponent_eq_iff`: the component that a name begins with is the one that is read;
* `HasCommonName`: that component is a common name; then the group is known by it
  (`groupName_of_commonName`), and by the whole name otherwise (`groupName_of_none`);
* `groupName_readsBack`: so a common name is read back from every name that it is escaped into, and
  different common names stay different.
-/

namespace AccessGate.FirstFactor

open Text

variable {cs key value component tail : List Char} {dn : String}

/-! ## 1. The first component -/

/-- Characters as they stand in a component: a comma or a backslash only behind a backslash. -/
inductive Spells : List Char → List Char → Prop where
  | nil : Spells [] []
  | plain {c : Char} {cs ds : List Char} (comma : c ≠ ',') (backslash : c ≠ '\\')
      (rest : Spells cs ds) : Spells (c :: cs) (c :: ds)
  | escaped {cs ds : List Char} (c : Char) (rest : Spells cs ds) :
      Spells ('\\' :: c :: cs) (c :: ds)

/-- What a component ends before: nothing, a comma, or a backslash that is the last sign. -/
inductive Behind : List Char → Prop where
  | whole : Behind []
  | comma (rest : List Char) : Behind (',' :: rest)
  | stray : Behind ['\\']

/-- The component that a name begins with. -/
inductive Begins : List Char → List Char → Prop where
  | intro {cs tail component : List Char} (spells : Spells cs component) (ends : Behind tail) :
      Begins (cs ++ tail) component

theorem begins_firstComponent (cs : List Char) : Begins cs (firstComponent cs) := by
  induction cs using firstComponent.induct with
  | case1 => exact .intro .nil .whole
  | case2 => exact .intro .nil .stray
  | case3 c rest ih =>
    rw [firstComponent]
    generalize firstComponent rest = component at ih
    cases ih with
    | intro spells ends => exact .intro (spells.escaped c) ends
  | case4 rest => exact .intro .nil (.comma rest)
  | case5 c rest last more comma ih =>
    rw [firstComponent.eq_5 c rest last more comma]
    have hbackslash : c ≠ '\\' := by
      -- a backslash stands in the cases before, whether or not there is a sign behind it
      intro hc
      cases rest with
      | nil => exact last hc rfl
      | cons d rest => exact more d rest hc rfl
    generalize firstComponent rest = component at ih
    cases ih with
    | intro spells ends => exact .intro (spells.plain comma hbackslash) ends

theorem Behind.firstComponent_eq (h : Behind tail) : firstComponent tail = [] := by
  cases h <;> rfl

theorem firstComponent_plain {c : Char} (comma : c ≠ ',') (backslash : c ≠ '\\') (cs : List Char) :
    firstComponent (c :: cs) = c :: firstComponent cs :=
  firstComponent.eq_5 c cs (fun hc _ => backslash hc) (fun _ _ hc _ => backslash hc) comma

/-- **What a component spells is read, and no more.** -/
theorem Spells.firstComponent_append (h : Spells cs component) (ends : Behind tail) :
    firstComponent (cs ++ tail) = component := by
  induction h with
  | nil => exact ends.firstComponent_eq
  | plain comma backslash rest ih => rw [List.cons_append, firstComponent_plain comma backslash, ih]
  | escaped c rest ih => rw [List.cons_append, List.cons_append, firstComponent, ih]

theorem firstComponent_eq_iff : firstComponent cs = component ↔ Begins cs component := by
  constructor
  · intro h
    rw [← h]
    exact begins_firstComponent cs
  · intro h
    cases h with
    | intro spells ends => exact spells.firstComponent_append ends

/-! ## 2. Keys -/

theorem keyValue?_eq_some_iff :
    keyValue? cs = some (key, value) ↔ cs = key ++ '=' :: value ∧ '=' ∉ key := by
  have hcut : cs.takeWhile (· ≠ '=') ++ cs.dropWhile (· ≠ '=') = cs :=
    List.takeWhile_append_dropWhile
  constructor
  · intro h
    unfold keyValue? at h
    split at h
    · cases h
    · rename_i c rest hrest
      obtain ⟨rfl, rfl⟩ := Prod.mk.inj (Option.some.inj h)
      have hc := List.head?_dropWhile_not (· ≠ '=') cs
      rw [hrest] at hc hcut
      obtain rfl : c = '=' := by simpa using hc
      exact ⟨hcut.symm, fun hmem => by simpa using List.mem_takeWhile_imp hmem⟩
  · intro h
    obtain ⟨rfl, hkey⟩ := h
    have hother : ∀ c ∈ key, decide (c ≠ '=') = true :=
      fun c hc => decide_eq_true fun heq => hkey (heq ▸ hc)
    unfold keyValue?
    rw [List.dropWhile_append_of_pos hother, List.takeWhile_append_of_pos hother]
    simp

/-- The key of a common name: its two letters in any case, with or without blanks around them. -/
inductive CommonNameKey : List Char → Prop where
  | intro {before letters after : List Char} (blank : Blank before)
      (same : sameIgnoringCase (String.ofList letters) "cn" = true) (blank' : Blank after) :
      CommonNameKey (before ++ letters ++ after)

theorem same_cn_iff {letters : List Char} :
    sameIgnoringCase (String.ofList letters) "cn" = true ↔
      letters.map Char.toLower = ['c', 'n'] := by
  have hlower : "cn".toList.map Char.toLower = ['c', 'n'] := by decide +kernel
  rw [sameIgnoringCase_iff_letters, String.toList_ofList, hlower]

theorem letter_of_same {letters : List Char}
    (same : sameIgnoringCase (String.ofList letters) "cn" = true) :
    ∀ c ∈ letters, c.toLower = 'c' ∨ c.toLower = 'n' := by
  intro c hc
  have hmem : c.toLower ∈ ['c', 'n'] := same_cn_iff.mp same ▸ List.mem_map_of_mem hc
  simpa using hmem

theorem trimmed_letters {letters : List Char}
    (same : sameIgnoringCase (String.ofList letters) "cn" = true) : Trimmed letters := by
  have hsolid : ∀ c ∈ letters, isBlank c = false := by
    intro c hc
    refine Bool.eq_false_iff.mpr fun hblank => ?_
    have hletter := letter_of_same same c hc
    rw [toLower_of_isBlank hblank] at hletter
    rcases hletter with rfl | rfl <;> exact absurd hblank (by decide)
  exact ⟨fun c hc => hsolid c (List.mem_of_head? hc), fun c hc => hsolid c (List.mem_of_getLast? hc)⟩

theorem isKey_iff : isKey "cn" (trimChars key) = true ↔ CommonNameKey key := by
  constructor
  · intro h
    have hpadded := padded_trimChars key
    generalize trimChars key = letters at h hpadded
    cases hpadded with
    | intro blank trimmed blank' => exact .intro blank h blank'
  · intro h
    cases h with
    | intro blank same blank' =>
      rw [trimChars_eq_iff.mpr (.intro blank (trimmed_letters same) blank')]
      exact same

/-- No sign of a key has a meaning in components. -/
def Plain (key : List Char) : Prop := ∀ c ∈ key, c ≠ '=' ∧ c ≠ ',' ∧ c ≠ '\\'

instance (key : List Char) : Decidable (Plain key) :=
  List.decidableBAll (fun c : Char => c ≠ '=' ∧ c ≠ ',' ∧ c ≠ '\\') key

theorem Plain.no_equals (h : Plain key) : '=' ∉ key := fun hmem => (h '=' hmem).1 rfl

theorem CommonNameKey.plain (h : CommonNameKey key) : Plain key := by
  have hblank {cs : List Char} (blank : Blank cs) : Plain cs := by
    intro c hc
    have hc := blank c hc
    refine ⟨?_, ?_, ?_⟩ <;> intro heq <;> subst heq <;> exact absurd hc (by decide)
  cases h with
  | intro blank same blank' =>
    refine List.forall_mem_append.mpr ⟨List.forall_mem_append.mpr ⟨hblank blank, ?_⟩, hblank blank'⟩
    intro c hc
    have hletter := letter_of_same same c hc
    refine ⟨?_, ?_, ?_⟩ <;> intro heq <;> subst heq <;> exact absurd hletter (by decide)

theorem Plain.firstComponent_append (h : Plain key) (cs : List Char) :
    firstComponent (key ++ cs) = key ++ firstComponent cs := by
  induction key with
  | nil => rfl
  | cons c key ih =>
    obtain ⟨hc, hkey⟩ := List.forall_mem_cons.mp h
    rw [List.cons_append, firstComponent_plain hc.2.1 hc.2.2, ih hkey, List.cons_append]

/-! ## 3. Groups -/

/-- The first component of a name is a common name. -/
inductive HasCommonName (dn : String) : String → Prop where
  | intro {key : List Char} {v : String} (begins : Begins dn.toList (key ++ '=' :: v.toList))
      (isKey : CommonNameKey key) : HasCommonName dn v

/-- **A group is known by its common name.** -/
theorem groupName_of_commonName {v : String} (h : HasCommonName dn v) : groupName dn = trim v := by
  cases h with
  | intro begins isKey =>
    unfold groupName
    rw [firstComponent_eq_iff.mpr begins, keyValue?_eq_some_iff.mpr ⟨rfl, isKey.plain.no_equals⟩]
    exact if_pos (isKey_iff.mpr isKey)

/-- **And by its whole name without one.** -/
theorem groupName_of_none (h : ∀ v, ¬ HasCommonName dn v) : groupName dn = dn := by
  unfold groupName
  split
  · rename_i key value hkey
    obtain ⟨hfirst, -⟩ := keyValue?_eq_some_iff.mp hkey
    refine if_neg fun hcn =>
      h (String.ofList value) (@HasCommonName.intro dn key _ ?_ (isKey_iff.mp hcn))
    rw [String.toList_ofList, ← hfirst]
    exact begins_firstComponent dn.toList
  · rfl

/-- Where the key is written without escapes, it tells whether that is a common name. -/
theorem key_of_hasCommonName {key rest v : String} (plain : Plain key.toList)
    (h : HasCommonName (key ++ "=" ++ rest) v) : CommonNameKey key.toList := by
  cases h with
  | @intro key' _ begins isKey =>
    have hdn : (key ++ "=" ++ rest).toList = key.toList ++ '=' :: rest.toList := by
      simp [String.toList_append]
    have hequals : firstComponent ('=' :: rest.toList) = '=' :: firstComponent rest.toList :=
      firstComponent_plain (by decide) (by decide) rest.toList
    have hfirst := firstComponent_eq_iff.mpr begins
    rw [hdn, plain.firstComponent_append, hequals] at hfirst
    have hsign (cs : List Char) : ∀ a ∈ ('=' :: cs).head?, a = '=' :=
      fun a ha => (Option.some.inj ha).symm
    -- both keys end at the first equals sign
    obtain ⟨hkey, -⟩ := cut_unique plain.no_equals isKey.plain.no_equals (hsign _) (hsign _) hfirst
    rw [hkey]
    exact isKey

/-- Characters with a backslash before each comma and each backslash. -/
def escapeChars : List Char → List Char
  | [] => []
  | c :: cs => if c = ',' ∨ c = '\\' then '\\' :: c :: escapeChars cs else c :: escapeChars cs

/-- A text with a backslash before each comma and each backslash. -/
def escaped (v : String) : String := String.ofList (escapeChars v.toList)

theorem spells_escapeChars (cs : List Char) : Spells (escapeChars cs) cs := by
  induction cs with
  | nil => exact .nil
  | cons c cs ih =>
    unfold escapeChars
    split
    · exact ih.escaped c
    · rename_i hplain
      rw [not_or] at hplain
      exact ih.plain hplain.1 hplain.2

theorem Spells.append_plain {key : List Char} (h : Spells cs component) (plain : Plain key) :
    Spells (key ++ '=' :: cs) (key ++ '=' :: component) := by
  induction key with
  | nil => exact h.plain (by decide) (by decide)
  | cons c key ih =>
    obtain ⟨hc, hkey⟩ := List.forall_mem_cons.mp plain
    exact (ih hkey).plain hc.2.1 hc.2.2

/-- **A common name that is escaped is that of the name it is written into.** -/
theorem hasCommonName_escaped {key : String} (isKey : CommonNameKey key.toList) (v : String)
    (ends : Behind tail) : HasCommonName (key ++ "=" ++ escaped v ++ String.ofList tail) v := by
  have hdn : (key ++ "=" ++ escaped v ++ String.ofList tail).toList =
      key.toList ++ '=' :: escapeChars v.toList ++ tail := by
    unfold escaped
    simp [String.toList_append]
  refine @HasCommonName.intro _ key.toList v ?_ isKey
  rw [hdn]
  exact .intro ((spells_escapeChars v.toList).append_plain isKey.plain) ends

/-! ## 4. Names apart -/

theorem trim_of_trimmed {v : String} (h : Trimmed v.toList) : trim v = v := by
  unfold trim
  rw [h.trimChars, String.ofList_toList]

/-- **Names of groups are read back**: a common name from every name that it is escaped into, alone
or before other components, and the whole name where it does not begin with a common name. So groups
of different common names never share a name. -/
theorem groupName_readsBack :
    (∀ key v : String, CommonNameKey key.toList → Trimmed v.toList →
      groupName (key ++ "=" ++ escaped v) = v ∧
        ∀ rest, groupName (key ++ "=" ++ escaped v ++ "," ++ rest) = v) ∧
    (∀ dn, (∀ v, ¬ HasCommonName dn v) → groupName dn = dn) ∧
    (∀ key rest : String, Plain key.toList → ¬ CommonNameKey key.toList →
      groupName (key ++ "=" ++ rest) = key ++ "=" ++ rest) ∧
    ∀ dn dn' v v', HasCommonName dn v → HasCommonName dn' v' → Trimmed v.toList →
      Trimmed v'.toList → (groupName dn = groupName dn' ↔ v = v') := by
  have hname {dn v : String} (h : HasCommonName dn v) (trimmed : Trimmed v.toList) :
      groupName dn = v := (groupName_of_commonName h).trans (trim_of_trimmed trimmed)
  refine ⟨fun key v isKey trimmed => ⟨?_, fun rest => ?_⟩, fun dn => groupName_of_none,
    fun key rest plain other => groupName_of_none fun v h => other (key_of_hasCommonName plain h),
    fun dn dn' v v' h h' trimmed trimmed' => by rw [hname h trimmed, hname h' trimmed']⟩
  · have halone := hname (hasCommonName_escaped isKey v .whole) trimmed
    rwa [String.ofList_nil, String.append_empty] at halone
  · have hbefore := hname (hasCommonName_escaped isKey v (.comma rest.toList)) trimmed
    have hrest : String.ofList (',' :: rest.toList) = "," ++ rest := by
      rw [← String.toList_inj, String.toList_ofList, String.toList_append]
      rfl
    rwa [hrest, ← String.append_assoc] at hbefore

/-- A common name with a comma in it, and behind that what looks like another component. -/
theorem groupName_smith : escaped "Smith, OU=VPN" = "Smith\\, OU=VPN" ∧
    groupName (" Cn " ++ "=" ++ escaped "Smith, OU=VPN" ++ "," ++ "OU=Groups") = "Smith, OU=VPN" ∧
    groupName ("CN" ++ "=" ++ escaped "Smith") = "Smith" ∧
    groupName ("OU" ++ "=" ++ "Smith,CN=VPN") = "OU" ++ "=" ++ "Smith,CN=VPN" ∧
    groupName ("CN" ++ "=" ++ escaped "Smith, OU=VPN" ++ String.ofList []) ≠
      groupName ("CN" ++ "=" ++ escaped "Smith" ++ String.ofList (',' :: " OU=VPN".toList)) := by
  have hblanks : CommonNameKey " Cn ".toList :=
    @CommonNameKey.intro [' '] ['C', 'n'] [' '] (by decide) (same_cn_iff.mpr (by decide)) (by decide)
  have hkey : CommonNameKey "CN".toList :=
    @CommonNameKey.intro [] ['C', 'N'] [] blank_nil (same_cn_iff.mpr (by decide)) blank_nil
  have hlong : Trimmed "Smith, OU=VPN".toList := by decide
  have hshort : Trimmed "Smith".toList := by decide
  have hother : ¬ CommonNameKey "OU".toList := by
    rw [← isKey_iff, isKey, same_cn_iff]
    decide +kernel
  obtain ⟨readsBack, -, otherKey, apart⟩ := groupName_readsBack
  refine ⟨by decide +kernel, (readsBack " Cn " "Smith, OU=VPN" hblanks hlong).2 "OU=Groups",
    (readsBack "CN" "Smith" hkey hshort).1, otherKey "OU" "Smith,CN=VPN" (by decide) hother, ?_⟩
  exact mt (apart _ _ _ _ (hasCommonName_escaped hkey _ .whole)
    (hasCommonName_escaped hkey _ (.comma _)) hlong hshort).mp (by decide)

end AccessGate.FirstFactor
