import AccessGate.Net.Reader
import AccessGate.Proofs.Net.Printed

/-!
# Addresses are read as they are written

Every reader takes a printed value off the front and leaves what follows, as long as that cannot be
taken for more of it. So an endpoint written into a file is the one that comes out of it:

* `Reader.number_toDigits`, `Reader.octet_toDigits`, `Reader.decimal_toDigits`: numerals;
* `Reader.ipv4_print`, `Reader.ipv6_print`: addresses, where a dotted form is tried for every two
  groups and fails on all but those of a mapped address (`Reader.ipv4_eq_none`);
* `Endpoint.parse?_print`: the whole endpoint.
-/

namespace AccessGate

namespace Reader

/-! ## 1. Numerals -/

section Numerals

variable {digit? : Char → Option Nat} {base n : Nat} {rest : List Char}

/-- A character in front that is no digit stops a number. -/
theorem none_of_head {c : Char} (h : digit? c = none) (rest : List Char) :
    ∀ d ∈ (c :: rest).head?, digit? d = none := fun _ hd => Option.some.inj hd ▸ h

/-- The digits in front end where the numeral does. -/
theorem takeWhile_toDigits (two : 1 < base) (reads : ∀ d < base, digit? d.digitChar = some d)
    (stop : ∀ c ∈ rest.head?, digit? c = none) :
    (Nat.toDigits base n ++ rest).takeWhile (fun c => (digit? c).isSome) = Nat.toDigits base n := by
  have hdigits : ∀ c ∈ Nat.toDigits base n, (digit? c).isSome = true := by
    intro c hc
    obtain ⟨d, hd, rfl⟩ := digit_of_mem_toDigits two hc
    rw [reads d hd]
    rfl
  have hrest : rest.takeWhile (fun c => (digit? c).isSome) = [] := by
    cases rest with
    | nil => rfl
    | cons c rest =>
      have hnone := stop c rfl
      simp [hnone]
  rw [List.takeWhile_append_of_pos hdigits, hrest, List.append_nil]

theorem number_toDigits (two : 1 < base) (reads : ∀ d < base, digit? d.digitChar = some d)
    (stop : ∀ c ∈ rest.head?, digit? c = none) :
    number digit? base (Nat.toDigits base n ++ rest) =
      some ((n, (Nat.toDigits base n).length), rest) := by
  have hsome : (Nat.toDigits base n).isEmpty = false := by
    rw [List.isEmpty_eq_false_iff]
    exact Nat.toDigits_ne_nil
  unfold number
  simp only [takeWhile_toDigits two reads stop, hsome, foldl_toDigits two reads, List.drop_left,
    Bool.false_eq_true, ↓reduceIte]

/-- A number is read to the end of its digits. -/
theorem rest_of_number {cs : List Char} {out : Nat × Nat}
    (h : number digit? base cs = some (out, rest)) :
    rest = cs.dropWhile fun c => (digit? c).isSome := by
  have hdrop : cs.drop (cs.takeWhile fun c => (digit? c).isSome).length =
      cs.dropWhile fun c => (digit? c).isSome := by
    have hleft : ((cs.takeWhile fun c => (digit? c).isSome) ++
        cs.dropWhile fun c => (digit? c).isSome).drop
          (cs.takeWhile fun c => (digit? c).isSome).length =
            cs.dropWhile fun c => (digit? c).isSome := List.drop_left
    rwa [List.takeWhile_append_dropWhile] at hleft
  unfold number at h
  simp only at h
  split at h
  · cases h
  · rw [← hdrop]
    exact (congrArg Prod.snd (Option.some.inj h)).symm

theorem rest_of_octet {cs : List Char} (h : octet cs = some (n, rest)) :
    rest = cs.dropWhile fun c => (Numeral.digit? c).isSome := by
  unfold octet at h
  cases hnumber : number Numeral.digit? 10 cs with
  | none => simp [hnumber] at h
  | some out =>
    obtain ⟨⟨m, size⟩, tail⟩ := out
    simp only [hnumber, Option.bind_eq_bind, Option.bind_some] at h
    split at h
    · rw [← rest_of_number hnumber]
      exact (congrArg Prod.snd (Option.some.inj h)).symm
    · cases h

/-- A number within its bound is read. -/
theorem decimal_toDigits {bound : Nat} (le : n ≤ bound)
    (stop : ∀ c ∈ rest.head?, Numeral.digit? c = none) :
    decimal bound (Nat.toDigits 10 n ++ rest) = some (n, rest) := by
  unfold decimal
  rw [number_toDigits (by decide) Numeral.digit?_digitChar stop]
  simp [le]

theorem octet_toDigits (le : n ≤ 255) (stop : ∀ c ∈ rest.head?, Numeral.digit? c = none) :
    octet (Nat.toDigits 10 n ++ rest) = some (n, rest) := by
  have hsize : (Nat.toDigits 10 n).length ≤ 3 :=
    (Nat.length_toDigits_le_iff (by decide) (by decide)).mpr (by omega)
  have hlead : (Nat.toDigits 10 n).length = 1 ∨
      (Nat.toDigits 10 n ++ rest).head? ≠ some '0' := by
    by_cases hn : n = 0
    · subst hn
      exact Or.inl rfl
    · rw [List.head?_append_of_ne_nil _ Nat.toDigits_ne_nil]
      exact Or.inr (head_toDigits (by decide) (by decide) hn)
  unfold octet
  rw [number_toDigits (by decide) Numeral.digit?_digitChar stop]
  exact if_pos ⟨le, hsize, hlead⟩

/-- A group of sixteen bits is read. -/
theorem group_ofNat (small : n < 65536) (stop : ∀ c ∈ rest.head?, Hex.value? c = none) :
    group (Hex.ofNat n ++ rest) = some (n, rest) := by
  have hsize : (Nat.toDigits 16 n).length ≤ 4 :=
    (Nat.length_toDigits_le_iff (by decide) (by decide)).mpr (by omega)
  unfold group Hex.ofNat
  rw [number_toDigits (by decide) Hex.value?_digitChar stop]
  simp [hsize]

end Numerals

@[simp] theorem char_cons (c : Char) (rest : List Char) : char c (c :: rest) = some ((), rest) := by
  simp [char]

/-! ## 2. Version 4 -/

section Version4

variable {rest : List Char}

theorem ipv4_print (a : Ipv4) (stop : ∀ c ∈ rest.head?, Numeral.digit? c = none) :
    ipv4 (a.print.toList ++ rest) = some (a, rest) := by
  obtain ⟨o₁, o₂, o₃, o₄, hoctets⟩ : ∃ o₁ o₂ o₃ o₄, a.octets = [o₁, o₂, o₃, o₄] :=
    ⟨_, _, _, _, rfl⟩
  have hbits : ((o₁.toNat * 256 + o₂.toNat) * 256 + o₃.toNat) * 256 + o₄.toNat = a.bits.toNat := by
    have hvalue : Bytes.toNat a.octets = a.bits.toNat := by
      unfold Ipv4.octets
      rw [Bytes.toNat_ofNat]
      exact Nat.mod_eq_of_lt a.bits.isLt
    rw [hoctets] at hvalue
    simpa [Bytes.toNat] using hvalue
  have htext : a.print.toList = Nat.toDigits 10 o₁.toNat ++ '.' :: (Nat.toDigits 10 o₂.toNat ++
      '.' :: (Nat.toDigits 10 o₃.toNat ++ '.' :: Nat.toDigits 10 o₄.toNat)) := by
    unfold Ipv4.print
    rw [hoctets]
    simp [String.intercalate_cons_cons]
  have hdot (tail : List Char) : ∀ c ∈ ('.' :: tail).head?, Numeral.digit? c = none :=
    none_of_head (by decide) tail
  have hle (o : UInt8) : o.toNat ≤ 255 := Nat.le_of_lt_succ o.toNat_lt
  rw [htext]
  unfold ipv4
  simp only [List.append_assoc, List.cons_append, octet_toDigits (hle _) (hdot _),
    octet_toDigits (hle _) stop, char_cons, Option.bind_eq_bind, Option.bind_some, Option.pure_def,
    hbits]
  simp

/-- No dotted form is in front where the digits in front are not followed by a dot. -/
theorem ipv4_eq_none {cs : List Char}
    (h : (cs.dropWhile fun c => (Numeral.digit? c).isSome).head? ≠ some '.') : ipv4 cs = none := by
  have hdot : char '.' (cs.dropWhile fun c => (Numeral.digit? c).isSome) = none := by
    cases hrest : cs.dropWhile fun c => (Numeral.digit? c).isSome with
    | nil => rfl
    | cons c rest =>
      have hne : c ≠ '.' := fun hc => h (by rw [hrest, hc]; rfl)
      simp [char, hne]
  unfold ipv4
  cases hoctet : octet cs with
  | none => rfl
  | some out =>
    obtain ⟨n, rest⟩ := out
    rw [rest_of_octet hoctet]
    simp [hdot]

end Version4

/-! ## 3. Version 6 -/

section Version6

variable {rest cs : List Char} {gs : List Nat}

/-- Nothing of a group or of a dotted form is in front. -/
def Clear (cs : List Char) : Prop := ∀ c ∈ cs.head?, Hex.value? c = none ∧ c ≠ '.'

theorem clear_cons {c : Char} (h : Hex.value? c = none ∧ c ≠ '.') (cs : List Char) :
    Clear (c :: cs) := fun _ hd => Option.some.inj hd ▸ h

theorem digit?_of_value? {c : Char} (h : Hex.value? c = none) : Numeral.digit? c = none := by
  unfold Hex.value? at h
  unfold Numeral.digit?
  split at h
  · cases h
  · rename_i hdigit
    rw [if_neg hdigit]

/-- The digits of a group are not followed by a dot. -/
theorem ipv4_group (n : Nat) (clear : Clear cs) : ipv4 (Hex.ofNat n ++ cs) = none := by
  have hdots : '.' ∉ Hex.ofNat n := fun h =>
    absurd (mem_toDigits (by decide) (by decide) h) (by decide +kernel)
  refine ipv4_eq_none ?_
  generalize Hex.ofNat n = ds at hdots ⊢
  induction ds with
  | nil =>
    cases cs with
    | nil => exact nofun
    | cons c cs =>
      obtain ⟨hvalue, hdot⟩ := clear c rfl
      simpa [digit?_of_value? hvalue] using hdot
  | cons c ds ih =>
    rw [List.mem_cons, not_or] at hdots
    rw [List.cons_append, List.dropWhile_cons]
    split
    · exact ih hdots.2
    · exact fun h => hdots.1 (Option.some.inj h).symm

theorem ipv4_of_clear (clear : Clear cs) : ipv4 cs = none := by
  refine ipv4_eq_none ?_
  cases cs with
  | nil => exact nofun
  | cons c cs =>
    obtain ⟨hvalue, hdot⟩ := clear c rfl
    simpa [digit?_of_value? hvalue] using hdot

theorem group_of_clear (clear : Clear cs) : group cs = none := by
  have hnone : cs.takeWhile (fun c => (Hex.value? c).isSome) = [] := by
    cases cs with
    | nil => rfl
    | cons c cs => simp [(clear c rfl).1]
  unfold group number
  simp [hnone]

/-- Groups as text, each behind a colon but the first of all. -/
def groupChars : Bool → List Nat → List Char
  | _, [] => []
  | first, g :: gs => (if first then [] else [':']) ++ (Hex.ofNat g ++ groupChars false gs)

theorem toList_joined (gs : List Nat) : (Ipv6.joined gs).toList = groupChars true gs := by
  have hrest (gs : List Nat) (g : Nat) :
      (Ipv6.joined (g :: gs)).toList = Hex.ofNat g ++ groupChars false gs := by
    induction gs generalizing g with
    | nil => simp [Ipv6.joined, groupChars]
    | cons g' gs ih =>
      have hcons : Ipv6.joined (g :: g' :: gs) =
          String.ofList (Hex.ofNat g) ++ ":" ++ Ipv6.joined (g' :: gs) :=
        String.intercalate_cons_cons
      rw [hcons, String.toList_append, String.toList_append, ih, String.toList_ofList,
        List.append_assoc]
      rfl
  cases gs with
  | nil => rfl
  | cons g gs => exact hrest gs g

theorem clear_groupChars (clear : Clear rest) (gs : List Nat) :
    Clear (groupChars false gs ++ rest) := by
  cases gs with
  | nil => exact clear
  | cons g gs => exact clear_cons (by decide) _

/-- No group is read where none is in front, nor behind a colon there. -/
theorem groups_of_clear (limit : Nat) (first : Bool) (clear : Clear rest)
    (after : ∀ cs, rest = ':' :: cs → Clear cs) : groups limit first rest = (([], false), rest) := by
  cases limit with
  | zero => rfl
  | succ limit =>
    have hnext : ∀ cs, separated first rest = some cs → Clear cs := by
      intro cs hcs
      cases first with
      | true => exact Option.some.inj hcs ▸ clear
      | false =>
        cases rest with
        | nil => cases hcs
        | cons c tail =>
          by_cases hc : c = ':'
          · subst hc
            simp only [separated, char_cons, Bool.false_eq_true, ↓reduceIte, Option.map_some,
              Option.some.injEq] at hcs
            exact after cs (by rw [hcs])
          · simp [separated, char, hc] at hcs
    have hnone {α : Type} {r : Reader α} (fails : ∀ cs, Clear cs → r cs = none) :
        (separated first rest).bind r = none := by
      cases hcs : separated first rest with
      | none => rfl
      | some cs => exact fails cs (hnext cs hcs)
    unfold groups
    simp [hnone fun _ => ipv4_of_clear, hnone fun _ => group_of_clear]

/-- **Groups are read up to what is none**: behind them, and behind a colon there, nothing of another
group is in front. -/
theorem groups_groupChars (limit : Nat) (first : Bool) (short : gs.length ≤ limit)
    (small : ∀ g ∈ gs, g < 65536) (clear : Clear rest)
    (after : ∀ cs, rest = ':' :: cs → Clear cs) :
    groups limit first (groupChars first gs ++ rest) = ((gs, false), rest) := by
  induction gs generalizing limit first with
  | nil => exact groups_of_clear limit first clear after
  | cons g gs ih =>
    cases limit with
    | zero => cases short
    | succ limit =>
      have hclear := clear_groupChars clear gs
      have hsep : separated first (groupChars first (g :: gs) ++ rest) =
          some (Hex.ofNat g ++ (groupChars false gs ++ rest)) := by
        cases first with
        | true => simp [separated, groupChars]
        | false => simp [separated, groupChars]
      have hrest := ih limit false (Nat.le_of_succ_le_succ short)
        fun g hg => small g (List.mem_cons_of_mem _ hg)
      have hgroup := group_ofNat (small g List.mem_cons_self) fun c hc => (hclear c hc).1
      unfold groups
      simp only [hsep, Option.bind_some, ipv4_group g hclear, hgroup, hrest, ite_self]

end Version6

end Reader

namespace Ipv6

/-- **An address is that of its groups.** -/
theorem ofGroups_groups (a : Ipv6) : ofGroups a.groups = a := by
  have hstep (k : Nat) : a.bits.toNat >>> (k + 16) * 65536 + a.bits.toNat >>> k % 65536 =
      a.bits.toNat >>> k := by
    rw [Nat.shiftRight_add, show (65536 : Nat) = 2 ^ 16 from rfl, Nat.shiftRight_eq_div_pow _ 16]
    exact Nat.div_add_mod' _ _
  have hfirst : 0 * 65536 + a.bits.toNat >>> 112 % 65536 = a.bits.toNat >>> 112 := by
    have hhigh : a.bits.toNat >>> 128 = 0 := by
      rw [Nat.shiftRight_eq_div_pow]
      exact Nat.div_eq_of_lt a.bits.isLt
    have hlast := hstep 112
    rwa [hhigh] at hlast
  have hvalue : a.groups.foldl (fun n g => n * 65536 + g) 0 = a.bits.toNat := by
    have hgroups : a.groups = [112, 96, 80, 64, 48, 32, 16, 0].map fun k =>
        a.bits.toNat >>> k % 65536 := rfl
    rw [hgroups]
    simp only [List.map_cons, List.map_nil, List.foldl_cons, List.foldl_nil]
    rw [hfirst, hstep 96, hstep 80, hstep 64, hstep 48, hstep 32, hstep 16, hstep 0,
      Nat.shiftRight_zero]
  unfold ofGroups
  rw [hvalue, BitVec.ofNat_toNat, BitVec.setWidth_eq]

theorem group_lt (a : Ipv6) : ∀ g ∈ a.groups, g < 65536 := by
  intro g hg
  obtain ⟨i, -, rfl⟩ := List.mem_map.mp hg
  exact Nat.mod_lt _ (by decide)

/-- A mapped address is that of the last two groups of its dotted form. -/
theorem ofGroups_of_mapped {a : Ipv6} {inner : Ipv4} (mapped : a.mapped? = some inner) :
    ofGroups [0, 0, 0, 0, 0, 65535, inner.bits.toNat / 65536, inner.bits.toNat % 65536] = a := by
  unfold mapped? at mapped
  split at mapped
  · rename_i hhigh
    obtain rfl := Option.some.inj mapped
    rw [Nat.shiftRight_eq_div_pow] at hhigh
    have hlow : (a.bits.truncate 32).toNat = a.bits.toNat % 2 ^ 32 := by
      simp
    unfold ofGroups
    have hvalue : (65535 * 65536 + (a.bits.truncate 32).toNat / 65536) * 65536 +
        (a.bits.truncate 32).toNat % 65536 = a.bits.toNat := by
      rw [hlow]
      omega
    simp only [List.foldl_cons, List.foldl_nil, Nat.zero_mul, Nat.zero_add, hvalue,
      BitVec.ofNat_toNat, BitVec.setWidth_eq]
  · cases mapped

/-- An address of the plain form has all its groups or leaves a run of zeros out. -/
theorem print_cases {a : Ipv6} (plain : a.mapped? = none) : a.print = joined a.groups ∨
    ∃ head tail len, a.print = joined head ++ "::" ++ joined tail ∧
      a.groups = head ++ List.replicate len 0 ++ tail ∧ 2 ≤ len := by
  rw [print_eq plain]
  obtain ⟨hparts, -⟩ | ⟨head, tail, len, hparts, hgroups, hlen⟩ := parts_cases a
  · rw [hparts]
    exact Or.inl rfl
  · rw [hparts, intercalate_beside]
    exact Or.inr ⟨head, tail, len, rfl, hgroups, hlen⟩

end Ipv6

namespace Reader

variable {rest : List Char}

/-- Nothing of an address is in front. -/
def Ends (rest : List Char) : Prop := ∀ c ∈ rest.head?, Hex.value? c = none ∧ c ≠ '.' ∧ c ≠ ':'

theorem Ends.clear (h : Ends rest) : Clear rest := fun c hc => ⟨(h c hc).1, (h c hc).2.1⟩

theorem Ends.after (h : Ends rest) (cs : List Char) (hcs : rest = ':' :: cs) : Clear cs :=
  absurd rfl (h ':' (by rw [hcs]; rfl)).2.2

/-- The groups in front of a run that is left out. -/
theorem groups_before_run {limit : Nat} (head : List Nat) (short : head.length ≤ limit)
    (small : ∀ g ∈ head, g < 65536) (rest : List Char) :
    groups limit true (groupChars true head ++ ':' :: ':' :: rest) =
      ((head, false), ':' :: ':' :: rest) := by
  refine groups_groupChars limit true short small (clear_cons (by decide) _) fun cs hcs => ?_
  rw [← List.tail_eq_of_cons_eq hcs]
  exact clear_cons (by decide) _

/-- A mapped address is read of its dotted form. -/
theorem ipv6_print_mapped {a : Ipv6} {inner : Ipv4} (mapped : a.mapped? = some inner)
    (ends : Ends rest) : ipv6 (a.print.toList ++ rest) = some (a, rest) := by
  have hdigits : ∀ c ∈ rest.head?, Numeral.digit? c = none :=
    fun c hc => digit?_of_value? (ends c hc).1
  have htext : a.print.toList ++ rest = groupChars true [] ++ ':' :: ':' ::
      (Hex.ofNat 65535 ++ ':' :: (inner.print.toList ++ rest)) := by
    rw [Ipv6.print_of_mapped mapped]
    simp [groupChars]
    rfl
  have hfirst : ipv4 (Hex.ofNat 65535 ++ ':' :: (inner.print.toList ++ rest)) = none :=
    ipv4_group _ (clear_cons (by decide) _)
  have hgroup : group (Hex.ofNat 65535 ++ ':' :: (inner.print.toList ++ rest)) =
      some (65535, ':' :: (inner.print.toList ++ rest)) :=
    group_ofNat (by decide) (none_of_head (by decide) _)
  have htail : groups 7 true (Hex.ofNat 65535 ++ ':' :: (inner.print.toList ++ rest)) =
      (([65535, inner.bits.toNat / 65536, inner.bits.toNat % 65536], true), rest) := by
    simp [groups, separated, hfirst, hgroup, ipv4_print inner hdigits]
  rw [htext]
  unfold ipv6
  rw [groups_before_run [] (by decide) nofun]
  simp [htail, Ipv6.ofGroups_of_mapped mapped]

/-- **Addresses of version 6 are read as they are written.** -/
theorem ipv6_print (a : Ipv6) (ends : Ends rest) :
    ipv6 (a.print.toList ++ rest) = some (a, rest) := by
  cases hmapped : a.mapped? with
  | some inner => exact ipv6_print_mapped hmapped ends
  | none =>
    obtain hprint | ⟨head, tail, len, hprint, hgroups, hlen⟩ := Ipv6.print_cases hmapped
    · have hread := groups_groupChars 8 true (Nat.le_of_eq a.length_groups)
        a.group_lt ends.clear ends.after
      rw [hprint, toList_joined]
      unfold ipv6
      rw [hread]
      simp [a.length_groups, Ipv6.ofGroups_groups]
    · have hsize := a.length_groups
      have hsmall := a.group_lt
      rw [hgroups] at hsize hsmall
      simp only [List.length_append, List.length_replicate] at hsize
      have htext : a.print.toList ++ rest =
          groupChars true head ++ ':' :: ':' :: (groupChars true tail ++ rest) := by
        rw [hprint]
        simp [toList_joined]
      have haddress : Ipv6.ofGroups (head ++ (List.replicate len 0 ++ tail)) = a := by
        rw [← List.append_assoc, ← hgroups, Ipv6.ofGroups_groups]
      have hhead : head.length ≠ 8 := by omega
      have hzeros : 8 - head.length - tail.length = len := by omega
      have htail := groups_groupChars (7 - head.length) true (by omega)
        (fun g hg => hsmall g (List.mem_append_right _ hg)) ends.clear ends.after
      rw [htext]
      unfold ipv6
      rw [groups_before_run head (by omega) fun g hg =>
        hsmall g (List.mem_append_left _ (List.mem_append_left _ hg))]
      simp [hhead, htail, hzeros, haddress]

/-! ## 4. Endpoints -/

theorem port_print (port : UInt16) : Reader.port (':' :: Nat.toDigits 10 port.toNat) =
    some (port, []) := by
  have hnumber : decimal Numeral.max16 (Nat.toDigits 10 port.toNat ++ []) =
      some (port.toNat, []) := decimal_toDigits (Nat.le_of_lt_succ port.toNat_lt) nofun
  rw [List.append_nil] at hnumber
  unfold Reader.port
  simp [hnumber]

/-- The scope ends at the closing bracket. -/
theorem scope_scopeText (s : UInt32) (rest : List Char) :
    scope ((Endpoint.scopeText s).toList ++ ']' :: rest) = some (s, ']' :: rest) := by
  unfold Endpoint.scopeText
  split
  · rename_i hzero
    rw [hzero]
    rfl
  · have hnumber : decimal Numeral.max32 (Nat.toDigits 10 s.toNat ++ ']' :: rest) =
        some (s.toNat, ']' :: rest) :=
      decimal_toDigits (Nat.le_of_lt_succ s.toNat_lt) (none_of_head (by decide) rest)
    rw [String.toList_append, toList_toString]
    show (decimal Numeral.max32 (Nat.toDigits 10 s.toNat ++ ']' :: rest)).map _ = _
    rw [hnumber]
    simp

end Reader

namespace Endpoint

open Reader

theorem endpoint4_print (a : Ipv4) (port : UInt16) :
    endpoint4 (v4 a port).print.toList = some (v4 a port, []) := by
  have hstop : ∀ c ∈ (':' :: Nat.toDigits 10 port.toNat).head?, Numeral.digit? c = none :=
    none_of_head (by decide) _
  rw [print_v4]
  unfold endpoint4
  simp [ipv4_print a hstop, port_print]

theorem endpoint6_print (a : Ipv6) (s : UInt32) (port : UInt16) :
    endpoint6 (v6 a s port).print.toList = some (v6 a s port, []) := by
  have hends : Ends ((scopeText s).toList ++ ']' :: ':' :: Nat.toDigits 10 port.toNat) := by
    intro c hc
    cases hscope : (scopeText s).toList with
    | nil =>
      rw [hscope] at hc
      rw [← Option.some.inj hc]
      decide
    | cons d ds =>
      have hd : d = '%' := head_scopeText d (by rw [hscope]; rfl)
      rw [hscope] at hc
      rw [← Option.some.inj hc, hd]
      decide
  rw [print_v6]
  unfold endpoint6
  simp [ipv6_print a hends, scope_scopeText, port_print]

/-- **An endpoint is read as it is written.** -/
theorem parse?_print (e : Endpoint) : parse? e.print = some e := by
  unfold parse?
  cases e with
  | v4 a port => simp [whole, endpoint4_print]
  | v6 a s port =>
    -- no address of version 4 begins with a bracket
    have hfront : endpoint4 (v6 a s port).print.toList = none := by
      rw [print_v6]
      unfold endpoint4
      rw [ipv4_of_clear (clear_cons (by decide) _)]
      rfl
    simp [whole, hfront, endpoint6_print]

end Endpoint

end AccessGate
