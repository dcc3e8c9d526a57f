import AccessGate.Net.Printed
import AccessGate.Proofs.Text.Numerals

/-!
# Addresses as text are told apart

Two endpoints with one text are one endpoint, and a text of an endpoint holds few signs. So it can
stand in a longer text beside others.

* `intercalate_injective`: parts without the separator can be read back from their joined text;
* `Ipv4.print_injective`, `Ipv6.print_injective`: so can the octets and the groups, where the run of
  zero groups that `::` leaves out is what the other groups miss of eight (`longestRun_spec`);
* `Endpoint.print_injective`, `Endpoint.mem_print`: and so can address, scope and port.
-/

namespace AccessGate

/-! ## 1. Joined texts -/

section Joined

variable {c : Char} {sep : String} {xs ys : List String}

/-- A joined text holds what its parts and the separator hold. -/
theorem mem_intercalate {x : Char} (h : x ∈ (sep.intercalate xs).toList) :
    x ∈ sep.toList ∨ ∃ s ∈ xs, x ∈ s.toList := by
  induction xs with
  | nil => cases h
  | cons s rest ih =>
    by_cases hrest : rest = []
    · subst hrest
      exact Or.inr ⟨s, List.mem_singleton_self s, h⟩
    · rw [String.intercalate_cons_of_ne_nil hrest, String.toList_append, String.toList_append] at h
      rcases List.mem_append.mp h with h | h
      · rcases List.mem_append.mp h with h | h
        · exact Or.inr ⟨s, List.mem_cons_self, h⟩
        · exact Or.inl h
      · rcases ih h with h | ⟨s', hs', h⟩
        · exact Or.inl h
        · exact Or.inr ⟨s', List.mem_cons_of_mem s hs', h⟩

/-- **Parts that do not hold the separator can be read back.** -/
theorem intercalate_injective (single : sep.toList = [c]) (hx : ∀ s ∈ xs, c ∉ s.toList)
    (hy : ∀ s ∈ ys, c ∉ s.toList) (nx : xs ≠ []) (ny : ys ≠ [])
    (h : sep.intercalate xs = sep.intercalate ys) : xs = ys := by
  have hread (zs : List String) (hz : ∀ s ∈ zs, c ∉ s.toList) (nz : zs ≠ []) :
      (sep.intercalate zs).toList.splitOn c = zs.map String.toList := by
    rw [String.toList_intercalate, single]
    refine List.splitOn_intercalate c ?_ (by simpa using nz)
    intro l hl
    obtain ⟨s, hs, rfl⟩ := List.mem_map.mp hl
    exact hz s hs
  have hlists : xs.map String.toList = ys.map String.toList := by
    rw [← hread xs hx nx, h, hread ys hy ny]
  exact List.map_injective_iff.mpr (fun s s' => String.toList_inj.mp) hlists

end Joined

/-! ## 2. Version 4 -/

namespace Ipv4

variable {a b : Ipv4}

/-- The signs of an address of version 4. -/
def signs : List Char := '.' :: digitSigns

theorem octets_injective (h : a.octets = b.octets) : a = b := by
  have hlt (x : Ipv4) : x.bits.toNat < 256 ^ 4 := Nat.lt_of_lt_of_eq x.bits.isLt (by decide)
  have hnum := congrArg Bytes.toNat h
  unfold octets at hnum
  rw [Bytes.toNat_ofNat, Bytes.toNat_ofNat, Nat.mod_eq_of_lt (hlt a),
    Nat.mod_eq_of_lt (hlt b)] at hnum
  cases a
  cases b
  congr
  exact BitVec.eq_of_toNat_eq hnum

theorem mem_octetText {o : UInt8} {c : Char} (h : c ∈ (toString o.toNat).toList) :
    c ∈ digitSigns := by
  rw [toList_toString] at h
  exact mem_toDigits (by decide) (by decide) h

theorem mem_print {c : Char} (h : c ∈ a.print.toList) : c ∈ signs := by
  rcases mem_intercalate h with h | ⟨s, hs, h⟩
  · obtain rfl : c = '.' := List.mem_singleton.mp h
    exact List.mem_cons_self
  · obtain ⟨o, -, rfl⟩ := List.mem_map.mp hs
    exact List.mem_cons_of_mem _ (mem_octetText h)

/-- **Addresses of version 4 have texts of their own.** -/
theorem print_injective (h : a.print = b.print) : a = b := by
  have hpart (a : Ipv4) : ∀ s ∈ a.octets.map fun o => toString o.toNat, '.' ∉ s.toList := by
    intro s hs hdot
    obtain ⟨o, -, rfl⟩ := List.mem_map.mp hs
    exact absurd (mem_octetText hdot) (by decide +kernel)
  have hsome (a : Ipv4) : a.octets.map (fun o => toString o.toNat) ≠ [] := by
    intro hnil
    have hlen := congrArg List.length hnil
    simp [octets] at hlen
  have htexts := intercalate_injective (c := '.') rfl (hpart a) (hpart b) (hsome a) (hsome b) h
  refine octets_injective (List.map_injective_iff.mpr (fun o o' ho => ?_) htexts)
  have hdigits := congrArg String.toList ho
  rw [toList_toString, toList_toString] at hdigits
  exact UInt8.toNat_inj.mp (toDigits_injective (by decide) (by decide) hdigits)

theorem dot_mem_print (a : Ipv4) : '.' ∈ a.print.toList := by
  unfold print octets
  simp [Bytes.ofNat, String.intercalate_cons_cons]

end Ipv4

/-! ## 3. Version 6 -/

namespace Ipv6

variable {a b : Ipv6} {gs hs : List Nat}

/-- The signs of an address of version 6. -/
def signs : List Char := ':' :: Ipv4.signs

theorem length_groups (a : Ipv6) : a.groups.length = 8 := by simp [groups]

/-- The address is told by its groups. -/
theorem groups_injective (h : a.groups = b.groups) : a = b := by
  have hgroup (k : Nat) (small : k < 8) :
      a.bits.toNat >>> (16 * k) % 65536 = b.bits.toNat >>> (16 * k) % 65536 := by
    have hk := congrArg (fun gs => gs[7 - k]?) h
    have hback : 7 - (7 - k) = k := by omega
    have hrange : 7 - k < 8 := by omega
    simpa [groups, hback, hrange] using hk
  have hbits : a.bits.toNat = b.bits.toNat := by
    refine Nat.eq_of_testBit_eq fun i => ?_
    by_cases hi : i < 128
    · -- the bit `i` stands in the group `i / 16` from the end
      have hbit := congrArg (Nat.testBit · (i % 16)) (hgroup (i / 16) (by omega))
      have hsplit : 16 * (i / 16) + i % 16 = i := Nat.div_add_mod i 16
      have hinside : i % 16 < 16 := Nat.mod_lt i (by decide)
      rw [show 65536 = 2 ^ 16 from rfl] at hbit
      simpa only [Nat.testBit_mod_two_pow, Nat.testBit_shiftRight, hsplit, hinside, decide_true,
        Bool.true_and] using hbit
    · have hout (n : BitVec 128) : n.toNat.testBit i = false :=
        Nat.testBit_lt_two_pow (Nat.lt_of_lt_of_le n.isLt
          (Nat.pow_le_pow_right (by decide) (Nat.not_lt.mp hi)))
      rw [hout, hout]
  cases a
  cases b
  congr
  exact BitVec.eq_of_toNat_eq hbits

/-- **The longest run** is a stretch of zeros inside the groups. -/
theorem longestRun_spec (start : Nat) (gs : List Nat) : ∃ head tail,
    gs = head ++ List.replicate (longestRun start gs).2 0 ++ tail ∧
      (longestRun start gs).1 = start + head.length := by
  induction gs generalizing start with
  | nil => exact ⟨[], [], rfl, rfl⟩
  | cons g rest ih =>
    unfold longestRun
    simp only
    split
    · refine ⟨[], (g :: rest).dropWhile (· == 0), ?_, rfl⟩
      have hzeros : (g :: rest).takeWhile (· == 0) =
          List.replicate (zeroRun (g :: rest)) 0 := by
        refine List.eq_replicate_of_mem fun n hn => ?_
        exact beq_iff_eq.mp (List.all_eq_true.mp List.all_takeWhile n hn)
      rw [List.nil_append, ← hzeros]
      exact (List.takeWhile_append_dropWhile).symm
    · obtain ⟨head, tail, hrest, hstart⟩ := ih (start + 1)
      refine ⟨g :: head, tail, ?_, ?_⟩
      · rw [List.cons_append, List.cons_append, ← hrest]
      · rw [hstart, List.length_cons]
        omega

/-- A group as text. -/
def word (g : Nat) : String := String.ofList (Hex.ofNat g)

theorem word_injective {g g' : Nat} (h : word g = word g') : g = g' := by
  have hdigits : Hex.ofNat g = Hex.ofNat g' := by simpa [word] using congrArg String.toList h
  exact toDigits_injective (by decide) (by decide) hdigits

theorem mem_word {g : Nat} {c : Char} (h : c ∈ (word g).toList) : c ∈ digitSigns := by
  rw [word, String.toList_ofList] at h
  exact mem_toDigits (by decide) (by decide) h

theorem word_ne_empty (g : Nat) : word g ≠ "" := by
  intro h
  have hnil : Hex.ofNat g = [] := by simpa [word] using congrArg String.toList h
  exact Nat.toDigits_ne_nil hnil

/-- Groups beside the run that is left out; where there are none, the text begins or ends with the
separator. -/
def beside (gs : List Nat) : List String := if gs = [] then [""] else gs.map word

theorem beside_ne_nil (gs : List Nat) : beside gs ≠ [] := by
  unfold beside
  split
  · exact List.cons_ne_nil _ _
  · rename_i hne
    simpa using hne

theorem joined_beside (gs : List Nat) : ":".intercalate (beside gs) = joined gs := by
  unfold beside
  split
  · rename_i hnil
    subst hnil
    rfl
  · rfl

theorem reverse_beside (gs : List Nat) : (beside gs).reverse = beside gs.reverse := by
  unfold beside
  by_cases hnil : gs = []
  · subst hnil
    rfl
  · rw [if_neg hnil, if_neg (by simpa using hnil), List.map_reverse]

/-- The groups before the first empty part. -/
theorem takeWhile_beside (gs : List Nat) (rest : List String) :
    (beside gs ++ "" :: rest).takeWhile (· ≠ "") = gs.map word := by
  unfold beside
  split
  · rename_i hnil
    subst hnil
    rfl
  · rw [List.takeWhile_append_of_pos]
    · simp
    · intro s hs
      obtain ⟨g, -, rfl⟩ := List.mem_map.mp hs
      simpa using word_ne_empty g

theorem map_word_injective (h : gs.map word = hs.map word) : gs = hs :=
  List.map_injective_iff.mpr (fun _ _ => word_injective) h

/-- The parts between the separators. -/
def parts (a : Ipv6) : List String :=
  let run := longestRun 0 a.groups
  if run.2 ≥ 2 then beside (a.groups.take run.1) ++ "" :: beside (a.groups.drop (run.1 + run.2))
  else a.groups.map word

/-- The parts on both sides of the run that is left out. -/
theorem intercalate_beside (head tail : List Nat) :
    ":".intercalate (beside head ++ "" :: beside tail) = joined head ++ "::" ++ joined tail := by
  have htwice : "::" = ":" ++ ":" := rfl
  rw [String.intercalate_append_of_ne_nil (beside_ne_nil _) (List.cons_ne_nil _ _),
    String.intercalate_cons_of_ne_nil (beside_ne_nil _), joined_beside, joined_beside, htwice,
    String.empty_append, String.append_assoc, String.append_assoc, String.append_assoc]

theorem print_eq (plain : a.mapped? = none) : a.print = ":".intercalate a.parts := by
  unfold print parts
  simp only [plain]
  split
  · exact (intercalate_beside _ _).symm
  · rfl

/-- The run that is left out is what the other groups miss of eight. -/
theorem parts_cases (a : Ipv6) :
    (a.parts = a.groups.map word ∧ "" ∉ a.parts) ∨
    ∃ head tail len, a.parts = beside head ++ "" :: beside tail ∧
      a.groups = head ++ List.replicate len 0 ++ tail ∧ 2 ≤ len := by
  unfold parts
  simp only
  split
  · rename_i hlong
    obtain ⟨head, tail, hgroups, hstart⟩ := longestRun_spec 0 a.groups
    refine Or.inr ⟨head, tail, _, ?_, hgroups, hlong⟩
    generalize longestRun 0 a.groups = run at hgroups hstart
    have htake : a.groups.take run.1 = head := by
      rw [hgroups, hstart, Nat.zero_add, List.append_assoc, List.take_left]
    have hdrop : a.groups.drop (run.1 + run.2) = tail := by
      have hlen : run.1 + run.2 = (head ++ List.replicate run.2 0).length := by
        rw [List.length_append, List.length_replicate, hstart, Nat.zero_add]
      rw [hgroups, hlen, List.drop_left]
    rw [htake, hdrop]
  · refine Or.inl ⟨rfl, fun h => ?_⟩
    obtain ⟨g, -, hg⟩ := List.mem_map.mp h
    exact word_ne_empty g hg

theorem parts_injective (h : a.parts = b.parts) : a = b := by
  refine groups_injective ?_
  obtain ⟨ha, hafull⟩ | ⟨head, tail, len, ha, hagroups, -⟩ := parts_cases a <;>
    obtain ⟨hb, hbfull⟩ | ⟨head', tail', len', hb, hbgroups, -⟩ := parts_cases b
  · exact map_word_injective (by rw [← ha, ← hb, h])
  · exact absurd (by rw [h, hb]; simp) hafull
  · exact absurd (by rw [← h, ha]; simp) hbfull
  · rw [ha, hb] at h
    have hhead : head = head' := by
      have hfront := congrArg (List.takeWhile (· ≠ "")) h
      rw [takeWhile_beside, takeWhile_beside] at hfront
      exact map_word_injective hfront
    have htail : tail = tail' := by
      have hback := congrArg (fun l => (List.reverse l).takeWhile (· ≠ "")) h
      simp only [List.reverse_append, List.reverse_cons, reverse_beside, List.append_assoc,
        List.singleton_append, takeWhile_beside] at hback
      exact List.reverse_inj.mp (map_word_injective hback)
    subst hhead htail
    have hlen : len = len' := by
      have hsize := length_groups a
      have hsize' := length_groups b
      rw [hagroups, List.length_append, List.length_append, List.length_replicate] at hsize
      rw [hbgroups, List.length_append, List.length_append, List.length_replicate] at hsize'
      omega
    rw [hagroups, hbgroups, hlen]

theorem mem_parts {s : String} {c : Char} (hs : s ∈ a.parts) (h : c ∈ s.toList) :
    c ∈ digitSigns := by
  have hbeside {gs : List Nat} (hs : s ∈ beside gs) : c ∈ digitSigns := by
    unfold beside at hs
    split at hs
    · rw [List.mem_singleton.mp hs] at h
      cases h
    · obtain ⟨g, -, rfl⟩ := List.mem_map.mp hs
      exact mem_word h
  obtain ⟨ha, -⟩ | ⟨head, tail, len, ha, -⟩ := parts_cases a <;> rw [ha] at hs
  · obtain ⟨g, -, rfl⟩ := List.mem_map.mp hs
    exact mem_word h
  · rcases List.mem_append.mp hs with hs | hs
    · exact hbeside hs
    · rcases List.mem_cons.mp hs with rfl | hs
      · cases h
      · exact hbeside hs

theorem parts_ne_nil (a : Ipv6) : a.parts ≠ [] := by
  obtain ⟨ha, -⟩ | ⟨head, tail, len, ha, -⟩ := parts_cases a <;> rw [ha] <;> intro hnil
  · have hlen := congrArg List.length hnil
    rw [List.length_map, length_groups] at hlen
    cases hlen
  · exact List.append_ne_nil_of_right_ne_nil _ (List.cons_ne_nil _ _) hnil

theorem print_of_mapped {inner : Ipv4} (mapped : a.mapped? = some inner) :
    a.print = "::ffff:" ++ inner.print := by
  unfold print
  rw [mapped]

theorem mem_print_plain (plain : a.mapped? = none) {c : Char} (h : c ∈ a.print.toList) :
    c ∈ ':' :: digitSigns := by
  rw [print_eq plain] at h
  rcases mem_intercalate h with h | ⟨s, hs, h⟩
  · obtain rfl : c = ':' := List.mem_singleton.mp h
    exact List.mem_cons_self
  · exact List.mem_cons_of_mem _ (mem_parts hs h)

theorem mem_print {c : Char} (h : c ∈ a.print.toList) : c ∈ signs := by
  cases hmapped : a.mapped? with
  | none =>
    rcases List.mem_cons.mp (mem_print_plain hmapped h) with rfl | h
    · exact List.mem_cons_self
    · exact List.mem_cons_of_mem _ (List.mem_cons_of_mem _ h)
  | some inner =>
    have hfront : "::ffff:".toList ⊆ signs := by decide +kernel
    rw [print_of_mapped hmapped, String.toList_append] at h
    rcases List.mem_append.mp h with h | h
    · exact hfront h
    · exact List.mem_cons_of_mem _ (Ipv4.mem_print h)

theorem mapped_injective {inner : Ipv4} (ha : a.mapped? = some inner)
    (hb : b.mapped? = some inner) : a = b := by
  unfold mapped? at ha hb
  split at ha <;> split at hb
  · rename_i hahigh hbhigh
    have hlow := congrArg (fun i : Ipv4 => i.bits.toNat)
      ((Option.some.inj ha).trans (Option.some.inj hb).symm)
    simp only [BitVec.truncate_eq_setWidth, BitVec.toNat_setWidth] at hlow
    rw [Nat.shiftRight_eq_div_pow] at hahigh hbhigh
    have hbits : a.bits.toNat = b.bits.toNat := by
      rw [← Nat.div_add_mod a.bits.toNat (2 ^ 32), ← Nat.div_add_mod b.bits.toNat (2 ^ 32), hahigh,
        hbhigh, hlow]
    cases a
    cases b
    congr
    exact BitVec.eq_of_toNat_eq hbits
  all_goals contradiction

/-- Only a mapped address has dots. -/
theorem print_ne_of_mapped {inner : Ipv4} (mapped : a.mapped? = some inner)
    (plain : b.mapped? = none) : a.print ≠ b.print := by
  intro h
  have hdot : '.' ∈ a.print.toList := by
    rw [print_of_mapped mapped, String.toList_append]
    exact List.mem_append_right _ inner.dot_mem_print
  rw [h] at hdot
  exact absurd (mem_print_plain plain hdot) (by decide +kernel)

/-- **Addresses of version 6 have texts of their own.** -/
theorem print_injective (h : a.print = b.print) : a = b := by
  cases ha : a.mapped? with
  | none =>
    cases hb : b.mapped? with
    | none =>
      rw [print_eq ha, print_eq hb] at h
      have hfree (a : Ipv6) : ∀ s ∈ a.parts, ':' ∉ s.toList :=
        fun s hs hc => absurd (mem_parts hs hc) (by decide +kernel)
      exact parts_injective (intercalate_injective (c := ':') rfl (hfree a) (hfree b)
        (parts_ne_nil a) (parts_ne_nil b) h)
    | some inner => exact absurd h.symm (print_ne_of_mapped hb ha)
  | some inner =>
    cases hb : b.mapped? with
    | none => exact absurd h (print_ne_of_mapped ha hb)
    | some inner' =>
      rw [print_of_mapped ha, print_of_mapped hb, String.append_right_inj] at h
      obtain rfl := Ipv4.print_injective h
      exact mapped_injective ha hb

end Ipv6

/-! ## 4. Endpoints -/

namespace Endpoint

variable {e e' : Endpoint}

/-- The signs of an endpoint. -/
def signs : List Char := ['[', ']', '%'] ++ Ipv6.signs

/-- The scope as text, nothing for none. -/
def scopeText (scope : UInt32) : String := if scope = 0 then "" else "%" ++ toString scope.toNat

theorem print_v4 (a : Ipv4) (port : UInt16) :
    (v4 a port).print.toList = a.print.toList ++ ':' :: Nat.toDigits 10 port.toNat := by
  rw [print, String.toList_append, String.toList_append, toList_toString, List.append_assoc]
  rfl

theorem print_v6 (a : Ipv6) (scope : UInt32) (port : UInt16) :
    (v6 a scope port).print.toList = '[' :: ((a.print.toList ++ (scopeText scope).toList) ++
      ']' :: ':' :: Nat.toDigits 10 port.toNat) := by
  show ("[" ++ a.print ++ scopeText scope ++ "]:" ++ toString port.toNat).toList = _
  simp only [String.toList_append, toList_toString, List.append_assoc]
  rfl

theorem mem_digits {n : Nat} {c : Char} (h : c ∈ Nat.toDigits 10 n) : c ∈ digitSigns :=
  mem_toDigits (by decide) (by decide) h

theorem mem_scopeText {scope : UInt32} {c : Char} (h : c ∈ (scopeText scope).toList) :
    c ∈ '%' :: digitSigns := by
  unfold scopeText at h
  split at h
  · cases h
  · rw [String.toList_append, toList_toString] at h
    rcases List.mem_append.mp h with h | h
    · rw [List.mem_singleton.mp h]
      exact List.mem_cons_self
    · exact List.mem_cons_of_mem _ (mem_digits h)

theorem scopeText_injective {scope scope' : UInt32} (h : scopeText scope = scopeText scope') :
    scope = scope' := by
  have hsome (n : Nat) : "%" ++ toString n ≠ "" := by
    intro hempty
    have hlist := congrArg String.toList hempty
    rw [String.toList_append] at hlist
    cases hlist
  unfold scopeText at h
  split at h <;> split at h
  · rename_i hzero hzero'
    rw [hzero, hzero']
  · exact absurd h.symm (hsome _)
  · exact absurd h (hsome _)
  · have hdigits := congrArg String.toList (String.append_right_inj _ |>.mp h)
    rw [toList_toString, toList_toString] at hdigits
    exact UInt32.toNat_inj.mp (toDigits_injective (by decide) (by decide) hdigits)

theorem head_scopeText {scope : UInt32} : ∀ c ∈ (scopeText scope).toList.head?, c = '%' := by
  intro c hc
  unfold scopeText at hc
  split at hc
  · cases hc
  · rw [String.toList_append] at hc
    exact (Option.some.inj hc).symm

/-- Every sign of a numeral, an address and a scope is a sign of an endpoint. -/
theorem mem_print {c : Char} (h : c ∈ e.print.toList) : c ∈ signs := by
  have hdigits : digitSigns ⊆ signs := by decide +kernel
  have hv4 : Ipv4.signs ⊆ signs := by decide +kernel
  have hv6 : Ipv6.signs ⊆ signs := by decide +kernel
  have hscope : '%' :: digitSigns ⊆ signs := by decide +kernel
  cases e with
  | v4 a port =>
    rw [print_v4] at h
    rcases List.mem_append.mp h with h | h
    · exact hv4 (Ipv4.mem_print h)
    · rcases List.mem_cons.mp h with rfl | h
      · decide +kernel
      · exact hdigits (mem_digits h)
  | v6 a scope port =>
    rw [print_v6] at h
    simp only [List.mem_cons, List.mem_append] at h
    rcases h with rfl | (h | h) | rfl | rfl | h
    · decide +kernel
    · exact hv6 (Ipv6.mem_print h)
    · exact hscope (mem_scopeText h)
    · decide +kernel
    · decide +kernel
    · exact hdigits (mem_digits h)

theorem print_v4_ne_v6 (a : Ipv4) (port : UInt16) (b : Ipv6) (scope : UInt32) (port' : UInt16) :
    (v4 a port).print ≠ (v6 b scope port').print := by
  intro h
  have hopen : '[' ∈ (v4 a port).print.toList := by
    rw [h, print_v6]
    exact List.mem_cons_self
  rw [print_v4] at hopen
  rcases List.mem_append.mp hopen with hin | hin
  · exact absurd (Ipv4.mem_print hin) (by decide +kernel)
  · rcases List.mem_cons.mp hin with hin | hin
    · cases hin
    · exact absurd (mem_digits hin) (by decide +kernel)

theorem port_injective {port port' : UInt16}
    (h : Nat.toDigits 10 port.toNat = Nat.toDigits 10 port'.toNat) : port = port' :=
  UInt16.toNat_inj.mp (toDigits_injective (by decide) (by decide) h)

/-- **Endpoints have texts of their own.** -/
theorem print_injective (h : e.print = e'.print) : e = e' := by
  cases e with
  | v4 a port =>
    cases e' with
    | v4 a' port' =>
      have hlist := congrArg String.toList h
      rw [print_v4, print_v4] at hlist
      have hfree (a : Ipv4) : ':' ∉ a.print.toList :=
        fun hc => absurd (Ipv4.mem_print hc) (by decide +kernel)
      obtain ⟨haddress, hport⟩ := cut_unique (hfree a) (hfree a') (by simp) (by simp) hlist
      rw [Ipv4.print_injective (String.toList_inj.mp haddress),
        port_injective (List.tail_eq_of_cons_eq hport)]
    | v6 a' scope' port' => exact absurd h (print_v4_ne_v6 a port a' scope' port')
  | v6 a scope port =>
    cases e' with
    | v4 a' port' => exact absurd h.symm (print_v4_ne_v6 a' port' a scope port)
    | v6 a' scope' port' =>
      have hlist := congrArg String.toList h
      rw [print_v6, print_v6] at hlist
      have hclosed (a : Ipv6) (scope : UInt32) :
          ']' ∉ a.print.toList ++ (scopeText scope).toList := by
        intro hc
        rcases List.mem_append.mp hc with hc | hc
        · exact absurd (Ipv6.mem_print hc) (by decide +kernel)
        · exact absurd (mem_scopeText hc) (by decide +kernel)
      obtain ⟨hinside, hport⟩ := cut_unique (hclosed a scope) (hclosed a' scope') (by simp)
        (by simp) (List.tail_eq_of_cons_eq hlist)
      have hfree (a : Ipv6) : '%' ∉ a.print.toList :=
        fun hc => absurd (Ipv6.mem_print hc) (by decide +kernel)
      obtain ⟨haddress, hscope⟩ := cut_unique (hfree a) (hfree a') head_scopeText head_scopeText
        hinside
      rw [Ipv6.print_injective (String.toList_inj.mp haddress),
        scopeText_injective (String.toList_inj.mp hscope),
        port_injective (List.tail_eq_of_cons_eq (List.tail_eq_of_cons_eq hport))]

end Endpoint

end AccessGate
