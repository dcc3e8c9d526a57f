import Mathlib.Data.List.DropRight
import Mathlib.Data.List.Forall2

/-!
# Lists

What the theory needs of lists beyond the library: a list that grew at its end is cut
(`cut_snoc`), and one that is joined of two parts where the first of them must end (`cut_unique`);
the only element with a property is found (`find?_of_pairwise`) and taken out (`eraseP_eq_filter`),
and of two lists that stand for each other what stands in one stands for something in the other; a
list that stands for another by a function is its image (`forall_eq_iff`). What is trimmed off the
end is told by what was there (`exists_eq_rdropWhile_append`), and searches by the first and the
last of a list (`IsFirst`, `IsLast`).
-/

namespace AccessGate

variable {α β γ : Type}

/-- An element of a list with one more at its end is that one or was there before. -/
theorem cut_snoc {xs earlier later : List α} {x y : α} (cut : xs ++ [y] = earlier ++ x :: later) :
    xs = earlier ∧ y = x ∧ later = [] ∨
      ∃ later', xs = earlier ++ x :: later' ∧ later = later' ++ [y] := by
  rcases List.eq_nil_or_concat later with rfl | ⟨later, z, rfl⟩
  · obtain ⟨hxs, hxy⟩ := List.append_inj' cut rfl
    exact Or.inl ⟨hxs, List.head_eq_of_cons_eq hxy, rfl⟩
  · rw [List.concat_eq_append, ← List.cons_append, ← List.append_assoc] at cut
    obtain ⟨hxs, hz⟩ := List.append_inj' cut rfl
    obtain rfl := List.head_eq_of_cons_eq hz
    exact Or.inr ⟨later, hxs, List.concat_eq_append⟩

/-- Two lists are joined in one way only, if a sign that the first does not hold starts the second,
unless the second is empty. -/
theorem cut_unique {c : α} {xs ys s t : List α} (hx : c ∉ xs) (hy : c ∉ ys)
    (hs : ∀ a ∈ s.head?, a = c) (ht : ∀ a ∈ t.head?, a = c) (h : xs ++ s = ys ++ t) :
    xs = ys ∧ s = t := by
  induction xs generalizing ys with
  | nil =>
    cases ys with
    | nil => exact ⟨rfl, h⟩
    | cons y ys =>
      obtain rfl := hs y (by rw [← List.nil_append s, h]; rfl)
      exact absurd List.mem_cons_self hy
  | cons x xs ih =>
    cases ys with
    | nil =>
      obtain rfl := ht x (by rw [← List.nil_append t, ← h]; rfl)
      exact absurd List.mem_cons_self hx
    | cons y ys =>
      obtain ⟨rfl, hrest⟩ := List.cons.inj h
      obtain ⟨rfl, rfl⟩ := ih (List.not_mem_of_not_mem_cons hx) (List.not_mem_of_not_mem_cons hy)
        hrest
      exact ⟨rfl, rfl⟩

/-- The only element with the property is found. -/
theorem find?_of_pairwise {p : α → Bool} {l : List α} {x : α} (hx : x ∈ l)
    (hp : p x = true) (single : l.Pairwise fun a b => ¬ (p a = true ∧ p b = true)) :
    l.find? p = some x := by
  induction l with
  | nil => cases hx
  | cons y rest ih =>
    rw [List.pairwise_cons] at single
    rcases List.mem_cons.mp hx with rfl | hx
    · exact List.find?_cons_of_pos hp
    · have hy : ¬ p y = true := fun hy => single.1 x hx ⟨hy, hp⟩
      rw [List.find?_cons_of_neg hy]
      exact ih hx single.2

/-- Taking out the first with the property takes out all, where there is one at most. -/
theorem eraseP_eq_filter {p : α → Bool} {l : List α}
    (single : l.Pairwise fun a b => ¬ (p a = true ∧ p b = true)) :
    l.eraseP p = l.filter fun a => !p a := by
  induction l with
  | nil => rfl
  | cons x rest ih =>
    rw [List.pairwise_cons] at single
    cases hx : p x with
    | true =>
      have hrest : ∀ a ∈ rest, (!p a) = true := fun a ha =>
        (Bool.not_eq_true' _).mpr (Bool.eq_false_iff.mpr fun hp => single.1 a ha ⟨hx, hp⟩)
      rw [List.eraseP_cons_of_pos hx, List.filter_cons_of_neg (by simp [hx]),
        List.filter_eq_self.mpr hrest]
    | false =>
      rw [List.eraseP_cons_of_neg (Bool.eq_false_iff.mp hx), List.filter_cons_of_pos (by simp [hx]),
        ih single.2]

/-- What stands in the second list stands for something in the first. -/
theorem exists_of_mem_right {R : α → β → Prop} {xs : List α} {ys : List β}
    (h : List.Forall₂ R xs ys) {y : β} (hy : y ∈ ys) : ∃ x ∈ xs, R x y := by
  induction h with
  | nil => cases hy
  | cons hd _ ih =>
    rcases List.mem_cons.mp hy with rfl | hy
    · exact ⟨_, List.mem_cons_self, hd⟩
    · obtain ⟨x, hx, hxy⟩ := ih hy
      exact ⟨x, List.mem_cons_of_mem _ hx, hxy⟩

/-- Two steps from list to list, element by element. -/
theorem forall_comp {R : α → β → Prop} {S : β → γ → Prop} {xs : List α} {ys : List β}
    {zs : List γ} (h : List.Forall₂ R xs ys) (h' : List.Forall₂ S ys zs) :
    List.Forall₂ (fun x z => ∃ y, R x y ∧ S y z) xs zs := by
  induction h generalizing zs with
  | nil =>
    cases h'
    exact .nil
  | cons hd _ ih =>
    cases h' with
    | cons hd' htl' => exact .cons ⟨_, hd, hd'⟩ (ih htl')

/-- What stands for each element by a function is the list's image. -/
theorem forall_eq_iff {f : α → β} {xs : List α} {ys : List β} :
    List.Forall₂ (fun x y => y = f x) xs ys ↔ ys = xs.map f := by
  constructor
  · intro h
    induction h with
    | nil => rfl
    | cons hd _ ih => rw [hd, ih, List.map_cons]
  · rintro rfl
    induction xs with
    | nil => exact .nil
    | cons x xs ih => exact .cons rfl ih

/-- What stands for a list that grew at its end grew at its end. -/
theorem exists_concat_of_forall {R : α → β → Prop} {xs : List α} {x : α} {ys : List β}
    (h : List.Forall₂ R (xs ++ [x]) ys) :
    ∃ front y, ys = front ++ [y] ∧ List.Forall₂ R xs front ∧ R x y := by
  induction xs generalizing ys with
  | nil =>
    cases h with
    | cons hd htl =>
      cases htl
      exact ⟨[], _, rfl, .nil, hd⟩
  | cons x' xs ih =>
    cases h with
    | cons hd htl =>
      obtain ⟨front, y, rfl, hfront, hy⟩ := ih htl
      exact ⟨_ :: front, y, rfl, .cons hd hfront, hy⟩

/-- What stands for one element each makes up a list. -/
theorem flatMap_zip_of_forall {f : α → β → List γ} {xs : List α} {us : List β} {ys : List γ}
    (h : List.Forall₂ (fun x y => ∀ u, f x u = [y]) xs ys) (length : us.length = xs.length) :
    (xs.zip us).flatMap (fun x => f x.1 x.2) = ys := by
  induction h generalizing us with
  | nil => rfl
  | cons hd _ ih =>
    cases us with
    | nil => cases length
    | cons u us =>
      rw [List.zip_cons_cons, List.flatMap_cons, hd, ih (Nat.succ.inj length)]
      rfl

/-! ## What is trimmed off the end -/

section Trimming

variable [DecidableEq α]

/-- Trimming leaves no more of the sign at the end. -/
theorem exists_eq_rdropWhile_append (a : α) (l : List α) :
    ∃ count, l = l.rdropWhile (· == a) ++ List.replicate count a := by
  induction l using List.reverseRecOn with
  | nil => exact ⟨0, rfl⟩
  | append_singleton l b ih =>
    rw [List.rdropWhile_concat]
    by_cases hb : b = a
    · obtain ⟨count, hl⟩ := ih
      refine ⟨count + 1, ?_⟩
      rw [if_pos (beq_iff_eq.mpr hb), List.replicate_succ', ← List.append_assoc, ← hl, hb]
    · rw [if_neg (mt beq_iff_eq.mp hb)]
      exact ⟨0, (List.append_nil _).symm⟩

/-- What is trimmed anyway may as well not be there. -/
theorem rdropWhile_append_replicate (a : α) (l : List α) (count : Nat) :
    (l ++ List.replicate count a).rdropWhile (· == a) = l.rdropWhile (· == a) := by
  induction count with
  | zero => rw [List.replicate_zero, List.append_nil]
  | succ count ih =>
    rw [List.replicate_succ', ← List.append_assoc,
      List.rdropWhile_concat_pos (· == a) _ _ (beq_self_eq_true a), ih]

/-- Nothing is trimmed exactly where the sign is not the last. -/
theorem rdropWhile_eq_self_iff_last {a : α} {l : List α} :
    l.rdropWhile (· == a) = l ↔ l.getLast? ≠ some a := by
  rw [List.rdropWhile_eq_self_iff]
  constructor
  · intro hkept hlast
    obtain ⟨front, rfl⟩ := List.getLast?_eq_some_iff.mp hlast
    exact hkept (by simp) (by simp)
  · intro hlast hne hsign
    exact hlast (by rw [List.getLast?_eq_some_getLast hne, beq_iff_eq.mp hsign])

end Trimming

/-! ## The first and the last with a property -/

section FirstAndLast

variable {P : α → Prop} {p : α → Bool} {l : List α} {a b : α}

/-- The first of a list with the property. -/
def IsFirst (P : α → Prop) (l : List α) (a : α) : Prop :=
  ∃ before after, l = before ++ a :: after ∧ P a ∧ ∀ b ∈ before, ¬ P b

/-- The last of a list with the property. -/
def IsLast (P : α → Prop) (l : List α) (a : α) : Prop :=
  ∃ before after, l = before ++ a :: after ∧ P a ∧ ∀ b ∈ after, ¬ P b

theorem find?_eq_some_iff_first (tells : ∀ a, p a = true ↔ P a) :
    l.find? p = some a ↔ IsFirst P l a := by
  rw [List.find?_eq_some_iff_append, tells]
  constructor
  · intro ⟨ha, before, after, hl, hbefore⟩
    refine ⟨before, after, hl, ha, fun b hb hP => ?_⟩
    have hnot := hbefore b hb
    rw [(tells b).mpr hP] at hnot
    cases hnot
  · intro ⟨before, after, hl, ha, hbefore⟩
    refine ⟨ha, before, after, hl, fun b hb => ?_⟩
    rw [Bool.not_eq_true', Bool.eq_false_iff]
    exact fun hp => hbefore b hb ((tells b).mp hp)

theorem isFirst_reverse_iff : IsFirst P l.reverse a ↔ IsLast P l a := by
  constructor
  · intro ⟨before, after, hl, ha, hbefore⟩
    refine ⟨after.reverse, before.reverse, ?_, ha, fun b hb => hbefore b (List.mem_reverse.mp hb)⟩
    rw [← l.reverse_reverse, hl]
    simp
  · intro h
    obtain ⟨before, after, rfl, ha, hafter⟩ := h
    refine ⟨after.reverse, before.reverse, ?_, ha, fun b hb => hafter b (List.mem_reverse.mp hb)⟩
    simp

theorem find?_reverse_eq_some_iff_last (tells : ∀ a, p a = true ↔ P a) :
    l.reverse.find? p = some a ↔ IsLast P l a :=
  (find?_eq_some_iff_first tells).trans isFirst_reverse_iff

theorem IsLast.mem (h : IsLast P l a) : a ∈ l := by
  obtain ⟨before, after, rfl, -, -⟩ := h
  exact List.mem_append_right before List.mem_cons_self

/-- Of a list that grew at its end the last is the new one, or the same as before. -/
theorem isLast_concat_iff : IsLast P (l ++ [b]) a ↔ P b ∧ b = a ∨ ¬ P b ∧ IsLast P l a := by
  constructor
  · intro ⟨before, after, hl, ha, hafter⟩
    rcases cut_snoc hl with ⟨-, rfl, -⟩ | ⟨after', hl', rfl⟩
    · exact Or.inl ⟨ha, rfl⟩
    · obtain ⟨hafter, hb⟩ := List.forall_mem_append.mp hafter
      exact Or.inr ⟨hb b List.mem_cons_self, before, after', hl', ha, hafter⟩
  · intro h
    rcases h with ⟨hb, rfl⟩ | ⟨hb, before, after, rfl, ha, hafter⟩
    · exact ⟨l, [], rfl, hb, nofun⟩
    · exact ⟨before, after ++ [b], by simp, ha, List.forall_mem_append.mpr
        ⟨hafter, List.forall_mem_singleton.mpr hb⟩⟩

/-- The last of what may be there, where that has the property. -/
theorem isLast_toList_iff {o : Option α} (own : ∀ b, o = some b → P b) :
    IsLast P o.toList a ↔ o = some a := by
  constructor
  · intro h
    exact Option.mem_toList.mp h.mem
  · intro ho
    rw [ho]
    exact ⟨[], [], rfl, own a ho, nofun⟩

/-- The only element with the property is the last. -/
theorem isLast_of_pairwise (ha : a ∈ l) (hP : P a) (single : l.Pairwise fun a b => ¬ (P a ∧ P b)) :
    IsLast P l a := by
  obtain ⟨before, after, rfl⟩ := List.append_of_mem ha
  have hafter := (List.pairwise_cons.mp (List.pairwise_append.mp single).2.1).1
  exact ⟨before, after, rfl, hP, fun b hb hPb => hafter b hb ⟨hP, hPb⟩⟩

theorem find?_eq_none_iff_none (tells : ∀ a, p a = true ↔ P a) :
    l.find? p = none ↔ ∀ a ∈ l, ¬ P a := by
  rw [List.find?_eq_none]
  exact forall₂_congr fun a _ => not_congr (tells a)

theorem IsFirst.unique (ha : IsFirst P l a) (hb : IsFirst P l b) : a = b := by
  classical
  have tells (a : α) : decide (P a) = true ↔ P a := decide_eq_true_iff
  exact Option.some.inj (((find?_eq_some_iff_first tells).mpr ha).symm.trans
    ((find?_eq_some_iff_first tells).mpr hb))

/-- The first stays the first when the list grows. -/
theorem IsFirst.concat (h : IsFirst P l a) (b : α) : IsFirst P (l ++ [b]) a := by
  obtain ⟨before, after, rfl, ha, hbefore⟩ := h
  exact ⟨before, after ++ [b], by simp, ha, hbefore⟩

theorem nodup_eraseDups [DecidableEq α] (l : List α) : l.eraseDups.Nodup := by
  induction hn : l.length using Nat.strongRecOn generalizing l with
  | _ n ih =>
    cases l with
    | nil => exact List.nodup_nil
    | cons a l =>
      rw [List.eraseDups_cons, List.nodup_cons]
      constructor
      · rw [List.mem_eraseDups]
        simp
      · refine ih _ ?_ _ rfl
        rw [← hn]
        exact Nat.lt_succ_of_le (List.length_filter_le _ l)

end FirstAndLast

end AccessGate
