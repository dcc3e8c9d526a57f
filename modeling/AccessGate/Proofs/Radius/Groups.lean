import AccessGate.Radius.Attributes
import AccessGate.Proofs.Text.Words

/-!
# Lists of values that are already grouped

A list of attributes gathers the values of one name. Values that come name by name are gathered as
they come: adding them one after the other keeps them in order and loses none (`toList_ofList`). By
whatever names they come, each of them counts and the names that are there stay in front
(`size_addAll`, `names_addAll`). One more value stands behind those of its name (`mem_toList_add`,
`toList_add_new`), and one that is set takes the place of the first of them (`toList_set`).
-/

namespace AccessGate.Radius

/-- Values of one name, as a list of pairs. -/
def spread (block : Name × List Value) : List (Name × Value) := block.2.map (Prod.mk block.1)

namespace Name

theorem same_iff {a b : Name} : same a b = true ↔ a.toLower = b.toLower := beq_iff_eq

/-- Letter by letter, which is a cheaper check. -/
theorem same_iff_letters {a b : Name} :
    same a b = true ↔ a.toList.map Char.toLower = b.toList.map Char.toLower :=
  Text.sameIgnoringCase_iff_letters

theorem same_comm (a b : Name) : same a b = same b a := by
  refine Bool.eq_iff_iff.mpr ?_
  rw [same_iff, same_iff]
  exact eq_comm

/-- Spellings of two names are spellings of two names. -/
theorem same_false_of_same {a b a' b' : Name} (h : same a b = false) (ha : same a' a = true)
    (hb : same b' b = true) : same a' b' = false := by
  refine Bool.eq_false_iff.mpr fun h' => Bool.eq_false_iff.mp h ?_
  rw [same_iff] at ha hb h' ⊢
  rw [← ha, h', hb]

end Name

namespace Attributes

/-- A name that is not there is looked for behind what is. -/
theorem upsert_append {name : Name} (change : List Value → List Value) {gs : List Group}
    (new : ∀ g ∈ gs, Name.same g.name name = false) (rest : List Group) :
    upsert name change (gs ++ rest) = gs ++ upsert name change rest := by
  induction gs with
  | nil => rfl
  | cons g gs ih =>
    have hg := new g List.mem_cons_self
    rw [List.cons_append, upsert, if_neg (Bool.eq_false_iff.mp hg),
      ih fun g hg => new g (List.mem_cons_of_mem _ hg)]
    rfl

theorem addAll_append (as : Attributes) (xs ys : List (Name × Value)) :
    as.addAll (xs ++ ys) = (as.addAll xs).addAll ys := List.foldl_append

/-- More values of the last name join it. -/
theorem groups_addAll_last {name : Name} (vs ws : List Value) {gs : List Group}
    (new : ∀ g ∈ gs, Name.same g.name name = false) {as : Attributes}
    (h : as.groups = gs ++ [⟨name, ws⟩]) :
    (as.addAll (spread (name, vs))).groups = gs ++ [⟨name, ws ++ vs⟩] := by
  induction vs generalizing as ws with
  | nil =>
    rw [List.append_nil]
    exact h
  | cons v vs ih =>
    have hadd : (as.add name v).groups = gs ++ [⟨name, ws ++ [v]⟩] := by
      show upsert name (· ++ [v]) as.groups = _
      rw [h, upsert_append _ new]
      simp [upsert, Name.same_iff.mpr rfl]
    have := ih (ws ++ [v]) hadd
    rwa [List.append_assoc] at this

/-- Values of a new name make a group behind the others. -/
theorem toList_addAll_new {name : Name} (vs : List Value) {as : Attributes}
    (new : ∀ g ∈ as.groups, Name.same g.name name = false) :
    (as.addAll (spread (name, vs))).toList = as.toList ++ spread (name, vs) ∧
      ∀ g ∈ (as.addAll (spread (name, vs))).groups, g ∈ as.groups ∨ g.name = name := by
  cases vs with
  | nil => exact ⟨(List.append_nil _).symm, fun g hg => Or.inl hg⟩
  | cons v vs =>
    have hadd : (as.add name v).groups = as.groups ++ [⟨name, [v]⟩] := by
      show upsert name (· ++ [v]) as.groups = _
      have := upsert_append (· ++ [v]) new []
      rwa [List.append_nil] at this
    have hgroups : (as.addAll (spread (name, v :: vs))).groups =
        as.groups ++ [⟨name, v :: vs⟩] := groups_addAll_last vs [v] new hadd
    unfold toList
    rw [hgroups]
    refine ⟨?_, fun g hg => ?_⟩
    · rw [List.flatMap_append, List.flatMap_singleton]
      rfl
    · rcases List.mem_append.mp hg with hg | hg
      · exact Or.inl hg
      · rw [List.mem_singleton.mp hg]
        exact Or.inr rfl

/-- **Values that come name by name stay as they come**, behind those of other names. -/
theorem toList_addAll {blocks : List (Name × List Value)} {as : Attributes}
    (distinct : (blocks.map Prod.fst).Pairwise fun a b => Name.same a b = false)
    (new : ∀ g ∈ as.groups, ∀ b ∈ blocks, Name.same g.name b.1 = false) :
    (as.addAll (blocks.flatMap spread)).toList = as.toList ++ blocks.flatMap spread := by
  induction blocks generalizing as with
  | nil => exact (List.append_nil _).symm
  | cons b blocks ih =>
    obtain ⟨name, vs⟩ := b
    rw [List.map_cons, List.pairwise_cons] at distinct
    obtain ⟨htoList, hgroups⟩ := toList_addAll_new vs fun g hg => new g hg _ List.mem_cons_self
    -- the name just added is none of those to come, as the names are distinct
    have hnew : ∀ g ∈ (as.addAll (spread (name, vs))).groups, ∀ b ∈ blocks,
        Name.same g.name b.1 = false := by
      intro g hg b hb
      rcases hgroups g hg with hg | hg
      · exact new g hg b (List.mem_cons_of_mem _ hb)
      · rw [hg]
        exact distinct.1 b.1 (List.mem_map_of_mem hb)
    rw [List.flatMap_cons, addAll_append, ih distinct.2 hnew, htoList, List.append_assoc]

theorem toList_ofList {blocks : List (Name × List Value)}
    (distinct : (blocks.map Prod.fst).Pairwise fun a b => Name.same a b = false) :
    (ofList (blocks.flatMap spread)).toList = blocks.flatMap spread :=
  toList_addAll distinct fun _ hg => nomatch hg

/-- To pick values by their names is to pick the names. -/
theorem filter_flatMap_spread (keep : Name → Bool) (blocks : List (Name × List Value)) :
    (blocks.flatMap spread).filter (fun a => keep a.1) =
      (blocks.filter fun b => keep b.1).flatMap spread := by
  have hspread (b : Name × List Value) : (spread b).filter (fun a => keep a.1) =
      if keep b.1 then spread b else [] := by
    unfold spread
    rw [List.filter_map]
    split
    · rename_i hkeep
      exact congrArg (List.map _) (List.filter_eq_self.mpr fun _ _ => hkeep)
    · rename_i hdrop
      exact List.map_eq_nil_iff.mpr (List.filter_eq_nil_iff.mpr fun _ _ => hdrop)
  induction blocks with
  | nil => rfl
  | cons b blocks ih =>
    rw [List.flatMap_cons, List.filter_append, ih, hspread, List.filter_cons]
    split
    · rw [List.flatMap_cons]
    · rfl

/-- Values of some names, picked from a list of attributes, stay as they come. -/
theorem toList_ofList_filter (as : Attributes) (keep : Name → Bool) :
    (ofList (as.toList.filter fun a => keep a.1)).toList = as.toList.filter fun a => keep a.1 := by
  have hgroups : as.toList = (as.groups.map fun g => (g.name, g.values)).flatMap spread := by
    rw [List.flatMap_map]
    rfl
  rw [hgroups, filter_flatMap_spread]
  refine toList_ofList (List.Pairwise.sublist (List.filter_sublist.map _) ?_)
  rw [List.map_map]
  exact as.distinct

/-- One more value is one more value, under whatever name. -/
theorem size_add (as : Attributes) (name : Name) (v : Value) : (as.add name v).size = as.size + 1 := by
  have hgroups (gs : List Group) :
      ((upsert name (· ++ [v]) gs).flatMap fun g => g.values.map fun v => (g.name, v)).length =
        (gs.flatMap fun g => g.values.map fun v => (g.name, v)).length + 1 := by
    induction gs with
    | nil => rfl
    | cons g gs ih =>
      unfold upsert
      split
      · simp only [List.flatMap_cons, List.length_append, List.length_map, List.length_singleton]
        omega
      · rw [List.flatMap_cons, List.flatMap_cons, List.length_append, List.length_append, ih,
          Nat.add_assoc]
  rw [size_eq_length, size_eq_length]
  exact hgroups as.groups

theorem size_addAll (as : Attributes) (pairs : List (Name × Value)) :
    (as.addAll pairs).size = as.size + pairs.length := by
  induction pairs generalizing as with
  | nil => rfl
  | cons p pairs ih =>
    show ((as.add p.1 p.2).addAll pairs).size = _
    rw [ih, size_add, List.length_cons]
    omega

/-- **Adding leaves the names as they stand**, in order and spelling; new ones come behind them. -/
theorem names_addAll (as : Attributes) (pairs : List (Name × Value)) :
    as.names <+: (as.addAll pairs).names := by
  induction pairs generalizing as with
  | nil => exact List.prefix_refl _
  | cons p pairs ih =>
    have hadd : as.names <+: (as.add p.1 p.2).names := by
      have hnames : (as.add p.1 p.2).names = _ := names_upsert p.1 (· ++ [p.2]) as.groups
      rw [hnames]
      split
      · exact List.prefix_refl _
      · exact List.prefix_append _ _
    exact hadd.trans (ih (as.add p.1 p.2))

/-- A value stands under the first spelling of its name. -/
theorem mem_toList_add {as : Attributes} {name : Name} {v : Value} {pair : Name × Value}
    (h : pair ∈ (as.add name v).toList) :
    pair ∈ as.toList ∨ pair = (name, v) ∨
      ∃ g ∈ as.groups, Name.same g.name name = true ∧ pair = (g.name, v) := by
  have hgroups {gs : List Group}
      (h : pair ∈ (upsert name (· ++ [v]) gs).flatMap fun g => g.values.map fun v => (g.name, v)) :
      (pair ∈ gs.flatMap fun g => g.values.map fun v => (g.name, v)) ∨ pair = (name, v) ∨
        ∃ g ∈ gs, Name.same g.name name = true ∧ pair = (g.name, v) := by
    induction gs with
    | nil => exact Or.inr (Or.inl (List.mem_singleton.mp h))
    | cons g gs ih =>
      unfold upsert at h
      split at h
      · rename_i hsame
        rw [List.flatMap_cons] at h ⊢
        rcases List.mem_append.mp h with h | h
        · rw [List.map_append] at h
          rcases List.mem_append.mp h with h | h
          · exact Or.inl (List.mem_append_left _ h)
          · exact Or.inr (Or.inr ⟨g, List.mem_cons_self, hsame, List.mem_singleton.mp h⟩)
        · exact Or.inl (List.mem_append_right _ h)
      · rw [List.flatMap_cons] at h ⊢
        rcases List.mem_append.mp h with h | h
        · exact Or.inl (List.mem_append_left _ h)
        · rcases ih h with h | h | ⟨g', hg', hsame, hpair⟩
          · exact Or.inl (List.mem_append_right _ h)
          · exact Or.inr (Or.inl h)
          · exact Or.inr (Or.inr ⟨g', List.mem_cons_of_mem _ hg', hsame, hpair⟩)
  exact hgroups h

/-- A value of a new name stands behind all others. -/
theorem toList_add_new {as : Attributes} {name : Name} (new : as.contains name = false) (v : Value) :
    (as.add name v).toList = as.toList ++ [(name, v)] := by
  have hnone : as.find? name = none :=
    Option.isNone_iff_eq_none.mp (Option.isSome_eq_false_iff.mp new)
  exact (toList_addAll_new [v] fun g hg =>
    Bool.eq_false_iff.mpr (List.find?_eq_none.mp hnone g hg)).1

/-- One value in the place of the first of its name, or behind all others, and no other value of the
name. -/
def placed (name : Name) (v : Value) (pairs : List (Name × Value)) : List (Name × Value) :=
  (pairs.takeWhile fun a => !Name.same a.1 name) ++ (name, v) ::
    (pairs.dropWhile fun a => !Name.same a.1 name).filter fun a => !Name.same a.1 name

/-- The first values of the name stand in front. -/
theorem placed_front {name : Name} (v : Value) {front rest : List (Name × Value)}
    (some_ : front ≠ []) (same : ∀ a ∈ front, Name.same a.1 name = true)
    (other : ∀ a ∈ rest, Name.same a.1 name = false) :
    placed name v (front ++ rest) = (name, v) :: rest := by
  have hfront : ∀ a ∈ front, ¬ (!Name.same a.1 name) = true := fun a ha => by simp [same a ha]
  have hrest : ∀ a ∈ rest, (!Name.same a.1 name) = true := fun a ha => by simp [other a ha]
  have hfilter : (front ++ rest).filter (fun a => !Name.same a.1 name) = rest := by
    rw [List.filter_append, List.filter_eq_nil_iff.mpr hfront, List.filter_eq_self.mpr hrest]
    rfl
  obtain ⟨a, tail, rfl⟩ := List.exists_cons_of_ne_nil some_
  have hfirst := hfront a List.mem_cons_self
  have htake : (a :: tail ++ rest).takeWhile (fun a => !Name.same a.1 name) = [] :=
    List.takeWhile_cons_of_neg hfirst
  have hdrop : (a :: tail ++ rest).dropWhile (fun a => !Name.same a.1 name) = a :: tail ++ rest :=
    List.dropWhile_cons_of_neg hfirst
  unfold placed
  rw [htake, hdrop, hfilter]
  rfl

/-- Values of other names in front stay there. -/
theorem placed_behind {name : Name} (v : Value) {front : List (Name × Value)}
    (other : ∀ a ∈ front, Name.same a.1 name = false) (rest : List (Name × Value)) :
    placed name v (front ++ rest) = front ++ placed name v rest := by
  have hfront : ∀ a ∈ front, (!Name.same a.1 name) = true := fun a ha => by simp [other a ha]
  unfold placed
  rw [List.takeWhile_append_of_pos hfront, List.dropWhile_append_of_pos hfront, List.append_assoc]

/-- Whatever the value, the others stay before and behind it. -/
theorem placed_split (name : Name) (pairs : List (Name × Value)) : ∃ before behind,
    (∀ a ∈ before ++ behind, a ∈ pairs ∧ Name.same a.1 name = false) ∧
      ∀ v, placed name v pairs = before ++ (name, v) :: behind := by
  refine ⟨_, _, fun a ha => ?_, fun v => rfl⟩
  rcases List.mem_append.mp ha with ha | ha
  · have hother := List.all_eq_true.mp List.all_takeWhile a ha
    exact ⟨(List.takeWhile_sublist _).subset ha, by simpa using hother⟩
  · obtain ⟨ha, hother⟩ := List.mem_filter.mp ha
    exact ⟨(List.dropWhile_sublist _).subset ha, by simpa using hother⟩

/-- **A value that is set takes the place of those of its name.** -/
theorem toList_set {as : Attributes} {name : Name} (v : Value)
    (spelled : ∀ a ∈ as.toList, Name.same a.1 name = true → a.1 = name) :
    (as.set name v).toList = placed name v as.toList := by
  have hmem {g : Group} {a : Name × Value} (ha : a ∈ g.values.map fun v => (g.name, v)) :
      a.1 = g.name := by
    obtain ⟨u, -, rfl⟩ := List.mem_map.mp ha
    rfl
  have hgroups {gs : List Group}
      (distinct : (gs.map (·.name)).Pairwise fun a b => Name.same a b = false)
      (filled : ∀ g ∈ gs, g.values ≠ [])
      (spelled : ∀ a ∈ gs.flatMap fun g => g.values.map fun v => (g.name, v),
        Name.same a.1 name = true → a.1 = name) :
      ((upsert name (fun _ => [v]) gs).flatMap fun g => g.values.map fun v => (g.name, v)) =
        placed name v (gs.flatMap fun g => g.values.map fun v => (g.name, v)) := by
    induction gs with
    | nil => rfl
    | cons g gs ih =>
      rw [List.map_cons, List.pairwise_cons] at distinct
      rw [List.flatMap_cons] at spelled ⊢
      unfold upsert
      split
      · rename_i hsame
        have hsome : (g.values.map fun v => (g.name, v)) ≠ [] :=
          fun h => filled g List.mem_cons_self (List.map_eq_nil_iff.mp h)
        obtain ⟨a, ha⟩ := List.exists_mem_of_ne_nil _ hsome
        have hname : g.name = name := by
          have := spelled a (List.mem_append_left _ ha)
          rw [hmem ha] at this
          exact this hsame
        rw [placed_front v hsome (fun a ha => by rw [hmem ha]; exact hsame) fun a ha => ?_, hname]
        · rfl
        · -- no other group has the name
          obtain ⟨g', hg', ha⟩ := List.mem_flatMap.mp ha
          rw [hmem ha, Name.same_comm, ← hname]
          exact distinct.1 g'.name (List.mem_map_of_mem hg')
      · rename_i hother
        rw [placed_behind v fun a ha => by rw [hmem ha]; exact Bool.eq_false_iff.mpr hother,
          ← ih distinct.2 (fun g' hg' => filled g' (List.mem_cons_of_mem _ hg'))
            fun a ha => spelled a (List.mem_append_right _ ha)]
        rfl
  exact hgroups as.distinct as.filled spelled

end Attributes

end AccessGate.Radius
