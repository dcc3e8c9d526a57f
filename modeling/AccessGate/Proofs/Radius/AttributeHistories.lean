import AccessGate.Proofs.Radius.Values

/-!
# Histories of attributes

Values are added, set and taken out one operation after the other, each under some spelling of a name.
What is there in the end is told by the history of the operations alone:

* `Held`: the values of a name are those added since it was last set or taken out, behind the one it
  was set to;
* `brought`: the names are those of the insertions that found no such name and were not undone, in
  their order and under their spelling;
* `lawful_run`: so it is along every history, where an operation on one name leaves the values and
  the order of all others alone.
-/

namespace AccessGate.Radius.Attributes

/-! ## 1. Operations -/

/-- What is done to attributes. -/
inductive Operation where
  | add (name : Name) (value : Value)
  | set (name : Name) (value : Value)
  | remove (name : Name)

namespace Operation

/-- The name as the operation spells it. -/
def name : Operation → Name
  | add name _ => name
  | set name _ => name
  | remove name => name

/-- The operation is on this name, in whatever spelling. -/
def on (op : Operation) (name : Name) : Bool := Name.same op.name name

/-- There is a value of its name afterwards. -/
def inserts : Operation → Bool
  | add _ _ => true
  | set _ _ => true
  | remove _ => false

/-- There is no value of this name afterwards. -/
def removes (op : Operation) (name : Name) : Bool := op.on name && !op.inserts

/-- The values with which this name starts anew. -/
def restart? (name : Name) : Operation → Option (List Value)
  | add _ _ => none
  | set changed value => if Name.same changed name then some [value] else none
  | remove changed => if Name.same changed name then some [] else none

/-- The values that come behind those of this name. -/
def added (name : Name) : Operation → List Value
  | add changed value => if Name.same changed name then [value] else []
  | set _ _ => []
  | remove _ => []

variable {op : Operation} {n : Name}

/-- A name starts anew by an operation on it only, -/
theorem restart?_of_other (other : op.on n = false) : op.restart? n = none := by
  cases op with
  | add _ _ => rfl
  | set _ _ => exact if_neg (Bool.eq_false_iff.mp other)
  | remove _ => exact if_neg (Bool.eq_false_iff.mp other)

/-- and values are added to it by such an operation only. -/
theorem added_of_other (other : op.on n = false) : op.added n = [] := by
  cases op with
  | add _ _ => exact if_neg (Bool.eq_false_iff.mp other)
  | set _ _ => rfl
  | remove _ => rfl

end Operation

/-- One operation. -/
def perform (as : Attributes) : Operation → Attributes
  | .add name value => as.add name value
  | .set name value => as.set name value
  | .remove name => as.remove name

/-- One operation after the other. -/
def run (as : Attributes) (ops : List Operation) : Attributes := ops.foldl perform as

/-! ## 2. Histories -/

/-- The values of a name after the operations. -/
inductive Held (name : Name) : List Operation → List Value → Prop
  /-- It never started anew. -/
  | ever {ops : List Operation} (kept : ∀ op ∈ ops, op.restart? name = none) :
    Held name ops (ops.flatMap (Operation.added name))
  /-- It did, and not again after that. -/
  | since {before after : List Operation} {op : Operation} {vs : List Value}
    (started : op.restart? name = some vs) (kept : ∀ op ∈ after, op.restart? name = none) :
    Held name (before ++ op :: after) (vs ++ after.flatMap (Operation.added name))

/-- After the operations there is a value of the name: the last of them on it inserts. -/
def isPresent (name : Name) (ops : List Operation) : Bool :=
  (ops.reverse.find? fun op => op.on name).any Operation.inserts

/-- An operation in a history. -/
structure Moment where
  before : List Operation
  change : Operation
  after : List Operation

/-- The operations of a history, in order. -/
def moments : List Operation → List Moment
  | [] => []
  | op :: rest => ⟨[], op, rest⟩ :: (moments rest).map fun m => { m with before := op :: m.before }

/-- The operation inserts a name that was not there, and that is not taken out later. -/
def Moment.brings (m : Moment) : Bool :=
  m.change.inserts && !isPresent m.change.name m.before &&
    m.after.all fun op => !op.removes m.change.name

/-- The names that are there after the operations. -/
def brought (ops : List Operation) : List Name :=
  ((moments ops).filter Moment.brings).map (·.change.name)

variable {name : Name} {op : Operation} {ops : List Operation}

theorem isPresent_concat (name : Name) (ops : List Operation) (op : Operation) :
    isPresent name (ops ++ [op]) = if op.on name then op.inserts else isPresent name ops := by
  unfold isPresent
  rw [List.reverse_append, List.reverse_singleton, List.singleton_append, List.find?_cons]
  cases op.on name <;> rfl

/-- One more operation comes after all others, which have it behind them. -/
theorem moments_concat (ops : List Operation) (op : Operation) :
    moments (ops ++ [op]) =
      ((moments ops).map fun m => { m with after := m.after ++ [op] }) ++ [⟨ops, op, []⟩] := by
  induction ops with
  | nil => rfl
  | cons first ops ih =>
    rw [List.cons_append, moments, ih, moments]
    simp only [List.map_append, List.map_map, List.map_cons, List.map_nil, List.cons_append]
    rfl

theorem brought_concat (ops : List Operation) (op : Operation) :
    brought (ops ++ [op]) = ((brought ops).filter fun n => !op.removes n) ++
      if op.inserts && !isPresent op.name ops then [op.name] else [] := by
  have hbrings (m : Moment) : Moment.brings { m with after := m.after ++ [op] } =
      (m.brings && !op.removes m.change.name) := by
    unfold Moment.brings
    simp only [List.all_append, List.all_cons, List.all_nil, Bool.and_true, Bool.and_assoc]
  have hlast : Moment.brings ⟨ops, op, []⟩ = (op.inserts && !isPresent op.name ops) :=
    Bool.and_true _
  unfold brought
  rw [moments_concat, List.filter_append, List.map_append, List.filter_map, List.map_map,
    List.filter_map, List.filter_filter]
  congr 1
  · -- what was brought before stays, unless the operation takes it out
    refine congrArg (List.map _) (List.filter_congr fun m _ => ?_)
    exact (hbrings m).trans (Bool.and_comm _ _)
  · rw [List.filter_cons, List.filter_nil, hlast]
    split <;> rfl

/-! ## 3. One operation -/

theorem contains_eq (as : Attributes) (name : Name) :
    as.contains name = !(as.getAll name).isEmpty := by
  unfold contains getAll
  cases hfound : as.find? name with
  | none => rfl
  | some g =>
    have hvalues := as.filled g (List.mem_of_find?_eq_some hfound)
    simp [hvalues]

/-- At most one group has a name. -/
theorem groups_single (as : Attributes) (name : Name) :
    as.groups.Pairwise fun a b => ¬ (Name.same a.name name = true ∧ Name.same b.name name = true) := by
  refine (List.pairwise_map.mp as.distinct).imp fun hne hboth => ?_
  rw [Name.same_congr hboth.1, Name.same_comm, hboth.2] at hne
  cases hne

theorem groups_remove (as : Attributes) (name : Name) :
    (as.remove name).groups = as.groups.filter fun g => !Name.same g.name name :=
  eraseP_eq_filter (as.groups_single name)

theorem getAll_set (as : Attributes) (changed : Name) (v : Value) :
    (as.set changed v).getAll name = if Name.same changed name then [v] else as.getAll name :=
  groupValues_upsert name changed _ as.groups

theorem groupValues_filter (name removed : Name) (gs : List Group) :
    groupValues name (gs.filter fun g => !Name.same g.name removed) =
      if Name.same removed name then [] else groupValues name gs := by
  induction gs with
  | nil => split <;> rfl
  | cons g gs ih =>
    cases hremoved : Name.same g.name removed with
    | true =>
      rw [List.filter_cons_of_neg (by simp [hremoved]), ih, groupValues_cons,
        Name.same_congr hremoved name]
      cases Name.same removed name <;> rfl
    | false =>
      rw [List.filter_cons_of_pos (by simp [hremoved]), groupValues_cons, groupValues_cons, ih]
      cases hname : Name.same g.name name with
      | true =>
        rw [Name.same_false_of_left hremoved hname]
        rfl
      | false => rfl

theorem getAll_remove (as : Attributes) (removed : Name) :
    (as.remove removed).getAll name =
      if Name.same removed name then [] else as.getAll name := by
  show groupValues name (as.remove removed).groups = _
  rw [groups_remove, groupValues_filter]
  rfl

/-- **What an operation does to the values of a name.** -/
theorem getAll_perform (as : Attributes) (op : Operation) (name : Name) :
    (as.perform op).getAll name = match op.restart? name with
      | some vs => vs
      | none => as.getAll name ++ op.added name := by
  cases op with
  | add changed v =>
    refine (getAll_add as changed v).trans ?_
    cases hname : Name.same changed name <;>
      simp [Operation.restart?, Operation.added, valuesOf, hname]
  | set changed v =>
    refine (getAll_set as changed v).trans ?_
    cases hname : Name.same changed name <;> simp [Operation.restart?, Operation.added, hname]
  | remove removed =>
    refine (getAll_remove as removed).trans ?_
    cases hname : Name.same removed name <;> simp [Operation.restart?, Operation.added, hname]

/-- Values of other names stay as they are. -/
theorem getAll_perform_of_other (as : Attributes) (other : op.on name = false) :
    (as.perform op).getAll name = as.getAll name := by
  rw [getAll_perform, Operation.restart?_of_other other, Operation.added_of_other other]
  exact List.append_nil _

/-- A name is there after an operation on it exactly if that inserts. -/
theorem contains_perform (as : Attributes) (op : Operation) (name : Name) :
    (as.perform op).contains name = if op.on name then op.inserts else as.contains name := by
  rw [contains_eq, contains_eq]
  cases hname : op.on name with
  | true =>
    rw [getAll_perform]
    cases op with
    | add changed v =>
      have hadded : (Operation.add changed v).added name = [v] := if_pos hname
      rw [hadded]
      simp [Operation.restart?, Operation.inserts]
    | set changed v =>
      have hstarted : (Operation.set changed v).restart? name = some [v] := if_pos hname
      rw [hstarted]
      rfl
    | remove removed =>
      have hstarted : (Operation.remove removed).restart? name = some [] := if_pos hname
      rw [hstarted]
      rfl
  | false =>
    rw [getAll_perform_of_other as hname]
    rfl

/-- **What it does to the names**: one that is taken out goes, and a new one comes last. -/
theorem names_perform (as : Attributes) (op : Operation) :
    (as.perform op).names = (as.names.filter fun n => !op.removes n) ++
      if op.inserts && !as.contains op.name then [op.name] else [] := by
  have hupsert (name : Name) (change : List Value → List Value) :
      (upsert name change as.groups).map (·.name) =
        as.names ++ if !as.contains name then [name] else [] := by
    rw [names_upsert]
    unfold contains find?
    rw [List.isSome_find?]
    cases as.groups.any fun g => Name.same g.name name with
    | true => exact (List.append_nil _).symm
    | false => rfl
  have hkept {op : Operation} (inserts : op.inserts = true) :
      (as.names.filter fun n => !op.removes n) = as.names :=
    List.filter_eq_self.mpr fun n _ => by simp [Operation.removes, inserts]
  cases op with
  | add name v =>
    rw [hkept rfl]
    exact hupsert name _
  | set name v =>
    rw [hkept rfl]
    exact hupsert name _
  | remove name =>
    show (as.remove name).groups.map (·.name) = (as.groups.map (·.name)).filter _ ++ []
    rw [groups_remove, List.append_nil, List.filter_map]
    refine congrArg (List.map _) (List.filter_congr fun g _ => ?_)
    simp [Operation.removes, Operation.on, Operation.name, Operation.inserts, Name.same_comm]

/-- A group is found under its name. -/
theorem getAll_of_mem {as : Attributes} {g : Group} (hg : g ∈ as.groups) :
    as.getAll g.name = g.values := by
  have hfound : as.find? g.name = some g :=
    find?_of_pairwise hg (Name.same_iff.mpr rfl) (as.groups_single g.name)
  unfold getAll
  rw [hfound]

/-- No name is there without a value. -/
theorem getAll_ne_nil {as : Attributes} (hname : name ∈ as.names) : as.getAll name ≠ [] := by
  obtain ⟨g, hg, rfl⟩ := List.mem_map.mp hname
  rw [getAll_of_mem hg]
  exact as.filled g hg

/-- The values in order are those of the names in order. -/
theorem toList_eq (as : Attributes) :
    as.toList = (as.names.map fun n => (n, as.getAll n)).flatMap spread := by
  unfold toList names
  rw [List.map_map, List.flatMap_map]
  refine List.flatMap_congr fun g hg => ?_
  show _ = spread (g.name, as.getAll g.name)
  rw [getAll_of_mem hg]
  rfl

/-- The size is the number of values of all names. -/
theorem size_eq (as : Attributes) : as.size = (as.names.flatMap as.getAll).length := by
  have hvalues : as.toList.map (·.2) = as.names.flatMap as.getAll := by
    rw [toList_eq, List.map_flatMap, List.flatMap_map]
    refine List.flatMap_congr fun n _ => ?_
    exact (List.map_map ..).trans (List.map_id _)
  rw [← hvalues, List.length_map, size_eq_length]

theorem isEmpty_iff (as : Attributes) : as.isEmpty = true ↔ as.size = 0 := by
  rw [size_eq_length]
  unfold isEmpty toList
  rw [List.isEmpty_iff, List.length_eq_zero_iff, List.flatMap_eq_nil_iff]
  constructor
  · intro hgroups g hg
    rw [hgroups] at hg
    cases hg
  · intro hvalues
    refine List.eq_nil_iff_forall_not_mem.mpr fun g hg => as.filled g hg ?_
    exact List.map_eq_nil_iff.mp (hvalues g hg)

/-- **The order of other names stays as it is.** -/
theorem names_perform_of_other (as : Attributes) (op : Operation) :
    (as.perform op).names.filter (fun n => !op.on n) = as.names.filter fun n => !op.on n := by
  have hnew : (if op.inserts && !as.contains op.name then [op.name] else []).filter
      (fun n => !op.on n) = [] := by
    split
    · simp [Operation.on, Name.same_iff.mpr rfl]
    · rfl
  -- whatever is taken out or new is of the operation's own name
  rw [names_perform, List.filter_append, hnew, List.append_nil, List.filter_filter]
  refine List.filter_congr fun n _ => ?_
  unfold Operation.removes
  cases op.on n <;> rfl

/-- And so do their values, in the order of all. -/
theorem toList_perform_of_other (as : Attributes) (op : Operation) :
    (as.perform op).toList.filter (fun pair => !op.on pair.1) =
      as.toList.filter fun pair => !op.on pair.1 := by
  have hpairs (as : Attributes) : as.toList.filter (fun pair => !op.on pair.1) =
      ((as.names.filter fun n => !op.on n).map fun n => (n, as.getAll n)).flatMap spread := by
    rw [toList_eq, filter_flatMap_spread (fun n => !op.on n), List.filter_map]
    rfl
  rw [hpairs, hpairs, names_perform_of_other]
  refine congrArg (List.flatMap spread) (List.map_congr_left fun n hn => ?_)
  rw [getAll_perform_of_other as ((Bool.not_eq_true' _).mp (List.mem_filter.mp hn).2)]

/-! ## 4. A run -/

theorem run_concat (as : Attributes) (ops : List Operation) (op : Operation) :
    as.run (ops ++ [op]) = (as.run ops).perform op := List.foldl_append

/-- Without a new start, the values added come behind those of before. -/
theorem getAll_run (as : Attributes) (kept : ∀ op ∈ ops, op.restart? name = none) :
    (as.run ops).getAll name = as.getAll name ++ ops.flatMap (Operation.added name) := by
  induction ops generalizing as with
  | nil => exact (List.append_nil _).symm
  | cons op ops ih =>
    show ((as.perform op).run ops).getAll name = _
    rw [ih _ fun op hop => kept op (List.mem_cons_of_mem _ hop), getAll_perform,
      kept op List.mem_cons_self, List.flatMap_cons, List.append_assoc]

theorem Held.getAll_eq {vs : List Value} (held : Held name ops vs) :
    (empty.run ops).getAll name = vs := by
  cases held with
  | ever kept => exact getAll_run empty kept
  | @since before after op vs started kept =>
    have hrun : empty.run (before ++ op :: after) = ((empty.run before).perform op).run after :=
      List.foldl_append
    rw [hrun, getAll_run _ kept, getAll_perform, started]

/-- Every history tells the values of every name. -/
theorem exists_held (name : Name) (ops : List Operation) : ∃ vs, Held name ops vs := by
  have htells (op : Operation) : (op.restart? name).isSome = true ↔ op.restart? name ≠ none :=
    Option.isSome_iff_ne_none
  -- the history is cut at the last operation with which the name starts anew
  cases hlast : ops.reverse.find? fun op => (op.restart? name).isSome with
  | none =>
    have hkept := (find?_eq_none_iff_none htells).mp hlast
    exact ⟨_, .ever fun op hop => not_not.mp (hkept op (List.mem_reverse.mpr hop))⟩
  | some op =>
    obtain ⟨before, after, rfl, hstarted, hkept⟩ := (find?_reverse_eq_some_iff_last htells).mp hlast
    obtain ⟨vs, hvs⟩ := Option.ne_none_iff_exists'.mp hstarted
    exact ⟨_, .since hvs fun op hop => not_not.mp (hkept op hop)⟩

theorem getAll_run_iff (name : Name) (ops : List Operation) (vs : List Value) :
    (empty.run ops).getAll name = vs ↔ Held name ops vs := by
  constructor
  · intro hvalues
    obtain ⟨vs', hheld⟩ := exists_held name ops
    rwa [← hvalues, hheld.getAll_eq]
  · exact Held.getAll_eq

theorem contains_run (name : Name) (ops : List Operation) :
    (empty.run ops).contains name = isPresent name ops := by
  induction ops using List.reverseRecOn with
  | nil => rfl
  | append_singleton ops op ih => rw [run_concat, contains_perform, isPresent_concat, ih]

theorem names_run (ops : List Operation) : (empty.run ops).names = brought ops := by
  induction ops using List.reverseRecOn with
  | nil => rfl
  | append_singleton ops op ih =>
    rw [run_concat, names_perform, brought_concat, ih, contains_run]

/-- What holds of attributes after a history of operations. -/
structure Lawful (ops : List Operation) (as : Attributes) : Prop where
  /-- No name is there under two spellings, -/
  distinct : as.names.Pairwise fun a b => Name.same a b = false
  /-- nor without a value. -/
  filled : ∀ name ∈ as.names, as.getAll name ≠ []
  isEmpty_iff : as.isEmpty = true ↔ as.size = 0
  /-- The size is the number of values, in order or name by name. -/
  counted : as.size = as.toList.length ∧ as.size = (as.names.flatMap as.getAll).length
  /-- In order come the values of the first name, of the next, and so on. -/
  pairs : as.toList = (as.names.map fun name => (name, as.getAll name)).flatMap spread
  values : ∀ name vs, as.getAll name = vs ↔ Held name ops vs
  names : as.names = brought ops
  /-- One more operation leaves the values and the order of all other names as they are. -/
  others : ∀ op name, op.on name = false → (as.perform op).getAll name = as.getAll name
  order : ∀ op : Operation,
    (as.perform op).names.filter (fun n => !op.on n) = as.names.filter fun n => !op.on n
  otherPairs : ∀ op : Operation, (as.perform op).toList.filter (fun pair => !op.on pair.1) =
    as.toList.filter fun pair => !op.on pair.1

/-- **Attributes are told by the history of the operations on them.** -/
theorem lawful_run (ops : List Operation) : Lawful ops (empty.run ops) where
  distinct := (empty.run ops).distinct
  filled := fun _ => getAll_ne_nil
  isEmpty_iff := isEmpty_iff _
  counted := ⟨size_eq_length _, size_eq _⟩
  pairs := toList_eq _
  values := fun name vs => getAll_run_iff name ops vs
  names := names_run ops
  others := fun _ _ other => getAll_perform_of_other _ other
  order := names_perform_of_other _
  otherPairs := toList_perform_of_other _

end AccessGate.Radius.Attributes
