import SchemaApi.Proofs.Schema.WellFormed
import Mathlib.Tactic.SplitIfs
/-!
Changes of one table keep it well-formed.

A column is found by a name that is the same identifier, so in a well-formed table at most one
column is altered, renamed or dropped, and it is the one that constraints and indexes mean.
-/

namespace SchemaApi.Draft

variable {d : Dialect} {t t' : Draft}

/-! ## Looking up columns -/

theorem column?_eq_some {name : String} {c : Column} (h : t.column? d name = some c) :
    c ∈ t.columns ∧ d.foldName c.name = d.foldName name :=
  ⟨List.mem_of_find?_eq_some h, Dialect.sameName_iff.1 (by simpa using List.find?_some h)⟩

theorem column?_eq_none {name : String} (h : t.column? d name = none) :
    ∀ c ∈ t.columns, d.foldName c.name ≠ d.foldName name := by
  intro c hc e
  have := List.find?_eq_none.1 h c hc
  exact this (Dialect.sameName_iff.2 e)

theorem problem_eq_ok_iff {α : Type} {p : String → Problem} {a : α} : t.problem p = .ok a ↔ False := by
  unfold problem
  split <;> simp

theorem requireColumn_eq_ok_iff {name what : String} {c : Column} :
    t.requireColumn d name what = .ok c ↔ t.column? d name = some c := by
  unfold requireColumn
  split
  · rename_i c' found
    simp [found]
  · rename_i found
    rw [found]
    split <;> simp

theorem mem_columnNames_of_requireColumn {name what : String} {c : Column}
    (h : t.requireColumn d name what = .ok c) : c.name ∈ t.toTable.columnNames :=
  List.mem_map_of_mem (column?_eq_some (requireColumn_eq_ok_iff.1 h)).1

theorem mem_columnNames_of_canonical {names cols : List String} {what : String}
    (h : t.canonical d names what = .ok cols) : ∀ n ∈ cols, n ∈ t.toTable.columnNames := by
  intro n hn
  obtain ⟨m, -, e⟩ := exists_of_mem_mapM h hn
  obtain ⟨c, found, rfl⟩ := map_eq_ok_iff.1 e
  exact mem_columnNames_of_requireColumn found

/-! ## Altering columns -/

/-- where all columns are different identifiers, to change the first one that a name means is to
change all -/
theorem updateColumn_go_eq_map {name : String} {f : Column → Column} {columns : List Column}
    (distinct : (columns.map fun c => d.foldName c.name).Nodup) :
    updateColumn.go d name f columns = columns.map fun c => if d.sameName c.name name then f c else c := by
  induction columns with
  | nil => rfl
  | cons c rest ih =>
    simp only [List.map_cons, List.nodup_cons, List.mem_map, not_exists, not_and] at distinct
    simp only [updateColumn.go, List.map_cons]
    split_ifs with same
    · congr 1
      have others : ∀ x ∈ rest, (if d.sameName x.name name then f x else x) = x := by
        intro x hx
        split_ifs with same'
        · exact absurd ((Dialect.sameName_iff.1 same').trans (Dialect.sameName_iff.1 same).symm)
            (distinct.1 x hx)
        · rfl
      rw [List.map_congr_left others, List.map_id']
    · rw [ih distinct.2]

theorem distinct_of_wellFormed (h : t.toTable.WellFormed d) : (t.columns.map fun c => d.foldName c.name).Nodup := by
  have distinct := h.distinct
  rwa [Table.columnNames, List.map_map] at distinct

theorem columns_updateColumn (h : t.toTable.WellFormed d) (name : String) (f : Column → Column) :
    (t.updateColumn d name f).columns = t.columns.map fun c => if d.sameName c.name name then f c else c :=
  updateColumn_go_eq_map (distinct_of_wellFormed h)

theorem toTable_updateColumn (h : t.toTable.WellFormed d) (name : String) (f : Column → Column) :
    (t.updateColumn d name f).toTable = { t.toTable with
      columns := t.columns.map fun c => if d.sameName c.name name then f c else c } := by
  rw [← columns_updateColumn h]; rfl

/-- a column may be altered, but neither its name nor that a key column is NOT NULL -/
theorem updateColumn_wellFormed (h : t.toTable.WellFormed d) {name : String} {f : Column → Column}
    (names : ∀ c ∈ t.columns, d.sameName c.name name → (f c).name = c.name)
    (required : ∀ c ∈ t.columns, d.sameName c.name name → ∀ n cols,
      .primaryKey n cols ∈ t.toTable.constraints → c.name ∈ cols → c.nullable = false → (f c).nullable = false) :
    (t.updateColumn d name f).toTable.WellFormed d := by
  rw [toTable_updateColumn h]
  refine h.mapColumns ?_ ?_
  · intro c hc
    split_ifs with same
    · exact names c hc same
    · rfl
  · intro c hc n cols hm hn hnull
    split_ifs with same
    · exact required c hc same n cols hm hn hnull
    · exact hnull

theorem requireValues_key (names : List String) : (t.requireValues d names).key = t.key := by
  unfold requireValues
  induction names generalizing t with
  | nil => rfl
  | cons n names ih => exact ih

theorem requireValues_constraints (names : List String) :
    (t.requireValues d names).constraints = t.constraints := by
  unfold requireValues
  induction names generalizing t with
  | nil => rfl
  | cons n names ih => exact ih

theorem requireValues_wellFormed (h : t.toTable.WellFormed d) (names : List String) :
    (t.requireValues d names).toTable.WellFormed d := by
  unfold requireValues
  induction names generalizing t with
  | nil => exact h
  | cons n names ih => exact ih (updateColumn_wellFormed h (fun _ _ _ => rfl) fun _ _ _ _ _ _ _ _ => rfl)

theorem columns_requireValues (distinct : (t.columns.map fun c => d.foldName c.name).Nodup) (names : List String) :
    (t.requireValues d names).columns = t.columns.map fun c =>
      if names.any (d.sameName c.name) then { c with nullable := false } else c := by
  induction names generalizing t with
  | nil => simp [requireValues]
  | cons n names ih =>
    have changed : (t.updateColumn d n fun c => { c with nullable := false }).columns =
        t.columns.map fun c => if d.sameName c.name n then { c with nullable := false } else c :=
      updateColumn_go_eq_map distinct
    have distinct' : ((t.updateColumn d n fun c => { c with nullable := false }).columns.map
        fun c => d.foldName c.name).Nodup := by
      rw [changed, List.map_map]
      convert distinct using 3 with c
      simp only [Function.comp_apply]
      split_ifs <;> rfl
    refine (ih distinct').trans ?_
    rw [changed, List.map_map]
    refine List.map_congr_left fun c _ => ?_
    simp only [Function.comp_apply, List.any_cons]
    by_cases same : d.sameName c.name n = true <;> simp [same]

theorem columnNames_requireValues (distinct : (t.columns.map fun c => d.foldName c.name).Nodup) (names : List String) :
    (t.requireValues d names).toTable.columnNames = t.toTable.columnNames := by
  simp only [Table.columnNames, toTable, columns_requireValues distinct, List.map_map]
  refine List.map_congr_left fun c _ => ?_
  simp only [Function.comp_apply]
  split_ifs <;> rfl

/-! ## Adding constraints and indexes -/

theorem toTable_addPlaced (c : Constraint) (position : Position) (source : Option String) :
    (t.addPlaced c position source).toTable =
      { t.toTable with constraints := t.toTable.constraints ++ [c] } := by
  simp [addPlaced, toTable]

/-- a constraint other than a primary key may be added over columns of the table -/
theorem addPlaced_wellFormed (h : t.toTable.WellFormed d) {c : Constraint}
    (plain : c.isPrimaryKey = false) (named : ∀ n ∈ c.ownColumns, n ∈ t.toTable.columnNames)
    (filled : ∀ k, c = .foreignKey k → k.columns ≠ []) (position : Position) (source : Option String) :
    (t.addPlaced c position source).toTable.WellFormed d := by
  rw [toTable_addPlaced]
  refine h.addConstraint named filled (fun key => ?_) fun n cols e => ?_
  · rw [plain] at key; contradiction
  · rw [e] at plain; contradiction

/-- a first primary key may be added over columns that are made NOT NULL -/
theorem addPrimaryKey_wellFormed (h : t.toTable.WellFormed d) {name : Option String} {cols : List String}
    (first : t.primaryKey? = none) (named : ∀ n ∈ cols, n ∈ t.toTable.columnNames) (position : Position)
    (source : Option String) :
    ((t.requireValues d cols).addPlaced (.primaryKey name cols) position source).toTable.WellFormed d := by
  have kept := requireValues_wellFormed h cols
  have names := columnNames_requireValues (distinct_of_wellFormed h) cols
  rw [toTable_addPlaced]
  refine kept.addConstraint ?_ ?_ ?_ ?_
  · rw [names]; exact named
  · intro k e; simp at e
  · intro _
    simpa only [Table.primaryKey?, toTable, requireValues_constraints, primaryKey?] using first
  · intro n cols' e x hx hn
    obtain ⟨-, rfl⟩ := Constraint.primaryKey.inj e
    have hx' : x ∈ (t.requireValues d cols).columns := hx
    rw [columns_requireValues (distinct_of_wellFormed h), List.mem_map] at hx'
    obtain ⟨c, -, rfl⟩ := hx'
    split_ifs with same
    · rfl
    · rw [if_neg same] at hn
      exact absurd (List.any_eq_true.2 ⟨c.name, hn, Dialect.sameName_refl d c.name⟩) same

theorem someColumns_eq_ok_iff {record : String} {cols : List String} {u : Unit} :
    someColumns record cols = .ok u ↔ cols ≠ [] := by
  unfold someColumns
  split_ifs with empty <;> simp [empty]

theorem elementColumn_eq_ok {e : IndexElement} {n : String} (h : t.elementColumn d e = .ok n)
    (isColumn : e.column.isNone = false) : n ∈ t.toTable.columnNames := by
  unfold elementColumn at h
  split at h
  · rename_i none; rw [none] at isColumn; contradiction
  · obtain ⟨c, found, rfl⟩ := map_eq_ok_iff.1 h
    exact mem_columnNames_of_requireColumn found

theorem addIndex_wellFormed (h : t.toTable.WellFormed d) {elements : List IndexElement}
    {name : Option String} {unique : Bool} {method condition : Option String}
    (added : t.addIndex d elements name unique method condition = .ok t') :
    t'.toTable.WellFormed d ∧ t'.key = t.key := by
  simp only [addIndex, bind_eq_ok_iff, pure_eq_ok_iff] at added
  obtain ⟨cols, read, _, _, rfl⟩ := added
  refine ⟨h.addIndex fun plain n hn => ?_, rfl⟩
  obtain ⟨e, he, found⟩ := exists_of_mem_mapM read hn
  refine elementColumn_eq_ok found ?_
  exact Bool.eq_false_iff.2 ((List.any_eq_false.1 plain) e he)

theorem addConstraint_wellFormed (h : t.toTable.WellFormed d) {source : Option String}
    {clause : ConstraintClause} (added : t.addConstraint d source clause = .ok t') :
    t'.toTable.WellFormed d ∧ t'.key = t.key := by
  cases clause with
  | primaryKey columns name position =>
    simp only [addConstraint, bind_eq_ok_iff] at added
    obtain ⟨cols, read, added⟩ := added
    split_ifs at added with present
    · exact absurd added (by simp [problem_eq_ok_iff])
    · simp only [bind_eq_ok_iff, pure_eq_ok_iff] at added
      obtain ⟨_, _, rfl⟩ := added
      refine ⟨addPrimaryKey_wellFormed h (by simpa using present) (mem_columnNames_of_canonical read) _ _, ?_⟩
      exact requireValues_key cols
  | unique columns name position =>
    simp only [addConstraint, bind_eq_ok_iff, pure_eq_ok_iff] at added
    obtain ⟨cols, read, _, _, rfl⟩ := added
    exact ⟨addPlaced_wellFormed h rfl (mem_columnNames_of_canonical read) (by simp) _ _, rfl⟩
  | foreignKey columns reference name position =>
    simp only [addConstraint, bind_eq_ok_iff] at added
    obtain ⟨cols, read, added⟩ := added
    split_ifs at added with unnamed
    · simp [bind_eq_ok_iff, throw_eq_ok_iff] at added
    · simp only [bind_eq_ok_iff, pure_eq_ok_iff, someColumns_eq_ok_iff] at added
      obtain ⟨_, filled, rfl⟩ := added
      refine ⟨addPlaced_wellFormed h rfl (mem_columnNames_of_canonical read) (fun k e => ?_) _ _, rfl⟩
      rw [← Constraint.foreignKey.inj e]; exact filled
  | check expression name column position =>
    simp only [addConstraint, bind_eq_ok_iff] at added
    obtain ⟨own, read, added⟩ := added
    split_ifs at added with empty
    · simp [fmap_eq_ok_iff, throw_eq_ok_iff] at added
    · simp only [pure_eq_ok_iff] at added
      rw [← added]
      refine ⟨addPlaced_wellFormed h rfl (fun n hn => ?_) (by simp) _ _, rfl⟩
      cases column with
      | none =>
        simp only [Option.mapM_none, pure_eq_ok_iff] at read
        rw [← read] at hn
        simp [Constraint.ownColumns] at hn
      | some c =>
        simp only [Option.mapM_some, fmap_eq_ok_iff, map_eq_ok_iff] at read
        obtain ⟨_, ⟨x, found, rfl⟩, rfl⟩ := read
        rw [show n = x.name by simpa [Constraint.ownColumns] using hn]
        exact mem_columnNames_of_requireColumn found
  | index elements name unique kind position => exact addIndex_wellFormed h added

/-! ## Dropping -/

theorem constraintNames_eq (column : String) (c : Constraint) :
    constraintNames d column c = c.ownColumns.any (d.sameName · column) := by
  cases c with
  | check n e own => cases own <;> simp [constraintNames, hasName, Constraint.ownColumns]
  | _ => rfl

/-- constraints and indexes may be dropped -/
theorem restrict_wellFormed (h : t.toTable.WellFormed d) {cs : List Placed} {is : List Index}
    (hc : cs.Sublist t.constraints) (hi : is.Sublist t.indexes) :
    Table.WellFormed d (toTable { t with constraints := cs, indexes := is }) :=
  h.restrict (hc.map _) hi

theorem eraseColumn_wellFormed (h : t.toTable.WellFormed d) (column : Column) :
    (t.eraseColumn d column).toTable.WellFormed d := by
  have less := h.restrict (List.filter_sublist.map _ :
    (((t.constraints.filter fun e => !constraintNames d column.name e.constraint).map (·.constraint)).Sublist _))
    (List.filter_sublist : (t.indexes.filter fun i => !indexNames d column.name i).Sublist _)
  have left : ∀ n, ¬ d.sameName n column.name → n ∈ t.toTable.columnNames →
      n ∈ (t.eraseColumn d column).toTable.columnNames := by
    intro n other hn
    obtain ⟨c, hc, rfl⟩ := List.mem_map.1 hn
    exact List.mem_map_of_mem ((List.mem_eraseP_of_neg (by simpa using other)).2 hc)
  refine { less with distinct := ?_, named := ?_, indexed := ?_, required := ?_ }
  · exact h.distinct.sublist ((List.eraseP_sublist.map _).map _)
  · intro c hc n hn
    refine left n ?_ (less.named c hc n hn)
    obtain ⟨e, he, rfl⟩ := List.mem_map.1 hc
    have kept := (List.mem_filter.1 he).2
    rw [constraintNames_eq, Bool.not_eq_true', List.any_eq_false] at kept
    exact kept n hn
  · intro i hi plain n hn
    refine left n ?_ (less.indexed i hi plain n hn)
    have kept := (List.mem_filter.1 hi).2
    simp only [indexNames, plain, Bool.not_false, Bool.true_and, Bool.not_eq_true', List.any_eq_false] at kept
    exact kept n hn
  · intro n cols hm c hc
    exact less.required n cols hm c (List.eraseP_sublist.subset hc)

/-- some constraints and indexes of a table are gone, and nothing else has changed -/
def Loses (t t' : Draft) : Prop :=
  ∃ cs is, cs.Sublist t.constraints ∧ is.Sublist t.indexes ∧ t' = { t with constraints := cs, indexes := is }

theorem loses_eraseConstraint? {p : Constraint → Bool} (dropped : t.eraseConstraint? p = some t') : t.Loses t' := by
  unfold eraseConstraint? at dropped
  split_ifs at dropped
  exact ⟨_, _, List.eraseP_sublist, List.Sublist.refl _, (Option.some.inj dropped).symm⟩

theorem loses_eraseIndex? {name : String} (dropped : t.eraseIndex? d name = some t') : t.Loses t' := by
  unfold eraseIndex? at dropped
  split_ifs at dropped
  exact ⟨_, _, List.Sublist.refl _, List.eraseP_sublist, (Option.some.inj dropped).symm⟩

theorem loses_dropNamed? {name : String} (dropped : t.dropNamed? d name = some t') : t.Loses t' := by
  rcases Option.or_eq_some_iff.1 dropped with found | ⟨-, found⟩
  · exact loses_eraseConstraint? found
  · exact loses_eraseIndex? found

theorem loses_dropIndexNamed? {name : String} (dropped : t.dropIndexNamed? d name = some t') : t.Loses t' := by
  rcases Option.or_eq_some_iff.1 dropped with found | ⟨-, found⟩
  · exact loses_eraseIndex? found
  · exact loses_eraseConstraint? found

theorem loses_dropPrimaryKey (dropped : t.dropPrimaryKey = .ok t') : t.Loses t' := by
  unfold dropPrimaryKey at dropped
  split_ifs at dropped
  · exact ⟨_, _, List.filter_sublist, List.Sublist.refl _, (Except.ok.inj dropped).symm⟩
  · exact absurd dropped (by simp [problem_eq_ok_iff])

theorem loses_dropForeignKeysTo (key : String) (column : Option String) : t.Loses (t.dropForeignKeysTo d key column) :=
  ⟨_, _, List.filter_sublist, List.Sublist.refl _, rfl⟩

theorem Loses.wellFormed (loses : t.Loses t') (h : t.toTable.WellFormed d) :
    t'.toTable.WellFormed d ∧ t'.key = t.key := by
  obtain ⟨cs, is, constraints, indexes, rfl⟩ := loses
  exact ⟨restrict_wellFormed h constraints indexes, rfl⟩

/-! ## Renaming -/

/-- foreign keys may refer elsewhere -/
theorem mapForeignKeys_wellFormed (h : t.toTable.WellFormed d) {f : ForeignKey → ForeignKey}
    (own : ∀ k, (f k).columns = k.columns) : (t.mapForeignKeys f).toTable.WellFormed d := by
  refine h.retarget ?_
  simp only [toTable, mapForeignKeys, List.map_map, List.forall₂_map_left_iff, List.forall₂_map_right_iff]
  refine List.forall₂_same.2 fun e _ => ?_
  simp only [Function.comp_apply]
  split
  · rename_i k isKey
    rw [isKey]; exact .foreignKey (own k)
  · exact .same _

theorem ownColumns_renameInConstraint (old new : String) (c : Constraint) :
    (renameInConstraint d old new c).ownColumns = renameIn d old new c.ownColumns := by
  cases c with
  | check n e own =>
    cases own with
    | none => simp [renameInConstraint, hasName, Constraint.ownColumns, renameIn]
    | some column =>
      simp only [renameInConstraint, hasName, Constraint.ownColumns, renameIn, Option.map_some, Option.getD_some]
      by_cases same : d.sameName column old = true <;> simp [same]
  | _ => rfl

theorem mem_renameIn {old new n : String} {names : List String} (h : n ∈ names) :
    (if d.sameName n old then new else n) ∈ renameIn d old new names :=
  List.mem_map_of_mem h

/-- a column is renamed to a name that is free or its own, in another spelling -/
theorem columns_renameColumn (h : t.toTable.WellFormed d) (old new : String) :
    (t.renameColumn d old new).columns =
      t.columns.map fun c => if d.sameName c.name old then { c with name := new } else c :=
  columns_updateColumn h old _

theorem columnNames_renameColumn (h : t.toTable.WellFormed d) (old new : String) :
    (t.renameColumn d old new).toTable.columnNames = renameIn d old new t.toTable.columnNames := by
  simp only [Table.columnNames, renameIn, toTable, columns_renameColumn h, List.map_map]
  refine List.map_congr_left fun c _ => ?_
  simp only [Function.comp_apply]
  split_ifs <;> rfl

theorem constraints_renameColumn (old new : String) : (t.renameColumn d old new).toTable.constraints =
    t.toTable.constraints.map (renameInConstraint d old new) := by
  simp only [renameColumn, updateColumn, toTable, List.map_map]
  rfl

/-- columns that differ differ under their new names too, if no other column has the new name -/
theorem eq_of_fold_renamed (h : t.toTable.WellFormed d) {old new : String}
    (free : ∀ c ∈ t.columns, d.foldName c.name = d.foldName new → d.foldName c.name = d.foldName old) :
    ∀ a ∈ t.toTable.columnNames, ∀ b ∈ t.toTable.columnNames,
      d.foldName (if d.sameName a old then new else a) = d.foldName (if d.sameName b old then new else b) →
      a = b := by
  intro a ha b hb e
  obtain ⟨x, hx, rfl⟩ := List.mem_map.1 ha
  obtain ⟨y, hy, rfl⟩ := List.mem_map.1 hb
  refine h.eq_of_fold ha hb ?_
  split_ifs at e with hxo hyo hyo
  · exact (Dialect.sameName_iff.1 hxo).trans (Dialect.sameName_iff.1 hyo).symm
  · exact (Dialect.sameName_iff.1 hxo).trans (free y hy e.symm).symm
  · exact (free x hx e).trans (Dialect.sameName_iff.1 hyo).symm
  · exact e

theorem renameColumn_wellFormed (h : t.toTable.WellFormed d) {old new : String}
    (free : ∀ c ∈ t.columns, d.foldName c.name = d.foldName new → d.foldName c.name = d.foldName old) :
    (t.renameColumn d old new).toTable.WellFormed d := by
  have names := columnNames_renameColumn h old new
  have constraints := @constraints_renameColumn d t old new
  have apart := eq_of_fold_renamed h free
  constructor
  · exact h.keyed
  · rw [names, renameIn, List.map_map]
    exact h.distinct.of_map.map_on apart
  · have same : Constraint.isPrimaryKey ∘ renameInConstraint d old new = Constraint.isPrimaryKey := by
      funext c
      cases c <;> rfl
    rw [constraints, List.countP_map, same]
    exact h.onePrimaryKey
  · intro c hc n hn
    rw [constraints] at hc
    obtain ⟨c₀, hc₀, rfl⟩ := List.mem_map.1 hc
    rw [ownColumns_renameInConstraint] at hn
    obtain ⟨m, hm, rfl⟩ := List.mem_map.1 hn
    rw [names]; exact mem_renameIn (h.named c₀ hc₀ m hm)
  · intro k hk
    simp only [Table.foreignKeys, constraints, List.mem_filterMap, List.mem_map] at hk
    obtain ⟨_, ⟨c, hc, rfl⟩, e⟩ := hk
    cases c with
    | foreignKey k₀ =>
      rw [← Option.some.inj e]
      have := h.filled k₀ (List.mem_filterMap.2 ⟨_, hc, rfl⟩)
      simpa [renameIn] using this
    | _ => simp [renameInConstraint, Constraint.foreignKey?] at e
  · intro i hi plain n hn
    obtain ⟨i₀, hi₀, rfl⟩ := List.mem_map.1 hi
    unfold renameInIndex at plain hn
    split_ifs at plain hn with expression
    · exact absurd plain (by simp [expression])
    · obtain ⟨m, hm, rfl⟩ := List.mem_map.1 hn
      rw [names]; exact mem_renameIn (h.indexed i₀ hi₀ plain m hm)
  · intro n cols hm x hx hn
    rw [constraints] at hm
    obtain ⟨c, hc, e⟩ := List.mem_map.1 hm
    cases c with
    | primaryKey n₀ cols₀ =>
      obtain ⟨-, rfl⟩ := Constraint.primaryKey.inj e
      have hx' : x ∈ (t.renameColumn d old new).columns := hx
      rw [columns_renameColumn h] at hx'
      obtain ⟨y, hy, rfl⟩ := List.mem_map.1 hx'
      -- the renamed column was one of the key before
      obtain ⟨m, hm, e'⟩ := List.mem_map.1 hn
      have named := h.named _ hc m hm
      have old := apart m named y.name (List.mem_map_of_mem hy) (by rw [e']; split_ifs <;> rfl)
      have := h.required n₀ cols₀ hc y hy (old ▸ hm)
      split_ifs <;> exact this
    | _ => simp [renameInConstraint] at e

theorem renameTargetColumn_wellFormed (h : t.toTable.WellFormed d) (key old new : String) :
    (t.renameTargetColumn d key old new).toTable.WellFormed d :=
  mapForeignKeys_wellFormed h fun k => by split_ifs <;> rfl

theorem retarget_wellFormed (h : t.toTable.WellFormed d) (key : String) (ref : TableRef) :
    (t.retarget d key ref).toTable.WellFormed d :=
  mapForeignKeys_wellFormed h fun k => by split_ifs <;> rfl

end SchemaApi.Draft
