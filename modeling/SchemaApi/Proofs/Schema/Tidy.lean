import SchemaApi.Proofs.Schema.Move
import SchemaApi.Proofs.Schema.Sound
/-!
Tables are tidy, whatever key they are stored under.

A table that is declared in a schema of an empty name is not stored under the key of its name. Else it is well-formed
like any other, and its unique constraints and indexes have columns (`Table.Tidy`). Every move of a table keeps that,
so it holds after any statements that replace columns only where case counts, and of the model as well.
-/

namespace SchemaApi

variable {d : Dialect}

/-! ## Definition -/

/-- the table as it would be stored under the key of its name -/
def Table.rekeyed (d : Dialect) (t : Table) : Table := { t with key := d.tableKey t.schema t.name }

structure Table.Tidy (d : Dialect) (t : Table) : Prop where
  wellFormed : (t.rekeyed d).WellFormed d
  /-- a unique constraint has columns -/
  filled : ∀ cols ∈ t.uniqueConstraints, cols ≠ []
  /-- so does an index, whether it is over columns or not -/
  indexed : ∀ i ∈ t.indexes, i.columns ≠ []

/-! ## Moves -/

namespace Draft

variable {t t' : Draft}

/-- the table as it would be stored under the key of its name -/
def rekeyed (d : Dialect) (t : Draft) : Draft := { t with key := d.tableKey t.schema t.name }

theorem addIndex_rekeyed {elements : List IndexElement} {name : Option String} {unique : Bool}
    {method condition : Option String} (added : t.addIndex d elements name unique method condition = .ok t') :
    (t.rekeyed d).addIndex d elements name unique method condition = .ok (t'.rekeyed d) := by
  simp only [addIndex, bind_eq_ok_iff, pure_eq_ok_iff] at added ⊢
  obtain ⟨columns, read, u, filled, rfl⟩ := added
  exact ⟨columns, read, u, filled, rfl⟩

theorem requireValues_rekeyed (names : List String) :
    (t.rekeyed d).requireValues d names = (t.requireValues d names).rekeyed d := by
  unfold requireValues
  induction names generalizing t with
  | nil => rfl
  | cons n names ih => exact @ih (t.updateColumn d n fun c => { c with nullable := false })

theorem addConstraint_rekeyed {source : Option String} {clause : ConstraintClause}
    (added : t.addConstraint d source clause = .ok t') :
    (t.rekeyed d).addConstraint d source clause = .ok (t'.rekeyed d) := by
  cases clause with
  | primaryKey columns name position =>
    simp only [addConstraint, bind_eq_ok_iff] at added ⊢
    obtain ⟨cols, read, added⟩ := added
    refine ⟨cols, read, ?_⟩
    split_ifs at added with present
    · exact absurd added (by simp [problem_eq_ok_iff])
    · simp only [bind_eq_ok_iff, pure_eq_ok_iff] at added
      obtain ⟨u, filled, rfl⟩ := added
      have absent : ¬ (t.rekeyed d).primaryKey?.isSome = true := present
      rw [if_neg absent, requireValues_rekeyed, bind_eq_ok_iff]
      exact ⟨u, filled, rfl⟩
  | unique columns name position =>
    simp only [addConstraint, bind_eq_ok_iff, pure_eq_ok_iff] at added ⊢
    obtain ⟨cols, read, u, filled, rfl⟩ := added
    exact ⟨cols, read, u, filled, rfl⟩
  | foreignKey columns reference name position =>
    simp only [addConstraint, bind_eq_ok_iff] at added ⊢
    obtain ⟨cols, read, added⟩ := added
    refine ⟨cols, read, ?_⟩
    split_ifs at added ⊢ with unnamed
    · simp [bind_eq_ok_iff, throw_eq_ok_iff] at added
    · simp only [bind_eq_ok_iff, pure_eq_ok_iff] at added ⊢
      obtain ⟨u, filled, rfl⟩ := added
      exact ⟨u, filled, rfl⟩
  | check expression name column position =>
    simp only [addConstraint, bind_eq_ok_iff] at added ⊢
    obtain ⟨own, read, added⟩ := added
    refine ⟨own, read, ?_⟩
    split_ifs at added ⊢ with empty
    · simp [fmap_eq_ok_iff, throw_eq_ok_iff] at added
    · rw [← pure_eq_ok_iff.1 added]
      rfl
  | index elements name unique kind position => exact addIndex_rekeyed added

theorem uniqueConstraints_addPlaced (c : Constraint) (position : Position) (source : Option String) :
    (t.addPlaced c position source).toTable.uniqueConstraints =
      t.toTable.uniqueConstraints ++ c.uniqueColumns?.toList := by
  rw [toTable_addPlaced, Table.uniqueConstraints, List.filterMap_append]
  cases c <;> rfl

theorem indexed_addIndex {elements : List IndexElement} {name : Option String} {unique : Bool}
    {method condition : Option String} (added : t.addIndex d elements name unique method condition = .ok t')
    (indexed : ∀ i ∈ t.indexes, i.columns ≠ []) : ∀ i ∈ t'.indexes, i.columns ≠ [] := by
  simp only [addIndex, bind_eq_ok_iff, pure_eq_ok_iff, someColumns_eq_ok_iff] at added
  obtain ⟨columns, -, _, filled, rfl⟩ := added
  intro i hi
  rcases List.mem_append.1 hi with old | new
  · exact indexed i old
  · rw [List.mem_singleton.1 new]
    exact filled

/-- a unique constraint or an index that is added has columns -/
theorem filled_addConstraint {source : Option String} {clause : ConstraintClause}
    (added : t.addConstraint d source clause = .ok t') (filled : ∀ cols ∈ t.toTable.uniqueConstraints, cols ≠ [])
    (indexed : ∀ i ∈ t.indexes, i.columns ≠ []) :
    (∀ cols ∈ t'.toTable.uniqueConstraints, cols ≠ []) ∧ ∀ i ∈ t'.indexes, i.columns ≠ [] := by
  -- all that is added is a constraint, or all is an index
  have placed : ∀ (t₀ : Draft) (c : Constraint) (position : Position),
      t₀.toTable.constraints = t.toTable.constraints → t₀.indexes = t.indexes →
      (∀ cols, c.uniqueColumns? = some cols → cols ≠ []) →
      (∀ cols ∈ (t₀.addPlaced c position source).toTable.uniqueConstraints, cols ≠ []) ∧
        ∀ i ∈ (t₀.addPlaced c position source).indexes, i.columns ≠ [] := by
    intro t₀ c position constraints indexes new
    refine ⟨fun cols hcols => ?_, fun i hi => indexed i (indexes ▸ hi)⟩
    rw [uniqueConstraints_addPlaced, List.mem_append, Option.mem_toList, Table.uniqueConstraints, constraints] at hcols
    rcases hcols with old | own
    · exact filled cols old
    · exact new cols own
  cases clause with
  | primaryKey columns name position =>
    simp only [addConstraint, bind_eq_ok_iff] at added
    obtain ⟨cols, -, added⟩ := added
    split_ifs at added
    · exact absurd added (by simp [problem_eq_ok_iff])
    · simp only [bind_eq_ok_iff, pure_eq_ok_iff] at added
      obtain ⟨_, -, rfl⟩ := added
      apply placed
      · rw [toTable, requireValues_constraints, toTable]
      · rw [requireValues_eq]
      · exact fun cols other => absurd other (by simp [Constraint.uniqueColumns?])
  | unique columns name position =>
    simp only [addConstraint, bind_eq_ok_iff, pure_eq_ok_iff, someColumns_eq_ok_iff] at added
    obtain ⟨cols, -, _, some, rfl⟩ := added
    exact placed t _ position rfl rfl fun cols' own => Option.some.inj own ▸ some
  | foreignKey columns reference name position =>
    simp only [addConstraint, bind_eq_ok_iff] at added
    obtain ⟨cols, -, added⟩ := added
    split_ifs at added
    · simp [bind_eq_ok_iff, throw_eq_ok_iff] at added
    · simp only [bind_eq_ok_iff, pure_eq_ok_iff] at added
      obtain ⟨_, -, rfl⟩ := added
      exact placed t _ position rfl rfl fun cols other => absurd other (by simp [Constraint.uniqueColumns?])
  | check expression name column position =>
    simp only [addConstraint, bind_eq_ok_iff] at added
    obtain ⟨own, -, added⟩ := added
    split_ifs at added
    · simp [fmap_eq_ok_iff, throw_eq_ok_iff] at added
    · rw [← pure_eq_ok_iff.1 added]
      exact placed t _ position rfl rfl fun cols other => absurd other (by simp [Constraint.uniqueColumns?])
  | index elements name unique kind position =>
    have same : t'.toTable.uniqueConstraints = t.toTable.uniqueConstraints := by
      obtain ⟨index, rfl⟩ := addIndex_eq_ok added
      rfl
    exact ⟨same ▸ filled, indexed_addIndex added indexed⟩

theorem renameIn_ne_nil {old new : String} {names : List String} (filled : names ≠ []) :
    renameIn d old new names ≠ [] := by
  rwa [renameIn, Ne, List.map_eq_nil_iff]

theorem uniqueConstraints_sublist {cs : List Constraint} {t : Table} (h : cs.Sublist t.constraints) :
    (Table.uniqueConstraints { t with constraints := cs }).Sublist t.uniqueConstraints :=
  h.filterMap _

theorem uniqueConstraints_renameColumn (old new : String) : (t.renameColumn d old new).toTable.uniqueConstraints =
    t.toTable.uniqueConstraints.map (renameIn d old new) := by
  rw [Table.uniqueConstraints, constraints_renameColumn, Table.uniqueConstraints, List.filterMap_map,
    List.map_filterMap]
  refine List.filterMap_congr fun c _ => ?_
  cases c <;> rfl

/-- what a foreign key refers to is no matter of the table's own keys -/
theorem uniqueConstraints_mapForeignKeys (f : ForeignKey → ForeignKey) :
    (t.mapForeignKeys f).toTable.uniqueConstraints = t.toTable.uniqueConstraints := by
  simp only [Table.uniqueConstraints, toTable, mapForeignKeys, List.map_map, List.filterMap_map]
  refine List.filterMap_congr fun e _ => ?_
  simp only [Function.comp_apply]
  split
  · rename_i k isKey
    rw [isKey]
    rfl
  · rfl

/-- every move keeps tables tidy -/
theorem Move.tidy (h : t.toTable.Tidy d) (move : t.Move d t') : t'.toTable.Tidy d := by
  have sound : (t.rekeyed d).toTable.WellFormed d := h.wellFormed
  cases move with
  | retitle name schema key comment => exact ⟨{ sound with keyed := rfl }, h.filled, h.indexed⟩
  | addColumn c new => exact ⟨sound.addColumn (column?_eq_none new), h.filled, h.indexed⟩
  | addConstraint source clause added =>
    obtain ⟨filled, indexed⟩ := filled_addConstraint added h.filled h.indexed
    exact ⟨(addConstraint_wellFormed sound (addConstraint_rekeyed added)).1, filled, indexed⟩
  | addIndex elements name unique method condition added =>
    have same : t'.toTable.uniqueConstraints = t.toTable.uniqueConstraints := by
      obtain ⟨index, rfl⟩ := addIndex_eq_ok added
      rfl
    exact ⟨(addIndex_wellFormed sound (addIndex_rekeyed added)).1, same ▸ h.filled, indexed_addIndex added h.indexed⟩
  | alter name f names required =>
    refine
      ⟨updateColumn_wellFormed sound (fun c _ => names c) fun c hc here n cols key inKey => ?_, h.filled, h.indexed⟩
    refine required c hc here ?_
    have own : t.primaryKey? = some cols := sound.primaryKey?_eq key
    rwa [own, Option.getD_some]
  | rename old new free =>
    refine ⟨renameColumn_wellFormed sound free, fun cols hcols => ?_, fun i hi => ?_⟩
    · rw [uniqueConstraints_renameColumn] at hcols
      obtain ⟨cols₀, before, rfl⟩ := List.mem_map.1 hcols
      exact renameIn_ne_nil (h.filled cols₀ before)
    · obtain ⟨i₀, before, rfl⟩ := List.mem_map.1 hi
      unfold renameInIndex
      split_ifs
      · exact h.indexed i₀ before
      · exact renameIn_ne_nil (h.indexed i₀ before)
  | erase c =>
    refine ⟨eraseColumn_wellFormed sound c, fun cols hcols => h.filled cols ?_, fun i hi => h.indexed i ?_⟩
    · exact (uniqueConstraints_sublist (t := t.toTable) (List.filter_sublist.map _)).subset hcols
    · exact (List.mem_filter.1 hi).1
  | restrict constraints indexes =>
    refine ⟨restrict_wellFormed sound constraints indexes, fun cols hcols => h.filled cols ?_,
      fun i hi => h.indexed i (indexes.subset hi)⟩
    exact (uniqueConstraints_sublist (t := t.toTable) (constraints.map _)).subset hcols
  | redirect f own =>
    refine ⟨mapForeignKeys_wellFormed sound own, ?_, h.indexed⟩
    rw [uniqueConstraints_mapForeignKeys]
    exact h.filled

theorem Blank.tidy (blank : t.Blank) : t.toTable.Tidy d where
  wellFormed :=
    { keyed := rfl
      distinct := by simp [Table.rekeyed, Table.columnNames, toTable, blank.columns]
      onePrimaryKey := by simp [Table.rekeyed, toTable, blank.constraints]
      named := by simp [Table.rekeyed, toTable, blank.constraints]
      filled := by simp [Table.rekeyed, Table.foreignKeys, toTable, blank.constraints]
      indexed := by simp [Table.rekeyed, toTable, blank.indexes]
      required := by simp [Table.rekeyed, toTable, blank.constraints] }
  filled := by simp [Table.uniqueConstraints, toTable, blank.constraints]
  indexed := by simp [toTable, blank.indexes]

end Draft

/-! ## Models -/

theorem Workspace.tidy_afterChanges {statements : List Statement} (replaces : Exact d statements) {n : Nat}
    {w : Workspace} (run : afterChanges d statements n = .ok w) : ∀ t ∈ w.tables, t.toTable.Tidy d := by
  intro t ht
  obtain ⟨t₀, blank, moves⟩ := moved_afterChanges replaces run t ht
  exact moves.keeps (P := fun t => t.toTable.Tidy d) (fun _ _ tidy move => move.tidy tidy) blank.tidy

namespace Table.Tidy

variable {t : Table}

theorem retarget (h : t.Tidy d) {cs : List Constraint}
    (alike : List.Forall₂ Constraint.Retargeted t.constraints cs) : Table.Tidy d { t with constraints := cs } where
  wellFormed := h.wellFormed.retarget alike
  filled cols hcols := by
    obtain ⟨c, hc, own⟩ := List.mem_filterMap.1 hcols
    obtain ⟨c₀, hc₀, like⟩ := exists_of_mem_forall₂ alike hc
    cases like with
    | same => exact h.filled cols (List.mem_filterMap.2 ⟨_, hc₀, own⟩)
    | foreignKey => exact absurd own (by simp [Constraint.uniqueColumns?])
  indexed := h.indexed

theorem restrict (h : t.Tidy d) (kept : List TableRef) : (restrictTable kept t).Tidy d where
  wellFormed := h.wellFormed.restrict List.filter_sublist (List.Sublist.refl _)
  filled cols hcols := h.filled cols ((Draft.uniqueConstraints_sublist List.filter_sublist).subset hcols)
  indexed := h.indexed

/-- a key of the table has columns -/
theorem ne_nil_of_mem_uniqueSets (h : t.Tidy d) {cols : List String} (known : cols ∈ t.uniqueSets) : cols ≠ [] := by
  rcases Table.mem_uniqueSets.1 known with ⟨-, filled⟩ | unique | ⟨i, hi, -, rfl⟩
  · exact filled
  · exact h.filled cols unique
  · exact h.indexed i hi

end Table.Tidy

/-- the tables of a model are tidy, if columns are replaced only where case counts -/
theorem tidy_of_buildModel {schemaFilter : Option String} {statements : List Statement}
    (replaces : Workspace.Exact d statements) {b : Built} (built : buildModel d schemaFilter statements = .ok b) :
    ∀ t ∈ b.model.tables, t.Tidy d := by
  refine forall_tables_of_buildModel (P := Table.Tidy d) built (fun w applied => ?_)
    (fun _ _ h alike => h.retarget alike) fun _ kept h => h.restrict kept
  rw [Workspace.applyAll_eq_afterChanges] at applied
  exact Workspace.tidy_afterChanges replaces applied

end SchemaApi
