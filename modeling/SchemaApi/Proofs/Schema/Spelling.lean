import SchemaApi.Proofs.Schema.Sound
import SchemaApi.Proofs.Schema.Step
import SchemaApi.Proofs.Text.OneLine
/-!
How constraints and indexes spell the columns that they name.

A column may get another spelling of its name while constraints keep the old one, and in a table that is not
well-formed a name may even mean several columns. But whatever statements do, a name in a constraint or an index is the
same identifier as a column of its table (`Table.Covered`): each step of a table keeps that, and so do the resolution of
foreign keys and the restriction to a schema.

Folding a name neither adds nor removes a line feed, so where no column name has one, no constraint names a column with
one either.
-/

namespace SchemaApi

open Text

variable {d : Dialect}

/-- a name in a constraint, or in an index over columns, is the same identifier as a column of the table -/
structure Table.Covered (d : Dialect) (t : Table) : Prop where
  constraints : ∀ c ∈ t.constraints, ∀ n ∈ c.ownColumns, d.foldName n ∈ t.columnNames.map d.foldName
  indexes : ∀ i ∈ t.indexes, i.isExpression = false → ∀ n ∈ i.columns, d.foldName n ∈ t.columnNames.map d.foldName

/-! ## Steps -/

namespace Draft

variable {t t' : Draft}

theorem identifiers_eq (t : Draft) : t.identifiers d = t.toTable.columnNames.map d.foldName := by
  rw [identifiers, Table.columnNames, List.map_map]
  rfl

/-- constraints and indexes are covered after a change if each name in them comes from a name that was there -/
theorem covered_of_origins (h : t.toTable.Covered d) (renamed : String → String)
    (identifiers : ∀ n, d.foldName n ∈ t.identifiers d → d.foldName (renamed n) ∈ t'.identifiers d)
    (constraints : ∀ e' ∈ t'.constraints, ∀ n' ∈ e'.constraint.ownColumns,
      ∃ e ∈ t.constraints, ∃ n ∈ e.constraint.ownColumns, renamed n = n')
    (indexes : ∀ i' ∈ t'.indexes, i'.isExpression = false → ∀ n' ∈ i'.columns,
      ∃ i ∈ t.indexes, i.isExpression = false ∧ ∃ n ∈ i.columns, renamed n = n') : t'.toTable.Covered d where
  constraints c' hc' n' hn' := by
    obtain ⟨e', he', rfl⟩ := List.mem_map.1 hc'
    obtain ⟨e, he, n, hn, rfl⟩ := constraints e' he' n' hn'
    rw [← identifiers_eq]
    exact identifiers n ((identifiers_eq t).symm ▸ h.constraints _ (List.mem_map_of_mem he) n hn)
  indexes i' hi' plain n' hn' := by
    obtain ⟨i, hi, plain, n, hn, rfl⟩ := indexes i' hi' plain n' hn'
    rw [← identifiers_eq]
    exact identifiers n ((identifiers_eq t).symm ▸ h.indexes i hi plain n hn)

/-- what an identifier is renamed to is there when the first column of it is renamed -/
theorem mem_identifiers_renameColumn {old new n : String} (h : d.foldName n ∈ t.identifiers d) :
    d.foldName (if d.sameName n old then new else n) ∈ (t.renameColumn d old new).identifiers d := by
  simp only [identifiers, renameColumn, updateColumn] at h ⊢
  generalize t.columns = columns at h ⊢
  induction columns with
  | nil => exact absurd h List.not_mem_nil
  | cons c rest ih =>
    rw [updateColumn.go]
    rw [List.map_cons, List.mem_cons] at h
    by_cases first : d.sameName c.name old = true
    · rw [if_pos first, List.map_cons, List.mem_cons]
      by_cases mine : d.sameName n old = true
      · exact Or.inl (by rw [if_pos mine])
      · rw [if_neg mine]
        refine Or.inr (h.resolve_left fun same => mine ?_)
        exact Dialect.sameName_iff.2 (same.trans (Dialect.sameName_iff.1 first))
    · rw [if_neg first, List.map_cons, List.mem_cons]
      rcases h with same | later
      · have other : ¬ d.sameName n old = true := fun mine =>
          first (Dialect.sameName_iff.2 (same.symm.trans (Dialect.sameName_iff.1 mine)))
        exact Or.inl (by rw [if_neg other, same])
      · exact Or.inr (ih later)

theorem Step.covered (h : t.toTable.Covered d) (step : t.Step d t') : t'.toTable.Covered d := by
  cases step with
  | retitle => exact ⟨h.constraints, h.indexes⟩
  | addColumn c =>
    refine covered_of_origins h id (fun n hn => ?_) (fun e he n hn => ⟨e, he, n, hn, rfl⟩)
      fun i hi plain n hn => ⟨i, hi, plain, n, hn, rfl⟩
    rw [identifiers, List.map_append]
    exact List.mem_append_left _ hn
  | addConstraint c position source named =>
    rw [toTable_addPlaced]
    refine ⟨fun c' hc' => ?_, h.indexes⟩
    rcases List.mem_append.1 hc' with old | new
    · exact h.constraints c' old
    · rw [List.mem_singleton.1 new]
      exact identifiers_eq t ▸ named
  | addIndex i named =>
    refine ⟨h.constraints, fun i' hi' => ?_⟩
    rcases List.mem_append.1 hi' with old | new
    · exact h.indexes i' old
    · rw [List.mem_singleton.1 new]
      exact identifiers_eq t ▸ named
  | alter name f same =>
    refine covered_of_origins h id (fun n hn => ?_) (fun e he n hn => ⟨e, he, n, hn, rfl⟩)
      fun i hi plain n hn => ⟨i, hi, plain, n, hn, rfl⟩
    rw [identifiers_updateColumn same]
    exact hn
  | rename old new =>
    refine covered_of_origins h (fun n => if d.sameName n old then new else n)
      (fun n => mem_identifiers_renameColumn) (fun e' he' n' hn' => ?_) fun i' hi' plain n' hn' => ?_
    · obtain ⟨e, he, rfl⟩ := List.mem_map.1 he'
      rw [ownColumns_renameInConstraint] at hn'
      exact ⟨e, he, List.mem_map.1 hn'⟩
    · obtain ⟨i, hi, rfl⟩ := List.mem_map.1 hi'
      unfold renameInIndex at plain hn'
      split_ifs at plain hn' with expression
      · rw [expression] at plain
        contradiction
      · exact ⟨i, hi, plain, List.mem_map.1 hn'⟩
  | erase column =>
    -- only names of other columns are left
    have left : ∀ n, ¬ d.sameName n column.name = true → d.foldName n ∈ t.toTable.columnNames.map d.foldName →
        d.foldName n ∈ (t.eraseColumn d column).toTable.columnNames.map d.foldName := by
      intro n other hn
      rw [← identifiers_eq] at hn ⊢
      obtain ⟨x, hx, same⟩ := List.mem_map.1 hn
      refine List.mem_map.2 ⟨x, (List.mem_eraseP_of_neg fun gone => other ?_).2 hx, same⟩
      exact Dialect.sameName_iff.2 (same.symm.trans (Dialect.sameName_iff.1 gone))
    constructor
    · intro c hc n hn
      obtain ⟨e, he, rfl⟩ := List.mem_map.1 hc
      obtain ⟨he, kept⟩ := List.mem_filter.1 he
      rw [constraintNames_eq, Bool.not_eq_true', List.any_eq_false] at kept
      exact left n (kept n hn) (h.constraints _ (List.mem_map_of_mem he) n hn)
    · intro i hi plain n hn
      obtain ⟨hi, kept⟩ := List.mem_filter.1 hi
      simp only [indexNames, plain, Bool.not_false, Bool.true_and, Bool.not_eq_true', List.any_eq_false] at kept
      exact left n (kept n hn) (h.indexes i hi plain n hn)
  | restrict constraints indexes =>
    exact ⟨fun c hc => h.constraints c ((constraints.map _).subset hc), fun i hi => h.indexes i (indexes.subset hi)⟩
  | redirect f own =>
    refine covered_of_origins h id (fun n hn => hn) (fun e' he' n' hn' => ?_)
      fun i hi plain n hn => ⟨i, hi, plain, n, hn, rfl⟩
    obtain ⟨e, he, rfl⟩ := List.mem_map.1 he'
    refine ⟨e, he, n', ?_, rfl⟩
    split at hn'
    · rename_i k isKey
      rw [isKey]
      rwa [Constraint.ownColumns, own k] at hn'
    · exact hn'

theorem Steps.covered (h : t.toTable.Covered d) (steps : t.Steps d t') : t'.toTable.Covered d := by
  induction steps with
  | refl => exact h
  | tail _ step ih => exact step.covered ih

end Draft

namespace Workspace

variable {w w' : Workspace}

/-- every table is covered -/
def Covered (d : Dialect) (w : Workspace) : Prop := ∀ t ∈ w.tables, t.toTable.Covered d

theorem Step.covered (h : w.Covered d) (step : w.Step d w') : w'.Covered d := by
  cases step with
  | tables each =>
    intro t' ht'
    obtain ⟨t, ht, steps⟩ := each t' ht'
    exact steps.covered (h t ht)
  | create t columns constraints indexes =>
    intro t' ht'
    rcases List.mem_append.1 ht' with old | new
    · exact h t' old
    · rw [List.mem_singleton.1 new]
      constructor <;> simp [Draft.toTable, constraints, indexes]
  | declare => exact h
  | report => exact h
  | record => exact h

theorem Steps.covered (h : w.Covered d) (steps : w.Steps d w') : w'.Covered d := by
  induction steps with
  | refl => exact h
  | tail _ step ih => exact step.covered ih

end Workspace

/-! ## Models -/

namespace Table.Covered

variable {t : Table}

theorem retarget (h : t.Covered d) {cs : List Constraint}
    (alike : List.Forall₂ Constraint.Retargeted t.constraints cs) :
    Table.Covered d { t with constraints := cs } where
  constraints c hc := by
    obtain ⟨c₀, hc₀, like⟩ := exists_of_mem_forall₂ alike hc
    rw [like.ownColumns]
    exact h.constraints c₀ hc₀
  indexes := h.indexes

/-- so is a name in the primary key -/
theorem primaryKey (h : t.Covered d) {names : List String} (key : t.primaryKey? = some names) :
    ∀ n ∈ names, d.foldName n ∈ t.columnNames.map d.foldName := by
  intro n hn
  obtain ⟨c, hc, e⟩ := List.exists_of_findSome?_eq_some key
  refine h.constraints c hc n ?_
  cases c with
  | primaryKey => rwa [Constraint.ownColumns, Option.some.inj e]
  | _ => contradiction

theorem restrict (h : t.Covered d) (kept : List TableRef) : (restrictTable kept t).Covered d where
  constraints c hc := h.constraints c (List.mem_filter.1 hc).1
  indexes := h.indexes

end Table.Covered

/-- the tables of a model are covered, whatever statements it is made of -/
theorem covered_of_buildModel {schemaFilter : Option String} {statements : List Statement} {b : Built}
    (built : buildModel d schemaFilter statements = .ok b) : ∀ t ∈ b.model.tables, t.Covered d := by
  refine forall_tables_of_buildModel (P := Table.Covered d) built (fun w applied => ?_)
    (fun _ _ h alike => h.retarget alike) fun _ kept h => h.restrict kept
  exact (Workspace.steps_applyAll applied).covered fun t ht => absurd ht List.not_mem_nil

/-- the table that a key resolves to is one of the tables, and the key refers to what is unique there -/
theorem resolvedTarget_eq_some {tables : List Table} {k : ForeignKey} {t : Table}
    (found : resolvedTarget tables k = some t) : t ∈ tables ∧ t.ref = k.target ∧ k.targetColumns ∈ t.uniqueSets := by
  unfold resolvedTarget at found
  split at found
  · contradiction
  · rename_i target there
    split_ifs at found with unlike known
    obtain rfl := Option.some.inj found
    exact ⟨List.mem_reverse.1 (List.mem_of_find?_eq_some there), by simpa using List.find?_some there,
      List.contains_iff_mem.1 known⟩

/-! ## Line feeds -/

theorem oneLine_foldName {name : String} : OneLine (d.foldName name) ↔ OneLine name := by
  unfold Dialect.foldName Dialect.fold
  split_ifs with exact
  · rfl
  · exact oneLine_lower

theorem oneLine_of_mem_identifiers {t : Table} (columns : ∀ c ∈ t.columns, OneLine c.name) {n : String}
    (known : d.foldName n ∈ t.columnNames.map d.foldName) : OneLine n := by
  obtain ⟨m, hm, same⟩ := List.mem_map.1 known
  obtain ⟨c, hc, rfl⟩ := List.mem_map.1 hm
  rw [← oneLine_foldName (d := d), ← same]
  exact oneLine_foldName.2 (columns c hc)

namespace Table.Covered

variable {t : Table} (h : t.Covered d) (columns : ∀ c ∈ t.columns, OneLine c.name)

include h columns

/-- a foreign key names its columns on one line if the columns of its table have such names -/
theorem oneLine_foreignKey {k : ForeignKey} (hk : k ∈ t.foreignKeys) : ∀ n ∈ k.columns, OneLine n := by
  intro n hn
  obtain ⟨c, hc, isKey⟩ := List.mem_filterMap.1 hk
  refine oneLine_of_mem_identifiers columns (h.constraints c hc n ?_)
  cases c with
  | foreignKey k' => rwa [Constraint.ownColumns, Option.some.inj isKey]
  | _ => contradiction

/-- so does whatever a foreign key may refer to -/
theorem oneLine_uniqueSet {names : List String} (known : names ∈ t.uniqueSets) : ∀ n ∈ names, OneLine n := by
  intro n hn
  refine oneLine_of_mem_identifiers (d := d) columns ?_
  rcases (mem_uniqueSets_iff (List.ne_nil_of_mem hn)).1 known with key | unique | ⟨i, hi, full, rfl⟩
  · exact h.primaryKey key n hn
  · obtain ⟨c, hc, e⟩ := List.mem_filterMap.1 unique
    refine h.constraints c hc n ?_
    cases c with
    | unique => rwa [Constraint.ownColumns, Option.some.inj e]
    | _ => contradiction
  · refine h.indexes i hi ?_ n hn
    simp only [Index.isFullUnique, Bool.and_eq_true, Bool.not_eq_true'] at full
    exact full.1.2

end Table.Covered

end SchemaApi
