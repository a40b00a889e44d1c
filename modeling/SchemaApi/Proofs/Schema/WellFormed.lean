import SchemaApi.Proofs.Fallible
import SchemaApi.Schema.Build
import Mathlib.Data.List.Nodup
/-!
Well-formed tables.

A table is stored under the key of its own name, no two of its columns are the same identifier, it
has at most one primary key, whatever a constraint or an index says of its columns it says by their
exact names, and primary key columns hold a value in every row (`Table.WellFormed`). In a schema the
keys differ as well (`WellFormedTables`).

The lemmas here say when a table stays well-formed if its columns, constraints or indexes change;
which change of a schema does what is said elsewhere.
-/

namespace SchemaApi

/-! ## Names -/

theorem Dialect.sameName_iff {d : Dialect} {a b : String} :
    d.sameName a b = true ↔ d.foldName a = d.foldName b := by
  simp [Dialect.sameName]

theorem Dialect.sameName_refl (d : Dialect) (a : String) : d.sameName a a = true :=
  sameName_iff.2 rfl

/-- where case counts, only equal names are the same -/
theorem Dialect.sameName_iff_eq {d : Dialect} (exact : d.caseSensitive = true) {a b : String} :
    d.sameName a b = true ↔ a = b := by
  simp [Dialect.sameName, Dialect.foldName, Dialect.fold, exact]

/-! ## Definitions -/

/-- the columns of its own table that a constraint names -/
def Constraint.ownColumns : Constraint → List String
  | primaryKey _ columns => columns
  | unique _ columns => columns
  | foreignKey k => k.columns
  | check _ _ column => column.toList

/-- at most what a foreign key refers to is different -/
inductive Constraint.Retargeted : Constraint → Constraint → Prop where
  | same (c : Constraint) : Retargeted c c
  | foreignKey {k k' : ForeignKey} (own : k'.columns = k.columns) : Retargeted (.foreignKey k) (.foreignKey k')

structure Table.WellFormed (d : Dialect) (t : Table) : Prop where
  /-- the table is stored under the key of its schema and name -/
  keyed : t.key = d.tableKey t.schema t.name
  /-- no two columns are the same identifier -/
  distinct : (t.columnNames.map d.foldName).Nodup
  onePrimaryKey : t.constraints.countP Constraint.isPrimaryKey ≤ 1
  /-- constraints name columns of the table, in the columns' own spelling -/
  named : ∀ c ∈ t.constraints, ∀ n ∈ c.ownColumns, n ∈ t.columnNames
  /-- a foreign key has columns -/
  filled : ∀ k ∈ t.foreignKeys, k.columns ≠ []
  /-- so do the indexes over columns -/
  indexed : ∀ i ∈ t.indexes, i.isExpression = false → ∀ n ∈ i.columns, n ∈ t.columnNames
  /-- a column of the primary key is never NULL -/
  required : ∀ n cols, .primaryKey n cols ∈ t.constraints →
    ∀ c ∈ t.columns, c.name ∈ cols → c.nullable = false

structure WellFormedTables (d : Dialect) (tables : List Table) : Prop where
  each : ∀ t ∈ tables, t.WellFormed d
  keys : (tables.map (·.key)).Nodup

def Workspace.WellFormed (d : Dialect) (w : Workspace) : Prop :=
  WellFormedTables d (w.tables.map Draft.toTable)

/-- names and schemas differ because keys do -/
theorem refs_nodup {d : Dialect} {tables : List Table} (keyed : ∀ t ∈ tables, t.key = d.tableKey t.schema t.name)
    (distinct : (tables.map (·.key)).Nodup) : (tables.map (·.ref)).Nodup := by
  have keyOf : tables.map (·.key) = (tables.map (·.ref)).map fun r => d.tableKey r.schema r.name := by
    rw [List.map_map]
    exact List.map_congr_left keyed
  rw [keyOf] at distinct
  exact distinct.of_map

theorem WellFormedTables.refs {d : Dialect} {tables : List Table} (h : WellFormedTables d tables) :
    (tables.map (·.ref)).Nodup :=
  refs_nodup (fun t ht => (h.each t ht).keyed) h.keys

theorem Table.WellFormed.eq_of_fold {d : Dialect} {t : Table} (h : t.WellFormed d) {a b : String}
    (ha : a ∈ t.columnNames) (hb : b ∈ t.columnNames) (e : d.foldName a = d.foldName b) : a = b :=
  List.inj_on_of_nodup_map h.distinct ha hb e

/-- where there is one primary key at most, each one that stands among the constraints is found -/
theorem findSome?_primaryColumns {cs : List Constraint} (one : cs.countP Constraint.isPrimaryKey ≤ 1)
    {n : Option String} {cols : List String} (hm : .primaryKey n cols ∈ cs) :
    cs.findSome? (·.primaryColumns?) = some cols := by
  induction cs with
  | nil => simp at hm
  | cons c cs ih =>
    rw [List.countP_cons] at one
    rcases List.mem_cons.1 hm with rfl | later
    · rfl
    · cases c with
      | primaryKey n' cols' =>
        have none : cs.countP Constraint.isPrimaryKey = 0 := by
          simp only [Constraint.isPrimaryKey, if_true] at one; omega
        exact absurd (rfl : (Constraint.primaryKey n cols).isPrimaryKey = true)
          (List.countP_eq_zero.1 none _ later)
      | _ => exact ih (by simpa [Constraint.isPrimaryKey] using one) later

theorem Table.WellFormed.primaryKey?_eq {d : Dialect} {t : Table} (h : t.WellFormed d) {n : Option String}
    {cols : List String} (hm : .primaryKey n cols ∈ t.constraints) : t.primaryKey? = some cols :=
  findSome?_primaryColumns h.onePrimaryKey hm

theorem Constraint.Retargeted.ownColumns {c c' : Constraint} (h : Retargeted c c') :
    c'.ownColumns = c.ownColumns := by
  cases h with
  | same => rfl
  | foreignKey own => exact own

theorem Constraint.Retargeted.isPrimaryKey {c c' : Constraint} (h : Retargeted c c') :
    c'.isPrimaryKey = c.isPrimaryKey := by
  cases h <;> rfl

theorem countP_isPrimaryKey {cs cs' : List Constraint} (alike : List.Forall₂ Constraint.Retargeted cs cs') :
    cs.countP Constraint.isPrimaryKey = cs'.countP Constraint.isPrimaryKey := by
  induction alike with
  | nil => rfl
  | cons like _ ih => rw [List.countP_cons, List.countP_cons, ih, like.isPrimaryKey]

/-! ## What may change -/

namespace Table.WellFormed

variable {d : Dialect} {t : Table}

/-- constraints and indexes may go -/
theorem restrict (h : t.WellFormed d) {cs : List Constraint} {is : List Index}
    (hc : cs.Sublist t.constraints) (hi : is.Sublist t.indexes) :
    Table.WellFormed d { t with constraints := cs, indexes := is } where
  keyed := h.keyed
  distinct := h.distinct
  onePrimaryKey := Nat.le_trans hc.countP_le h.onePrimaryKey
  named c hm := h.named c (hc.subset hm)
  filled k hk := h.filled k ((hc.filterMap _).subset hk)
  indexed i hm := h.indexed i (hi.subset hm)
  required n cols hm := h.required n cols (hc.subset hm)

/-- a constraint may come if it names columns of the table, and a primary key only if there is none
yet and its columns are NOT NULL -/
theorem addConstraint (h : t.WellFormed d) {c : Constraint}
    (named : ∀ n ∈ c.ownColumns, n ∈ t.columnNames) (filled : ∀ k, c = .foreignKey k → k.columns ≠ [])
    (first : c.isPrimaryKey = true → t.primaryKey? = none)
    (required : ∀ n cols, c = .primaryKey n cols → ∀ x ∈ t.columns, x.name ∈ cols → x.nullable = false) :
    Table.WellFormed d { t with constraints := t.constraints ++ [c] } where
  keyed := h.keyed
  distinct := h.distinct
  onePrimaryKey := by
    simp only [List.countP_append, List.countP_singleton]
    cases hc : c.isPrimaryKey with
    | false => simpa using h.onePrimaryKey
    | true =>
      have none := first hc
      have zero : t.constraints.countP Constraint.isPrimaryKey = 0 := by
        rw [List.countP_eq_zero]
        intro c' hc' hp
        simp only [primaryKey?, List.findSome?_eq_none_iff] at none
        have := none c' hc'
        cases c' <;> simp_all [Constraint.isPrimaryKey, Constraint.primaryColumns?]
      simp [zero]
  named c' hm := by
    rcases List.mem_append.1 hm with hm | hm
    · exact h.named c' hm
    · rw [List.mem_singleton.1 hm]; exact named
  filled k hk := by
    simp only [foreignKeys, List.filterMap_append, List.mem_append] at hk
    rcases hk with hk | hk
    · exact h.filled k hk
    · refine filled k ?_
      cases c <;> simp_all [Constraint.foreignKey?]
  indexed := h.indexed
  required n cols hm := by
    rcases List.mem_append.1 hm with hm | hm
    · exact h.required n cols hm
    · exact required n cols (List.mem_singleton.1 hm).symm

theorem addIndex (h : t.WellFormed d) {i : Index}
    (named : i.isExpression = false → ∀ n ∈ i.columns, n ∈ t.columnNames) :
    Table.WellFormed d { t with indexes := t.indexes ++ [i] } where
  keyed := h.keyed
  distinct := h.distinct
  onePrimaryKey := h.onePrimaryKey
  named := h.named
  filled := h.filled
  indexed i' hm := by
    rcases List.mem_append.1 hm with hm | hm
    · exact h.indexed i' hm
    · rw [List.mem_singleton.1 hm]; exact named
  required := h.required

/-- a column may come if none is the same identifier -/
theorem addColumn (h : t.WellFormed d) {c : Column}
    (new : ∀ x ∈ t.columns, d.foldName x.name ≠ d.foldName c.name) :
    Table.WellFormed d { t with columns := t.columns ++ [c] } where
  keyed := h.keyed
  distinct := by
    have old := h.distinct
    simp only [columnNames, List.map_append, List.map_cons, List.map_nil, List.map_map] at old ⊢
    rw [List.nodup_append]
    refine ⟨old, List.nodup_singleton _, ?_⟩
    intro a ha b hb
    obtain ⟨x, hx, rfl⟩ := List.mem_map.1 ha
    rw [List.mem_singleton.1 hb]
    exact new x hx
  onePrimaryKey := h.onePrimaryKey
  named c' hm n hn := by
    simp only [columnNames, List.map_append, List.mem_append]
    exact Or.inl (h.named c' hm n hn)
  filled := h.filled
  indexed i hm he n hn := by
    simp only [columnNames, List.map_append, List.mem_append]
    exact Or.inl (h.indexed i hm he n hn)
  required n cols hm x hx hn := by
    rcases List.mem_append.1 hx with hx | hx
    · exact h.required n cols hm x hx hn
    · -- the key names old columns only
      rw [List.mem_singleton.1 hx] at hn
      obtain ⟨y, hy, e⟩ := List.mem_map.1 (h.named _ hm _ hn)
      exact absurd (congrArg d.foldName e) (new y hy)

/-- columns may change, but neither their names nor that key columns are NOT NULL -/
theorem mapColumns (h : t.WellFormed d) {f : Column → Column} (names : ∀ c ∈ t.columns, (f c).name = c.name)
    (required : ∀ c ∈ t.columns, ∀ n cols, .primaryKey n cols ∈ t.constraints → c.name ∈ cols →
      c.nullable = false → (f c).nullable = false) :
    Table.WellFormed d { t with columns := t.columns.map f } := by
  have same : Table.columnNames { t with columns := t.columns.map f } = t.columnNames := by
    simp only [columnNames, List.map_map]
    exact List.map_congr_left names
  constructor
  · exact h.keyed
  · rw [same]; exact h.distinct
  · exact h.onePrimaryKey
  · rw [same]; exact h.named
  · exact h.filled
  · rw [same]; exact h.indexed
  · intro n cols hm x hx hn
    obtain ⟨c, hc, rfl⟩ := List.mem_map.1 hx
    rw [names c hc] at hn
    exact required c hc n cols hm hn (h.required n cols hm c hc hn)

/-- foreign keys may refer elsewhere -/
theorem retarget (h : t.WellFormed d) {cs : List Constraint}
    (alike : List.Forall₂ Constraint.Retargeted t.constraints cs) :
    Table.WellFormed d { t with constraints := cs } where
  keyed := h.keyed
  distinct := h.distinct
  onePrimaryKey := by
    rw [← countP_isPrimaryKey alike]; exact h.onePrimaryKey
  named c hc := by
    obtain ⟨c', hc', like⟩ := exists_of_mem_forall₂ alike hc
    rw [like.ownColumns]; exact h.named c' hc'
  filled k hk := by
    obtain ⟨c, hc, e⟩ := List.mem_filterMap.1 hk
    obtain ⟨c', hc', like⟩ := exists_of_mem_forall₂ alike hc
    cases like with
    | same => exact h.filled k (List.mem_filterMap.2 ⟨_, hc', e⟩)
    | @foreignKey k₀ k' own =>
      obtain rfl : k' = k := Option.some.inj e
      rw [own]; exact h.filled k₀ (List.mem_filterMap.2 ⟨_, hc', rfl⟩)
  indexed := h.indexed
  required n cols hm := by
    obtain ⟨c', hc', like⟩ := exists_of_mem_forall₂ alike hm
    cases like
    exact h.required n cols hc'

end Table.WellFormed

end SchemaApi
