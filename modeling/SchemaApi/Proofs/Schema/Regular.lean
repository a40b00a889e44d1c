import SchemaApi.Proofs.Schema.Passes
/-!
What holds of the tables of all statements.

Where case does not count, a replaced column may come back in another spelling than its constraints have, and a
table that is declared in a schema of an empty name is not stored under the key of its name. But whatever the
statements are, no two tables have the same key, no two columns of a table are the same identifier, a table has at
most one primary key, and one of the statements declared it (`Workspace.Regular`).
-/

namespace SchemaApi

variable {d : Dialect} {limit : Nat}

/-- what the columns of a table are compared by -/
def Draft.identifiers (d : Dialect) (t : Draft) : List String := t.columns.map fun c => d.foldName c.name

/-- how many primary keys a table has -/
def Draft.primaryKeys (t : Draft) : Nat := t.toTable.constraints.countP Constraint.isPrimaryKey

structure Draft.Regular (d : Dialect) (limit : Nat) (t : Draft) : Prop where
  /-- no two columns are the same identifier -/
  columns : (t.identifiers d).Nodup
  onePrimaryKey : t.primaryKeys ≤ 1
  /-- a statement before the limit declared the table -/
  declared : t.declaredBy < limit

/-! ## Tables -/

namespace Draft

variable {t t' : Draft}

/-- a name means the column that is the same identifier -/
theorem Regular.column?_eq (h : t.Regular d limit) {c : Column} (hc : c ∈ t.columns) {name : String}
    (same : d.sameName c.name name = true) : t.column? d name = some c := by
  cases found : t.column? d name with
  | none => exact absurd (Dialect.sameName_iff.1 same) (column?_eq_none found c hc)
  | some c' =>
    obtain ⟨hc', same'⟩ := column?_eq_some found
    rw [List.inj_on_of_nodup_map h.columns hc' hc (same'.trans (Dialect.sameName_iff.1 same).symm)]

/-- a column may come if its name means none that is there -/
theorem Regular.addColumn (h : t.Regular d limit) {c : Column} (new : t.column? d c.name = none) :
    Regular d limit { t with columns := t.columns ++ [c] } where
  columns := by
    rw [identifiers, List.map_append, List.nodup_append]
    refine ⟨h.columns, List.nodup_singleton _, fun a ha b hb => ?_⟩
    obtain ⟨x, hx, rfl⟩ := List.mem_map.1 ha
    rw [List.mem_singleton.1 hb]
    exact column?_eq_none new x hx
  onePrimaryKey := h.onePrimaryKey
  declared := h.declared

/-- columns and primary keys may go -/
theorem Regular.restrict (h : t.Regular d limit) (columns : (t'.identifiers d).Sublist (t.identifiers d))
    (keys : t'.primaryKeys ≤ t.primaryKeys) (same : t'.declaredBy = t.declaredBy) : t'.Regular d limit :=
  ⟨columns.nodup h.columns, Nat.le_trans keys h.onePrimaryKey, same ▸ h.declared⟩

theorem primaryKeys_le_of_sublist {cs : List Placed} (hc : cs.Sublist t.constraints) :
    primaryKeys { t with constraints := cs } ≤ t.primaryKeys :=
  (hc.map _).countP_le

theorem primaryKeys_eq_zero (none : t.primaryKey? = none) : t.primaryKeys = 0 := by
  rw [primaryKeys, List.countP_eq_zero]
  intro c hc key
  have plain := List.findSome?_eq_none_iff.1 none c hc
  cases c with
  | primaryKey => simp [Constraint.primaryColumns?] at plain
  | _ => simp [Constraint.isPrimaryKey] at key

theorem primaryKeys_addPlaced (c : Constraint) (position : Position) (source : Option String) :
    (t.addPlaced c position source).primaryKeys = t.primaryKeys + if c.isPrimaryKey then 1 else 0 := by
  rw [primaryKeys, toTable_addPlaced, List.countP_append, List.countP_singleton, primaryKeys]

theorem identifiers_updateColumn {name : String} {f : Column → Column}
    (same : ∀ c, d.sameName c.name name = true → d.foldName (f c).name = d.foldName c.name) :
    (t.updateColumn d name f).identifiers d = t.identifiers d := by
  unfold identifiers updateColumn
  induction t.columns with
  | nil => rfl
  | cons c rest ih =>
    rw [updateColumn.go]
    split_ifs with here
    · rw [List.map_cons, List.map_cons, same c here]
    · rw [List.map_cons, List.map_cons, ih]

theorem identifiers_requireValues (names : List String) :
    (t.requireValues d names).identifiers d = t.identifiers d := by
  unfold requireValues
  induction names generalizing t with
  | nil => rfl
  | cons n names ih => exact ih.trans (identifiers_updateColumn fun _ _ => rfl)

/-- only columns become NOT NULL -/
theorem requireValues_eq (names : List String) :
    t.requireValues d names = { t with columns := (t.requireValues d names).columns } := by
  unfold requireValues
  induction names generalizing t with
  | nil => rfl
  | cons n names ih => exact ih

theorem primaryKeys_requireValues (names : List String) : (t.requireValues d names).primaryKeys = t.primaryKeys := by
  rw [primaryKeys, toTable, requireValues_constraints, primaryKeys, toTable]

theorem addIndex_eq_ok {elements : List IndexElement} {name : Option String} {unique : Bool}
    {method condition : Option String} (added : t.addIndex d elements name unique method condition = .ok t') :
    ∃ index, t' = { t with indexes := t.indexes ++ [index] } := by
  simp only [addIndex, bind_eq_ok_iff, pure_eq_ok_iff] at added
  obtain ⟨cols, -, _, -, rfl⟩ := added
  exact ⟨_, rfl⟩

/-- what a table gets is its only primary key, whose columns become NOT NULL, another constraint, or an index -/
theorem addConstraint_eq_ok {source : Option String} {clause : ConstraintClause}
    (added : t.addConstraint d source clause = .ok t') :
    (t.primaryKey? = none ∧ ∃ name columns position,
      t' = (t.requireValues d columns).addPlaced (.primaryKey name columns) position source) ∨
    (∃ c position, c.isPrimaryKey = false ∧ t' = t.addPlaced c position source) ∨
    ∃ index, t' = { t with indexes := t.indexes ++ [index] } := by
  cases clause with
  | primaryKey columns name position =>
    simp only [addConstraint, bind_eq_ok_iff] at added
    obtain ⟨cols, -, added⟩ := added
    split_ifs at added with present
    · exact absurd added (by simp [problem_eq_ok_iff])
    · simp only [bind_eq_ok_iff, pure_eq_ok_iff] at added
      obtain ⟨_, -, rfl⟩ := added
      exact Or.inl ⟨by simpa using present, name, cols, position, rfl⟩
  | unique columns name position =>
    simp only [addConstraint, bind_eq_ok_iff, pure_eq_ok_iff] at added
    obtain ⟨cols, -, _, -, rfl⟩ := added
    exact Or.inr (Or.inl ⟨_, position, rfl, rfl⟩)
  | foreignKey columns reference name position =>
    simp only [addConstraint, bind_eq_ok_iff] at added
    obtain ⟨cols, -, added⟩ := added
    split_ifs at added with unnamed
    · simp [bind_eq_ok_iff, throw_eq_ok_iff] at added
    · simp only [bind_eq_ok_iff, pure_eq_ok_iff] at added
      obtain ⟨_, -, rfl⟩ := added
      exact Or.inr (Or.inl ⟨_, position, rfl, rfl⟩)
  | check expression name column position =>
    simp only [addConstraint, bind_eq_ok_iff] at added
    obtain ⟨own, -, added⟩ := added
    split_ifs at added with empty
    · simp [fmap_eq_ok_iff, throw_eq_ok_iff] at added
    · exact Or.inr (Or.inl ⟨_, position, rfl, (pure_eq_ok_iff.1 added).symm⟩)
  | index elements name unique kind position => exact Or.inr (Or.inr (addIndex_eq_ok added))

theorem addIndex_regular (h : t.Regular d limit) {elements : List IndexElement} {name : Option String}
    {unique : Bool} {method condition : Option String}
    (added : t.addIndex d elements name unique method condition = .ok t') : t'.Regular d limit ∧ t'.key = t.key := by
  obtain ⟨index, rfl⟩ := addIndex_eq_ok added
  exact ⟨⟨h.columns, h.onePrimaryKey, h.declared⟩, rfl⟩

/-- a constraint or an index leaves the columns, and a primary key comes only if there is none yet -/
theorem addConstraint_regular (h : t.Regular d limit) {source : Option String} {clause : ConstraintClause}
    (added : t.addConstraint d source clause = .ok t') : t'.Regular d limit ∧ t'.key = t.key := by
  rcases addConstraint_eq_ok added with ⟨absent, name, columns, position, rfl⟩ | ⟨c, position, other, rfl⟩ | ⟨index, rfl⟩
  · refine ⟨⟨?_, ?_, ?_⟩, requireValues_key columns⟩
    · have same := identifiers_requireValues (d := d) (t := t) columns
      exact (same ▸ h.columns : ((t.requireValues d columns).identifiers d).Nodup)
    · rw [primaryKeys_addPlaced, primaryKeys_requireValues, primaryKeys_eq_zero absent]
      exact Nat.le_refl _
    · rw [requireValues_eq]
      exact h.declared
  · refine ⟨h.restrict (List.Sublist.refl _) ?_ rfl, rfl⟩
    rw [primaryKeys_addPlaced, other]
    exact Nat.le_refl _
  · exact ⟨⟨h.columns, h.onePrimaryKey, h.declared⟩, rfl⟩

theorem eraseColumn_regular (h : t.Regular d limit) (column : Column) : (t.eraseColumn d column).Regular d limit :=
  h.restrict (List.eraseP_sublist.map _)
    (primaryKeys_le_of_sublist (t := t) List.filter_sublist) rfl

theorem Loses.regular (loses : t.Loses t') (h : t.Regular d limit) : t'.Regular d limit ∧ t'.key = t.key := by
  obtain ⟨cs, is, constraints, -, rfl⟩ := loses
  exact ⟨h.restrict (List.Sublist.refl _) (primaryKeys_le_of_sublist constraints) rfl, rfl⟩

theorem mapForeignKeys_regular (h : t.Regular d limit) (f : ForeignKey → ForeignKey) :
    (t.mapForeignKeys f).Regular d limit := by
  refine h.restrict (List.Sublist.refl _) (Nat.le_of_eq ?_) rfl
  simp only [primaryKeys, toTable, mapForeignKeys, List.map_map, List.countP_map]
  refine List.countP_congr fun e _ => ?_
  simp only [Function.comp_apply]
  cases isKey : e.constraint with
  | foreignKey k => exact Iff.rfl
  | _ => simp only [isKey]

/-- a column may get a name that is no other column's -/
theorem renameColumn_regular (h : t.Regular d limit) {old new : String}
    (free : ∀ c ∈ t.columns, d.foldName c.name = d.foldName new → d.foldName c.name = d.foldName old) :
    (t.renameColumn d old new).Regular d limit where
  columns := by
    have columns : (t.renameColumn d old new).columns =
        t.columns.map fun c => if d.sameName c.name old then { c with name := new } else c :=
      updateColumn_go_eq_map h.columns
    rw [identifiers, columns, List.map_map]
    refine h.columns.of_map.map_on fun x hx y hy e => List.inj_on_of_nodup_map h.columns hx hy ?_
    simp only [Function.comp_apply] at e
    split_ifs at e with hxo hyo hyo
    · exact (Dialect.sameName_iff.1 hxo).trans (Dialect.sameName_iff.1 hyo).symm
    · exact (Dialect.sameName_iff.1 hxo).trans (free y hy e.symm).symm
    · exact (free x hx e).trans (Dialect.sameName_iff.1 hyo).symm
    · exact e
  onePrimaryKey := by
    have same : Constraint.isPrimaryKey ∘ renameInConstraint d old new = Constraint.isPrimaryKey := by
      funext c
      cases c <;> rfl
    rw [primaryKeys, constraints_renameColumn, List.countP_map, same]
    exact h.onePrimaryKey
  declared := h.declared

end Draft

/-! ## Schemas -/

structure Workspace.Regular (d : Dialect) (limit : Nat) (w : Workspace) : Prop where
  each : ∀ t ∈ w.tables, t.Regular d limit
  keys : (w.tables.map (·.key)).Nodup

namespace Workspace

variable {w w' : Workspace}

/-- the change leads from regular tables to regular tables -/
def KeepsRegular (d : Dialect) (limit : Nat) (change : Change) : Prop :=
  ∀ w w', w.Regular d limit → change w = .ok w' → w'.Regular d limit

theorem Regular.of_tables (h : w.Regular d limit) (same : w'.tables = w.tables) : w'.Regular d limit :=
  ⟨same ▸ h.each, same ▸ h.keys⟩

theorem Regular.eq_of_key (h : w.Regular d limit) {x y : Draft} (hx : x ∈ w.tables) (hy : y ∈ w.tables)
    (same : x.key = y.key) : x = y :=
  List.inj_on_of_nodup_map h.keys hx hy same

/-- the table of a key is the one that has it -/
theorem Regular.table?_key (h : w.Regular d limit) {t : Draft} (ht : t ∈ w.tables) : w.table? t.key = some t := by
  cases found : w.table? t.key with
  | none => exact absurd rfl (table?_eq_none found t ht)
  | some t' =>
    obtain ⟨ht', same⟩ := table?_eq_some found
    rw [h.eq_of_key ht' ht same]

/-- all tables may change, but not their keys -/
theorem Regular.mapTables (h : w.Regular d limit) {f : Draft → Draft}
    (kept : ∀ t ∈ w.tables, t.Regular d limit → (f t).Regular d limit ∧ (f t).key = t.key) :
    Regular d limit { w with tables := w.tables.map f } where
  each t ht := by
    obtain ⟨x, hx, rfl⟩ := List.mem_map.1 ht
    exact (kept x hx (h.each x hx)).1
  keys := by
    have same : (w.tables.map f).map (·.key) = w.tables.map (·.key) := by
      rw [List.map_map]
      exact List.map_congr_left fun t ht => (kept t ht (h.each t ht)).2
    rw [same]; exact h.keys

/-- the table of a key may change, but not its key -/
theorem Regular.updateTable (h : w.Regular d limit) {key : String} {t : Draft} {f : Draft → Draft}
    (found : w.table? key = some t) (kept : (f t).Regular d limit ∧ (f t).key = t.key) :
    (w.updateTable key f).Regular d limit := by
  obtain ⟨ht, hkey⟩ := table?_eq_some found
  refine h.mapTables fun x hx sound => ?_
  split_ifs with here
  · rw [h.eq_of_key hx ht ((by simpa using here : x.key = key).trans hkey.symm)]
    exact kept
  · exact ⟨sound, rfl⟩

theorem Regular.dropTable (h : w.Regular d limit) (key : String) : (w.dropTable key).Regular d limit :=
  ⟨fun t ht => h.each t (List.mem_of_mem_filter ht), h.keys.sublist (List.filter_sublist.map _)⟩

theorem attempt_regular {position : Position} {source : Option String} {change : Change}
    (keeps : KeepsRegular d limit change) (h : w.Regular d limit) (run : w.attempt position source change = .ok w') :
    w'.Regular d limit := by
  unfold attempt at run
  split at run
  · rename_i w'' changed
    rw [← Except.ok.inj run]; exact keeps w w'' h changed
  · rw [← Except.ok.inj run]; exact h.of_tables rfl
  · simp at run

theorem onTable_keepsRegular {key : String} {change : Draft → Except Failure Draft}
    (kept : ∀ t t', t.Regular d limit → change t = .ok t' → t'.Regular d limit ∧ t'.key = t.key) :
    KeepsRegular d limit fun w => w.onTable key change := by
  intro w w' h run
  simp only [onTable] at run
  split at run
  · rw [← Except.ok.inj run]; exact h
  · rename_i t found
    obtain ⟨t', changed, rfl⟩ := map_eq_ok_iff.1 run
    exact h.updateTable found (kept t t' (h.each t (table?_eq_some found).1) changed)

theorem addConstraints_regular {key : String} {source : Option String} {clauses : List ConstraintClause}
    (h : w.Regular d limit) (run : w.addConstraints d key source clauses = .ok w') : w'.Regular d limit := by
  refine foldlM_keeps (P := Regular d limit) ?_ h run
  intro clause _ w w' h run
  exact attempt_regular (onTable_keepsRegular fun _ _ sound added => Draft.addConstraint_regular sound added) h run

/-! ### Actions of ALTER TABLE -/

theorem addColumn_keepsRegular (key : String) (source : Option String) (clause : ColumnClause) :
    KeepsRegular d limit (addColumn d key source clause) := by
  intro w w' h run
  unfold addColumn at run
  split at run
  · rw [← Except.ok.inj run]; exact h
  · rename_i t found
    split_ifs at run with present
    · exact absurd run (by simp [Draft.problem_eq_ok_iff])
    · simp only [bind_eq_ok_iff, settle_eq_ok_iff] at run
      obtain ⟨label, -, reading, -, run⟩ := run
      refine addConstraints_regular ?_ run
      have new : t.column? d clause.name = none := by simpa using present
      have sound := h.each t (table?_eq_some found).1
      exact (h.of_tables (tables_reportType ..)).updateTable ((table?_reportType ..).trans found)
        ⟨@Draft.Regular.addColumn _ _ t sound (clause.toColumn reading) new, rfl⟩

theorem dropColumn_keepsRegular (site : Site) (key name : String) (ifExists cascade : Bool) :
    KeepsRegular d limit (dropColumn d site key name ifExists cascade) := by
  intro w w' h run
  unfold dropColumn at run
  split at run
  · rw [← Except.ok.inj run]; exact h
  · rename_i t found
    split at run
    · split_ifs at run
      · simp only [bind_eq_ok_iff, pure_eq_ok_iff] at run
        obtain ⟨_, _, rfl⟩ := run
        exact h.of_tables rfl
      · exact absurd run (by simp [Draft.problem_eq_ok_iff])
    · rename_i column _
      have erased : (w.updateTable key fun t => t.eraseColumn d column).Regular d limit :=
        h.mapTables fun t _ sound => by
          split_ifs
          · exact ⟨Draft.eraseColumn_regular sound column, rfl⟩
          · exact ⟨sound, rfl⟩
      split_ifs at run
      · rw [← Except.ok.inj run]
        exact erased.mapTables fun _ _ sound => (Draft.loses_dropForeignKeysTo key _).regular sound
      · rw [← Except.ok.inj run]; exact erased

theorem dropConstraint_keepsRegular (site : Site) (key : String) (target : ConstraintTarget) (ifExists : Bool) :
    KeepsRegular d limit (dropConstraint d site key target ifExists) := by
  intro w w' h run
  obtain rfl | ⟨t, t', found, loses, rfl⟩ | ⟨_, _, rfl⟩ := dropConstraint_eq_ok run
  · exact h
  · exact h.updateTable found (loses.regular (h.each t (table?_eq_some found).1))
  · exact h.of_tables rfl

/-- a column may be altered but for its name -/
theorem Regular.updateColumn (h : w.Regular d limit) (key : String) {name : String} {f : Draft → Column → Column}
    (same : ∀ t c, d.sameName c.name name = true → d.foldName (f t c).name = d.foldName c.name) :
    (w.updateTable key fun t => t.updateColumn d name (f t)).Regular d limit := by
  refine h.mapTables fun t _ sound => ?_
  split_ifs
  · refine ⟨⟨?_, sound.onePrimaryKey, sound.declared⟩, rfl⟩
    rw [Draft.identifiers_updateColumn (same t)]
    exact sound.columns
  · exact ⟨sound, rfl⟩

theorem alterColumn_keepsRegular (site : Site) (key name : String) (setNotNull : Option Bool)
    (default : Option String) (dropDefault : Bool) (newType : Option TypeName) :
    KeepsRegular d limit (alterColumn d site key name setNotNull default dropDefault newType) := by
  intro w w' h run
  unfold alterColumn at run
  split at run
  · rw [← Except.ok.inj run]; exact h
  · rename_i t _
    simp only [bind_eq_ok_iff] at run
    obtain ⟨column, -, run⟩ := run
    by_cases nulls : setNotNull = some false ∧ (t.primaryKey?.getD []).contains column.name
    · rw [if_pos nulls] at run
      exact absurd run (by simp [Draft.problem_eq_ok_iff])
    · rw [if_neg nulls] at run
      have changed : (w.updateTable key fun t => t.updateColumn d name fun c => { c with
          nullable := (setNotNull.map (!·)).getD c.nullable
          default := if dropDefault then none else default.or c.default }).Regular d limit :=
        h.updateColumn key fun _ _ _ => rfl
      split at run
      · rw [← pure_eq_ok_iff.1 run]; exact changed
      · simp only [bind_eq_ok_iff, settle_eq_ok_iff, pure_eq_ok_iff] at run
        obtain ⟨label, -, reading, -, rfl⟩ := run
        exact Regular.updateColumn (changed.of_tables (tables_reportType ..)) key fun _ _ _ => rfl

theorem renameColumn_keepsRegular (key old new : String) : KeepsRegular d limit (renameColumn d key old new) := by
  intro w w' h run
  unfold renameColumn at run
  split at run
  · rw [← Except.ok.inj run]; exact h
  · rename_i t found
    simp only [bind_eq_ok_iff] at run
    obtain ⟨column, named, run⟩ := run
    have same := (Draft.column?_eq_some (Draft.requireColumn_eq_ok_iff.1 named)).2
    split_ifs at run with taken
    · exact absurd run (by simp [Draft.problem_eq_ok_iff])
    · rw [← pure_eq_ok_iff.1 run]
      refine Regular.mapTables (h.updateTable found ⟨?_, rfl⟩) fun _ _ sound =>
        ⟨Draft.mapForeignKeys_regular sound _, rfl⟩
      refine Draft.renameColumn_regular (h.each t (table?_eq_some found).1) fun c hc e => ?_
      cases absent : t.column? d new with
      | none => exact absurd e (Draft.column?_eq_none absent c hc)
      | some _ =>
        have own : d.sameName old new = true := by simpa [absent] using taken
        rw [e, same, Dialect.sameName_iff.1 own]

/-- the table of a key may get another name, with a key that no other table has -/
theorem Regular.rename (h : w.Regular d limit) {key newKey : String} (name : String) (schema : Option String)
    (free : ∀ x ∈ w.tables, x.key = newKey → x.key = key) :
    (w.updateTable key fun t => { t with name := name, schema := schema, key := newKey }).Regular d limit where
  each t ht := by
    obtain ⟨x, hx, rfl⟩ := List.mem_map.1 ht
    split_ifs
    · exact ⟨(h.each x hx).columns, (h.each x hx).onePrimaryKey, (h.each x hx).declared⟩
    · exact h.each x hx
  keys := by
    have keys : (w.tables.map fun x => if x.key == key then newKey else x.key).Nodup := by
      refine h.keys.of_map.map_on fun x hx y hy e => h.eq_of_key hx hy ?_
      split_ifs at e with hxk hyk hyk
      · exact (beq_iff_eq.1 hxk).trans (beq_iff_eq.1 hyk).symm
      · exact absurd (free y hy e.symm) (by simpa using hyk)
      · exact absurd (free x hx e) (by simpa using hxk)
      · exact e
    simp only [Workspace.updateTable, List.map_map]
    convert keys using 3 with x
    simp only [Function.comp_apply]
    split_ifs <;> rfl

theorem renameTable_regular (h : w.Regular d limit) {key key' : String} {newName : QualifiedName}
    (run : renameTable d key newName w = .ok (w', key')) : w'.Regular d limit := by
  unfold renameTable at run
  split at run
  · rw [← (Prod.mk.inj (Except.ok.inj run)).1]; exact h
  · simp only at run
    split_ifs at run with taken unnamed
    · exact absurd run (by simp [Draft.problem_eq_ok_iff])
    · rw [← (Prod.mk.inj (Except.ok.inj run)).1]
      refine Regular.mapTables (h.rename newName.name _ fun x hx e => ?_)
        fun _ _ sound => ⟨Draft.mapForeignKeys_regular sound _, rfl⟩
      rw [not_and, not_not] at taken
      refine e.trans (taken ?_)
      rw [table?, List.find?_isSome]
      exact ⟨x, hx, beq_iff_eq.2 e⟩

/-- a column is replaced by one that is the same identifier -/
theorem Regular.replaceColumn (h : w.Regular d limit) (key : String) {name : String} {column : Column}
    (same : d.sameName name column.name = true) :
    (w.updateTable key (·.replaceColumn d name column)).Regular d limit := by
  refine h.updateColumn key fun t c here => ?_
  refine Eq.trans ?_ ((Dialect.sameName_iff.1 here).trans (Dialect.sameName_iff.1 same)).symm
  split_ifs <;> rfl

theorem modifyColumn_keepsRegular (site : Site) (key : String) (clause : ColumnClause)
    (oldName : Option String) : KeepsRegular d limit (modifyColumn d site key clause oldName) := by
  intro w w' h run
  cases found : w.table? key with
  | none =>
    simp only [modifyColumn, found] at run
    rw [← Except.ok.inj run]; exact h
  | some t =>
    obtain ⟨_, w₁, label, reading, -, renamed, run⟩ := modifyColumn_eq_ok found run
    have h₁ : w₁.Regular d limit := by
      split_ifs at renamed
      · exact renameColumn_keepsRegular key _ clause.name w w₁ h renamed
      · rw [renamed]; exact h
    refine addConstraints_regular ?_ run
    exact (h₁.of_tables (tables_reportType ..)).replaceColumn key (clause.sameName_replaced oldName)

theorem alterAction_regular (h : w.Regular d limit) {site : Site} {key key' : String} {action : TableAction}
    (run : alterAction d site key action w = .ok (w', key')) : w'.Regular d limit := by
  have kept : ∀ change : Change, KeepsRegular d limit change → (change w).map (·, key) = .ok (w', key') →
      w'.Regular d limit := by
    intro change keeps run
    obtain ⟨w₁, changed, e⟩ := map_eq_ok_iff.1 run
    rw [← (Prod.mk.inj e).1]; exact keeps w w₁ h changed
  cases action with
  | renameTable newName => exact renameTable_regular h run
  | addColumn clause ifNotExists =>
    simp only [alterAction] at run
    split_ifs at run
    · rw [← (Prod.mk.inj (Except.ok.inj run)).1]; exact h
    · exact kept _ (addColumn_keepsRegular key site.source clause) run
  | dropColumn name ifExists cascade => exact kept _ (dropColumn_keepsRegular site key name ifExists cascade) run
  | addConstraint clause =>
    exact kept _ (onTable_keepsRegular fun _ _ sound added => Draft.addConstraint_regular sound added) run
  | dropConstraint target ifExists => exact kept _ (dropConstraint_keepsRegular site key target ifExists) run
  | alterColumn name setNotNull default dropDefault newType =>
    exact kept _ (alterColumn_keepsRegular site key name setNotNull default dropDefault newType) run
  | renameColumn old new => exact kept _ (renameColumn_keepsRegular key old new) run
  | modifyColumn clause oldName => exact kept _ (modifyColumn_keepsRegular site key clause oldName) run

theorem alterActions_regular (h : w.Regular d limit) {site : Site} {key : String} {actions : List TableAction}
    (run : alterActions d site actions w key = .ok w') : w'.Regular d limit := by
  induction actions generalizing w key with
  | nil => rw [← Except.ok.inj run]; exact h
  | cons a rest ih =>
    unfold alterActions at run
    split at run
    · rename_i w₁ key₁ done
      exact ih (alterAction_regular h done) run
    · exact ih (h.of_tables (tables_record ..)) run
    · simp at run

/-! ### Statements -/

/-- a new table may be added -/
theorem Regular.append {t : Draft} (h : w.Regular d limit) (columns : t.columns = []) (constraints : t.constraints = [])
    (inside : t.declaredBy < limit) (new : ∀ x ∈ w.tables, x.key ≠ t.key) :
    Regular d limit { w with tables := w.tables ++ [t] } := by
  refine ⟨fun x hx => ?_, ?_⟩
  · rcases List.mem_append.1 hx with old | added
    · exact h.each x old
    · rw [List.mem_singleton.1 added]
      refine ⟨?_, ?_, inside⟩
      · simp [Draft.identifiers, columns]
      · simp [Draft.primaryKeys, Draft.toTable, constraints]
  · rw [List.map_append, List.nodup_append]
    refine ⟨h.keys, List.nodup_singleton _, fun a ha b hb => ?_⟩
    obtain ⟨x, hx, rfl⟩ := List.mem_map.1 ha
    rw [List.mem_singleton.1 hb]
    exact new x hx

theorem declareTable_keepsRegular {statements : List Statement} {st : Statement} {table : CreateTable} {index : Nat}
    (inside : index < limit) : KeepsRegular d limit (declareTable d statements st table index) := by
  have added : ∀ w w' : Workspace, w.Regular d limit → (∀ t ∈ w.tables, t.key ≠ table.name.key d) →
      w.addTable d st table index = .ok w' → w'.Regular d limit := by
    intro w w' h new run
    simp only [addTable, bind_eq_ok_iff] at run
    obtain ⟨w₁, columns, w₂, constraints, run⟩ := run
    have started := Regular.append (t := newDraft d st table index) h rfl rfl inside new
    have withColumns : w₁.Regular d limit := foldlM_keeps (P := Workspace.Regular d limit)
      (fun _ _ _ _ sound added => attempt_regular (addColumn_keepsRegular _ _ _) sound added) started columns
    have complete := addConstraints_regular withColumns constraints
    split_ifs at run
    · simp only [bind_eq_ok_iff, pure_eq_ok_iff] at run
      obtain ⟨_, _, rfl⟩ := run
      exact complete.of_tables rfl
    · rw [← pure_eq_ok_iff.1 run]; exact complete
  intro w w' h run
  simp only [declareTable] at run
  split at run
  · rename_i absent
    exact added w w' h (table?_eq_none absent) (settle_eq_ok_iff.1 run)
  · split_ifs at run
    · refine added _ w' (h.dropTable _) (fun t ht => ?_) (settle_eq_ok_iff.1 run)
      simpa using (List.mem_filter.1 ht).2
    · rw [← Except.ok.inj run]; exact h.of_tables rfl

theorem alterTable_keepsRegular (st : Statement) (alter : AlterTable) : KeepsRegular d limit (alterTable d st alter) := by
  intro w w' h run
  unfold alterTable at run
  split at run
  · exact alterActions_regular h (settle_eq_ok_iff.1 run)
  · split_ifs at run
    rw [← Except.ok.inj run]; exact h.of_tables rfl

theorem createIndex_keepsRegular (index : CreateIndex) : KeepsRegular d limit (createIndex d index) := by
  intro w w' h run
  simp only [createIndex, bind_eq_ok_iff] at run
  obtain ⟨t, _, run⟩ := run
  split at run
  · exact onTable_keepsRegular (fun _ _ sound added => Draft.addIndex_regular sound added) w w' h run
  · split_ifs at run
    · rw [← pure_eq_ok_iff.1 run]; exact h
    · exact absurd run (by simp [Draft.problem_eq_ok_iff])
    · exact onTable_keepsRegular (fun _ _ sound added => Draft.addIndex_regular sound added) w w' h run

theorem forNames_regular {st : Statement} {change : QualifiedName → Change} {names : List QualifiedName}
    (keeps : ∀ n, KeepsRegular d limit (change n)) (h : w.Regular d limit) (run : forNames st change names w = .ok w') :
    w'.Regular d limit := by
  induction names generalizing w with
  | nil => rw [← Except.ok.inj run]; exact h
  | cons n rest ih =>
    unfold forNames at run
    split at run
    · rename_i w₁ done
      exact ih (keeps n w w₁ h done) run
    · rw [← Except.ok.inj run]; exact h.of_tables rfl
    · simp at run

theorem dropTableNamed_keepsRegular (st : Statement) (drop : DropTable) (index : Nat) (name : QualifiedName) :
    KeepsRegular d limit (dropTableNamed d st drop index name) := by
  intro w w' h run
  simp only [dropTableNamed] at run
  split at run
  · split_ifs at run
    · rw [← Except.ok.inj run]
      exact (h.dropTable _).mapTables fun _ _ sound => (Draft.loses_dropForeignKeysTo _ none).regular sound
    · rw [← Except.ok.inj run]; exact h.dropTable _
    · rw [← Except.ok.inj run]; exact h.of_tables rfl
  · split_ifs at run
    rw [← Except.ok.inj run]; exact h.of_tables rfl

theorem dropIndexNamed_keepsRegular (st : Statement) (drop : DropIndex) (table : Option String)
    (name : QualifiedName) : KeepsRegular d limit (dropIndexNamed d st drop table name) := by
  intro w w' h run
  simp only [dropIndexNamed] at run
  split at run
  · rw [← Except.ok.inj run]
    refine h.mapTables fun t _ sound => ?_
    split_ifs
    · cases dropped : t.eraseIndex? d name.name with
      | none => simpa [dropped] using sound
      | some t' => simpa [dropped] using (Draft.loses_eraseIndex? dropped).regular sound
    · exact ⟨sound, rfl⟩
  · split_ifs at run
    rw [← Except.ok.inj run]; exact h.of_tables rfl

theorem dropViewNamed_keepsRegular (st : Statement) (drop : DropView) (name : QualifiedName) :
    KeepsRegular d limit (dropViewNamed d st drop name) := by
  intro w w' h run
  simp only [dropViewNamed] at run
  split_ifs at run
  all_goals rw [← Except.ok.inj run]; exact h.of_tables rfl

theorem commentOn_keepsRegular (st : Statement) (comment : CommentOn) :
    KeepsRegular d limit (commentOn d st comment) := by
  intro w w' h run
  unfold commentOn at run
  split at run
  · rw [← Except.ok.inj run]; exact h.of_tables rfl
  · split at run
    · rw [← Except.ok.inj run]
      refine h.mapTables fun t _ sound => ?_
      split_ifs
      · exact ⟨⟨sound.columns, sound.onePrimaryKey, sound.declared⟩, rfl⟩
      · exact ⟨sound, rfl⟩
    · split_ifs at run
      · rw [← Except.ok.inj run]
        exact h.updateColumn _ fun _ _ _ => rfl
      · simp only [bind_eq_ok_iff, pure_eq_ok_iff] at run
        obtain ⟨_, _, rfl⟩ := run
        exact h.of_tables rfl

/-! ### Passes -/

theorem enumPass_regular {st : Statement} (h : w.Regular d limit) (run : enumPass d w st = .ok w') :
    w'.Regular d limit := by
  unfold enumPass at run
  split at run
  · refine attempt_regular (fun w w' h run => ?_) h run
    simp only [declareEnum] at run
    split_ifs at run
    all_goals rw [← Except.ok.inj run]; exact h.of_tables rfl
  · rw [← Except.ok.inj run]; exact h

theorem declarationPass_regular {statements : List Statement} {numbered : Statement × Nat}
    (inside : numbered.2 < limit) (h : w.Regular d limit) (run : declarationPass d statements w numbered = .ok w') :
    w'.Regular d limit := by
  simp only [declarationPass] at run
  split at run
  · exact attempt_regular (declareTable_keepsRegular inside) h run
  · refine attempt_regular (fun w w' h run => ?_) h run
    simp only [declareView] at run
    split_ifs at run
    rw [← Except.ok.inj run]; exact h.of_tables rfl
  · rw [← Except.ok.inj run]; exact h

theorem changePass_regular {numbered : Statement × Nat} (h : w.Regular d limit)
    (run : changePass d w numbered = .ok w') : w'.Regular d limit := by
  obtain ⟨st, index⟩ := numbered
  simp only [changePass] at run
  split at run
  · exact attempt_regular (alterTable_keepsRegular st _) h run
  · exact attempt_regular (createIndex_keepsRegular _) h run
  · exact forNames_regular (dropTableNamed_keepsRegular st _ index) h run
  · split at run
    · exact forNames_regular (dropIndexNamed_keepsRegular st _ none) h run
    · split at run
      · exact forNames_regular (dropIndexNamed_keepsRegular st _ _) h run
      · rw [← Except.ok.inj run]; exact h.of_tables rfl
      · simp at run
  · exact forNames_regular (dropViewNamed_keepsRegular st _) h run
  · exact attempt_regular (commentOn_keepsRegular st _) h run
  · rw [← Except.ok.inj run]; exact h

/-! ### Histories -/

theorem afterDeclarations_regular {statements : List Statement} {n : Nat}
    (run : afterDeclarations d statements n = .ok w) : w.Regular d statements.length := by
  simp only [afterDeclarations, bind_eq_ok_iff] at run
  obtain ⟨w₁, enums, run⟩ := run
  have empty : Workspace.Regular d statements.length {} := ⟨by simp, List.nodup_nil⟩
  have started : w₁.Regular d statements.length := foldlM_keeps (fun _ _ _ _ => enumPass_regular) empty enums
  refine foldlM_keeps (fun numbered hn _ _ => ?_) started run
  exact declarationPass_regular (List.snd_lt_of_mem_zipIdx (List.mem_of_mem_take hn))

/-- whatever the statements are, so many of them lead to a regular schema -/
theorem afterChanges_regular {statements : List Statement} {n : Nat} (run : afterChanges d statements n = .ok w) :
    w.Regular d statements.length := by
  simp only [afterChanges, bind_eq_ok_iff] at run
  obtain ⟨w₁, declared, run⟩ := run
  exact foldlM_keeps (fun _ _ _ _ => changePass_regular) (afterDeclarations_regular declared) run

/-- whatever the statements are, their tables are regular -/
theorem applyAll_regular {statements : List Statement} (run : applyAll d statements = .ok w) :
    w.Regular d statements.length := by
  rw [applyAll_eq_afterChanges] at run
  exact afterChanges_regular run

/-- A schema that statements lead to: so many of them have been applied, and then actions on a table, one after the
other. -/
def Reachable (d : Dialect) (w : Workspace) : Prop :=
  ∃ statements n w₀ site actions key,
    afterChanges d statements n = .ok w₀ ∧ alterActions d site actions w₀ key = .ok w

theorem Reachable.regular (h : w.Reachable d) : ∃ limit, w.Regular d limit := by
  obtain ⟨statements, n, w₀, site, actions, key, before, run⟩ := h
  exact ⟨statements.length, alterActions_regular (afterChanges_regular before) run⟩

end Workspace

end SchemaApi
