import SchemaApi.Proofs.Schema.Model
/-!
Renaming is a refactoring.

To rename a column is to map the names of columns, in its table and in the foreign keys that refer to the table; to
rename a table is to change its name, and the target of those foreign keys. They resolve as before, up to the new
names: the columns that they find are the renamed ones, and the keys of the table are renamed with them. So a valid
model stays valid (`Workspace.Valid.refactor`), and its tables differ in the names only.
-/

namespace SchemaApi

variable {d : Dialect} {limit : Nat}

/-! ## Names of columns -/

/-- the new name of a column; other names stay -/
def Dialect.renaming (d : Dialect) (old new n : String) : String := if d.sameName n old then new else n

/-- the columns that a constraint names in its own table, under other names -/
def Constraint.mapColumns (σ : String → String) : Constraint → Constraint
  | .primaryKey n columns => .primaryKey n (columns.map σ)
  | .unique n columns => .unique n (columns.map σ)
  | .foreignKey k => .foreignKey { k with columns := k.columns.map σ }
  | .check n e own => .check n e (own.map σ)

/-- an index over columns under other names; expressions stay -/
def Index.mapColumns (σ : String → String) (i : Index) : Index :=
  if i.isExpression then i else { i with columns := i.columns.map σ }

/-- a table with its columns under other names -/
def Table.mapColumns (σ : String → String) (t : Table) : Table :=
  { t with
    columns := t.columns.map fun c => { c with name := σ c.name }
    constraints := t.constraints.map (Constraint.mapColumns σ)
    indexes := t.indexes.map (Index.mapColumns σ) }

/-- a foreign key to columns under other names -/
def ForeignKey.mapTarget (σ : String → String) (k : ForeignKey) : ForeignKey :=
  { k with targetColumns := k.targetColumns.map σ }

/-- a foreign key to a table under another name -/
def ForeignKey.retarget (ref : TableRef) (k : ForeignKey) : ForeignKey := { k with target := ref }

/-- the reference by a new name; a table stays in its schema if the name has none -/
def QualifiedName.refIn (n : QualifiedName) (own : Option String) : TableRef :=
  ⟨n.name, (n.schema.filter (· ≠ "")).or own⟩

/-- a table under another name, and with the key of that name -/
def Table.withName (d : Dialect) (ref : TableRef) (t : Table) : Table :=
  { t with name := ref.name, schema := ref.schema, key := d.tableKey ref.schema ref.name }

/-- a table under another name, while statements are being applied -/
def Draft.withName (d : Dialect) (ref : TableRef) (t : Draft) : Draft :=
  { t with name := ref.name, schema := ref.schema, key := d.tableKey ref.schema ref.name }

/-- a constraint with its foreign key changed, if it is one -/
def Constraint.mapKey (f : ForeignKey → ForeignKey) : Constraint → Constraint
  | .foreignKey k => .foreignKey (f k)
  | c => c

theorem Constraint.mapKey_of_foreignKey?_eq_none {c : Constraint} (other : c.foreignKey? = none)
    (f : ForeignKey → ForeignKey) : c.mapKey f = c := by
  cases c with
  | foreignKey k => simp [Constraint.foreignKey?] at other
  | _ => rfl

namespace Table

variable {σ : String → String} {t : Table}

theorem primaryKey?_mapColumns : (t.mapColumns σ).primaryKey? = t.primaryKey?.map (·.map σ) := by
  rw [primaryKey?, primaryKey?, mapColumns, List.findSome?_map]
  induction t.constraints with
  | nil => rfl
  | cons c rest ih =>
    rw [List.findSome?_cons, List.findSome?_cons]
    cases c with
    | primaryKey => rfl
    | _ => exact ih

/-- the keys of a table are renamed with its columns -/
theorem uniqueSets_mapColumns : (t.mapColumns σ).uniqueSets = t.uniqueSets.map (·.map σ) := by
  have primary : (t.mapColumns σ).primaryColumns = t.primaryColumns.map σ := by
    rw [primaryColumns, primaryColumns, primaryKey?_mapColumns]
    cases t.primaryKey? <;> rfl
  have unique : (t.mapColumns σ).uniqueConstraints = t.uniqueConstraints.map (·.map σ) := by
    rw [uniqueConstraints, uniqueConstraints, mapColumns, List.filterMap_map, List.map_filterMap]
    refine List.filterMap_congr fun c _ => ?_
    cases c <;> rfl
  have full : ((t.mapColumns σ).indexes.filter (·.isFullUnique)).map (·.columns) =
      ((t.indexes.filter (·.isFullUnique)).map (·.columns)).map (·.map σ) := by
    have same : Index.isFullUnique ∘ Index.mapColumns σ = Index.isFullUnique := by
      funext i
      simp only [Function.comp_apply, Index.mapColumns]
      split_ifs <;> rfl
    rw [mapColumns, List.filter_map, same, List.map_map, List.map_map]
    refine List.map_congr_left fun i hi => ?_
    have plain : ¬ i.isExpression = true := by
      have full := (List.mem_filter.1 hi).2
      simp only [Index.isFullUnique, Bool.and_eq_true, Bool.not_eq_true'] at full
      simp [full.1.2]
    simp only [Function.comp_apply, Index.mapColumns, if_neg plain]
  rw [uniqueSets, uniqueSets, primary, unique, full, List.isEmpty_map, List.map_append, List.map_append]
  split <;> rfl

end Table

namespace Draft

variable {t : Draft} {old new : String}

/-- to rename a column is to map the names of columns -/
theorem toTable_renameColumn (h : t.Regular d limit) (old new : String) :
    (t.renameColumn d old new).toTable = t.toTable.mapColumns (d.renaming old new) := by
  have columns : (t.renameColumn d old new).columns =
      t.columns.map fun c => { c with name := d.renaming old new c.name } := by
    refine (updateColumn_go_eq_map h.columns).trans (List.map_congr_left fun c _ => ?_)
    unfold Dialect.renaming
    split_ifs <;> rfl
  have constraints : renameInConstraint d old new = Constraint.mapColumns (d.renaming old new) := by
    funext c
    cases c with
    | check n e own =>
      cases own with
      | none => rfl
      | some o =>
        by_cases same : d.sameName o old = true
        · simp [renameInConstraint, hasName, Constraint.mapColumns, Dialect.renaming, same]
        · simp [renameInConstraint, hasName, Constraint.mapColumns, Dialect.renaming, same]
    | _ => rfl
  have indexes : renameInIndex d old new = Index.mapColumns (d.renaming old new) := rfl
  rw [Table.mapColumns, ← constraints, ← indexes, ← constraints_renameColumn]
  simp only [toTable, columns]
  rfl

theorem columns_renameColumn_eq (h : t.Regular d limit) (old new : String) : (t.renameColumn d old new).columns =
    t.columns.map fun c => { c with name := d.renaming old new c.name } :=
  congrArg Table.columns (toTable_renameColumn h old new)

/-- the new name of a column means the column that the old one meant -/
theorem column?_renameColumn (h : t.Regular d limit) (free : ∀ c ∈ t.columns, d.sameName c.name new = false)
    {n : String} {c : Column} (found : t.column? d n = some c) :
    (t.renameColumn d old new).column? d (d.renaming old new n) =
      some { c with name := d.renaming old new c.name } := by
  obtain ⟨hc, same⟩ := column?_eq_some found
  have renamed : (t.renameColumn d old new).Regular d limit :=
    renameColumn_regular h fun c hc e => absurd (Dialect.sameName_iff.2 e) (by simp [free c hc])
  refine renamed.column?_eq ?_ ?_
  · rw [columns_renameColumn_eq h]
    exact List.mem_map_of_mem hc
  · have alike : d.sameName c.name old = d.sameName n old := by rw [Dialect.sameName, Dialect.sameName, same]
    rw [Dialect.renaming, Dialect.renaming, alike]
    split_ifs
    · exact Dialect.sameName_refl d new
    · exact Dialect.sameName_iff.2 same

/-- the columns that a foreign key refers to are renamed with those of the table -/
theorem referred?_renameColumn (h : t.Regular d limit) (free : ∀ c ∈ t.columns, d.sameName c.name new = false)
    {k k' : ForeignKey} (columns : k'.targetColumns = k.targetColumns.map (d.renaming old new)) {referred : List String}
    (found : t.referred? d k = some referred) :
    (t.renameColumn d old new).referred? d k' = some (referred.map (d.renaming old new)) := by
  rw [referred?, columns, List.isEmpty_map]
  rw [referred?] at found
  split_ifs at found ⊢
  · rw [primaryKey?, toTable_renameColumn h, Table.primaryKey?_mapColumns]
    exact congrArg _ found
  · refine mapM_map_eq_some (fun n _ c there => ?_) found
    obtain ⟨column, meant, rfl⟩ := Option.map_eq_some_iff.1 there
    rw [column?_renameColumn h free meant]
    rfl

end Draft

/-! ## Foreign keys after a column was renamed -/

namespace Workspace

variable {w : Workspace} {t : Draft}

/-- a foreign key resolves to the table of its key, if it finds a key of it -/
theorem resolution?_eq_some (h : w.Regular d limit) (ht : t ∈ w.tables) {k : ForeignKey} (key : t.key = k.targetKey d)
    {referred : List String} (columns : t.referred? d k = some referred) (lengths : referred.length = k.columns.length)
    (known : referred ∈ t.uniqueSets) :
    resolution? d w.tables k = some { k with target := t.toTable.ref, targetColumns := referred } :=
  resolution?_eq_some_iff.2 ⟨t, referred, key ▸ h.table?_key ht, columns, lengths, known, rfl⟩

/-- the changes of a table -/
theorem mem_updateTable (key : String) (f : Draft → Draft) (ht : t ∈ w.tables) :
    (if t.key == key then f t else t) ∈ (w.updateTable key f).tables :=
  List.mem_map_of_mem (f := fun t : Draft => if t.key == key then f t else t) ht

/-- After a column of a table was renamed, a foreign key to the table resolves if the columns that it refers to are
renamed as well, and any other one resolves as before. -/
theorem resolution?_renameColumn (h : w.Regular d limit) (ht : t ∈ w.tables) {old new : String}
    (free : ∀ c ∈ t.columns, d.sameName c.name new = false) {k k' r : ForeignKey}
    (resolves : resolution? d w.tables k = some r) (target : k'.targetKey d = k.targetKey d)
    (lengths : k'.columns.length = k.columns.length)
    (columns : k'.targetColumns =
      if k.targetKey d = t.key then k.targetColumns.map (d.renaming old new) else k.targetColumns) :
    resolution? d (w.updateTable t.key fun x => x.renameColumn d old new).tables k' = some { k' with
      target := r.target
      targetColumns := if k.targetKey d = t.key then r.targetColumns.map (d.renaming old new) else r.targetColumns } := by
  obtain ⟨x, referred, found, read, sizes, known, rfl⟩ := resolution?_eq_some_iff.1 resolves
  have hx := List.mem_of_find?_eq_some found
  have key : x.key = k.targetKey d := by simpa using List.find?_some found
  have there := h.each t ht
  have renamed : (w.updateTable t.key fun x => x.renameColumn d old new).Regular d limit := by
    refine h.updateTable (h.table?_key ht) ⟨Draft.renameColumn_regular there fun c hc e => ?_, rfl⟩
    exact absurd (Dialect.sameName_iff.2 e) (by simp [free c hc])
  have member := mem_updateTable t.key (fun x => x.renameColumn d old new) hx
  by_cases own : k.targetKey d = t.key
  · obtain rfl : x = t := h.eq_of_key hx ht (key.trans own)
    rw [if_pos own] at columns
    rw [if_pos (beq_self_eq_true x.key)] at member
    rw [if_pos own]
    refine resolution?_eq_some renamed member (key.trans target.symm)
      (Draft.referred?_renameColumn there free columns read) ?_ ?_
    · rw [List.length_map, lengths, sizes]
    · rw [Draft.uniqueSets, Draft.toTable_renameColumn there, Table.uniqueSets_mapColumns]
      exact List.mem_map_of_mem known
  · rw [if_neg own] at columns
    rw [if_neg (by simpa [key] using own)] at member
    rw [if_neg own]
    refine resolution?_eq_some renamed member (key.trans target.symm) ?_ (sizes.trans lengths.symm) known
    rw [← read, Draft.referred?, Draft.referred?, columns]

/-- After a table was renamed, a foreign key to the table resolves if it refers to the new name, and any other one
resolves as before. -/
theorem resolution?_renameTable (h : w.Regular d limit) {ref : TableRef}
    (free : ∀ x ∈ w.tables, x.key = d.tableKey ref.schema ref.name → x.key = t.key) {k k' r : ForeignKey}
    (resolves : resolution? d w.tables k = some r)
    (target : k'.targetKey d = if k.targetKey d = t.key then d.tableKey ref.schema ref.name else k.targetKey d)
    (lengths : k'.columns.length = k.columns.length) (columns : k'.targetColumns = k.targetColumns) :
    resolution? d (w.updateTable t.key (·.withName d ref)).tables k' = some { k' with
      target := if k.targetKey d = t.key then ref else r.target
      targetColumns := r.targetColumns } := by
  obtain ⟨x, referred, found, read, sizes, known, rfl⟩ := resolution?_eq_some_iff.1 resolves
  have hx := List.mem_of_find?_eq_some found
  have key : x.key = k.targetKey d := by simpa using List.find?_some found
  have renamed := h.rename ref.name ref.schema free
  have member := mem_updateTable t.key (fun x => x.withName d ref) hx
  have read' : x.referred? d k' = some referred := by
    rw [← read, Draft.referred?, Draft.referred?, columns]
  by_cases own : k.targetKey d = t.key
  · rw [if_pos own] at target
    rw [if_pos (beq_iff_eq.2 (key.trans own))] at member
    rw [if_pos own]
    exact resolution?_eq_some renamed member target.symm read' (sizes.trans lengths.symm) known
  · rw [if_neg own] at target
    rw [if_neg (by simpa [key] using own)] at member
    rw [if_neg own]
    exact resolution?_eq_some renamed member (key.trans target.symm) read' (sizes.trans lengths.symm) known

end Workspace

/-! ## Tables of the model -/

/-- the constraint was declared as a foreign key to the table of a key -/
def Constraint.refersTo (d : Dialect) (key : String) (c : Constraint) : Bool :=
  (c.foreignKey?.map fun k => k.targetKey d == key).getD false

/-- a table of a model, with those of its foreign keys changed that were declared to refer to the table of a key -/
def Table.mapKeysTo (d : Dialect) (key : String) (change : ForeignKey → ForeignKey) (declared : Draft) (t : Table) :
    Table :=
  { t with
    constraints := List.zipWith (fun c r => if c.refersTo d key then r.mapKey change else r)
      declared.toTable.constraints t.constraints }

/-- A change of names within one table: what becomes of the table, of a constraint and of a foreign key. Foreign keys
still refer to the same table. -/
structure OwnChange (d : Dialect) where
  table : Table → Table
  constraint : Constraint → Constraint
  key : ForeignKey → ForeignKey
  constraints : ∀ t cs, table { t with constraints := cs } = { table t with constraints := cs.map constraint }
  foreignKey : ∀ k, constraint (.foreignKey k) = .foreignKey (key k)
  other : ∀ c, c.foreignKey? = none → (constraint c).foreignKey? = none
  target : ∀ k, (key k).targetKey d = k.targetKey d

namespace OwnChange

/-- nothing changes -/
def none : OwnChange d where
  table := id
  constraint := id
  key := id
  constraints _ cs := by rw [List.map_id]; rfl
  foreignKey _ := rfl
  other _ := id
  target _ := rfl

/-- columns get other names -/
def ofColumns (σ : String → String) : OwnChange d where
  table := Table.mapColumns σ
  constraint := Constraint.mapColumns σ
  key k := { k with columns := k.columns.map σ }
  constraints _ _ := rfl
  foreignKey _ := rfl
  other c plain := by
    cases c with
    | foreignKey k => simp [Constraint.foreignKey?] at plain
    | _ => rfl
  target _ := rfl

/-- the table gets another name -/
def ofName (ref : TableRef) : OwnChange d where
  table := Table.withName d ref
  constraint := id
  key := id
  constraints _ cs := by rw [List.map_id]; rfl
  foreignKey _ := rfl
  other _ := id
  target _ := rfl

end OwnChange

namespace Draft

variable {key : String} {change : ForeignKey → ForeignKey}

/-- the foreign keys to the table of a key are changed -/
def mapKeysTo (d : Dialect) (key : String) (change : ForeignKey → ForeignKey) (t : Draft) : Draft :=
  t.mapForeignKeys fun k => if k.targetKey d == key then change k else k

theorem toTable_mapForeignKeys {t : Draft} (f : ForeignKey → ForeignKey) : (t.mapForeignKeys f).toTable =
    { t.toTable with constraints := t.toTable.constraints.map (Constraint.mapKey f) } := by
  simp only [toTable, mapForeignKeys, List.map_map]
  congr 1
  refine List.map_congr_left fun e _ => ?_
  simp only [Function.comp_apply]
  cases isKey : e.constraint with
  | foreignKey k => rfl
  | _ => simp only [isKey, Constraint.mapKey]

/-- each foreign key of the table resolves after the change, to what it resolved to before, under other names -/
def StaysResolved (d : Dialect) (before after : List Draft) (key : String) (change : ForeignKey → ForeignKey)
    (o : OwnChange d) (x : Draft) : Prop :=
  ∀ k ∈ x.toTable.foreignKeys, ∃ r, resolution? d before k = some r ∧
    resolution? d after (if k.targetKey d = key then change (o.key k) else o.key k) =
      some (if k.targetKey d = key then change (o.key r) else o.key r)

variable {before after : List Draft} {o : OwnChange d} {x x' : Draft}

theorem StaysResolved.resolved_constraint (h : StaysResolved d before after key change o x) {c : Constraint}
    (hc : c ∈ x.toTable.constraints) :
    ((o.constraint c).mapKey fun k => if k.targetKey d == key then change k else k).resolved d after =
      if c.refersTo d key then (o.constraint (c.resolved d before)).mapKey change
      else o.constraint (c.resolved d before) := by
  cases isKey : c.foreignKey? with
  | none =>
    have plain := o.other c isKey
    rw [Constraint.mapKey_of_foreignKey?_eq_none plain, Constraint.resolved_of_foreignKey?_eq_none plain,
      Constraint.resolved_of_foreignKey?_eq_none isKey, Constraint.refersTo, isKey]
    rfl
  | some k =>
    obtain rfl := Constraint.eq_foreignKey isKey
    obtain ⟨r, found, resolves⟩ := h k (List.mem_filterMap.2 ⟨_, hc, rfl⟩)
    simp only [Constraint.resolved, Constraint.refersTo, Constraint.foreignKey?, found, Option.getD_some, o.foreignKey,
      Constraint.mapKey, o.target, beq_iff_eq, resolves, Option.map_some]
    split_ifs <;> rfl

theorem constraints_ownChange : (o.table x.toTable).constraints = x.toTable.constraints.map o.constraint :=
  congrArg Table.constraints (o.constraints x.toTable x.toTable.constraints)

theorem StaysResolved.toTable_resolved (h : StaysResolved d before after key change o x)
    (made : x'.toTable = o.table x.toTable) : ((x'.mapKeysTo d key change).resolved d after).toTable =
      (o.table (x.resolved d before).toTable).mapKeysTo d key change x := by
  rw [Draft.toTable_resolved, mapKeysTo, toTable_mapForeignKeys, made, constraints_ownChange, Draft.toTable_resolved,
    o.constraints x.toTable (x.toTable.constraints.map (Constraint.resolved d before)), Table.mapKeysTo]
  simp only [List.map_map, List.zipWith_map_right, List.zipWith_self]
  congr 1
  exact List.map_congr_left fun c hc => h.resolved_constraint hc

theorem StaysResolved.isSome_resolution? (h : StaysResolved d before after key change o x)
    (made : x'.toTable = o.table x.toTable) :
    ∀ k ∈ (x'.mapKeysTo d key change).toTable.foreignKeys, (resolution? d after k).isSome = true := by
  intro k' hk'
  rw [mapKeysTo, toTable_mapForeignKeys, made, Table.foreignKeys, constraints_ownChange, List.map_map,
    List.filterMap_map] at hk'
  obtain ⟨c, hc, isKey'⟩ := List.mem_filterMap.1 hk'
  cases isKey : c.foreignKey? with
  | none =>
    have plain := Constraint.mapKey_of_foreignKey?_eq_none (o.other c isKey)
      fun k => if k.targetKey d == key then change k else k
    simp only [Function.comp_apply, plain, o.other c isKey, reduceCtorEq] at isKey'
  | some k =>
    obtain rfl := Constraint.eq_foreignKey isKey
    obtain ⟨r, found, resolves⟩ := h k (List.mem_filterMap.2 ⟨_, hc, rfl⟩)
    simp only [Function.comp_apply, o.foreignKey, Constraint.mapKey, Constraint.foreignKey?, Option.some.injEq, o.target,
      beq_iff_eq] at isKey'
    rw [← isKey', resolves]
    rfl

end Draft

namespace Workspace

variable {w : Workspace} {t : Draft}

/-- the table of a key is changed, and the foreign keys to it with it -/
def refactor (d : Dialect) (w : Workspace) (key : String) (f : Draft → Draft) (change : ForeignKey → ForeignKey) :
    Workspace :=
  { w with tables := (w.updateTable key f).tables.map (·.mapKeysTo d key change) }

/-- where all foreign keys stay resolved, a valid schema stays valid, and its tables get the new names -/
theorem Valid.refactor (h : w.Valid d) {key : String} {f : Draft → Draft} {change : ForeignKey → ForeignKey}
    {o : OwnChange d} (made : ∀ x ∈ w.tables, (f x).toTable = o.table x.toTable)
    (stay : ∀ x ∈ w.tables, x.StaysResolved d w.tables (w.refactor d key f change).tables key change
      (if x.key = key then o else .none)) :
    (w.refactor d key f change).Valid d ∧ (w.refactor d key f change).resolvedTables d =
      List.zipWith (fun x table => (if table.key = key then o.table table else table).mapKeysTo d key change x)
        w.tables (w.resolvedTables d) := by
  have changed : ∀ x ∈ w.tables, (if x.key == key then f x else x).toTable =
      (if x.key = key then o else OwnChange.none).table x.toTable := by
    intro x hx
    by_cases own : x.key = key
    · rw [if_pos own, if_pos (beq_iff_eq.2 own)]
      exact made x hx
    · rw [if_neg own, if_neg (by simpa using own)]
      rfl
  refine ⟨⟨h.quiet, ?_⟩, ?_⟩
  · refine List.forall_mem_map.2 (List.forall_mem_map.2 fun x hx => ?_)
    exact (stay x hx).isSome_resolution? (changed x hx)
  · rw [resolvedTables, resolvedTables, List.zipWith_map_right, List.zipWith_self, Workspace.refactor, updateTable,
      List.map_map, List.map_map]
    refine List.map_congr_left fun x hx => ?_
    have table := (stay x hx).toTable_resolved (changed x hx)
    refine table.trans ?_
    have key' : (x.resolved d w.tables).toTable.key = x.key := rfl
    rw [key']
    split_ifs <;> rfl

/-- the foreign keys that tables have are nothing to those that refer to them -/
theorem resolution?_refactor {key : String} {f : Draft → Draft} {change : ForeignKey → ForeignKey} (k : ForeignKey) :
    resolution? d (w.refactor d key f change).tables k = resolution? d (w.updateTable key f).tables k :=
  resolution?_map (fun _ _ => Draft.sameTarget_mapForeignKeys _) k

theorem staysResolved_renameColumn (h : w.Valid d) (regular : w.Regular d limit) (ht : t ∈ w.tables) {old new : String}
    (free : ∀ c ∈ t.columns, d.sameName c.name new = false) {x : Draft} (hx : x ∈ w.tables) :
    x.StaysResolved d w.tables
      (w.refactor d t.key (·.renameColumn d old new) (.mapTarget (d.renaming old new))).tables t.key
      (.mapTarget (d.renaming old new)) (if x.key = t.key then .ofColumns (d.renaming old new) else .none) := by
  intro k hk
  obtain ⟨r, found⟩ := Option.isSome_iff_exists.1 (h.resolves x hx k hk)
  refine ⟨r, found, ?_⟩
  obtain ⟨target, referred, -, -, -, -, made⟩ := resolution?_eq_some_iff.1 found
  have renamed := @resolution?_renameColumn d limit w t regular ht old new free k
  rw [resolution?_refactor]
  -- the table of the foreign key, and the one that it refers to, may each be the table of the column
  by_cases own : k.targetKey d = t.key
  · simp only [own, if_true] at renamed ⊢
    split_ifs
    · refine (renamed found (by exact own) (by exact List.length_map ..) (by rfl)).trans ?_
      rw [made]
      rfl
    · refine (renamed found (by exact own) (by rfl) (by rfl)).trans ?_
      rw [made]
      rfl
  · simp only [own, if_false] at renamed ⊢
    split_ifs
    · refine (renamed found (by rfl) (by exact List.length_map ..) (by rfl)).trans ?_
      rw [made]
      rfl
    · refine (renamed found (by rfl) (by rfl) (by rfl)).trans ?_
      rw [made]
      rfl

theorem staysResolved_renameTable (h : w.Valid d) (regular : w.Regular d limit) {ref : TableRef}
    (free : ∀ x ∈ w.tables, x.key = d.tableKey ref.schema ref.name → x.key = t.key) {x : Draft} (hx : x ∈ w.tables) :
    x.StaysResolved d w.tables (w.refactor d t.key (·.withName d ref) (.retarget ref)).tables t.key
      (.retarget ref) (if x.key = t.key then .ofName ref else .none) := by
  intro k hk
  obtain ⟨r, found⟩ := Option.isSome_iff_exists.1 (h.resolves x hx k hk)
  refine ⟨r, found, ?_⟩
  obtain ⟨target, referred, -, -, -, -, made⟩ := resolution?_eq_some_iff.1 found
  have renamed := @resolution?_renameTable d limit w t regular ref free k
  have same : (if x.key = t.key then OwnChange.ofName ref else (OwnChange.none : OwnChange d)).key = id := by
    split_ifs <;> rfl
  rw [resolution?_refactor, same]
  by_cases own : k.targetKey d = t.key
  · simp only [own, if_true] at renamed ⊢
    refine (renamed found (by rfl) (by rfl) (by rfl)).trans ?_
    rw [made]
    rfl
  · simp only [own, if_false] at renamed ⊢
    refine (renamed found (by rfl) (by rfl) (by rfl)).trans ?_
    rw [made]
    rfl

/-! ## Statements -/

theorem changePass_renameColumn {n : QualifiedName} (found : w.table? (n.key d) = some t) {a : Column}
    {old new : String} (there : t.column? d old = some a) (free : t.column? d new = none) (ifExists : Bool)
    (position : Position) (source : Option String) (index : Nat) :
    changePass d w (.alter n (.renameColumn old new) ifExists position source, index) =
      .ok (w.refactor d t.key (·.renameColumn d a.name new) (.mapTarget (d.renaming a.name new))) := by
  have found' : w.table? t.key = some t := (table?_eq_some found).2 ▸ found
  have notTaken : ¬ (false = true ∧ (!d.sameName old new) = true) := fun h => Bool.noConfusion h.1
  simp only [changePass, Statement.alter, attempt, alterTable, found, alterActions, alterAction, renameColumn, found',
    Draft.requireColumn, there, bind, Except.bind, free, Option.isSome_none, if_neg notTaken]
  rfl

theorem renameTable_eq (found : w.table? t.key = some t) (newName : QualifiedName) :
    renameTable d t.key newName w =
      if (w.table? (d.tableKey (newName.refIn t.schema).schema newName.name)).isSome ∧
          d.tableKey (newName.refIn t.schema).schema newName.name ≠ t.key then
        t.problem (.tableNameTaken · newName.text)
      else if newName.name = "" ∧ w.tables.any (·.refersTo d t.key) then
        .error (.refused (.emptyField "TableRef" "name"))
      else
        .ok (w.refactor d t.key (·.withName d (newName.refIn t.schema)) (.retarget (newName.refIn t.schema)),
          d.tableKey (newName.refIn t.schema).schema newName.name) := by
  obtain ⟨name, schema⟩ := newName
  rw [renameTable, found]
  cases schema with
  | none => rfl
  | some s =>
    by_cases empty : s = ""
    · subst empty
      rfl
    · have given : QualifiedName.refIn ⟨name, some s⟩ t.schema = ⟨name, some s⟩ := by
        simp [QualifiedName.refIn, Option.filter, empty]
      simp only [given, if_neg empty]
      rfl

theorem changePass_renameTable {n newName : QualifiedName} (found : w.table? (n.key d) = some t)
    (named : newName.name ≠ "")
    (free : ∀ x ∈ w.tables, x.key = d.tableKey (newName.refIn t.schema).schema newName.name → x.key = t.key)
    (ifExists : Bool) (position : Position) (source : Option String) (index : Nat) :
    changePass d w (.alter n (.renameTable newName) ifExists position source, index) =
      .ok (w.refactor d t.key (·.withName d (newName.refIn t.schema)) (.retarget (newName.refIn t.schema))) := by
  have found' : w.table? t.key = some t := (table?_eq_some found).2 ▸ found
  have notTaken : ¬ ((w.table? (d.tableKey (newName.refIn t.schema).schema newName.name)).isSome = true ∧
      d.tableKey (newName.refIn t.schema).schema newName.name ≠ t.key) := by
    rintro ⟨taken, other⟩
    obtain ⟨x, there⟩ := Option.isSome_iff_exists.1 taken
    obtain ⟨hx, key⟩ := table?_eq_some there
    exact other (key.symm.trans (free x hx key))
  have notEmpty : ¬ (newName.name = "" ∧ w.tables.any (·.refersTo d t.key) = true) := fun h => named h.1
  simp only [changePass, Statement.alter, attempt, alterTable, found, alterActions, alterAction,
    renameTable_eq found' newName, if_neg notTaken, if_neg notEmpty]
  rfl

theorem named_refactor (h : w.Named) (key : String) (f : Draft → Draft) (change : ForeignKey → ForeignKey)
    (name : ∀ x ∈ w.tables, x.key = key → (f x).name ≠ "")
    (columns : ∀ x ∈ w.tables, x.key = key → ∀ c ∈ (f x).columns, c.name ≠ "") : (w.refactor d key f change).Named := by
  have changed : (w.updateTable key f).Named := by
    refine named_mapTables (fun x hx => ?_) fun x hx => ?_
    · split_ifs with own
      · exact name x hx (beq_iff_eq.1 own)
      · exact h.tables x hx
    · split_ifs with own
      · exact columns x hx (beq_iff_eq.1 own)
      · exact h.columns x hx
  exact named_mapTables changed.tables changed.columns

end Workspace

section
variable {w : Workspace} {b : Built} {S : List Statement}

/-- To rename a column or a table of a valid model gives a valid model. Its tables are the same ones in the same order,
but for the new name: that of the column in its table, and among the columns that foreign keys to the table refer to,
or that of the table, and in the foreign keys to it. -/
theorem rename_valid (built : buildModel d none S = .ok b) (valid : b.model.isValid = true)
    (applied : Workspace.applyAll d S = .ok w) {t : Table} (ht : t ∈ b.model.tables) {n : QualifiedName}
    (named : n.key d = t.key) (ifExists : Bool) (position : Position) (source : Option String) :
    b.model.tables = w.resolvedTables d ∧
      (∀ a ∈ t.columns, ∀ old, d.sameName a.name old = true → ∀ new, new ≠ "" →
        (∀ c ∈ t.columns, d.sameName c.name new = false) →
        ∃ b', buildModel d none (S ++ [.alter n (.renameColumn old new) ifExists position source]) = .ok b' ∧
          b'.model.isValid = true ∧
          b'.model.tables = List.zipWith
            (fun x table => (if table.key = t.key then table.mapColumns (d.renaming a.name new) else table).mapKeysTo d
              t.key (.mapTarget (d.renaming a.name new)) x) w.tables b.model.tables) ∧
      ∀ newName : QualifiedName, newName.name ≠ "" → ∀ ref, ref = newName.refIn t.schema →
        (∀ x ∈ b.model.tables, x.key = d.tableKey ref.schema ref.name → x.key = t.key) →
        ∃ b', buildModel d none (S ++ [.alter n (.renameTable newName) ifExists position source]) = .ok b' ∧
          b'.model.isValid = true ∧
          b'.model.tables = List.zipWith
            (fun x table => (if table.key = t.key then table.withName d ref else table).mapKeysTo d t.key (.retarget ref) x)
            w.tables b.model.tables := by
  have regular := Workspace.applyAll_regular applied
  rw [Workspace.buildModel_of_applied applied] at built
  have names := Workspace.named_of_build built
  have sound := (Workspace.isValid_iff built).1 valid
  have tables : b.model.tables = w.resolvedTables d := Workspace.tables_of_build built
  obtain ⟨x, hx, found, rfl⟩ := Workspace.exists_table?_of_build regular built ht named
  refine ⟨tables, fun a ha old meant new filled free => ?_, ?_⟩
  · have there := (regular.each x hx).column?_eq ha meant
    have absent : x.column? d new = none := List.find?_eq_none.2 fun c hc => by simp [free c hc]
    have changed := Workspace.changePass_renameColumn found there absent ifExists position source S.length
    have named' := Workspace.named_refactor (d := d) names x.key (·.renameColumn d a.name new)
      (.mapTarget (d.renaming a.name new)) (fun y hy _ => names.tables y hy) fun y hy _ c hc => by
        rw [Draft.columns_renameColumn_eq (regular.each y hy)] at hc
        obtain ⟨own, hown, rfl⟩ := List.mem_map.1 hc
        simp only [Dialect.renaming]
        split_ifs
        · exact filled
        · exact names.columns y hy own hown
    obtain ⟨valid', tables'⟩ := sound.refactor (o := .ofColumns (d.renaming a.name new))
      (fun y hy => Draft.toTable_renameColumn (regular.each y hy) a.name new)
      fun y hy => Workspace.staysResolved_renameColumn sound regular hx free hy
    obtain ⟨b', built', isValid', made⟩ := Workspace.exists_build_concat rfl applied changed named'
    exact ⟨b', built', isValid'.2 valid', by rw [made, tables', tables]; rfl⟩
  · rintro newName filled _ rfl free
    have free' : ∀ y ∈ w.tables, y.key = d.tableKey (newName.refIn x.schema).schema newName.name → y.key = x.key :=
      fun y hy => free (y.resolved d w.tables).toTable ((Workspace.mem_tables_of_build built).2 ⟨y, hy, rfl⟩)
    have changed := Workspace.changePass_renameTable found filled free' ifExists position source S.length
    have named' := Workspace.named_refactor (d := d) names x.key (·.withName d (newName.refIn x.schema))
      (.retarget (newName.refIn x.schema)) (fun _ _ _ => filled) fun y hy _ => names.columns y hy
    obtain ⟨valid', tables'⟩ := sound.refactor (o := .ofName (newName.refIn x.schema)) (fun _ _ => rfl)
      fun y hy => Workspace.staysResolved_renameTable sound regular free' hy
    obtain ⟨b', built', isValid', made⟩ := Workspace.exists_build_concat rfl applied changed named'
    exact ⟨b', built', isValid'.2 valid', by rw [made, tables', tables]; rfl⟩

end

theorem rename_valid_authorsAndBooks : ∃ b w, buildModel .sqlite none authorsAndBooks = .ok b ∧
    Workspace.applyAll .sqlite authorsAndBooks = .ok w ∧ b.model.isValid = true ∧
    (∃ b', buildModel .sqlite none (authorsAndBooks ++
        [.alter ⟨"AUTHOR", none⟩ (.renameColumn "Id" "no") false ⟨5, 1, 0⟩ none]) = .ok b' ∧
      b'.model.isValid = true ∧ b'.model.tables = List.zipWith
        (fun x table => (if table.key = "main.author" then table.mapColumns (Dialect.sqlite.renaming "id" "no")
          else table).mapKeysTo .sqlite "main.author" (.mapTarget (Dialect.sqlite.renaming "id" "no")) x)
        w.tables b.model.tables) ∧
    ∃ b', buildModel .sqlite none (authorsAndBooks ++
        [.alter ⟨"AUTHOR", none⟩ (.renameTable ⟨"writer", none⟩) false ⟨5, 1, 0⟩ none]) = .ok b' ∧
      b'.model.isValid = true ∧ b'.model.tables = List.zipWith
        (fun x table => (if table.key = "main.author" then table.withName .sqlite ⟨"writer", some "main"⟩
          else table).mapKeysTo .sqlite "main.author" (.retarget ⟨"writer", some "main"⟩) x)
        w.tables b.model.tables := by
  have shape : (buildModel .sqlite none authorsAndBooks).toOption.map (fun b =>
      (b.model.isValid, b.model.tables.map fun t => (t.key, t.schema, t.columnNames))) =
      some (true, [("main.author", some "main", ["id"]), ("main.book", some "main", ["author"])]) := by
    decide +kernel
  obtain ⟨b, built, same⟩ := Option.map_eq_some_iff.1 shape
  have built := toOption_eq_some_iff.1 built
  obtain ⟨valid, tables⟩ := Prod.mk.inj same
  obtain ⟨w, applied, -⟩ := Workspace.exists_applied_of_buildModel built
  obtain ⟨t, rest, all, first, -⟩ := List.map_eq_cons_iff.1 tables
  obtain ⟨key, first⟩ := Prod.mk.inj first
  obtain ⟨schema, names⟩ := Prod.mk.inj first
  have ht : t ∈ b.model.tables := all ▸ List.mem_cons_self
  have named : QualifiedName.key .sqlite ⟨"AUTHOR", none⟩ = t.key := by
    rw [key]
    decide +kernel
  obtain ⟨-, columns, table⟩ := rename_valid built valid applied ht named false ⟨5, 1, 0⟩ none
  have only : ∀ c ∈ t.columns, c.name = "id" := fun c hc =>
    List.mem_singleton.1 (names ▸ List.mem_map_of_mem hc : c.name ∈ ["id"])
  obtain ⟨a, ha, isId⟩ := List.mem_map.1 (names ▸ List.mem_cons_self : "id" ∈ t.columnNames)
  have column := columns a ha "Id" (by rw [isId]; decide +kernel) "no" (by decide)
    fun c hc => by rw [only c hc]; decide +kernel
  have free : ∀ x ∈ b.model.tables, x.key ≠ Dialect.sqlite.tableKey (some "main") "writer" := by
    intro x hx
    have keys : b.model.tables.map (·.key) = ["main.author", "main.book"] := by
      have first := congrArg (List.map (·.1)) tables
      rwa [List.map_map] at first
    rcases List.mem_cons.1 (keys ▸ List.mem_map_of_mem hx : x.key ∈ ["main.author", "main.book"]) with e | e
    · rw [e]
      decide +kernel
    · rw [List.mem_singleton.1 e]
      decide +kernel
  have name := table ⟨"writer", none⟩ (by decide) ⟨"writer", some "main"⟩ (by rw [schema]; rfl)
    fun x hx e => absurd e (free x hx)
  rw [isId, key] at column
  rw [key] at name
  exact ⟨b, w, built, applied, valid, column, name⟩

end SchemaApi
