import SchemaApi.Proofs.Schema.Rename
import SchemaApi.Proofs.Schema.Spelling
/-!
Replacing a column.

`MODIFY` and `CHANGE` put a new column in the place of an old one. It stands there alone (`Workspace.Replaces`): all
other columns are as they were, unless a primary key that was written at the new column makes them NOT NULL.

Constraints, indexes and foreign keys know a column by its name. If the new column has another name, the old one is
renamed first, and they follow; if it has the same name in another spelling, it is not, and they keep the old spelling.
So they stay in step (`Workspace.InStep`) exactly if the column is renamed, or none of their names for it is spelled in
another way than its new name. Where case counts that is always so.
-/

namespace SchemaApi

variable {d : Dialect} {limit : Nat}

/-! ## Names for a column -/

/-- the names that a constraint has for columns of the table of a key; `own` says whether that is its own table -/
def Constraint.namesFor (d : Dialect) (key : String) (own : Bool) (c : Constraint) : List String :=
  (if own then c.ownColumns else []) ++
    match c.foreignKey? with
    | some k => if k.targetKey d = key then k.targetColumns else []
    | none => []

/-- the names that a table has for columns of the table of a key -/
def Draft.namesFor (d : Dialect) (key : String) (t : Draft) : List String :=
  t.toTable.constraints.flatMap (·.namesFor d key (t.key == key)) ++
    if t.key == key then (t.indexes.filter (!·.isExpression)).flatMap (·.columns) else []

/-- the names that constraints, foreign keys and indexes have for columns of the table of a key -/
def Workspace.namesFor (d : Dialect) (w : Workspace) (key : String) : List String :=
  w.tables.flatMap (·.namesFor d key)

/-- a name stays the same if it is no name for the column, or is the new one already -/
theorem Dialect.renamed_eq_self_iff {old new n : String} :
    d.renaming old new n = n ↔ (d.sameName n old = true → n = new) := by
  unfold Dialect.renaming
  split_ifs with same
  · exact ⟨fun e _ => e.symm, fun e => (e same).symm⟩
  · exact ⟨fun _ here => absurd here same, fun _ => rfl⟩

theorem map_eq_self_iff {α : Type} {f : α → α} {l : List α} : l.map f = l ↔ ∀ a ∈ l, f a = a := by
  have same : l.map f = l ↔ l.map f = l.map id := by rw [List.map_id]
  rw [same, List.map_inj_left]
  rfl

/-- a constraint under the new name of a column of the table of a key -/
def Constraint.renamedFor (d : Dialect) (key : String) (own : Bool) (σ : String → String) (c : Constraint) :
    Constraint :=
  (if own then c.mapColumns σ else c).mapKey fun k => if k.targetKey d == key then k.mapTarget σ else k

theorem ForeignKey.with_eq_self_iff {k : ForeignKey} {columns targets : List String} :
    ({ k with columns := columns, targetColumns := targets } : ForeignKey) = k ↔
      columns = k.columns ∧ targets = k.targetColumns := by
  cases k
  simp

theorem Constraint.mapColumns_eq_self_iff {σ : String → String} {c : Constraint} :
    c.mapColumns σ = c ↔ ∀ n ∈ c.ownColumns, σ n = n := by
  cases c with
  | primaryKey n columns => simp [mapColumns, ownColumns, map_eq_self_iff]
  | unique n columns => simp [mapColumns, ownColumns, map_eq_self_iff]
  | foreignKey k => simp [mapColumns, ownColumns, ForeignKey.with_eq_self_iff, map_eq_self_iff]
  | check n e own => cases own <;> simp [mapColumns, ownColumns]

/-- a constraint stays the same exactly if its names do -/
theorem Constraint.renamedFor_eq_self_iff {key : String} {own : Bool} {σ : String → String} {c : Constraint} :
    c.renamedFor d key own σ = c ↔ ∀ n ∈ c.namesFor d key own, σ n = n := by
  cases isKey : c.foreignKey? with
  | none =>
    have plain : (if own then c.mapColumns σ else c).foreignKey? = none := by
      cases own with
      | true => exact (OwnChange.ofColumns (d := d) σ).other c isKey
      | false => exact isKey
    rw [renamedFor, mapKey_of_foreignKey?_eq_none plain, namesFor, isKey, List.append_nil]
    cases own with
    | true => exact mapColumns_eq_self_iff
    | false => simp
  | some k =>
    obtain rfl : c = .foreignKey k := by
      cases c with
      | foreignKey => exact congrArg _ (Option.some.inj isKey)
      | _ => contradiction
    have names : (Constraint.foreignKey k).namesFor d key own =
        (if own then k.columns else []) ++ if k.targetKey d = key then k.targetColumns else [] := rfl
    rw [names, List.forall_mem_append]
    -- neither list of names has a say in the target
    have target : ({ k with columns := k.columns.map σ } : ForeignKey).targetKey d = k.targetKey d := rfl
    cases own with
    | true =>
      by_cases here : k.targetKey d = key
      · simp [renamedFor, mapColumns, mapKey, target, here, ForeignKey.mapTarget, ForeignKey.with_eq_self_iff,
          map_eq_self_iff]
      · simp [renamedFor, mapColumns, mapKey, target, here, ForeignKey.with_eq_self_iff, map_eq_self_iff]
    | false =>
      by_cases here : k.targetKey d = key
      · simp [renamedFor, mapKey, here, ForeignKey.mapTarget, ForeignKey.with_eq_self_iff, map_eq_self_iff]
      · simp [renamedFor, mapKey, here]

theorem Index.mapColumns_eq_self_iff {σ : String → String} {i : Index} :
    i.mapColumns σ = i ↔ (i.isExpression = false → ∀ n ∈ i.columns, σ n = n) := by
  unfold mapColumns
  split_ifs with expression
  · simp [expression]
  · have plain : i.isExpression = false := by simpa using expression
    have same : ({ i with columns := i.columns.map σ } : Index) = i ↔ i.columns.map σ = i.columns := by
      cases i
      simp
    rw [same, map_eq_self_iff]
    exact ⟨fun h _ => h, fun h => h plain⟩

/-- a table under the new name of a column of the table of a key -/
def Draft.renamedFor (d : Dialect) (key old new : String) (x : Draft) : Draft :=
  (if x.key == key then x.renameColumn d old new else x).mapKeysTo d key (.mapTarget (d.renaming old new))

namespace Draft

variable {x : Draft} {key old new : String}

theorem constraints_renamedFor (h : x.Regular d limit) : (x.renamedFor d key old new).toTable.constraints =
    x.toTable.constraints.map (·.renamedFor d key (x.key == key) (d.renaming old new)) := by
  rw [renamedFor, mapKeysTo, toTable_mapForeignKeys]
  cases x.key == key with
  | true =>
    rw [if_pos rfl, toTable_renameColumn h]
    exact List.map_map ..
  | false => rfl

theorem indexes_renamedFor : (x.renamedFor d key old new).indexes =
    if x.key == key then x.indexes.map (Index.mapColumns (d.renaming old new)) else x.indexes := by
  unfold renamedFor
  split_ifs <;> rfl

theorem length_indexes_renamedFor : (x.renamedFor d key old new).indexes.length = x.indexes.length := by
  rw [indexes_renamedFor]
  split_ifs
  · exact List.length_map ..
  · rfl

/-- constraints and indexes stay the same exactly if their names for columns of the table do -/
theorem renamedFor_same_iff (h : x.Regular d limit) :
    ((x.renamedFor d key old new).toTable.constraints = x.toTable.constraints ∧
      (x.renamedFor d key old new).indexes = x.indexes) ↔
    ∀ n ∈ x.namesFor d key, d.renaming old new n = n := by
  have indexes : (x.renamedFor d key old new).indexes = x.indexes ↔
      ∀ n ∈ if x.key == key then (x.indexes.filter (!·.isExpression)).flatMap (·.columns) else [],
        d.renaming old new n = n := by
    rw [indexes_renamedFor]
    split_ifs
    · rw [map_eq_self_iff]
      simp only [Index.mapColumns_eq_self_iff, List.mem_flatMap, List.mem_filter, Bool.not_eq_true']
      exact ⟨fun h n ⟨i, ⟨hi, plain⟩, hn⟩ => h i hi plain n hn, fun h i hi plain n hn => h n ⟨i, ⟨hi, plain⟩, hn⟩⟩
    · simp
  rw [constraints_renamedFor h, map_eq_self_iff, indexes, namesFor, List.forall_mem_append]
  simp only [Constraint.renamedFor_eq_self_iff, List.mem_flatMap]
  refine and_congr_left fun _ => ?_
  exact ⟨fun h n ⟨c, hc, hn⟩ => h c hc n hn, fun h c hc n hn => h n ⟨c, hc, hn⟩⟩

end Draft

/-! ## Additions -/

/-- the primary key of a table names a column -/
def Draft.KeyNames (d : Dialect) (t : Draft) (name : String) : Prop :=
  ∃ n ∈ t.primaryKey?.getD [], d.sameName name n = true

/-- a column is NOT NULL if the primary key names it -/
def Draft.KeyRequired (d : Dialect) (t : Draft) (name : String) : Prop :=
  t.KeyNames d name → ∀ a ∈ t.columns, d.sameName a.name name = true → a.nullable = false

/-- a column is as it was, or is NOT NULL because the primary key of its table names it -/
def Column.KeptIn (d : Dialect) (t : Draft) (a b : Column) : Prop :=
  b = a ∨ b = { a with nullable := false } ∧ t.KeyNames d a.name

/-- what becomes of a table to which constraints and indexes are added -/
structure Draft.Grows (d : Dialect) (t t' : Draft) : Prop where
  only : t' = { t with columns := t'.columns, constraints := t'.constraints, indexes := t'.indexes }
  columns : List.Forall₂ (Column.KeptIn d t') t.columns t'.columns
  constraints : t.toTable.constraints <+: t'.toTable.constraints
  indexes : t.indexes <+: t'.indexes
  required : ∀ name, t.KeyRequired d name → t'.KeyRequired d name

theorem forall₂_trans {α β γ : Type} {R : α → β → Prop} {S : β → γ → Prop} {T : α → γ → Prop}
    (compose : ∀ a b c, R a b → S b c → T a c) {as : List α} {bs : List β} {cs : List γ}
    (first : List.Forall₂ R as bs) (second : List.Forall₂ S bs cs) : List.Forall₂ T as cs := by
  induction first generalizing cs with
  | nil =>
    cases second
    exact .nil
  | cons here _ ih =>
    cases second with
    | cons there rest => exact .cons (compose _ _ _ here there) (ih rest)

theorem forall₂_and {α β : Type} {R S : α → β → Prop} {as : List α} {bs : List β} (first : List.Forall₂ R as bs)
    (second : List.Forall₂ S as bs) : List.Forall₂ (fun a b => R a b ∧ S a b) as bs := by
  rw [List.forall₂_iff_zip] at first second ⊢
  exact ⟨first.1, fun pair => ⟨first.2 pair, second.2 pair⟩⟩

/-- prefixes of one list are the same if they are of the same length -/
theorem eq_of_prefixes {α : Type} {l l₁ l₂ : List α} (first : l₁ <+: l) (second : l₂ <+: l)
    (lengths : l₁.length = l₂.length) : l₁ = l₂ :=
  (List.prefix_of_prefix_length_le first second (Nat.le_of_eq lengths)).eq_of_length lengths

namespace Draft

variable {t t' t'' : Draft}

theorem Grows.refl (t : Draft) : t.Grows d t where
  only := rfl
  columns := List.forall₂_same.2 fun _ _ => Or.inl rfl
  constraints := List.prefix_rfl
  indexes := List.prefix_rfl
  required _ := id

/-- a primary key stays what it is -/
theorem primaryKey?_of_kept (kept : t.toTable.constraints <+: t'.toTable.constraints) {names : List String}
    (key : t.primaryKey? = some names) : t'.primaryKey? = some names := by
  obtain ⟨added, e⟩ := kept
  rw [primaryKey?, Table.primaryKey?] at key ⊢
  rw [← e, List.findSome?_append, key, Option.some_or]

theorem KeyNames.of_kept {name : String} (names : t.KeyNames d name)
    (kept : t.toTable.constraints <+: t'.toTable.constraints) : t'.KeyNames d name := by
  obtain ⟨n, hn, same⟩ := names
  cases key : t.primaryKey? with
  | none =>
    rw [key] at hn
    exact absurd hn List.not_mem_nil
  | some names =>
    rw [key] at hn
    exact ⟨n, by rwa [primaryKey?_of_kept kept key], same⟩

theorem Grows.trans (first : t.Grows d t') (second : t'.Grows d t'') : t.Grows d t'' where
  only := by rw [second.only, first.only]
  columns := by
    refine forall₂_trans (fun a b c here there => ?_) first.columns second.columns
    rcases here with rfl | ⟨rfl, names⟩
    · exact there
    · refine Or.inr ⟨?_, names.of_kept second.constraints⟩
      rcases there with rfl | ⟨rfl, -⟩ <;> rfl
  constraints := first.constraints.trans second.constraints
  indexes := first.indexes.trans second.indexes
  required name h := second.required name (first.required name h)

theorem primaryKey?_addPlaced (c : Constraint) (position : Position) (source : Option String) :
    (t.addPlaced c position source).primaryKey? = t.primaryKey?.or c.primaryColumns? := by
  rw [primaryKey?, Table.primaryKey?, toTable_addPlaced, List.findSome?_append, List.findSome?_singleton]
  rfl

theorem addPlaced_grows {c : Constraint} (other : c.isPrimaryKey = false) (position : Position)
    (source : Option String) : t.Grows d (t.addPlaced c position source) where
  only := rfl
  columns := List.forall₂_same.2 fun _ _ => Or.inl rfl
  constraints := by
    rw [toTable_addPlaced]
    exact List.prefix_append _ _
  indexes := List.prefix_rfl
  required name h := by
    have same : (t.addPlaced c position source).primaryKey? = t.primaryKey? := by
      rw [primaryKey?_addPlaced]
      cases c with
      | primaryKey => simp [Constraint.isPrimaryKey] at other
      | _ => exact Option.or_none
    rintro ⟨n, hn, named⟩
    exact h ⟨n, same ▸ hn, named⟩

/-- the columns of a first primary key are NOT NULL -/
theorem addPrimaryKey_grows (h : t.Regular d limit) (absent : t.primaryKey? = none) (name : Option String)
    (columns : List String) (position : Position) (source : Option String) :
    t.Grows d ((t.requireValues d columns).addPlaced (.primaryKey name columns) position source) := by
  have columns' := columns_requireValues (d := d) h.columns columns
  have key : ((t.requireValues d columns).addPlaced (.primaryKey name columns) position source).primaryKey? =
      some columns := by
    have before : (t.requireValues d columns).primaryKey? = none := by
      rw [requireValues_eq]
      exact absent
    rw [primaryKey?_addPlaced, before]
    rfl
  refine ⟨?_, ?_, ?_, ?_, ?_⟩
  · rw [requireValues_eq]
    rfl
  · show List.Forall₂ _ t.columns (t.requireValues d columns).columns
    rw [columns', List.forall₂_map_right_iff, List.forall₂_same]
    intro a _
    split_ifs with named
    · obtain ⟨n, hn, same⟩ := List.any_eq_true.1 named
      exact Or.inr ⟨rfl, n, by rwa [key], same⟩
    · exact Or.inl rfl
  · rw [toTable_addPlaced, requireValues_eq]
    exact List.prefix_append _ _
  · rw [requireValues_eq]
    exact List.prefix_rfl
  · rintro other - ⟨n, hn, named⟩ a ha same
    rw [key] at hn
    have ha : a ∈ (t.requireValues d columns).columns := ha
    rw [columns', List.mem_map] at ha
    obtain ⟨b, -, rfl⟩ := ha
    have meant : columns.any (d.sameName b.name) = true := by
      refine List.any_eq_true.2 ⟨n, hn, Dialect.sameName_iff.2 ?_⟩
      have own : d.foldName b.name = d.foldName other := by
        rw [← Dialect.sameName_iff]
        split_ifs at same <;> exact same
      exact own.trans (Dialect.sameName_iff.1 named)
    rw [if_pos meant]

theorem addConstraint_grows (h : t.Regular d limit) {source : Option String} {clause : ConstraintClause}
    (added : t.addConstraint d source clause = .ok t') : t.Grows d t' := by
  rcases addConstraint_eq_ok added with
    ⟨absent, name, columns, position, rfl⟩ | ⟨c, position, other, rfl⟩ | ⟨index, rfl⟩
  · exact addPrimaryKey_grows h absent name columns position source
  · exact addPlaced_grows other position source
  · exact ⟨rfl, List.forall₂_same.2 fun _ _ => Or.inl rfl, List.prefix_rfl, List.prefix_append _ _, fun _ => id⟩

end Draft

namespace Workspace

variable {w w' : Workspace}

/-- what becomes of a schema when constraints and indexes are added to the table of a key -/
def GrowsAt (d : Dialect) (key : String) (w w' : Workspace) : Prop :=
  List.Forall₂ (fun x x' : Draft => x.Grows d x' ∧ (x.key ≠ key → x' = x)) w.tables w'.tables

theorem growsAt_of_tables {key : String} (same : w'.tables = w.tables) : w.GrowsAt d key w' := by
  unfold GrowsAt
  rw [same, List.forall₂_same]
  exact fun x _ => ⟨Draft.Grows.refl x, fun _ => rfl⟩

theorem GrowsAt.trans {w'' : Workspace} {key : String} (first : w.GrowsAt d key w') (second : w'.GrowsAt d key w'') :
    w.GrowsAt d key w'' := by
  refine forall₂_trans (fun x y z here there => ⟨here.1.trans there.1, fun other => ?_⟩) first second
  have same := here.2 other
  rw [same] at there
  exact there.2 other

/-- an attempt to add a constraint or an index adds it, or only records a problem -/
theorem growsAt_attempt (h : w.Regular d limit) {key : String} {position : Position} {source source' : Option String}
    {clause : ConstraintClause}
    (run : (w.attempt position source fun w => w.onTable key fun t => t.addConstraint d source' clause) = .ok w') :
    w.GrowsAt d key w' := by
  unfold attempt at run
  split at run
  · rename_i w₁ changed
    rw [← Except.ok.inj run]
    dsimp only [onTable] at changed
    split at changed
    · exact growsAt_of_tables (congrArg _ (Except.ok.inj changed)).symm
    · rename_i t found
      obtain ⟨t', added, rfl⟩ := map_eq_ok_iff.1 changed
      obtain ⟨ht, own⟩ := table?_eq_some found
      have grows := Draft.addConstraint_grows (h.each t ht) added
      refine List.forall₂_map_right_iff.2 (List.forall₂_same.2 fun x hx => ?_)
      split_ifs with here
      · have same : x = t := h.eq_of_key hx ht ((beq_iff_eq.1 here).trans own.symm)
        rw [same]
        exact ⟨grows, fun other => absurd own other⟩
      · exact ⟨Draft.Grows.refl x, fun _ => rfl⟩
  · rw [← Except.ok.inj run]
    exact growsAt_of_tables rfl
  · contradiction

theorem growsAt_addConstraints {key : String} {source : Option String} {clauses : List ConstraintClause}
    (h : w.Regular d limit) (run : w.addConstraints d key source clauses = .ok w') : w.GrowsAt d key w' := by
  have both : w'.Regular d limit ∧ w.GrowsAt d key w' := by
    refine foldlM_keeps (P := fun v => v.Regular d limit ∧ w.GrowsAt d key v) ?_ ⟨h, growsAt_of_tables rfl⟩ run
    intro clause _ v v' ⟨regular, before⟩ run
    exact ⟨attempt_regular (onTable_keepsRegular fun _ _ sound added => Draft.addConstraint_regular sound added)
      regular run, before.trans (growsAt_attempt regular run)⟩
  exact both.2

end Workspace

/-! ## Replacement -/

namespace Draft

variable {t : Draft}

/-- a table before the new column takes its place: the old one is renamed if it has another name -/
def followed (d : Dialect) (key old : String) (clause : ColumnClause) (oldName : Option String) (x : Draft) : Draft :=
  if clause.renames d oldName then x.renamedFor d key old clause.name else x

theorem renamedFor_key {key old new : String} : (t.renamedFor d key old new).key = t.key := by
  unfold renamedFor
  split_ifs <;> rfl

theorem followed_key {key old : String} {clause : ColumnClause} {oldName : Option String} :
    (t.followed d key old clause oldName).key = t.key := by
  unfold followed
  split_ifs
  · exact renamedFor_key
  · rfl

/-- a column as it takes its place: NOT NULL if the primary key has its very name -/
def settled (t : Draft) (column : Column) : Column :=
  if (t.primaryKey?.getD []).contains column.name then { column with nullable := false } else column

/-- a name means one column at most -/
theorem Regular.sameName_iff_eq (h : t.Regular d limit) {name : String} {c : Column}
    (there : t.column? d name = some c) {a : Column} (ha : a ∈ t.columns) : d.sameName a.name name = true ↔ a = c := by
  constructor
  · intro same
    have meant := h.column?_eq ha same
    rw [there] at meant
    exact (Option.some.inj meant).symm
  · rintro rfl
    exact Dialect.sameName_iff.2 (column?_eq_some there).2

/-- one column is replaced -/
theorem columns_replaceColumn (h : t.Regular d limit) {name : String} {c : Column} (there : t.column? d name = some c)
    (column : Column) : (t.replaceColumn d name column).columns =
      t.columns.map fun a => if a = c then t.settled column else a := by
  refine (updateColumn_go_eq_map h.columns).trans (List.map_congr_left fun a ha => ?_)
  by_cases here : a = c
  · rw [if_pos ((h.sameName_iff_eq there ha).2 here), if_pos here]
    rfl
  · rw [if_neg (mt (h.sameName_iff_eq there ha).1 here), if_neg here]

/-- a column that is renamed and then replaced by its new name is replaced -/
theorem columns_replaceColumn_renamedFor (h : t.Regular d limit) {c : Column} (hc : c ∈ t.columns) {new : String}
    (free : ∀ a ∈ t.columns, d.sameName a.name new = false) (column : Column) :
    ((t.renamedFor d t.key c.name new).replaceColumn d new column).columns =
      t.columns.map fun a => if a = c then (t.renamedFor d t.key c.name new).settled column else a := by
  have named : t.column? d c.name = some c := h.column?_eq hc (Dialect.sameName_refl d c.name)
  have columns : (t.renamedFor d t.key c.name new).columns =
      t.columns.map fun a => if a = c then { c with name := new } else a := by
    unfold renamedFor
    rw [if_pos (beq_self_eq_true t.key)]
    refine (columns_renameColumn_eq h c.name new).trans (List.map_congr_left fun a ha => ?_)
    unfold Dialect.renaming
    by_cases here : a = c
    · rw [if_pos ((h.sameName_iff_eq named ha).2 here), if_pos here, here]
    · rw [if_neg (mt (h.sameName_iff_eq named ha).1 here), if_neg here]
  have regular : (t.renamedFor d t.key c.name new).Regular d limit := by
    unfold renamedFor
    rw [if_pos (beq_self_eq_true t.key)]
    refine mapForeignKeys_regular (renameColumn_regular h fun a ha same => ?_) _
    have other := free a ha
    rw [Dialect.sameName_iff.2 same] at other
    contradiction
  have there : (t.renamedFor d t.key c.name new).column? d new = some { c with name := new } := by
    refine regular.column?_eq ?_ (Dialect.sameName_refl d new)
    rw [columns]
    exact List.mem_map.2 ⟨c, hc, if_pos rfl⟩
  rw [columns_replaceColumn regular there, columns, List.map_map]
  refine List.map_congr_left fun a ha => ?_
  simp only [Function.comp_apply]
  by_cases here : a = c
  · rw [if_pos here, if_pos rfl, if_pos here]
  · have other : a ≠ { c with name := new } := by
      intro e
      have taken := free a ha
      rw [e, Dialect.sameName_refl] at taken
      contradiction
    rw [if_neg here, if_neg other, if_neg here]

/-- of a table that is followed by its names, no more than those changes -/
theorem followed_only {key old : String} {clause : ColumnClause} {oldName : Option String} :
    t.followed d key old clause oldName = { t with
      columns := (t.followed d key old clause oldName).columns
      constraints := (t.followed d key old clause oldName).constraints
      indexes := (t.followed d key old clause oldName).indexes } := by
  unfold followed renamedFor
  split_ifs <;> rfl

theorem columns_followed_of_ne {key old : String} {clause : ColumnClause} {oldName : Option String}
    (other : t.key ≠ key) : (t.followed d key old clause oldName).columns = t.columns := by
  have apart : ¬(t.key == key) = true := by simpa using other
  unfold followed renamedFor
  rw [if_neg apart]
  split_ifs <;> rfl

theorem columns_followed (h : t.Regular d limit) {clause : ColumnClause} {oldName : Option String} {c : Column}
    (there : t.column? d (clause.addressed oldName) = some c)
    (free : clause.renames d oldName = true → ∀ a ∈ t.columns, d.sameName a.name clause.name = false)
    (column : Column) :
    ((t.followed d t.key c.name clause oldName).replaceColumn d (clause.replaced d oldName) column).columns =
      t.columns.map fun a => if a = c then (t.followed d t.key c.name clause oldName).settled column else a := by
  unfold followed ColumnClause.replaced
  by_cases renames : clause.renames d oldName = true
  · simp only [if_pos renames]
    exact columns_replaceColumn_renamedFor h (column?_eq_some there).1 (free renames) column
  · simp only [if_neg renames]
    exact columns_replaceColumn h there column

theorem primaryKey?_renamedFor (h : t.Regular d limit) {old new : String} :
    (t.renamedFor d t.key old new).primaryKey? = t.primaryKey?.map (·.map (d.renaming old new)) := by
  unfold renamedFor
  rw [if_pos (beq_self_eq_true t.key), mapKeysTo, (sameTarget_mapForeignKeys _).primaryKey, primaryKey?,
    toTable_renameColumn h, Table.primaryKey?_mapColumns]
  rfl

/-- no name of the primary key means a column that is not there, so only the renamed column has the new name -/
theorem eq_of_mem_renamed (covered : t.toTable.Covered d) {old new : String}
    (free : ∀ a ∈ t.columns, d.sameName a.name new = false) {n : String}
    (hn : n ∈ (t.primaryKey?.map (·.map (d.renaming old new))).getD []) (same : d.sameName new n = true) : n = new := by
  cases key : t.primaryKey? with
  | none =>
    rw [key] at hn
    exact absurd hn List.not_mem_nil
  | some names =>
    rw [key] at hn
    obtain ⟨m, hm, rfl⟩ := List.mem_map.1 hn
    unfold Dialect.renaming at same ⊢
    split_ifs at same ⊢
    · rfl
    · obtain ⟨x, hx, e⟩ := List.mem_map.1 (covered.primaryKey key m hm)
      obtain ⟨a, ha, rfl⟩ := List.mem_map.1 hx
      have taken : d.sameName a.name new = true :=
        Dialect.sameName_iff.2 (e.trans (Dialect.sameName_iff.1 same).symm)
      rw [free a ha] at taken
      contradiction

/-- a column that has become NOT NULL in its place is named by the primary key -/
theorem keptIn_of_settled {t' : Draft} {column b : Column} (kept : Column.KeptIn d t' (t.settled column) b)
    (constraints : t.toTable.constraints <+: t'.toTable.constraints) : Column.KeptIn d t' column b := by
  unfold settled at kept
  split_ifs at kept with named
  · have names : t.KeyNames d column.name :=
      ⟨column.name, List.contains_iff_mem.1 named, Dialect.sameName_refl d column.name⟩
    refine Or.inr ⟨?_, names.of_kept constraints⟩
    rcases kept with rfl | ⟨rfl, -⟩ <;> rfl
  · exact kept

end Draft

namespace Workspace

variable {w w' : Workspace} {t : Draft}

theorem tables_refactor (key old new : String) :
    (w.refactor d key (·.renameColumn d old new) (.mapTarget (d.renaming old new))).tables =
      w.tables.map (·.renamedFor d key old new) :=
  List.map_map ..

/-- a column that gets the name of no other column is renamed wherever it is named -/
theorem renameColumn_eq_ok {key old new : String} {w₁ : Workspace} (found : w.table? key = some t) {c : Column}
    (there : t.column? d old = some c) (run : renameColumn d key old new w = .ok w₁) :
    w₁ = w.refactor d key (·.renameColumn d c.name new) (.mapTarget (d.renaming c.name new)) ∧
      (d.sameName old new = false → ∀ a ∈ t.columns, d.sameName a.name new = false) := by
  unfold renameColumn at run
  rw [found] at run
  simp only [bind_eq_ok_iff] at run
  obtain ⟨column, named, run⟩ := run
  obtain rfl : c = column := by
    rw [Draft.requireColumn_eq_ok_iff, there] at named
    exact Option.some.inj named
  split_ifs at run with taken
  · exact absurd run (by simp [Draft.problem_eq_ok_iff])
  · refine ⟨(pure_eq_ok_iff.1 run).symm, fun other a ha => ?_⟩
    have absent : t.column? d new = none := by simpa [other] using taken
    exact Bool.eq_false_iff.2 fun same => Draft.column?_eq_none absent a ha (Dialect.sameName_iff.1 same)

/-- What a replacement comes to: the old column is renamed if it has another name, the new one takes its place, and
additions follow. -/
theorem modifyColumn_grows (h : w.Regular d limit) {site : Site} {key : String} {clause : ColumnClause}
    {oldName : Option String} (found : w.table? key = some t)
    (run : modifyColumn d site key clause oldName w = .ok w') :
    ∃ c reading, t.column? d (clause.addressed oldName) = some c ∧ readType? d w.enums clause.type = .ok reading ∧
      (clause.renames d oldName = true → ∀ a ∈ t.columns, d.sameName a.name clause.name = false) ∧
      List.Forall₂ (fun x x' : Draft =>
        (if x.key = key then (x.followed d key c.name clause oldName).replaceColumn d (clause.replaced d oldName)
            (clause.toColumn reading)
          else x.followed d key c.name clause oldName).Grows d x' ∧
        (x.key ≠ key → x' = x.followed d key c.name clause oldName)) w.tables w'.tables := by
  rw [modifyColumn_eq found] at run
  simp only [bind_eq_ok_iff, settle_eq_ok_iff] at run
  obtain ⟨c, named, w₁, renamed, label, -, reading, read, run⟩ := run
  have there := Draft.requireColumn_eq_ok_iff.1 named
  obtain ⟨regular, enums, free, tables⟩ : w₁.Regular d limit ∧ w₁.enums = w.enums ∧
      (clause.renames d oldName = true → ∀ a ∈ t.columns, d.sameName a.name clause.name = false) ∧
      w₁.tables = w.tables.map (·.followed d key c.name clause oldName) := by
    unfold Draft.followed
    split_ifs at renamed ⊢ with renames
    · obtain ⟨made, free⟩ := renameColumn_eq_ok found there renamed
      refine ⟨renameColumn_keepsRegular key _ clause.name w w₁ h renamed, by rw [made]; rfl, fun _ => ?_, ?_⟩
      · refine free ?_
        simp only [ColumnClause.renames, Bool.and_eq_true, Bool.not_eq_true'] at renames
        exact renames.2
      · rw [made, tables_refactor]
    · obtain rfl := Except.ok.inj renamed
      exact ⟨h, rfl, fun here => absurd here renames, (List.map_id _).symm⟩
  have same : d.sameName (clause.replaced d oldName) (clause.toColumn reading).name = true :=
    clause.sameName_replaced oldName
  generalize reported : w₁.reportType clause.type reading _ clause.position site.source = v at run
  have tables' : v.tables = w₁.tables := reported ▸ tables_reportType ..
  have placed := (regular.of_tables tables').replaceColumn key same
  have grows := growsAt_addConstraints placed run
  refine ⟨c, reading, there, enums ▸ read, free, ?_⟩
  unfold GrowsAt updateTable at grows
  rw [tables', tables, List.map_map, List.forall₂_map_left_iff] at grows
  refine grows.imp fun x x' both => ?_
  obtain ⟨grown, others⟩ := both
  have key' : (x.followed d key c.name clause oldName).key = x.key := Draft.followed_key
  simp only [Function.comp_apply, key', beq_iff_eq] at grown others
  refine ⟨grown, fun other => ?_⟩
  rw [if_neg other, key'] at others
  exact others other

/-- One column of the table of a key is replaced, in its place. All else about the columns of tables is as it was, but a
column may be NOT NULL because the primary key names it. -/
def Replaces (d : Dialect) (key : String) (old new : Column) (w w' : Workspace) : Prop :=
  List.Forall₂ (fun x x' : Draft =>
    x' = { x with columns := x'.columns, constraints := x'.constraints, indexes := x'.indexes } ∧
    if x.key = key then
      List.Forall₂ (fun a a' => Column.KeptIn d x' (if a = old then new else a) a') x.columns x'.columns
    else x'.columns = x.columns) w.tables w'.tables

/-- A schema is in step with the new name of a column of the table of a key: what constraints, foreign keys and indexes
said of the old name they say of the new one, and the column is NOT NULL if it belongs to the primary key. -/
structure InStep (d : Dialect) (key old new : String) (w w' : Workspace) : Prop where
  /-- the constraints and indexes of each table begin with those that it had, under the new name -/
  named : List.Forall₂
    (fun x x' : Draft => x.toTable.constraints <+: x'.toTable.constraints ∧ x.indexes <+: x'.indexes)
    (w.refactor d key (·.renameColumn d old new) (.mapTarget (d.renaming old new))).tables w'.tables
  required : ∀ x' ∈ w'.tables, x'.key = key → x'.KeyRequired d new

/-- Where constraints and indexes are kept as they were, they say the same of the new name if they had no other. -/
theorem named_iff (h : w.Regular d limit) {key old new : String}
    (kept : List.Forall₂
      (fun x x' : Draft => x.toTable.constraints <+: x'.toTable.constraints ∧ x.indexes <+: x'.indexes)
      w.tables w'.tables) :
    List.Forall₂ (fun x x' : Draft => x.toTable.constraints <+: x'.toTable.constraints ∧ x.indexes <+: x'.indexes)
      (w.refactor d key (·.renameColumn d old new) (.mapTarget (d.renaming old new))).tables w'.tables ↔
    ∀ n ∈ w.namesFor d key, d.sameName n old = true → n = new := by
  rw [tables_refactor, List.forall₂_map_left_iff]
  constructor
  · intro named n hn
    obtain ⟨x, hx, hn⟩ := List.mem_flatMap.1 hn
    obtain ⟨x', -, ⟨constraints, indexes⟩, constraints', indexes'⟩ :=
      exists_of_mem_forall₂ (forall₂_and named kept).flip hx
    have lengths : (x.renamedFor d key old new).toTable.constraints.length = x.toTable.constraints.length := by
      rw [Draft.constraints_renamedFor (h.each x hx), List.length_map]
    have same := (Draft.renamedFor_same_iff (h.each x hx)).1
      ⟨eq_of_prefixes constraints constraints' lengths, eq_of_prefixes indexes indexes' Draft.length_indexes_renamedFor⟩
    exact Dialect.renamed_eq_self_iff.1 (same n hn)
  · intro spelled
    have same : ∀ x ∈ w.tables, (x.renamedFor d key old new).toTable.constraints = x.toTable.constraints ∧
        (x.renamedFor d key old new).indexes = x.indexes := by
      intro x hx
      refine (Draft.renamedFor_same_iff (h.each x hx)).2 fun n hn => ?_
      exact Dialect.renamed_eq_self_iff.2 (spelled n (List.mem_flatMap.2 ⟨x, hx, hn⟩))
    refine ((List.forall₂_and_left _ _).2 ⟨same, kept⟩).imp fun x x' ⟨⟨constraints, indexes⟩, kept, kept'⟩ => ?_
    exact ⟨constraints ▸ kept, indexes ▸ kept'⟩

section

variable {key : String} {clause : ColumnClause} {oldName : Option String} {c column : Column}

/-- a name for the column that is replaced, where it is not renamed -/
theorem sameName_of_not_renames (there : t.column? d (clause.addressed oldName) = some c)
    (stays : ¬ clause.renames d oldName = true) : d.sameName clause.name c.name = true := by
  have replaced := clause.sameName_replaced (d := d) oldName
  unfold ColumnClause.replaced at replaced
  rw [if_neg stays] at replaced
  exact Dialect.sameName_iff.2 ((Dialect.sameName_iff.1 replaced).symm.trans (Draft.column?_eq_some there).2.symm)

theorem mem_namesFor_of_primaryKey (ht : t ∈ w.tables) {n : String} (hn : n ∈ t.primaryKey?.getD []) :
    n ∈ w.namesFor d t.key := by
  refine List.mem_flatMap.2 ⟨t, ht, List.mem_append_left _ ?_⟩
  cases primary : t.primaryKey? with
  | none =>
    rw [primary] at hn
    exact absurd hn List.not_mem_nil
  | some names =>
    rw [primary] at hn
    obtain ⟨c, hc, e⟩ := List.exists_of_findSome?_eq_some primary
    refine List.mem_flatMap.2 ⟨c, hc, List.mem_append_left _ ?_⟩
    rw [if_pos (beq_self_eq_true t.key)]
    cases c with
    | primaryKey => exact Option.some.inj e ▸ hn
    | _ => contradiction

/-- exactly the addressed column is replaced -/
theorem replaces_of_grows (h : w.Regular d limit) (found : w.table? key = some t)
    (there : t.column? d (clause.addressed oldName) = some c)
    (free : clause.renames d oldName = true → ∀ a ∈ t.columns, d.sameName a.name clause.name = false)
    (grows : List.Forall₂ (fun x x' : Draft =>
      (if x.key = key then (x.followed d key c.name clause oldName).replaceColumn d (clause.replaced d oldName) column
        else x.followed d key c.name clause oldName).Grows d x' ∧
      (x.key ≠ key → x' = x.followed d key c.name clause oldName)) w.tables w'.tables) :
    w.Replaces d key c column w' := by
  obtain ⟨ht, own⟩ := table?_eq_some found
  have each := (List.forall₂_and_left w.tables w'.tables).2 ⟨fun x hx => hx, grows⟩
  refine each.imp fun x x' ⟨hx, grown, others⟩ => ?_
  by_cases here : x.key = key
  · obtain rfl : x = t := h.eq_of_key hx ht (here.trans own.symm)
    obtain rfl := own
    rw [if_pos here] at grown ⊢
    refine ⟨?_, ?_⟩
    · rw [grown.only, Draft.followed_only]
      rfl
    · have columns := grown.columns
      rw [Draft.columns_followed (h.each x hx) there free column, List.forall₂_map_left_iff] at columns
      refine columns.imp fun a a' kept => ?_
      split_ifs at kept ⊢
      · exact Draft.keptIn_of_settled kept grown.constraints
      · exact kept
  · rw [if_neg here, others here]
    refine ⟨Draft.followed_only, ?_⟩
    exact Draft.columns_followed_of_ne here

/-- a column that is renamed, or that is named in its new spelling only, is NOT NULL if it belongs to the primary key -/
theorem keyRequired_replaceColumn (h : t.Regular d limit) (covered : t.toTable.Covered d)
    (there : t.column? d (clause.addressed oldName) = some c) (named : column.name = clause.name)
    (free : clause.renames d oldName = true → ∀ a ∈ t.columns, d.sameName a.name clause.name = false)
    (spelled : clause.renames d oldName = true ∨
      ∀ n ∈ t.primaryKey?.getD [], d.sameName n c.name = true → n = clause.name) :
    ((t.followed d t.key c.name clause oldName).replaceColumn d (clause.replaced d oldName) column).KeyRequired d
      clause.name := by
  have exactly : ∀ n ∈ (t.followed d t.key c.name clause oldName).primaryKey?.getD [],
      d.sameName clause.name n = true → n = clause.name := by
    unfold Draft.followed
    by_cases renames : clause.renames d oldName = true
    · rw [if_pos renames, Draft.primaryKey?_renamedFor h]
      exact fun n => Draft.eq_of_mem_renamed covered (free renames)
    · rw [if_neg renames]
      intro n hn same
      have before := spelled.resolve_left renames
      refine before n hn (Dialect.sameName_iff.2 ((Dialect.sameName_iff.1 same).symm.trans ?_))
      exact Dialect.sameName_iff.1 (sameName_of_not_renames there renames)
  rintro ⟨n, hn, same⟩ a ha same'
  have inKey : ((t.followed d t.key c.name clause oldName).primaryKey?.getD []).contains column.name = true := by
    rw [named, ← exactly n hn same]
    exact List.contains_iff_mem.2 hn
  rw [Draft.columns_followed h there free column, List.mem_map] at ha
  obtain ⟨b, hb, rfl⟩ := ha
  split_ifs at same' ⊢ with here
  · unfold Draft.settled
    rw [if_pos inKey]
  · by_cases renames : clause.renames d oldName = true
    · rw [free renames b hb] at same'
      contradiction
    · have meant := Dialect.sameName_iff.1 (sameName_of_not_renames there renames)
      have named := h.column?_eq (Draft.column?_eq_some there).1 (Dialect.sameName_refl d c.name)
      refine absurd ((h.sameName_iff_eq named hb).1 (Dialect.sameName_iff.2 ?_)) here
      exact (Dialect.sameName_iff.1 same').trans meant

/-- the name of the new column means it, in whatever spelling -/
theorem Replaces.column? (replaces : w.Replaces d key c column w') (found : w.table? key = some t) (hc : c ∈ t.columns)
    (h : w'.Regular d limit) : ∃ t' a, w'.table? key = some t' ∧ a.name = column.name ∧
      ∀ n, d.sameName n column.name = true → t'.column? d n = some a := by
  obtain ⟨ht, own⟩ := table?_eq_some found
  obtain ⟨t', ht', only, columns⟩ := exists_of_mem_forall₂ replaces.flip ht
  rw [if_pos own] at columns
  obtain ⟨a, ha, kept⟩ := exists_of_mem_forall₂ columns.flip hc
  have named : a.name = column.name := by
    rcases kept with rfl | ⟨rfl, -⟩ <;> simp
  have key' : t'.key = key := by
    rw [only]
    exact own
  refine ⟨t', a, key' ▸ h.table?_key ht', named, fun n same => (h.each t' ht').column?_eq ha ?_⟩
  rw [named]
  exact Dialect.sameName_iff.2 (Dialect.sameName_iff.1 same).symm

/-- Replacing a column of a table. Exactly the column that is addressed is replaced, in its place. Constraints,
foreign keys and indexes that named it name the new column by its very name, and it is NOT NULL if it belongs to the
primary key, exactly if the column is renamed, or is never named in another spelling than its new name. -/
theorem modifyColumn_inStep_iff (reachable : w.Reachable d) {site : Site} (found : w.table? key = some t)
    (run : modifyColumn d site key clause oldName w = .ok w') :
    ∃ c reading, t.column? d (clause.addressed oldName) = some c ∧ readType? d w.enums clause.type = .ok reading ∧
      w.Replaces d key c (clause.toColumn reading) w' ∧
      (∃ t' a, w'.table? key = some t' ∧ a.name = clause.name ∧
        ∀ n, d.sameName n clause.name = true → t'.column? d n = some a) ∧
      (w.InStep d key c.name clause.name w' ↔
        clause.renames d oldName = true ∨ ∀ n ∈ w.namesFor d key, d.sameName n c.name = true → n = clause.name) ∧
      (d.caseSensitive = true → w.InStep d key c.name clause.name w') := by
  obtain ⟨limit, h⟩ := reachable.regular
  obtain ⟨ht, own⟩ := table?_eq_some found
  have covered : t.toTable.Covered d := reachable.steps.covered (fun _ none => absurd none List.not_mem_nil) t ht
  obtain ⟨c, reading, there, read, free, grows⟩ := modifyColumn_grows h found run
  have replaces : w.Replaces d key c (clause.toColumn reading) w' :=
    replaces_of_grows h found there free grows
  have kept : List.Forall₂ (fun x x' : Draft =>
      (x.followed d key c.name clause oldName).toTable.constraints <+: x'.toTable.constraints ∧
      (x.followed d key c.name clause oldName).indexes <+: x'.indexes) w.tables w'.tables := by
    refine grows.imp fun x x' ⟨grown, _⟩ => ?_
    split_ifs at grown
    · exact ⟨grown.constraints, grown.indexes⟩
    · exact ⟨grown.constraints, grown.indexes⟩
  have required (spelled : clause.renames d oldName = true ∨
      ∀ n ∈ t.primaryKey?.getD [], d.sameName n c.name = true → n = clause.name) :
      ∀ x' ∈ w'.tables, x'.key = key → x'.KeyRequired d clause.name := by
    intro x' hx' here
    obtain ⟨x, hx, ⟨grown, -⟩, only, -⟩ := exists_of_mem_forall₂ (forall₂_and grows replaces) hx'
    have here' : x.key = key := by
      rw [only] at here
      exact here
    obtain rfl : x = t := h.eq_of_key hx ht (here'.trans own.symm)
    obtain rfl := own
    rw [if_pos here'] at grown
    exact grown.required clause.name (keyRequired_replaceColumn (h.each x hx) covered there rfl free spelled)
  have inStep : w.InStep d key c.name clause.name w' ↔
      clause.renames d oldName = true ∨ ∀ n ∈ w.namesFor d key, d.sameName n c.name = true → n = clause.name := by
    by_cases renames : clause.renames d oldName = true
    · simp only [Draft.followed, if_pos renames] at kept
      refine iff_of_true ⟨?_, required (Or.inl renames)⟩ (Or.inl renames)
      rw [tables_refactor]
      exact List.forall₂_map_left_iff.2 kept
    · simp only [Draft.followed, if_neg renames] at kept
      constructor
      · exact fun step => Or.inr ((named_iff h kept).1 step.named)
      · intro spelled
        have spelled := spelled.resolve_left renames
        refine ⟨(named_iff h kept).2 spelled, required (Or.inr fun n hn => spelled n ?_)⟩
        exact own ▸ mem_namesFor_of_primaryKey ht hn
  have meant := replaces.column? found (Draft.column?_eq_some there).1
    (modifyColumn_keepsRegular site key clause oldName w w' h run)
  refine ⟨c, reading, there, read, replaces, meant, inStep, fun exact_ => inStep.2 ?_⟩
  by_cases renames : clause.renames d oldName = true
  · exact Or.inl renames
  · refine Or.inr fun n _ same => ?_
    have new := (Dialect.sameName_iff_eq exact_).1 (sameName_of_not_renames there renames)
    exact ((Dialect.sameName_iff_eq exact_).1 same).trans new.symm

end

/-- an owner, and a pet whose owner is named in another spelling -/
def ownerAndPet : List Statement := [
  ⟨.createTable
    { name := ⟨"owner", none⟩
      columns := [{ name := "Id", type := none, position := ⟨1, 1, 0⟩ }]
      constraints := [.primaryKey ["Id"] none ⟨1, 1, 0⟩] }, ⟨1, 1, 0⟩, none⟩,
  ⟨.createTable
    { name := ⟨"pet", none⟩
      columns := [{ name := "owner", type := none, position := ⟨2, 1, 0⟩ }]
      constraints := [.foreignKey ["owner"] ⟨⟨"owner", none⟩, ["ID"], none, none⟩ none ⟨2, 1, 0⟩] }, ⟨2, 1, 0⟩, none⟩]

/-- the column of the owner under another name -/
def ownerNumber : ColumnClause := { name := "no", type := none, position := ⟨3, 1, 0⟩ }

/-- a column that is renamed takes its primary key with it, and the foreign keys to it -/
theorem modifyColumn_inStep_ownerAndPet : ∃ w t c w', w.Reachable .mysql ∧ w.table? ".owner" = some t ∧
    t.column? .mysql "id" = some c ∧
    modifyColumn .mysql ⟨⟨3, 1, 0⟩, none⟩ ".owner" ownerNumber (some "id") w = .ok w' ∧
    c.name = "Id" ∧ w.InStep .mysql ".owner" "Id" "no" w' := by
  have complete : ((afterChanges .mysql ownerAndPet 2).toOption.bind fun w => (w.table? ".owner").bind fun t =>
      (modifyColumn .mysql ⟨⟨3, 1, 0⟩, none⟩ ".owner" ownerNumber (some "id") w).toOption.map fun _ =>
        (t.column? .mysql "id").map (·.name)) = some (some "Id") := by
    decide +kernel
  obtain ⟨w, before, complete⟩ := Option.bind_eq_some_iff.1 complete
  obtain ⟨t, found, complete⟩ := Option.bind_eq_some_iff.1 complete
  obtain ⟨w', run, meant⟩ := Option.map_eq_some_iff.1 complete
  have reachable : w.Reachable .mysql :=
    ⟨ownerAndPet, 2, w, ⟨⟨3, 1, 0⟩, none⟩, [], ".owner", toOption_eq_some_iff.1 before, rfl⟩
  have run := toOption_eq_some_iff.1 run
  obtain ⟨c, _, there, -, -, -, inStep, -⟩ := modifyColumn_inStep_iff reachable found run
  have renames : ownerNumber.renames .mysql (some "id") = true := by decide +kernel
  have addressed : ownerNumber.addressed (some "id") = "id" := by decide
  rw [addressed] at there
  rw [there] at meant
  have named : c.name = "Id" := Option.some.inj meant
  exact ⟨w, t, c, w', reachable, found, there, run, named, named ▸ inStep.2 (Or.inl renames)⟩

/-- the column of the owner in another spelling -/
def ownerRespelled : ColumnClause := { name := "id", type := none, position := ⟨3, 1, 0⟩ }

/-- A column that comes back in another spelling leaves its primary key behind: it is not NOT NULL any more. -/
theorem not_inStep_ownerRespelled : ∃ w t c w' t', w.Reachable .mysql ∧ w.table? ".owner" = some t ∧
    t.column? .mysql "id" = some c ∧
    modifyColumn .mysql ⟨⟨3, 1, 0⟩, none⟩ ".owner" ownerRespelled none w = .ok w' ∧
    w'.table? ".owner" = some t' ∧ t'.primaryKey? = some ["Id"] ∧
    (t'.columns.map fun a => (a.name, a.nullable)) = [("id", true)] ∧
    ¬ w.InStep .mysql ".owner" c.name "id" w' := by
  have complete : ((afterChanges .mysql ownerAndPet 2).toOption.bind fun w => (w.table? ".owner").bind fun t =>
      (t.column? .mysql "id").bind fun _ =>
        (modifyColumn .mysql ⟨⟨3, 1, 0⟩, none⟩ ".owner" ownerRespelled none w).toOption.bind fun w' =>
          (w'.table? ".owner").map fun t' => (t'.primaryKey?, t'.columns.map fun a => (a.name, a.nullable))) =
      some (some ["Id"], [("id", true)]) := by
    decide +kernel
  obtain ⟨w, before, complete⟩ := Option.bind_eq_some_iff.1 complete
  obtain ⟨t, found, complete⟩ := Option.bind_eq_some_iff.1 complete
  obtain ⟨c, there, complete⟩ := Option.bind_eq_some_iff.1 complete
  obtain ⟨w', run, complete⟩ := Option.bind_eq_some_iff.1 complete
  obtain ⟨t', found', same⟩ := Option.map_eq_some_iff.1 complete
  obtain ⟨key, columns⟩ := Prod.mk.inj same
  have reachable : w.Reachable .mysql :=
    ⟨ownerAndPet, 2, w, ⟨⟨3, 1, 0⟩, none⟩, [], ".owner", toOption_eq_some_iff.1 before, rfl⟩
  refine ⟨w, t, c, w', t', reachable, found, there, toOption_eq_some_iff.1 run, found', key, columns, fun step => ?_⟩
  obtain ⟨ht', own⟩ := table?_eq_some found'
  obtain ⟨a, rest, all, first, -⟩ := List.map_eq_cons_iff.1 columns
  obtain ⟨named, nullable⟩ := Prod.mk.inj first
  have inKey : t'.KeyNames .mysql "id" := ⟨"Id", by rw [key]; exact List.mem_cons_self, by decide +kernel⟩
  have ha : a ∈ t'.columns := all ▸ List.mem_cons_self
  have required := step.required t' ht' own inKey a ha (named ▸ Dialect.sameName_refl .mysql "id")
  rw [nullable] at required
  contradiction

end Workspace

end SchemaApi
