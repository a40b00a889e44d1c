import SchemaApi.Proofs.Schema.Table
/-!
Changes of a schema keep it well-formed.

Every action of `ALTER TABLE` and every other statement is a change that may fail; `Keeps` says of a
change that it leads from a well-formed schema to a well-formed one whenever it succeeds. A change
that fails with a problem leaves the schema as it was, so an attempt keeps what its change keeps.
Replacing a column keeps a schema well-formed only where case counts: elsewhere the column may come
back in another spelling, and the constraints keep the old one.
-/

namespace SchemaApi

/-! ## Replacing a column -/

section

variable {d : Dialect}

/-- the name by which a column is looked up to be replaced; an empty one counts as the new name -/
def ColumnClause.addressed (clause : ColumnClause) (oldName : Option String) : String :=
  match oldName with
  | none => clause.name
  | some n => if n = "" then clause.name else n

/-- the column gets another name first, not just another spelling of its own -/
def ColumnClause.renames (d : Dialect) (clause : ColumnClause) (oldName : Option String) : Bool :=
  oldName.isSome && !d.sameName (clause.addressed oldName) clause.name

/-- the name of the column when it is replaced -/
def ColumnClause.replaced (d : Dialect) (clause : ColumnClause) (oldName : Option String) : String :=
  if clause.renames d oldName then clause.name else clause.addressed oldName

/-- the column takes the place of the one that a name means, and is NOT NULL if the primary key has its name -/
def Draft.replaceColumn (d : Dialect) (t : Draft) (name : String) (column : Column) : Draft :=
  t.updateColumn d name fun _ =>
    if (t.primaryKey?.getD []).contains column.name then { column with nullable := false } else column

/-- where the column is replaced it has the new name, whatever the spelling -/
theorem ColumnClause.sameName_replaced (clause : ColumnClause) (oldName : Option String) :
    d.sameName (clause.replaced d oldName) clause.name = true := by
  unfold replaced
  by_cases renames : clause.renames d oldName = true
  · rw [if_pos renames]
    exact Dialect.sameName_refl ..
  · rw [if_neg renames]
    cases oldName with
    | none => exact Dialect.sameName_refl ..
    | some n => simpa [ColumnClause.renames] using renames

end

namespace Workspace

variable {d : Dialect} {w w' : Workspace}

/-- the change keeps tables well-formed -/
def Keeps (d : Dialect) (change : Change) : Prop :=
  ∀ w w', w.WellFormed d → change w = .ok w' → w'.WellFormed d

theorem settle_eq_ok_iff {α : Type} {x : Except Refusal α} {a : α} : settle x = .ok a ↔ x = .ok a :=
  mapError_eq_ok_iff

/-! ## Tables of a schema -/

theorem table?_eq_some {key : String} {t : Draft} (h : w.table? key = some t) :
    t ∈ w.tables ∧ t.key = key :=
  ⟨List.mem_of_find?_eq_some h, by simpa using List.find?_some h⟩

theorem table?_eq_none {key : String} (h : w.table? key = none) : ∀ t ∈ w.tables, t.key ≠ key := by
  intro t ht e
  exact List.find?_eq_none.1 h t ht (by simpa using e)

theorem WellFormed.draft (h : w.WellFormed d) {t : Draft} (ht : t ∈ w.tables) : t.toTable.WellFormed d :=
  h.each _ (List.mem_map_of_mem ht)

theorem WellFormed.distinctKeys (h : w.WellFormed d) : (w.tables.map (·.key)).Nodup := by
  have keys := h.keys
  rwa [List.map_map] at keys

theorem wellFormed_of_drafts (each : ∀ t ∈ w.tables, t.toTable.WellFormed d)
    (keys : (w.tables.map (·.key)).Nodup) : w.WellFormed d where
  each t ht := by
    obtain ⟨x, hx, rfl⟩ := List.mem_map.1 ht
    exact each x hx
  keys := by rw [List.map_map]; exact keys

theorem WellFormed.of_tables (h : w.WellFormed d) (same : w'.tables = w.tables) : w'.WellFormed d := by
  unfold Workspace.WellFormed
  rw [same]; exact h

@[simp] theorem tables_record (p : Problem) (position : Position) (source : Option String) :
    (w.record p position source).tables = w.tables := rfl

@[simp] theorem tables_reportType (type : Option TypeName) (reading : TypeReading) (place : String)
    (position : Position) (source : Option String) :
    (w.reportType type reading place position source).tables = w.tables := by
  unfold reportType
  split_ifs <;> rfl

theorem table?_reportType (type : Option TypeName) (reading : TypeReading) (place : String)
    (position : Position) (source : Option String) (key : String) :
    (w.reportType type reading place position source).table? key = w.table? key := by
  simp [table?]

/-- all tables may change, but not their keys -/
theorem WellFormed.mapTables (h : w.WellFormed d) {f : Draft → Draft}
    (kept : ∀ t ∈ w.tables, t.toTable.WellFormed d → (f t).toTable.WellFormed d ∧ (f t).key = t.key) :
    WellFormed d { w with tables := w.tables.map f } := by
  refine wellFormed_of_drafts (fun t ht => ?_) ?_
  · obtain ⟨x, hx, rfl⟩ := List.mem_map.1 ht
    exact (kept x hx (h.draft hx)).1
  · have same : (w.tables.map f).map (·.key) = w.tables.map (·.key) := by
      rw [List.map_map]
      exact List.map_congr_left fun t ht => (kept t ht (h.draft ht)).2
    rw [same]; exact h.distinctKeys

theorem WellFormed.eq_of_key (h : w.WellFormed d) {x y : Draft} (hx : x ∈ w.tables) (hy : y ∈ w.tables)
    (same : x.key = y.key) : x = y :=
  List.inj_on_of_nodup_map h.distinctKeys hx hy same

/-- the table of a key may change, but not its key -/
theorem WellFormed.updateTable (h : w.WellFormed d) {key : String} {t : Draft} {f : Draft → Draft}
    (found : w.table? key = some t) (kept : (f t).toTable.WellFormed d ∧ (f t).key = t.key) :
    (w.updateTable key f).WellFormed d := by
  obtain ⟨ht, hkey⟩ := table?_eq_some found
  refine h.mapTables fun x hx sound => ?_
  split_ifs with here
  · rw [h.eq_of_key hx ht ((by simpa using here : x.key = key).trans hkey.symm)]
    exact kept
  · exact ⟨sound, rfl⟩

/-- the table of a key, changed, is still the table of its key -/
theorem table?_updateTable {key : String} {t : Draft} {f : Draft → Draft} (found : w.table? key = some t)
    (same : ∀ t, (f t).key = t.key) : (w.updateTable key f).table? key = some (f t) := by
  have kept : ((fun t : Draft => t.key == key) ∘ fun t => if t.key == key then f t else t)
      = fun t => t.key == key := by
    funext x
    simp only [Function.comp_apply]
    split_ifs <;> simp [same]
  unfold table? updateTable at *
  rw [List.find?_map, kept, found]
  simp [(table?_eq_some found).2]

theorem WellFormed.dropTable (h : w.WellFormed d) (key : String) : (w.dropTable key).WellFormed d :=
  wellFormed_of_drafts (fun _ ht => h.draft (List.mem_of_mem_filter ht))
    (h.distinctKeys.sublist (List.filter_sublist.map _))

theorem dropForeignKeysTo_wellFormed (h : w.WellFormed d) (key : String) (column : Option String) :
    WellFormed d { w with tables := w.tables.map (·.dropForeignKeysTo d key column) } :=
  h.mapTables fun _ _ sound => (Draft.loses_dropForeignKeysTo key column).wellFormed sound

/-! ## Attempts -/

/-- an attempt keeps what its change keeps -/
theorem attempt_wellFormed {position : Position} {source : Option String} {change : Change}
    (keeps : Keeps d change) (h : w.WellFormed d) (run : w.attempt position source change = .ok w') :
    w'.WellFormed d := by
  unfold attempt at run
  split at run
  · rename_i w'' changed
    rw [← Except.ok.inj run]; exact keeps w w'' h changed
  · rw [← Except.ok.inj run]; exact h.of_tables rfl
  · simp at run

theorem onTable_keeps {key : String} {change : Draft → Except Failure Draft}
    (kept : ∀ t t', t.toTable.WellFormed d → change t = .ok t' → t'.toTable.WellFormed d ∧ t'.key = t.key) :
    Keeps d fun w => w.onTable key change := by
  intro w w' h run
  simp only [onTable] at run
  split at run
  · rw [← Except.ok.inj run]; exact h
  · rename_i t found
    obtain ⟨t', changed, rfl⟩ := map_eq_ok_iff.1 run
    exact h.updateTable found (kept t t' (h.draft (table?_eq_some found).1) changed)

theorem addConstraints_wellFormed {key : String} {source : Option String} {clauses : List ConstraintClause}
    (h : w.WellFormed d) (run : w.addConstraints d key source clauses = .ok w') : w'.WellFormed d := by
  refine foldlM_keeps (P := WellFormed d) ?_ h run
  intro clause _ w w' h run
  exact attempt_wellFormed (onTable_keeps fun t t' sound added => Draft.addConstraint_wellFormed sound added) h run

/-! ## Actions of ALTER TABLE -/

theorem addColumn_keeps (key : String) (source : Option String) (clause : ColumnClause) :
    Keeps d (addColumn d key source clause) := by
  intro w w' h run
  unfold addColumn at run
  split at run
  · rw [← Except.ok.inj run]; exact h
  · rename_i t found
    split_ifs at run with present
    · exact absurd run (by simp [Draft.problem_eq_ok_iff])
    · simp only [bind_eq_ok_iff, settle_eq_ok_iff] at run
      obtain ⟨label, -, reading, -, run⟩ := run
      refine addConstraints_wellFormed ?_ run
      refine (h.of_tables (tables_reportType ..)).updateTable ((table?_reportType ..).trans found) ⟨?_, rfl⟩
      exact (h.draft (table?_eq_some found).1).addColumn
        (@Draft.column?_eq_none d t clause.name (by simpa using present))

theorem dropColumn_keeps (site : Site) (key name : String) (ifExists cascade : Bool) :
    Keeps d (dropColumn d site key name ifExists cascade) := by
  intro w w' h run
  unfold dropColumn at run
  split at run
  · rw [← Except.ok.inj run]; exact h
  · rename_i t found
    split at run
    · split_ifs at run
      · simp only [bind_eq_ok_iff, pure_eq_ok_iff] at run
        obtain ⟨_, _, rfl⟩ := run
        exact h.of_tables rfl
      · exact absurd run (by simp [Draft.problem_eq_ok_iff])
    · rename_i column _
      have erased : (w.updateTable key fun t => t.eraseColumn d column).WellFormed d :=
        h.updateTable found ⟨Draft.eraseColumn_wellFormed (h.draft (table?_eq_some found).1) column, rfl⟩
      split_ifs at run
      · rw [← Except.ok.inj run]; exact dropForeignKeysTo_wellFormed erased key _
      · rw [← Except.ok.inj run]; exact erased

/-- what is dropped from a table is gone; what is not there is reported, or is a problem -/
theorem dropped_eq_ok {site : Site} {key name : String} {ifExists : Bool} {t : Draft} {result : Option Draft}
    (found : w.table? key = some t) (loses : ∀ t', result = some t' → t.Loses t')
    (run : (match result with
      | some t' => (.ok (w.updateTable key fun _ => t') : Except Failure Workspace)
      | none =>
        if ifExists then do
          let label ← settle t.label?
          return w.report .info "UNKNOWN_CONSTRAINT"
            s!"DROP CONSTRAINT IF EXISTS: no constraint '{name}' on '{label}'" site.position site.source
        else t.problem (.unknownConstraint · name)) = .ok w') :
    (∃ t t', w.table? key = some t ∧ t.Loses t' ∧ w' = w.updateTable key fun _ => t') ∨
      ∃ code message, w' = w.report .info code message site.position site.source := by
  split at run
  · exact Or.inl ⟨t, _, found, loses _ rfl, (Except.ok.inj run).symm⟩
  · split_ifs at run
    · simp only [bind_eq_ok_iff, pure_eq_ok_iff] at run
      obtain ⟨_, _, rfl⟩ := run
      exact Or.inr ⟨_, _, rfl⟩
    · exact absurd run (by simp [Draft.problem_eq_ok_iff])

/-- to drop a constraint is to take something from a table, or to report that it is not there -/
theorem dropConstraint_eq_ok {site : Site} {key : String} {target : ConstraintTarget} {ifExists : Bool}
    (run : dropConstraint d site key target ifExists w = .ok w') :
    w' = w ∨ (∃ t t', w.table? key = some t ∧ t.Loses t' ∧ w' = w.updateTable key fun _ => t') ∨
      ∃ code message, w' = w.report .info code message site.position site.source := by
  unfold dropConstraint at run
  split at run
  · exact Or.inl (Except.ok.inj run).symm
  · rename_i t found
    cases target with
    | primaryKey =>
      simp only [onTable, found] at run
      obtain ⟨t', lost, rfl⟩ := map_eq_ok_iff.1 run
      exact Or.inr (Or.inl ⟨t, t', found, Draft.loses_dropPrimaryKey lost, rfl⟩)
    | named name => exact Or.inr (dropped_eq_ok found (fun _ => Draft.loses_dropNamed?) run)
    | foreignKey name => exact Or.inr (dropped_eq_ok found (fun _ => Draft.loses_dropNamed?) run)
    | index name => exact Or.inr (dropped_eq_ok found (fun _ => Draft.loses_dropIndexNamed?) run)

theorem dropConstraint_keeps (site : Site) (key : String) (target : ConstraintTarget) (ifExists : Bool) :
    Keeps d (dropConstraint d site key target ifExists) := by
  intro w w' h run
  obtain rfl | ⟨t, t', found, loses, rfl⟩ | ⟨_, _, rfl⟩ := dropConstraint_eq_ok run
  · exact h
  · exact h.updateTable found (loses.wellFormed (h.draft (table?_eq_some found).1))
  · exact h.of_tables rfl

/-- a column that is no longer NOT NULL is in no primary key -/
theorem alterColumn_keeps (site : Site) (key name : String) (setNotNull : Option Bool)
    (default : Option String) (dropDefault : Bool) (newType : Option TypeName) :
    Keeps d (alterColumn d site key name setNotNull default dropDefault newType) := by
  intro w w' h run
  unfold alterColumn at run
  split at run
  · rw [← Except.ok.inj run]; exact h
  · rename_i t found
    have sound := h.draft (table?_eq_some found).1
    simp only [bind_eq_ok_iff] at run
    obtain ⟨column, named, run⟩ := run
    obtain ⟨hcolumn, same⟩ := Draft.column?_eq_some (Draft.requireColumn_eq_ok_iff.1 named)
    by_cases nulls : setNotNull = some false ∧ (t.primaryKey?.getD []).contains column.name
    · rw [if_pos nulls] at run
      exact absurd run (by simp [Draft.problem_eq_ok_iff])
    · rw [if_neg nulls] at run
      have changed : (w.updateTable key fun t => t.updateColumn d name fun c => { c with
          nullable := (setNotNull.map (!·)).getD c.nullable
          default := if dropDefault then none else default.or c.default }).WellFormed d := by
        refine h.updateTable found ⟨Draft.updateColumn_wellFormed sound (fun _ _ _ => rfl) ?_, rfl⟩
        intro c hc here n cols hm hn hnull
        -- the column is the one that was asked about
        have e : c.name = column.name := sound.eq_of_fold (List.mem_map_of_mem hc)
          (List.mem_map_of_mem hcolumn) ((Dialect.sameName_iff.1 here).trans same.symm)
        cases setNotNull with
        | none => exact hnull
        | some b =>
          cases b with
          | true => rfl
          | false =>
            refine absurd ⟨rfl, ?_⟩ nulls
            rw [Draft.primaryKey?, sound.primaryKey?_eq hm, ← e]
            simpa using hn
      split at run
      · rw [← pure_eq_ok_iff.1 run]; exact changed
      · simp only [bind_eq_ok_iff, settle_eq_ok_iff, pure_eq_ok_iff] at run
        obtain ⟨label, -, reading, -, rfl⟩ := run
        -- the column gets its type in a second step
        have again := table?_updateTable found fun t =>
          (rfl : (t.updateColumn d name fun c => { c with
            nullable := (setNotNull.map (!·)).getD c.nullable
            default := if dropDefault then none else default.or c.default }).key = t.key)
        refine (changed.of_tables (tables_reportType ..)).updateTable ((table?_reportType ..).trans again)
          ⟨?_, rfl⟩
        exact Draft.updateColumn_wellFormed (changed.draft (table?_eq_some again).1) (fun _ _ _ => rfl)
          fun _ _ _ _ _ _ _ hnull => hnull

theorem renameColumn_keeps (key old new : String) : Keeps d (renameColumn d key old new) := by
  intro w w' h run
  unfold renameColumn at run
  split at run
  · rw [← Except.ok.inj run]; exact h
  · rename_i t found
    simp only [bind_eq_ok_iff] at run
    obtain ⟨column, named, run⟩ := run
    have same := (Draft.column?_eq_some (Draft.requireColumn_eq_ok_iff.1 named)).2
    split_ifs at run with taken
    · exact absurd run (by simp [Draft.problem_eq_ok_iff])
    · rw [← pure_eq_ok_iff.1 run]
      refine WellFormed.mapTables (h.updateTable found ⟨?_, rfl⟩) fun _ _ sound =>
        ⟨Draft.renameTargetColumn_wellFormed sound key column.name new, rfl⟩
      refine Draft.renameColumn_wellFormed (h.draft (table?_eq_some found).1) fun c hc e => ?_
      cases absent : t.column? d new with
      | none => exact absurd e (Draft.column?_eq_none absent c hc)
      | some _ =>
        have own : d.sameName old new = true := by simpa [absent] using taken
        rw [e, same, Dialect.sameName_iff.1 own]

/-- the table of a key may get another name, if no other table has the key of that name -/
theorem WellFormed.rename (h : w.WellFormed d) {key name : String} {schema : Option String}
    (free : ∀ x ∈ w.tables, x.key = d.tableKey schema name → x.key = key) :
    (w.updateTable key fun t => { t with
      name := name, schema := schema, key := d.tableKey schema name }).WellFormed d := by
  refine wellFormed_of_drafts (fun x hx => ?_) ?_
  · obtain ⟨y, hy, rfl⟩ := List.mem_map.1 hx
    have sound := h.draft hy
    split_ifs
    · exact { sound with keyed := rfl }
    · exact sound
  · have keys : (w.tables.map fun x => if x.key == key then d.tableKey schema name else x.key).Nodup := by
      refine h.distinctKeys.of_map.map_on fun x hx y hy e => h.eq_of_key hx hy ?_
      split_ifs at e with hxk hyk hyk
      · exact (beq_iff_eq.1 hxk).trans (beq_iff_eq.1 hyk).symm
      · exact absurd (free y hy e.symm) (by simpa using hyk)
      · exact absurd (free x hx e) (by simpa using hxk)
      · exact e
    simp only [Workspace.updateTable, List.map_map]
    convert keys using 3 with x
    simp only [Function.comp_apply]
    split_ifs <;> rfl

theorem renameTable_wellFormed (h : w.WellFormed d) {key key' : String} {newName : QualifiedName}
    (run : renameTable d key newName w = .ok (w', key')) : w'.WellFormed d := by
  unfold renameTable at run
  split at run
  · rw [← (Prod.mk.inj (Except.ok.inj run)).1]; exact h
  · simp only at run
    split_ifs at run with taken unnamed
    · exact absurd run (by simp [Draft.problem_eq_ok_iff])
    · rw [← (Prod.mk.inj (Except.ok.inj run)).1]
      refine WellFormed.mapTables (h.rename fun x hx e => ?_) fun _ _ sound =>
        ⟨Draft.retarget_wellFormed sound key _, rfl⟩
      rw [not_and, not_not] at taken
      refine e.trans (taken ?_)
      rw [table?, List.find?_isSome]
      exact ⟨x, hx, beq_iff_eq.2 e⟩

/-- A replacement finds its column, renames it if that is needed, puts the new column in its place and adds the
constraints that were written at it. -/
theorem modifyColumn_eq {key : String} {t : Draft} (found : w.table? key = some t) (site : Site)
    (clause : ColumnClause) (oldName : Option String) : modifyColumn d site key clause oldName w = (do
      let _ ← t.requireColumn d (clause.addressed oldName) "MODIFY COLUMN"
      let w₁ ← (if clause.renames d oldName then renameColumn d key (clause.addressed oldName) clause.name w
        else .ok w : Except Failure Workspace)
      let label ← settle t.label?
      let reading ← settle (readType? d w₁.enums clause.type)
      settle (((w₁.reportType clause.type reading s!"{label}.{clause.name}" clause.position site.source).updateTable
        key (·.replaceColumn d (clause.replaced d oldName) (clause.toColumn reading))).addConstraints d key site.source
          clause.constraints)) := by
  unfold modifyColumn
  rw [found]
  unfold ColumnClause.replaced ColumnClause.renames ColumnClause.addressed
  cases oldName with
  | none => rfl
  | some n =>
    simp only [Option.isSome_some, Bool.true_and]
    generalize (if n = "" then clause.name else n) = old
    cases d.sameName old clause.name <;> rfl

theorem modifyColumn_eq_ok {site : Site} {key : String} {clause : ColumnClause}
    {oldName : Option String} {t : Draft} (found : w.table? key = some t)
    (run : modifyColumn d site key clause oldName w = .ok w') :
    ∃ (column : Column) (w₁ : Workspace) (label : String) (reading : TypeReading),
      t.column? d (clause.addressed oldName) = some column ∧
      (if clause.renames d oldName then renameColumn d key (clause.addressed oldName) clause.name w = .ok w₁
        else w₁ = w) ∧
      ((w₁.reportType clause.type reading s!"{label}.{clause.name}" clause.position site.source).updateTable key
        (·.replaceColumn d (clause.replaced d oldName) (clause.toColumn reading))).addConstraints d key site.source
          clause.constraints = .ok w' := by
  rw [modifyColumn_eq found] at run
  simp only [bind_eq_ok_iff, settle_eq_ok_iff] at run
  obtain ⟨column, named, w₁, renamed, label, -, reading, -, run⟩ := run
  refine ⟨column, w₁, label, reading, Draft.requireColumn_eq_ok_iff.1 named, ?_, run⟩
  split_ifs at renamed ⊢
  · exact renamed
  · exact (Except.ok.inj renamed).symm
/-- a column may be replaced by one of the same name, if it stays NOT NULL in the primary key -/
theorem WellFormed.replaceColumn (exact : d.caseSensitive = true) (h : w.WellFormed d) (key : String)
    (column : Column) : (w.updateTable key (·.replaceColumn d column.name column)).WellFormed d := by
  refine h.mapTables fun t _ sound => ?_
  split_ifs
  · refine ⟨Draft.updateColumn_wellFormed sound (fun c _ same => ?_) fun c hc same n cols hm hn _ => ?_, rfl⟩
    · rw [(Dialect.sameName_iff_eq exact).1 same]
      split_ifs <;> rfl
    · rw [(Dialect.sameName_iff_eq exact).1 same] at hn
      simp [Draft.primaryKey?, sound.primaryKey?_eq hm, hn]
  · exact ⟨sound, rfl⟩

/-- where case counts, a column is replaced under the name that the constraints know -/
theorem modifyColumn_keeps (exact : d.caseSensitive = true) (site : Site) (key : String)
    (clause : ColumnClause) (oldName : Option String) :
    Keeps d (modifyColumn d site key clause oldName) := by
  intro w w' h run
  cases found : w.table? key with
  | none =>
    simp only [modifyColumn, found] at run
    rw [← Except.ok.inj run]; exact h
  | some t =>
    obtain ⟨_, w₁, label, reading, -, renamed, run⟩ := modifyColumn_eq_ok found run
    have h₁ : w₁.WellFormed d := by
      split_ifs at renamed
      · exact renameColumn_keeps key _ clause.name w w₁ h renamed
      · rw [renamed]; exact h
    have own : clause.replaced d oldName = (clause.toColumn reading).name :=
      (Dialect.sameName_iff_eq exact).1 (clause.sameName_replaced oldName)
    refine addConstraints_wellFormed ?_ run
    rw [own]
    exact (h₁.of_tables (tables_reportType ..)).replaceColumn exact key (clause.toColumn reading)

/-! ## ALTER TABLE -/

/-- an action replaces a column -/
def replacesColumn : TableAction → Bool
  | .modifyColumn _ _ => true
  | _ => false

theorem alterAction_wellFormed (h : w.WellFormed d) {site : Site} {key key' : String} {action : TableAction}
    (replaces : replacesColumn action = true → d.caseSensitive = true)
    (run : alterAction d site key action w = .ok (w', key')) : w'.WellFormed d := by
  -- all actions but the renaming of a table leave the key
  have kept : ∀ change : Change, Keeps d change → (change w).map (·, key) = .ok (w', key') → w'.WellFormed d := by
    intro change keeps run
    obtain ⟨w₁, changed, e⟩ := map_eq_ok_iff.1 run
    rw [← (Prod.mk.inj e).1]; exact keeps w w₁ h changed
  cases action with
  | renameTable newName => exact renameTable_wellFormed h run
  | addColumn clause ifNotExists =>
    simp only [alterAction] at run
    split_ifs at run
    · rw [← (Prod.mk.inj (Except.ok.inj run)).1]; exact h
    · exact kept _ (addColumn_keeps key site.source clause) run
  | dropColumn name ifExists cascade => exact kept _ (dropColumn_keeps site key name ifExists cascade) run
  | addConstraint clause =>
    exact kept _ (onTable_keeps fun _ _ sound added => Draft.addConstraint_wellFormed sound added) run
  | dropConstraint target ifExists => exact kept _ (dropConstraint_keeps site key target ifExists) run
  | alterColumn name setNotNull default dropDefault newType =>
    exact kept _ (alterColumn_keeps site key name setNotNull default dropDefault newType) run
  | renameColumn old new => exact kept _ (renameColumn_keeps key old new) run
  | modifyColumn clause oldName => exact kept _ (modifyColumn_keeps (replaces rfl) site key clause oldName) run

theorem alterActions_wellFormed (h : w.WellFormed d) {site : Site} {key : String} {actions : List TableAction}
    (replaces : ∀ a ∈ actions, replacesColumn a = true → d.caseSensitive = true)
    (run : alterActions d site actions w key = .ok w') : w'.WellFormed d := by
  induction actions generalizing w key with
  | nil => rw [← Except.ok.inj run]; exact h
  | cons a rest ih =>
    have later : ∀ a ∈ rest, replacesColumn a = true → d.caseSensitive = true :=
      fun a ha => replaces a (List.mem_cons_of_mem _ ha)
    unfold alterActions at run
    split at run
    · rename_i w₁ key₁ done
      exact ih (alterAction_wellFormed h (replaces a List.mem_cons_self) done) later run
    · exact ih (h.of_tables (tables_record ..)) later run
    · simp at run

end Workspace

end SchemaApi
