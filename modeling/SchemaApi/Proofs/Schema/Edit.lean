import SchemaApi.Proofs.Schema.Regular
import Mathlib.Logic.Relation
/-!
What any statement does to a schema, together with what is checked before.

A table changes by edits of a few kinds (`Draft.Edit`). Each comes with its condition: a new column has a name of its
own, what refuses a constraint has not refused it, a column of the primary key stays NOT NULL unless it is replaced, a
column gets no name that another one has, and a table with a new name is stored under the key of that name. So does a
schema (`Workspace.Edit`): a table is created, tables are edited or dropped, other declarations change, or something is
found. Whatever the statements are, their schema comes from the empty one by such edits (`edits_afterChanges`), so an
invariant of schemas or tables is a property that each edit keeps, and its proof says nothing about statements.

The conditions are checked on the table that is found by a key. That no other table has the key is what regular
schemas are needed for.
-/

namespace SchemaApi

/-! ## Edits of a table -/

/-- a table without columns, and so without constraints and indexes -/
structure Draft.Blank (t : Draft) : Prop where
  columns : t.columns = []
  constraints : t.constraints = []
  indexes : t.indexes = []

/-- what is done to a table at a time; columns are replaced only if `replaces` holds -/
inductive Draft.Edit (d : Dialect) (replaces : Prop) (t : Draft) : Draft → Prop where
  /-- the table is stored under the key of its new name -/
  | retitle (name : String) (schema : Option String) :
      Edit d replaces t { t with name := name, schema := schema, key := d.tableKey schema name }
  | comment (text : Option String) : Edit d replaces t { t with comment := text }
  /-- the name of a new column means no column that is there -/
  | addColumn (c : Column) (new : t.column? d c.name = none) : Edit d replaces t { t with columns := t.columns ++ [c] }
  | addConstraint {t' : Draft} (source : Option String) (clause : ConstraintClause)
      (added : t.addConstraint d source clause = .ok t') : Edit d replaces t t'
  | addIndex {t' : Draft} (elements : List IndexElement) (name : Option String) (unique : Bool)
      (method condition : Option String) (added : t.addIndex d elements name unique method condition = .ok t') :
      Edit d replaces t t'
  /-- a column keeps its name, and stays NOT NULL in the primary key -/
  | alter (name : String) (f : Column → Column) (names : ∀ c, (f c).name = c.name)
      (required : ∀ c ∈ t.columns, d.sameName c.name name = true → c.name ∈ t.primaryKey?.getD [] →
        c.nullable = false → (f c).nullable = false) : Edit d replaces t (t.updateColumn d name f)
  /-- a column gives way to one that is the same identifier -/
  | replace (allowed : replaces) (name : String) (c : Column) (same : d.sameName name c.name = true) :
      Edit d replaces t (t.replaceColumn d name c)
  /-- no column but the renamed one has the new name -/
  | rename (old new : String)
      (free : ∀ c ∈ t.columns, d.foldName c.name = d.foldName new → d.foldName c.name = d.foldName old) :
      Edit d replaces t (t.renameColumn d old new)
  | erase (c : Column) : Edit d replaces t (t.eraseColumn d c)
  | restrict {cs : List Placed} {is : List Index} (constraints : cs.Sublist t.constraints)
      (indexes : is.Sublist t.indexes) : Edit d replaces t { t with constraints := cs, indexes := is }
  | redirect (f : ForeignKey → ForeignKey) (own : ∀ k, (f k).columns = k.columns) :
      Edit d replaces t (t.mapForeignKeys f)

/-- one table comes from another by any number of edits -/
abbrev Draft.Edits (d : Dialect) (replaces : Prop) : Draft → Draft → Prop :=
  Relation.ReflTransGen (Draft.Edit d replaces)

/-- to lose something is an edit -/
theorem Draft.Loses.edit {d : Dialect} {replaces : Prop} {t t' : Draft} (loses : t.Loses t') : t.Edit d replaces t' := by
  obtain ⟨cs, is, constraints, indexes, rfl⟩ := loses
  exact .restrict constraints indexes

/-! ## Edits of a schema -/

/-- what is done to a schema at a time; a table is created only as `creates` says -/
inductive Workspace.Edit (d : Dialect) (replaces : Prop) (creates : Draft → Prop) (w : Workspace) :
    Workspace → Prop where
  /-- each table comes from one that was there -/
  | tables {ts : List Draft} (each : ∀ t' ∈ ts, ∃ t ∈ w.tables, t.Edits d replaces t') :
      Edit d replaces creates w { w with tables := ts }
  | create (t : Draft) (made : creates t) : Edit d replaces creates w { w with tables := w.tables ++ [t] }
  | declare (enums : List (String × EnumType)) (views : List (String × View)) :
      Edit d replaces creates w { w with enums := enums, views := views }
  /-- something is found that is no error -/
  | report (f : Finding) (stage : f.stage = .model) (noError : f.isError = false) :
      Edit d replaces creates w { w with findings := w.findings ++ [f] }
  | record (p : Problem) (position : Position) (source : Option String) :
      Edit d replaces creates w (w.record p position source)

/-- one schema comes from another by any number of edits -/
abbrev Workspace.Edits (d : Dialect) (replaces : Prop) (creates : Draft → Prop) : Workspace → Workspace → Prop :=
  Relation.ReflTransGen (Workspace.Edit d replaces creates)

namespace Workspace

variable {d : Dialect} {replaces : Prop} {creates : Draft → Prop} {limit : Nat} {w w' : Workspace}

theorem edit_report {severity : Severity} (noError : severity ≠ .error) (code message : String) (position : Position)
    (source : Option String) : w.Edit d replaces creates (w.report severity code message position source) :=
  .report _ rfl (by simpa [Finding.isError, Finding.about] using noError)

/-- what is found about a type may be found before -/
theorem edits_of_reportType {type : Option TypeName} {reading : TypeReading} {place : String} {position : Position}
    {source : Option String} (after : (w.reportType type reading place position source).Edits d replaces creates w') :
    w.Edits d replaces creates w' := by
  unfold reportType at after
  split_ifs at after
  · exact .head (edit_report (by decide) ..) after
  · exact after

theorem edit_mapTables {f : Draft → Draft} (each : ∀ t ∈ w.tables, t.Edits d replaces (f t)) :
    w.Edit d replaces creates { w with tables := w.tables.map f } := by
  refine .tables fun t' ht' => ?_
  obtain ⟨t, ht, rfl⟩ := List.mem_map.1 ht'
  exact ⟨t, ht, each t ht⟩

theorem edit_dropTable (key : String) : w.Edit d replaces creates (w.dropTable key) :=
  .tables fun t ht => ⟨t, List.mem_of_mem_filter ht, .refl⟩

/-- whatever table has the key may be edited -/
theorem edit_updateEach (key : String) {f : Draft → Draft} (each : ∀ t : Draft, t.Edits d replaces (f t)) :
    w.Edit d replaces creates (w.updateTable key f) := by
  refine edit_mapTables fun t _ => ?_
  split_ifs
  · exact each t
  · exact .refl

/-- the table of the key may be edited -/
theorem edit_updateTable (h : w.Regular d limit) {key : String} {t : Draft} {f : Draft → Draft}
    (found : w.table? key = some t) (edit : t.Edit d replaces (f t)) :
    w.Edit d replaces creates (w.updateTable key f) := by
  obtain ⟨ht, own⟩ := table?_eq_some found
  refine edit_mapTables fun x hx => ?_
  split_ifs with here
  · rw [h.eq_of_key hx ht ((beq_iff_eq.1 here).trans own.symm)]
    exact .single edit
  · exact .refl

theorem edit_replaceTable {key : String} {t t' : Draft} (found : w.table? key = some t) (edits : t.Edits d replaces t') :
    w.Edit d replaces creates (w.updateTable key fun _ => t') := by
  refine .tables fun x hx => ?_
  obtain ⟨y, hy, rfl⟩ := List.mem_map.1 hx
  split_ifs
  · exact ⟨t, (table?_eq_some found).1, edits⟩
  · exact ⟨y, hy, .refl⟩

theorem edits_attempt {position : Position} {source : Option String} {change : Change}
    (edits : ∀ w', change w = .ok w' → w.Edits d replaces creates w')
    (run : w.attempt position source change = .ok w') : w.Edits d replaces creates w' := by
  unfold attempt at run
  split at run
  · rename_i w₁ changed
    rw [← Except.ok.inj run]; exact edits w₁ changed
  · rw [← Except.ok.inj run]; exact .single (.record ..)
  · simp at run

theorem edits_onTable {key : String} {change : Draft → Except Failure Draft}
    (edit : ∀ t t', change t = .ok t' → t.Edit d replaces t') (run : w.onTable key change = .ok w') :
    w.Edits d replaces creates w' := by
  unfold onTable at run
  split at run
  · rw [← Except.ok.inj run]
  · rename_i t found
    obtain ⟨t', changed, rfl⟩ := map_eq_ok_iff.1 run
    exact .single (edit_replaceTable found (.single (edit t t' changed)))

theorem edits_foldlM {α : Type} {step : Workspace → α → Except Refusal Workspace} {l : List α}
    (each : ∀ a ∈ l, ∀ w w', w.Regular d limit → step w a = .ok w' →
      w'.Regular d limit ∧ w.Edits d replaces creates w')
    (h : w.Regular d limit) (run : l.foldlM step w = .ok w') : w'.Regular d limit ∧ w.Edits d replaces creates w' := by
  refine foldlM_keeps (P := fun w' => w'.Regular d limit ∧ w.Edits d replaces creates w') ?_ ⟨h, .refl⟩ run
  rintro a ha w₁ w₂ ⟨regular, before⟩ step
  obtain ⟨regular', edits⟩ := each a ha w₁ w₂ regular step
  exact ⟨regular', before.trans edits⟩

theorem edits_addConstraints {key : String} {source : Option String} {clauses : List ConstraintClause}
    (run : w.addConstraints d key source clauses = .ok w') : w.Edits d replaces creates w' := by
  refine foldlM_keeps (P := w.Edits d replaces creates) (fun clause _ w₁ w₂ before run => before.trans ?_) .refl run
  exact edits_attempt (fun _ => edits_onTable fun _ _ => .addConstraint source clause) run

/-! ### Actions of ALTER TABLE -/

theorem edits_addColumn (h : w.Regular d limit) {key : String} {source : Option String} {clause : ColumnClause}
    (run : addColumn d key source clause w = .ok w') : w.Edits d replaces creates w' := by
  unfold addColumn at run
  split at run
  · rw [← Except.ok.inj run]
  · rename_i t found
    split_ifs at run with present
    · exact absurd run (by simp [Draft.problem_eq_ok_iff])
    · simp only [bind_eq_ok_iff, settle_eq_ok_iff] at run
      obtain ⟨label, -, reading, -, run⟩ := run
      have new : t.column? d clause.name = none := by simpa using present
      refine .trans ?_ (edits_addConstraints run)
      exact edits_of_reportType (.single (edit_updateTable (h.of_tables (tables_reportType ..))
        ((table?_reportType ..).trans found) (.addColumn _ new)))

theorem edits_dropColumn {site : Site} {key name : String} {ifExists cascade : Bool}
    (run : dropColumn d site key name ifExists cascade w = .ok w') : w.Edits d replaces creates w' := by
  unfold dropColumn at run
  split at run
  · rw [← Except.ok.inj run]
  · split at run
    · split_ifs at run
      · simp only [bind_eq_ok_iff, pure_eq_ok_iff] at run
        obtain ⟨_, _, rfl⟩ := run
        exact .single (edit_report (by decide) ..)
      · exact absurd run (by simp [Draft.problem_eq_ok_iff])
    · rename_i column _
      have erased : w.Edit d replaces creates (w.updateTable key fun t => t.eraseColumn d column) :=
        edit_updateEach key fun t => .single (.erase column)
      split_ifs at run
      · rw [← Except.ok.inj run]
        exact .tail (.single erased) (edit_mapTables fun t _ => .single (Draft.loses_dropForeignKeysTo ..).edit)
      · rw [← Except.ok.inj run]; exact .single erased

theorem edits_dropConstraint {site : Site} {key : String} {target : ConstraintTarget} {ifExists : Bool}
    (run : dropConstraint d site key target ifExists w = .ok w') : w.Edits d replaces creates w' := by
  obtain rfl | ⟨t, t', found, loses, rfl⟩ | ⟨_, _, rfl⟩ := dropConstraint_eq_ok run
  · exact .refl
  · exact .single (edit_replaceTable found (.single loses.edit))
  · exact .single (edit_report (by decide) ..)

/-- a column that is no longer NOT NULL is in no primary key -/
theorem edits_alterColumn (h : w.Regular d limit) {site : Site} {key name : String} {setNotNull : Option Bool}
    {default : Option String} {dropDefault : Bool} {newType : Option TypeName}
    (run : alterColumn d site key name setNotNull default dropDefault newType w = .ok w') :
    w.Edits d replaces creates w' := by
  unfold alterColumn at run
  split at run
  · rw [← Except.ok.inj run]
  · rename_i t found
    simp only [bind_eq_ok_iff] at run
    obtain ⟨column, named, run⟩ := run
    have named := Draft.requireColumn_eq_ok_iff.1 named
    by_cases nulls : setNotNull = some false ∧ (t.primaryKey?.getD []).contains column.name
    · rw [if_pos nulls] at run
      exact absurd run (by simp [Draft.problem_eq_ok_iff])
    · rw [if_neg nulls] at run
      have changed : w.Edit d replaces creates (w.updateTable key fun t => t.updateColumn d name fun c => { c with
          nullable := (setNotNull.map (!·)).getD c.nullable
          default := if dropDefault then none else default.or c.default }) := by
        refine edit_updateTable h found (.alter name _ (fun _ => rfl) fun c hc here inKey filled => ?_)
        -- the column is the one that was asked about
        have regular := h.each t (table?_eq_some found).1
        obtain rfl : c = column := Option.some.inj ((regular.column?_eq hc here).symm.trans named)
        cases setNotNull with
        | none => exact filled
        | some b =>
          cases b with
          | true => rfl
          | false => exact absurd ⟨rfl, List.contains_iff_mem.2 inKey⟩ nulls
      split at run
      · rw [← pure_eq_ok_iff.1 run]; exact .single changed
      · simp only [bind_eq_ok_iff, settle_eq_ok_iff, pure_eq_ok_iff] at run
        obtain ⟨label, -, reading, -, rfl⟩ := run
        exact .head changed (edits_of_reportType (.single (edit_updateEach key fun t =>
          .single (.alter name _ (fun _ => rfl) fun _ _ _ _ filled => filled))))

theorem edits_renameColumn (h : w.Regular d limit) {key old new : String}
    (run : renameColumn d key old new w = .ok w') : w.Edits d replaces creates w' := by
  unfold renameColumn at run
  split at run
  · rw [← Except.ok.inj run]
  · rename_i t found
    simp only [bind_eq_ok_iff] at run
    obtain ⟨column, named, run⟩ := run
    have same := (Draft.column?_eq_some (Draft.requireColumn_eq_ok_iff.1 named)).2
    split_ifs at run with taken
    · exact absurd run (by simp [Draft.problem_eq_ok_iff])
    · rw [← pure_eq_ok_iff.1 run]
      have renamed : t.Edit d replaces (t.renameColumn d column.name new) := by
        refine .rename column.name new fun c hc e => ?_
        cases absent : t.column? d new with
        | none => exact absurd e (Draft.column?_eq_none absent c hc)
        | some _ =>
          have own : d.sameName old new = true := by simpa [absent] using taken
          rw [e, same, Dialect.sameName_iff.1 own]
      refine .tail (.single (edit_updateTable h found renamed)) (edit_mapTables fun t _ => .single ?_)
      exact .redirect _ fun k => by split_ifs <;> rfl

theorem edits_renameTable {key key' : String} {newName : QualifiedName}
    (run : renameTable d key newName w = .ok (w', key')) : w.Edits d replaces creates w' := by
  unfold renameTable at run
  split at run
  · rw [← (Prod.mk.inj (Except.ok.inj run)).1]
  · simp only at run
    split_ifs at run
    · exact absurd run (by simp [Draft.problem_eq_ok_iff])
    · rw [← (Prod.mk.inj (Except.ok.inj run)).1]
      refine .tail (.single (edit_updateEach key fun t => .single (.retitle newName.name _)))
        (edit_mapTables fun t _ => .single ?_)
      exact .redirect _ fun k => by split_ifs <;> rfl

theorem edits_modifyColumn (allowed : replaces) (h : w.Regular d limit) {site : Site} {key : String}
    {clause : ColumnClause} {oldName : Option String} (run : modifyColumn d site key clause oldName w = .ok w') :
    w.Edits d replaces creates w' := by
  cases found : w.table? key with
  | none =>
    simp only [modifyColumn, found] at run
    rw [← Except.ok.inj run]
  | some t =>
    obtain ⟨_, w₁, label, reading, -, renamed, run⟩ := modifyColumn_eq_ok found run
    have first : w.Edits d replaces creates w₁ := by
      split_ifs at renamed
      · exact edits_renameColumn h renamed
      · rw [renamed]
    refine first.trans (.trans ?_ (edits_addConstraints run))
    exact edits_of_reportType (.single (edit_updateEach key fun t =>
      .single (.replace allowed _ _ (clause.sameName_replaced oldName))))

theorem edits_alterAction (h : w.Regular d limit) {site : Site} {key key' : String} {action : TableAction}
    (allowed : replacesColumn action = true → replaces) (run : alterAction d site key action w = .ok (w', key')) :
    w.Edits d replaces creates w' := by
  have made : ∀ change : Change, (∀ w', change w = .ok w' → w.Edits d replaces creates w') →
      (change w).map (·, key) = .ok (w', key') → w.Edits d replaces creates w' := by
    intro change edits run
    obtain ⟨w₁, changed, e⟩ := map_eq_ok_iff.1 run
    rw [← (Prod.mk.inj e).1]; exact edits w₁ changed
  cases action with
  | renameTable newName => exact edits_renameTable run
  | addColumn clause ifNotExists =>
    simp only [alterAction] at run
    split_ifs at run
    · rw [← (Prod.mk.inj (Except.ok.inj run)).1]
    · exact made _ (fun _ => edits_addColumn h) run
  | dropColumn name ifExists cascade => exact made _ (fun _ => edits_dropColumn) run
  | addConstraint clause =>
    refine made (fun w => w.onTable key fun t => t.addConstraint d site.source clause) (fun _ => ?_) run
    exact edits_onTable fun _ _ => .addConstraint site.source clause
  | dropConstraint target ifExists => exact made _ (fun _ => edits_dropConstraint) run
  | alterColumn name setNotNull default dropDefault newType => exact made _ (fun _ => edits_alterColumn h) run
  | renameColumn old new => exact made _ (fun _ => edits_renameColumn h) run
  | modifyColumn clause oldName => exact made _ (fun _ => edits_modifyColumn (allowed rfl) h) run

theorem edits_alterActions (h : w.Regular d limit) {site : Site} {key : String} {actions : List TableAction}
    (allowed : ∀ a ∈ actions, replacesColumn a = true → replaces) (run : alterActions d site actions w key = .ok w') :
    w.Edits d replaces creates w' := by
  induction actions generalizing w key with
  | nil => rw [← Except.ok.inj run]
  | cons a rest ih =>
    have later : ∀ a ∈ rest, replacesColumn a = true → replaces :=
      fun a ha => allowed a (List.mem_cons_of_mem _ ha)
    unfold alterActions at run
    split at run
    · rename_i w₁ key₁ done
      exact (edits_alterAction h (allowed a List.mem_cons_self) done).trans (ih (alterAction_regular h done) later run)
    · exact .head (.record ..) (ih (h.of_tables (tables_record ..)) later run)
    · simp at run

/-! ### Statements -/

theorem edits_addTable (h : w.Regular d limit) {st : Statement} {table : CreateTable} {index : Nat}
    (made : creates (newDraft d st table index)) (inside : index < limit)
    (new : ∀ x ∈ w.tables, x.key ≠ table.name.key d) (run : w.addTable d st table index = .ok w') :
    w.Edits d replaces creates w' := by
  simp only [addTable, bind_eq_ok_iff] at run
  obtain ⟨w₁, columns, w₂, constraints, run⟩ := run
  have started := Regular.append (t := newDraft d st table index) h rfl rfl inside new
  have withColumns : w₁.Regular d limit ∧ Edits d replaces creates _ w₁ := edits_foldlM (fun c _ _ _ regular run =>
    ⟨attempt_regular (addColumn_keepsRegular _ _ c) regular run,
      edits_attempt (fun _ => edits_addColumn regular) run⟩) started columns
  have complete : w.Edits d replaces creates w₂ :=
    .head (.create _ made) (withColumns.2.trans (edits_addConstraints constraints))
  split_ifs at run
  · simp only [bind_eq_ok_iff, pure_eq_ok_iff] at run
    obtain ⟨_, _, rfl⟩ := run
    exact complete.tail (edit_report (by decide) ..)
  · rw [← pure_eq_ok_iff.1 run]; exact complete

theorem edits_declareTable (h : w.Regular d limit) {statements : List Statement} {st : Statement}
    {table : CreateTable} {index : Nat} (made : creates (newDraft d st table index)) (inside : index < limit)
    (run : declareTable d statements st table index w = .ok w') : w.Edits d replaces creates w' := by
  simp only [declareTable] at run
  split at run
  · rename_i absent
    exact edits_addTable h made inside (table?_eq_none absent) (settle_eq_ok_iff.1 run)
  · split_ifs at run
    · refine .head (edit_dropTable _)
        (edits_addTable (h.dropTable _) made inside (fun t ht => ?_) (settle_eq_ok_iff.1 run))
      simpa using (List.mem_filter.1 ht).2
    · rw [← Except.ok.inj run]; exact .single (edit_report (by decide) ..)

theorem edits_declareEnum {st : Statement} {enum : CreateEnum} (run : declareEnum d st enum w = .ok w') :
    w.Edits d replaces creates w' := by
  simp only [declareEnum] at run
  split_ifs at run
  · rw [← Except.ok.inj run]; exact .single (.declare _ w.views)
  · rw [← Except.ok.inj run]; exact .tail (.single (edit_report (by decide) ..)) (.declare _ w.views)

theorem edits_declareView {view : CreateView} (run : declareView d view w = .ok w') :
    w.Edits d replaces creates w' := by
  simp only [declareView] at run
  split_ifs at run
  rw [← Except.ok.inj run]; exact .single (.declare w.enums _)

theorem edits_alterTable (h : w.Regular d limit) {st : Statement} {alter : AlterTable}
    (allowed : ∀ a ∈ alter.actions, replacesColumn a = true → replaces) (run : alterTable d st alter w = .ok w') :
    w.Edits d replaces creates w' := by
  unfold alterTable at run
  split at run
  · exact edits_alterActions h allowed (settle_eq_ok_iff.1 run)
  · split_ifs at run
    rw [← Except.ok.inj run]; exact .single (edit_report (by decide) ..)

theorem edits_createIndex {index : CreateIndex} (run : createIndex d index w = .ok w') :
    w.Edits d replaces creates w' := by
  simp only [createIndex, bind_eq_ok_iff] at run
  obtain ⟨t, _, run⟩ := run
  split at run
  · exact edits_onTable (fun _ _ => .addIndex _ _ _ _ _) run
  · split_ifs at run
    · rw [← pure_eq_ok_iff.1 run]
    · exact absurd run (by simp [Draft.problem_eq_ok_iff])
    · exact edits_onTable (fun _ _ => .addIndex _ _ _ _ _) run

theorem edits_forNames {st : Statement} {change : QualifiedName → Change} {names : List QualifiedName}
    (edits : ∀ n w w', change n w = .ok w' → w.Edits d replaces creates w')
    (run : forNames st change names w = .ok w') : w.Edits d replaces creates w' := by
  induction names generalizing w with
  | nil => rw [← Except.ok.inj run]
  | cons n rest ih =>
    unfold forNames at run
    split at run
    · rename_i w₁ done
      exact (edits n w w₁ done).trans (ih run)
    · rw [← Except.ok.inj run]; exact .single (.record ..)
    · simp at run

theorem edits_dropTableNamed {st : Statement} {drop : DropTable} {index : Nat} {name : QualifiedName}
    (run : dropTableNamed d st drop index name w = .ok w') : w.Edits d replaces creates w' := by
  simp only [dropTableNamed] at run
  split at run
  · split_ifs at run
    · rw [← Except.ok.inj run]
      refine .tail (.single (edit_dropTable _)) (edit_mapTables fun t _ => .single ?_)
      exact (Draft.loses_dropForeignKeysTo ..).edit
    · rw [← Except.ok.inj run]; exact .single (edit_dropTable _)
    · rw [← Except.ok.inj run]; exact .single (edit_report (by decide) ..)
  · split_ifs at run
    rw [← Except.ok.inj run]; exact .single (edit_report (by decide) ..)

theorem edits_dropIndexNamed {st : Statement} {drop : DropIndex} {table : Option String} {name : QualifiedName}
    (run : dropIndexNamed d st drop table name w = .ok w') : w.Edits d replaces creates w' := by
  simp only [dropIndexNamed] at run
  split at run
  · rw [← Except.ok.inj run]
    refine .single (edit_updateEach _ fun t => ?_)
    cases dropped : t.eraseIndex? d name.name with
    | none => exact .refl
    | some t' => exact .single (Draft.loses_eraseIndex? dropped).edit
  · split_ifs at run
    rw [← Except.ok.inj run]; exact .single (edit_report (by decide) ..)

theorem edits_dropViewNamed {st : Statement} {drop : DropView} {name : QualifiedName}
    (run : dropViewNamed d st drop name w = .ok w') : w.Edits d replaces creates w' := by
  simp only [dropViewNamed] at run
  split_ifs at run
  · rw [← Except.ok.inj run]; exact .single (.declare w.enums _)
  · rw [← Except.ok.inj run]; exact .single (edit_report (by decide) ..)

theorem edits_commentOn {st : Statement} {comment : CommentOn} (run : commentOn d st comment w = .ok w') :
    w.Edits d replaces creates w' := by
  unfold commentOn at run
  split at run
  · rw [← Except.ok.inj run]; exact .single (edit_report (by decide) ..)
  · split at run
    · rw [← Except.ok.inj run]
      exact .single (edit_updateEach _ fun t => .single (.comment _))
    · split_ifs at run
      · rw [← Except.ok.inj run]
        refine .single (edit_updateEach _ fun t => .single ?_)
        exact .alter _ _ (fun _ => rfl) fun _ _ _ _ filled => filled
      · simp only [bind_eq_ok_iff, pure_eq_ok_iff] at run
        obtain ⟨_, _, rfl⟩ := run
        exact .single (edit_report (by decide) ..)

/-! ### Passes -/

theorem edits_enumPass {st : Statement} (run : enumPass d w st = .ok w') : w.Edits d replaces creates w' := by
  unfold enumPass at run
  split at run
  · exact edits_attempt (fun _ => edits_declareEnum) run
  · rw [← Except.ok.inj run]

theorem edits_declarationPass (h : w.Regular d limit) {statements : List Statement} {numbered : Statement × Nat}
    (made : ∀ table, numbered.1.body = .createTable table → creates (newDraft d numbered.1 table numbered.2))
    (inside : numbered.2 < limit) (run : declarationPass d statements w numbered = .ok w') :
    w.Edits d replaces creates w' := by
  simp only [declarationPass] at run
  split at run
  · rename_i table isTable
    exact edits_attempt (fun _ => edits_declareTable h (made table isTable) inside) run
  · exact edits_attempt (fun _ => edits_declareView) run
  · rw [← Except.ok.inj run]

theorem edits_changePass (h : w.Regular d limit) {numbered : Statement × Nat}
    (allowed : ∀ alter, numbered.1.body = .alterTable alter →
      ∀ a ∈ alter.actions, replacesColumn a = true → replaces)
    (run : changePass d w numbered = .ok w') : w.Edits d replaces creates w' := by
  obtain ⟨st, index⟩ := numbered
  simp only [changePass] at run
  split at run
  · rename_i alter isAlter
    exact edits_attempt (fun _ => edits_alterTable h (allowed alter isAlter)) run
  · exact edits_attempt (fun _ => edits_createIndex) run
  · exact edits_forNames (fun _ _ _ => edits_dropTableNamed) run
  · split at run
    · exact edits_forNames (fun _ _ _ => edits_dropIndexNamed) run
    · split at run
      · exact edits_forNames (fun _ _ _ => edits_dropIndexNamed) run
      · rw [← Except.ok.inj run]; exact .single (.record ..)
      · simp at run
  · exact edits_forNames (fun _ _ _ => edits_dropViewNamed) run
  · exact edits_attempt (fun _ => edits_commentOn) run
  · rw [← Except.ok.inj run]

/-! ### Histories -/

/-- whatever the statements are, so many of them are applied by edits -/
theorem edits_afterChanges {statements : List Statement} {n : Nat}
    (allowed : ∀ st ∈ statements, ∀ alter, st.body = .alterTable alter →
      ∀ a ∈ alter.actions, replacesColumn a = true → replaces)
    (made : ∀ st ∈ statements, ∀ table, st.body = .createTable table → ∀ index, creates (newDraft d st table index))
    (run : afterChanges d statements n = .ok w) : Edits d replaces creates {} w := by
  simp only [afterChanges, afterDeclarations, bind_eq_ok_iff] at run
  obtain ⟨w₁, ⟨w₀, enums, declared⟩, run⟩ := run
  have empty : Regular d statements.length {} := ⟨by simp, List.nodup_nil⟩
  obtain ⟨regular, first⟩ : w₀.Regular d statements.length ∧ Edits d replaces creates {} w₀ :=
    edits_foldlM (fun _ _ _ _ regular run => ⟨enumPass_regular regular run, edits_enumPass run⟩) empty enums
  obtain ⟨regular, second⟩ : w₁.Regular d statements.length ∧ Edits d replaces creates w₀ w₁ := by
    refine edits_foldlM (fun numbered hn v v' regular run => ?_) regular declared
    have inside := List.snd_lt_of_mem_zipIdx (List.mem_of_mem_take hn)
    have there := List.fst_mem_of_mem_zipIdx (List.mem_of_mem_take hn)
    exact ⟨declarationPass_regular inside regular run,
      edits_declarationPass regular (fun table isTable => made numbered.1 there table isTable _) inside run⟩
  obtain ⟨-, third⟩ : w.Regular d statements.length ∧ Edits d replaces creates w₁ w := by
    refine edits_foldlM (fun numbered hn v v' regular run => ?_) regular run
    have there := List.fst_mem_of_mem_zipIdx (List.mem_of_mem_take hn)
    exact ⟨changePass_regular regular run, edits_changePass regular (allowed numbered.1 there) run⟩
  exact first.trans (second.trans third)

/-- every table comes from one that was created by edits -/
theorem Edits.origin (edits : Edits d replaces creates {} w) :
    ∀ t' ∈ w.tables, ∃ t, creates t ∧ t.Edits d replaces t' := by
  induction edits with
  | refl => exact fun _ none => absurd none List.not_mem_nil
  | tail _ edit ih =>
    cases edit with
    | tables each =>
      intro t' ht'
      obtain ⟨t, ht, last⟩ := each t' ht'
      obtain ⟨t₀, made, before⟩ := ih t ht
      exact ⟨t₀, made, before.trans last⟩
    | create t made =>
      intro t' ht'
      rcases List.mem_append.1 ht' with old | new
      · exact ih t' old
      · exact ⟨t, made, List.mem_singleton.1 new ▸ .refl⟩
    | declare => exact ih
    | report => exact ih
    | record => exact ih

end Workspace

/-! ## Names and keys -/

namespace Draft

variable {d : Dialect} {replaces : Prop} {t t' : Draft}

/-- a table as it is declared: empty, and stored under the key of its name -/
structure Fresh (d : Dialect) (t : Draft) : Prop extends Blank t where
  keyed : t.key = d.tableKey t.schema t.name

/-- a table stored under the key of its name, whose foreign keys have columns -/
structure Addressed (d : Dialect) (t : Draft) : Prop where
  keyed : t.key = d.tableKey t.schema t.name
  filled : ∀ e ∈ t.constraints, ∀ k, e.constraint = .foreignKey k → k.columns ≠ []

/-- to add a constraint is to add an index, or a constraint with columns -/
theorem addConstraint_extends {source : Option String} {clause : ConstraintClause}
    (added : t.addConstraint d source clause = .ok t') : ∃ columns constraints indexes,
    t' = { t with columns := columns, constraints := t.constraints ++ constraints, indexes := indexes } ∧
      ∀ e ∈ constraints, ∀ k, e.constraint = .foreignKey k → k.columns ≠ [] := by
  cases clause with
  | primaryKey columns name position =>
    simp only [addConstraint, bind_eq_ok_iff] at added
    obtain ⟨cols, -, added⟩ := added
    split_ifs at added
    · exact absurd added (by simp [problem_eq_ok_iff])
    · simp only [bind_eq_ok_iff, pure_eq_ok_iff] at added
      obtain ⟨_, -, rfl⟩ := added
      exact ⟨_, [_], _, by rw [requireValues_eq]; rfl, by simp⟩
  | unique columns name position =>
    simp only [addConstraint, bind_eq_ok_iff, pure_eq_ok_iff] at added
    obtain ⟨cols, -, _, -, rfl⟩ := added
    exact ⟨_, [_], _, rfl, by simp⟩
  | foreignKey columns reference name position =>
    simp only [addConstraint, bind_eq_ok_iff] at added
    obtain ⟨cols, -, added⟩ := added
    split_ifs at added
    · simp [bind_eq_ok_iff, throw_eq_ok_iff] at added
    · simp only [bind_eq_ok_iff, pure_eq_ok_iff, someColumns_eq_ok_iff] at added
      obtain ⟨_, filled, rfl⟩ := added
      refine ⟨_, [_], _, rfl, fun e he k isKey => ?_⟩
      rw [List.mem_singleton.1 he] at isKey
      rw [← Constraint.foreignKey.inj isKey]
      exact filled
  | check expression name column position =>
    simp only [addConstraint, bind_eq_ok_iff] at added
    obtain ⟨own, -, added⟩ := added
    split_ifs at added
    · simp [fmap_eq_ok_iff, throw_eq_ok_iff] at added
    · rw [← pure_eq_ok_iff.1 added]
      exact ⟨_, [_], _, rfl, by simp⟩
  | index elements name unique kind position =>
    obtain ⟨index, rfl⟩ := addIndex_eq_ok added
    exact ⟨_, [], _, by rw [List.append_nil], by simp⟩

theorem Fresh.addressed (fresh : t.Fresh d) : t.Addressed d :=
  ⟨fresh.keyed, by simp [fresh.constraints]⟩

theorem Edit.addressed (h : t.Addressed d) (edit : t.Edit d replaces t') : t'.Addressed d := by
  cases edit with
  | retitle => exact ⟨rfl, h.filled⟩
  | comment => exact ⟨h.keyed, h.filled⟩
  | addColumn => exact ⟨h.keyed, h.filled⟩
  | addConstraint source clause added =>
    obtain ⟨columns, constraints, indexes, rfl, filled⟩ := addConstraint_extends added
    refine ⟨h.keyed, fun e he => ?_⟩
    exact (List.mem_append.1 he).elim (h.filled e) (filled e)
  | addIndex elements name unique method condition added =>
    obtain ⟨index, rfl⟩ := addIndex_eq_ok added
    exact ⟨h.keyed, h.filled⟩
  | alter => exact ⟨h.keyed, h.filled⟩
  | replace => exact ⟨h.keyed, h.filled⟩
  | rename old new =>
    refine ⟨h.keyed, fun e he k isKey => ?_⟩
    obtain ⟨e₀, he₀, rfl⟩ := List.mem_map.1 he
    cases own : e₀.constraint with
    | foreignKey k₀ =>
      simp only [own, renameInConstraint, Constraint.foreignKey.injEq] at isKey
      rw [← isKey]
      exact fun none => h.filled e₀ he₀ k₀ own (List.map_eq_nil_iff.1 none)
    | _ => simp [own, renameInConstraint] at isKey
  | erase c => exact ⟨h.keyed, fun e he => h.filled e (List.mem_of_mem_filter he)⟩
  | restrict constraints indexes => exact ⟨h.keyed, fun e he => h.filled e (constraints.subset he)⟩
  | redirect f own =>
    refine ⟨h.keyed, fun e he k isKey => ?_⟩
    obtain ⟨e₀, he₀, rfl⟩ := List.mem_map.1 he
    split at isKey
    · rename_i k₀ was
      rw [← Constraint.foreignKey.inj isKey, own]
      exact h.filled e₀ he₀ k₀ was
    · exact h.filled e₀ he₀ k isKey

theorem Edits.addressed (h : t.Addressed d) (edits : t.Edits d replaces t') : t'.Addressed d := by
  induction edits with
  | refl => exact h
  | tail _ edit ih => exact edit.addressed ih

end Draft

namespace Workspace

variable {d : Dialect} {w : Workspace} {statements : List Statement}

/-- no table is declared in a schema of an empty name -/
def Qualified (statements : List Statement) : Prop :=
  ∀ st ∈ statements, ∀ table, st.body = .createTable table → table.name.schema ≠ some ""

/-- whatever the statements do, a table is found under its name, and its foreign keys have columns -/
theorem applyAll_addressed (qualified : Qualified statements) (run : applyAll d statements = .ok w) :
    ∀ t ∈ w.tables, t.Addressed d := by
  have made : ∀ st ∈ statements, ∀ table, st.body = .createTable table → ∀ index,
      (newDraft d st table index).Fresh d := fun st there table isTable _ =>
    ⟨⟨rfl, rfl, rfl⟩, (tableKey_declaredSchema (qualified st there table isTable)).symm⟩
  rw [applyAll_eq_afterChanges] at run
  have edits : Edits d True (Draft.Fresh d) {} w := edits_afterChanges (fun _ _ _ _ _ _ _ => trivial) made run
  intro t ht
  obtain ⟨t₀, fresh, edits⟩ := edits.origin t ht
  exact edits.addressed fresh.addressed

end Workspace

end SchemaApi
