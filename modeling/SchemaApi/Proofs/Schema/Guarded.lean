import SchemaApi.Proofs.Schema.Recreation
/-!
Guarded statements may be applied twice.

`CREATE TABLE`, `CREATE INDEX` with a name and `ADD COLUMN` are guarded by `IF NOT EXISTS`. The guards are checked in
different passes and by different names: the key of a table, the name of an index in its table, the identifier of a
column. What they have in common is that each statement asks for something that is there once the statement is applied
without an error (`meets_of_changePass`), and that a guarded statement only adds to a schema (`partOf_changePass`), so it
stays. Where everything is there that a statement asks for, the statement does nothing but warn
(`exists_changePass_of_meets`). The second copy of a list of such statements finds what the first one left: its tables
are declared before any change, its changes come behind those of the first. So the list twice is the model of the list
once (`buildModel_twice`).
-/

namespace SchemaApi

variable {d : Dialect}

/-- the action adds a column if there is none of its name -/
def TableAction.isGuarded : TableAction → Bool
  | .addColumn _ ifNotExists => ifNotExists
  | _ => false

/-- the statement creates a table, an index with a name or columns, as far as they are not there -/
def Statement.isGuarded (st : Statement) : Bool :=
  match st.body with
  | .createTable table => table.ifNotExists
  | .createIndex index => index.name.isSome && index.ifNotExists
  | .alterTable alter => alter.actions.all TableAction.isGuarded
  | _ => false

/-- what a guarded statement is -/
inductive Statement.Guarded (st : Statement) : Prop where
  | table {table : CreateTable} (body : st.body = .createTable table) (guard : table.ifNotExists = true)
  | index {index : CreateIndex} {name : String} (body : st.body = .createIndex index) (named : index.name = some name)
      (guard : index.ifNotExists = true)
  | columns {alter : AlterTable} (body : st.body = .alterTable alter)
      (guards : ∀ a ∈ alter.actions, ∃ clause, a = .addColumn clause true)

theorem TableAction.eq_addColumn {action : TableAction} (guarded : action.isGuarded = true) :
    ∃ clause, action = .addColumn clause true := by
  cases action with
  | addColumn clause ifNotExists => exact ⟨clause, congrArg (TableAction.addColumn clause) guarded⟩
  | _ => exact absurd guarded Bool.false_ne_true

theorem Statement.guarded {st : Statement} (h : st.isGuarded = true) : st.Guarded := by
  unfold isGuarded at h
  cases body : st.body with
  | createTable table =>
    rw [body] at h
    exact .table body h
  | createIndex index =>
    rw [body, Bool.and_eq_true, Option.isSome_iff_exists] at h
    obtain ⟨⟨name, named⟩, guard⟩ := h
    exact .index body named guard
  | alterTable alter =>
    rw [body, List.all_eq_true] at h
    exact .columns body fun a ha => TableAction.eq_addColumn (h a ha)
  | _ =>
    rw [body] at h
    exact absurd h Bool.false_ne_true

section
variable {st : Statement} (guarded : st.isGuarded = true)
include guarded

theorem renamesTable_of_isGuarded : st.renamesTable = false := by
  cases Statement.guarded guarded with
  | table body => rw [Statement.renamesTable, body]
  | index body => rw [Statement.renamesTable, body]
  | columns body guards =>
    rw [Statement.renamesTable, body, List.any_eq_false]
    intro a ha
    obtain ⟨clause, rfl⟩ := guards a ha
    exact Bool.false_ne_true

theorem dropsTable_of_isGuarded (key : String) : Workspace.dropsTable d key st = false := by
  cases Statement.guarded guarded with
  | table body | index body | columns body => rw [Workspace.dropsTable, body]

theorem enumPass_of_isGuarded (w : Workspace) : Workspace.enumPass d w st = .ok w := by
  cases Statement.guarded guarded with
  | table body | index body | columns body => rw [Workspace.enumPass, body]

end

/-! ## What stays -/

namespace Draft

variable {t t' t'' : Draft}

/-- what is in the table under a name is in the other one -/
structure PartOf (d : Dialect) (t t' : Draft) : Prop where
  identifiers : t.identifiers d <+: t'.identifiers d
  indexes : t.indexes <+: t'.indexes

theorem PartOf.refl (t : Draft) : t.PartOf d t := ⟨List.prefix_rfl, List.prefix_rfl⟩

theorem PartOf.trans (first : t.PartOf d t') (second : t'.PartOf d t'') : t.PartOf d t'' :=
  ⟨first.identifiers.trans second.identifiers, first.indexes.trans second.indexes⟩

/-- there is a column of the name -/
def HasColumn (d : Dialect) (t : Draft) (name : String) : Prop := (t.column? d name).isSome = true

/-- there is an index of the name -/
def HasIndex (d : Dialect) (t : Draft) (name : String) : Prop :=
  (t.indexes.any fun i => hasName d i.name name) = true

theorem hasColumn_iff {name : String} : t.HasColumn d name ↔ d.foldName name ∈ t.identifiers d := by
  simp only [HasColumn, column?, List.find?_isSome, Dialect.sameName_iff, identifiers, List.mem_map]

theorem PartOf.hasColumn (part : t.PartOf d t') {name : String} (there : t.HasColumn d name) : t'.HasColumn d name :=
  hasColumn_iff.2 (part.identifiers.subset (hasColumn_iff.1 there))

theorem PartOf.hasIndex (part : t.PartOf d t') {name : String} (there : t.HasIndex d name) : t'.HasIndex d name := by
  obtain ⟨i, hi, own⟩ := List.any_eq_true.1 there
  exact List.any_eq_true.2 ⟨i, part.indexes.subset hi, own⟩

theorem hasColumn_append (column : Column) : HasColumn d { t with columns := t.columns ++ [column] } column.name := by
  refine hasColumn_iff.2 (List.mem_map.2 ⟨column, ?_, rfl⟩)
  exact List.mem_append_right _ (List.mem_singleton_self column)

theorem partOf_appendColumn (column : Column) : t.PartOf d { t with columns := t.columns ++ [column] } := by
  refine ⟨?_, List.prefix_rfl⟩
  rw [identifiers, identifiers, List.map_append]
  exact List.prefix_append _ _

theorem partOf_addConstraint {source : Option String} {clause : ConstraintClause}
    (added : t.addConstraint d source clause = .ok t') : t'.key = t.key ∧ t.PartOf d t' := by
  rcases addConstraint_eq_ok added with ⟨-, name, columns, position, rfl⟩ | ⟨c, position, -, rfl⟩ | ⟨index, rfl⟩
  · refine ⟨requireValues_key columns, ?_, ?_⟩
    · have same := identifiers_requireValues (d := d) (t := t) columns
      exact same ▸ List.prefix_rfl
    · rw [requireValues_eq]
      exact List.prefix_rfl
  · exact ⟨rfl, List.prefix_rfl, List.prefix_rfl⟩
  · exact ⟨rfl, List.prefix_rfl, List.prefix_append _ _⟩

/-- an index that is added under a name is there under the name -/
theorem hasIndex_addIndex {elements : List IndexElement} {name : String} {unique : Bool} {method condition : Option String}
    (added : t.addIndex d elements (some name) unique method condition = .ok t') :
    t'.key = t.key ∧ t.PartOf d t' ∧ t'.HasIndex d name := by
  simp only [addIndex, bind_eq_ok_iff, pure_eq_ok_iff] at added
  obtain ⟨columns, -, _, -, rfl⟩ := added
  refine ⟨rfl, ⟨List.prefix_rfl, List.prefix_append _ _⟩, ?_⟩
  refine List.any_eq_true.2 ⟨_, List.mem_append_right _ (List.mem_singleton_self _), ?_⟩
  exact Dialect.sameName_refl ..

end Draft

namespace Workspace

variable {w w' w'' : Workspace} {key : String} {ε : Type}

/-- there are tables of the same keys, and what is in each of them is in the other of its key -/
structure PartOf (d : Dialect) (w w' : Workspace) : Prop where
  absent : ∀ key, w.table? key = none → w'.table? key = none
  kept : ∀ key t, w.table? key = some t → ∃ t', w'.table? key = some t' ∧ t.PartOf d t'

/-- the change adds to the schema, but adds no table -/
def Adds (d : Dialect) (change : Workspace → Except ε Workspace) : Prop :=
  ∀ w w', change w = .ok w' → w.PartOf d w'

theorem partOf_of_tables (same : w'.tables = w.tables) : w.PartOf d w' := by
  have found : ∀ key, w'.table? key = w.table? key := fun key => by rw [table?, table?, same]
  exact ⟨fun key absent => (found key).trans absent, fun key t there => ⟨t, (found key).trans there, .refl t⟩⟩

theorem PartOf.trans (first : w.PartOf d w') (second : w'.PartOf d w'') : w.PartOf d w'' where
  absent key absent := second.absent key (first.absent key absent)
  kept key t found := by
    obtain ⟨t', found', part⟩ := first.kept key t found
    obtain ⟨t'', found'', part'⟩ := second.kept key t' found'
    exact ⟨t'', found'', part.trans part'⟩

theorem PartOf.origin (part : w.PartOf d w') {t' : Draft} (found : w'.table? key = some t') :
    ∃ t, w.table? key = some t ∧ t.PartOf d t' := by
  cases there : w.table? key with
  | none => exact absurd ((part.absent key there).symm.trans found) (by simp)
  | some t =>
    obtain ⟨t'', same, kept⟩ := part.kept key t there
    rw [found] at same
    exact ⟨t, rfl, Option.some.inj same ▸ kept⟩

section
variable {t : Draft} {g : Draft → Draft} (own : ∀ x : Draft, x.key = key → (g x).key = key)
include own

theorem table?_updateTable_map (key' : String) : (w.updateTable key g).table? key' =
    (w.table? key').map fun x => if x.key == key then g x else x := by
  refine Draft.find?_key_map (fun x _ => ?_) key'
  split_ifs with here
  · exact (own x (beq_iff_eq.1 here)).trans (beq_iff_eq.1 here).symm
  · rfl

theorem table?_updateTable_of_found (found : w.table? key = some t) : (w.updateTable key g).table? key = some (g t) := by
  rw [table?_updateTable_map own, found, Option.map_some, if_pos (beq_iff_eq.2 (table?_eq_some found).2)]

theorem partOf_updateTable (found : w.table? key = some t) (part : t.PartOf d (g t)) :
    w.PartOf d (w.updateTable key g) := by
  have after := table?_updateTable_map (w := w) own
  refine ⟨fun key' absent => by rw [after, absent, Option.map_none], fun key' x there => ?_⟩
  refine ⟨if x.key == key then g x else x, by rw [after, there, Option.map_some], ?_⟩
  split_ifs with here
  · have same : key' = key := (table?_eq_some there).2.symm.trans (beq_iff_eq.1 here)
    rw [same, found] at there
    rw [← Option.some.inj there]
    exact part
  · exact .refl x

end

namespace Adds

theorem attempt {change : Change} (h : Adds d change) (position : Position) (source : Option String) :
    Adds d fun w => w.attempt position source change := by
  intro w w' run
  simp only [Workspace.attempt] at run
  split at run
  · rename_i v made
    exact Except.ok.inj run ▸ h w v made
  · exact Except.ok.inj run ▸ partOf_of_tables rfl
  · contradiction

theorem foldlM {α : Type} {step : Workspace → α → Except ε Workspace} {l : List α}
    (each : ∀ a ∈ l, Adds d fun w => step w a) : Adds d fun w => l.foldlM step w :=
  fun w _ run => foldlM_keeps (P := fun v => w.PartOf d v) (fun a ha v v' before made =>
    before.trans (each a ha v v' made)) (partOf_of_tables rfl) run

theorem onTable {change : Draft → Except Failure Draft}
    (each : ∀ t t', change t = .ok t' → t'.key = t.key ∧ t.PartOf d t') : Adds d fun w => w.onTable key change := by
  intro w w' run
  simp only [Workspace.onTable] at run
  split at run
  · exact Except.ok.inj run ▸ partOf_of_tables rfl
  · rename_i t found
    obtain ⟨t', made, rfl⟩ := map_eq_ok_iff.1 run
    obtain ⟨sameKey, part⟩ := each t t' made
    exact partOf_updateTable (fun _ _ => sameKey.trans (table?_eq_some found).2) found part

end Adds

theorem adds_addConstraint (source : Option String) (clause : ConstraintClause) :
    Adds d fun w => w.onTable key fun t => t.addConstraint d source clause :=
  .onTable fun _ _ => Draft.partOf_addConstraint

theorem adds_addConstraints (source : Option String) (clauses : List ConstraintClause) :
    Adds d fun w => w.addConstraints d key source clauses :=
  .foldlM fun clause _ => (adds_addConstraint source clause).attempt clause.position source

/-- to add a column leaves what is there, and the column is there then -/
theorem hasColumn_addColumn {source : Option String} {clause : ColumnClause}
    (run : addColumn d key source clause w = .ok w') :
    w.PartOf d w' ∧ ∀ t, w'.table? key = some t → t.HasColumn d clause.name := by
  unfold addColumn at run
  split at run
  · rename_i absent
    rw [← Except.ok.inj run]
    refine ⟨partOf_of_tables rfl, fun t found => ?_⟩
    rw [absent] at found
    contradiction
  · rename_i t found
    split_ifs at run with present
    · exact absurd run (by simp [Draft.problem_eq_ok_iff])
    · simp only [bind_eq_ok_iff, settle_eq_ok_iff] at run
      obtain ⟨label, -, reading, -, run⟩ := run
      have reported := (table?_reportType clause.type reading s!"{label}.{clause.name}" clause.position source key).trans
        found
      let appended (t : Draft) : Draft := { t with columns := t.columns ++ [clause.toColumn reading] }
      have keys : ∀ x : Draft, x.key = key → (appended x).key = key := fun _ own => own
      have before := partOf_updateTable keys reported (Draft.partOf_appendColumn (d := d) (clause.toColumn reading))
      have behind := adds_addConstraints (d := d) source clause.constraints _ w' run
      refine ⟨((partOf_of_tables (tables_reportType ..)).trans before).trans behind, fun t' found' => ?_⟩
      obtain ⟨t'', same, part⟩ := behind.origin found'
      rw [table?_updateTable_of_found keys reported] at same
      rw [← Option.some.inj same] at part
      exact part.hasColumn (Draft.hasColumn_append (clause.toColumn reading))

theorem hasColumn_actionChange {site : Site} {clause : ColumnClause}
    (run : actionChange d site key (.addColumn clause true) w = .ok w') :
    w.PartOf d w' ∧ ∀ t, w'.table? key = some t → t.HasColumn d clause.name := by
  simp only [actionChange, alterAction, Bool.true_and] at run
  split_ifs at run with present
  · rw [← Except.ok.inj run]
    refine ⟨partOf_of_tables rfl, fun t found => ?_⟩
    rwa [found] at present
  · obtain ⟨_, made, rfl⟩ := map_eq_ok_iff.1 run
    obtain ⟨v, added, rfl⟩ := map_eq_ok_iff.1 made
    exact hasColumn_addColumn added

/-- to create an index leaves what is there, and an index of the name is there then -/
theorem hasIndex_createIndex {index : CreateIndex} {name : String} (named : index.name = some name)
    (run : createIndex d index w = .ok w') : w.PartOf d w' ∧
      ∃ t, w'.table? (index.table.key d) = some t ∧ t.HasIndex d name := by
  simp only [createIndex, requireTable, named] at run
  cases found : w.table? (index.table.key d) with
  | none => simp [found, bind, Except.bind] at run
  | some t =>
    obtain ⟨-, own⟩ := table?_eq_some found
    simp only [found, bind, Except.bind] at run
    split_ifs at run with there
    · rw [← pure_eq_ok_iff.1 run]
      exact ⟨partOf_of_tables rfl, t, found, there⟩
    · exact absurd run (by simp [Draft.problem_eq_ok_iff])
    · simp only [onTable, own, found] at run
      obtain ⟨t', added, rfl⟩ := map_eq_ok_iff.1 run
      obtain ⟨sameKey, part, indexed⟩ := Draft.hasIndex_addIndex added
      have keys : ∀ x : Draft, x.key = index.table.key d → t'.key = index.table.key d := fun _ _ => sameKey.trans own
      exact ⟨partOf_updateTable keys found part, t', table?_updateTable_of_found keys found, indexed⟩

/-! ### Without errors -/

/-- where no error is found at last, none was found before -/
theorem Unnumbered.errors_eq_nil {change : Workspace → Except ε Workspace} (h : Unnumbered change)
    (run : change w = .ok w') (fine : w'.errors = []) : w.errors = [] := by
  have framed := h.frame id w.ledger w.unreported
  rw [renumber_unreported, run] at framed
  obtain ⟨v, -, rfl⟩ := map_eq_ok_iff.1 framed.symm
  rw [renumber_id] at fine
  exact (List.append_eq_nil_iff.1 fine).1

/-- an attempt that finds no error makes the change -/
theorem change_of_attempt {change : Change} {position : Position} {source : Option String}
    (run : w.attempt position source change = .ok w') (fine : w'.errors = []) : change w = .ok w' := by
  simp only [attempt] at run
  split at run
  · rename_i v made
    rw [made, Except.ok.inj run]
  · rename_i p made
    rw [← Except.ok.inj run] at fine
    exact absurd fine (List.append_ne_nil_of_right_ne_nil _ (List.cons_ne_nil _ _))
  · contradiction

section
variable {site : Site} {actions : List TableAction} (guards : ∀ a ∈ actions, ∃ clause, a = .addColumn clause true)
include guards

theorem alterActions_of_guards (w : Workspace) : alterActions d site actions w key =
    actions.foldlM (fun w a => w.attempt site.position site.source (actionChange d site key a)) w := by
  refine alterActions_eq_foldlM (fun a ha => ?_) site w
  obtain ⟨clause, rfl⟩ := guards a ha
  rfl

theorem unnumbered_alterActions : Unnumbered fun w => alterActions d site actions w key := by
  simp only [alterActions_of_guards guards]
  refine .foldlM fun a ha => (unnumbered_actionChange ?_ site).attempt site.position site.source
  obtain ⟨clause, rfl⟩ := guards a ha
  rfl

theorem adds_alterActions : Adds d fun w => alterActions d site actions w key := by
  simp only [alterActions_of_guards guards]
  refine .foldlM fun a ha => Adds.attempt (fun w w' run => ?_) site.position site.source
  obtain ⟨clause, rfl⟩ := guards a ha
  exact (hasColumn_actionChange run).1

/-- all columns are there that the actions add -/
theorem hasColumn_alterActions (run : alterActions d site actions w key = .ok w')
    (fine : w'.errors = []) {clause : ColumnClause} (ha : .addColumn clause true ∈ actions) :
    ∀ t, w'.table? key = some t → t.HasColumn d clause.name := by
  -- the action stands somewhere among the others; what follows it keeps its column
  obtain ⟨before, after, rfl⟩ := List.append_of_mem ha
  rw [alterActions_of_guards guards, List.foldlM_append, bind_eq_ok_iff] at run
  obtain ⟨v, -, run⟩ := run
  rw [List.foldlM_cons, bind_eq_ok_iff] at run
  obtain ⟨v', first, later⟩ := run
  have behind : ∀ a ∈ after, ∃ clause, a = .addColumn clause true := fun a ha =>
    guards a (List.mem_append_right _ (List.mem_cons_of_mem _ ha))
  rw [← alterActions_of_guards behind] at later
  have made := change_of_attempt first ((unnumbered_alterActions behind).errors_eq_nil later fine)
  intro t found
  obtain ⟨t₀, there, part⟩ := (adds_alterActions behind v' w' later).origin found
  exact part.hasColumn ((hasColumn_actionChange made).2 t₀ there)

/-- actions whose columns are all there do nothing -/
theorem alterActions_of_hasColumn {t : Draft} (found : w.table? key = some t)
    (there : ∀ clause, .addColumn clause true ∈ actions → t.HasColumn d clause.name) :
    alterActions d site actions w key = .ok w := by
  rw [alterActions_of_guards guards]
  suffices idle : ∀ a ∈ actions, w.attempt site.position site.source (actionChange d site key a) = .ok w by
    clear there guards
    induction actions with
    | nil => rfl
    | cons a rest ih =>
      rw [List.foldlM_cons, idle a List.mem_cons_self]
      exact ih fun b hb => idle b (List.mem_cons_of_mem a hb)
  intro a ha
  obtain ⟨clause, rfl⟩ := guards a ha
  have present : ((w.table? key).bind fun t => t.column? d clause.name).isSome = true := by
    rw [found]
    exact there clause ha
  refine attempt_of_ok ?_
  simp only [actionChange, alterAction, present, Bool.and_self, if_true]
  rfl

end

/-! ## What is asked for -/

/-- everything is there that a guarded statement asks for, or the statement may pass over a table that is not -/
inductive Meets (d : Dialect) (w : Workspace) (st : Statement) : Prop where
  | table {table : CreateTable} {t : Draft} (body : st.body = .createTable table)
      (found : w.table? (table.name.key d) = some t)
  | index {index : CreateIndex} {name : String} {t : Draft} (body : st.body = .createIndex index)
      (named : index.name = some name) (guard : index.ifNotExists = true)
      (found : w.table? (index.table.key d) = some t) (there : t.HasIndex d name)
  | columns {alter : AlterTable} {t : Draft} (body : st.body = .alterTable alter)
      (guards : ∀ a ∈ alter.actions, ∃ clause, a = .addColumn clause true)
      (found : w.table? (alter.name.key d) = some t)
      (there : ∀ clause, .addColumn clause true ∈ alter.actions → t.HasColumn d clause.name)
  | skipped {alter : AlterTable} (body : st.body = .alterTable alter) (absent : w.table? (alter.name.key d) = none)
      (optional : alter.ifExists = true)

/-- the table is there that the statement declares, if it declares one -/
def Declares (d : Dialect) (w : Workspace) (st : Statement) : Prop :=
  ∀ table, st.body = .createTable table → ∃ t, w.table? (table.name.key d) = some t

variable {st : Statement} {index : Nat} {S : List Statement} {l : List (Statement × Nat)}

theorem Declares.of_partOf (h : w.Declares d st) (part : w.PartOf d w') : w'.Declares d st := by
  intro table body
  obtain ⟨t, found⟩ := h table body
  obtain ⟨t', found', -⟩ := part.kept _ t found
  exact ⟨t', found'⟩

/-- what is there stays there -/
theorem Meets.of_partOf (h : w.Meets d st) (part : w.PartOf d w') : w'.Meets d st := by
  cases h with
  | table body found =>
    obtain ⟨t', found', -⟩ := part.kept _ _ found
    exact .table body found'
  | index body named guard found there =>
    obtain ⟨t', found', kept⟩ := part.kept _ _ found
    exact .index body named guard found' (kept.hasIndex there)
  | columns body guards found there =>
    obtain ⟨t', found', kept⟩ := part.kept _ _ found
    exact .columns body guards found' fun clause ha => kept.hasColumn (there clause ha)
  | skipped body absent optional => exact .skipped body (part.absent _ absent) optional

/-- a statement whose wants are met does nothing but warn -/
theorem exists_changePass_of_meets (h : w.Meets d st) (index : Nat) :
    ∃ w', changePass d w (st, index) = .ok w' ∧ w'.quiet = w.quiet := by
  cases h with
  | table body found => exact ⟨w, by simp only [changePass, body], rfl⟩
  | @index create name t body named guard found there =>
    have idle : createIndex d create w = .ok w := by
      have there : (t.indexes.any fun i => hasName d i.name name) = true := there
      simp only [createIndex, requireTable, found, named, bind, Except.bind, there, guard, if_true]
      rfl
    refine ⟨w, ?_, rfl⟩
    simp only [changePass, body]
    exact attempt_of_ok idle
  | @columns alter t body guards found there =>
    have own := (table?_eq_some found).2
    have idle : alterTable d st alter w = .ok w := by
      simp only [alterTable, found, own, alterActions_of_hasColumn guards found there]
      rfl
    refine ⟨w, ?_, rfl⟩
    simp only [changePass, body]
    exact attempt_of_ok idle
  | @skipped alter body absent optional =>
    refine ⟨w.report .warning "UNKNOWN_TABLE" s!"ALTER TABLE IF EXISTS targets unknown table '{alter.name.text}'; skipped"
      st.position st.source, ?_, rfl⟩
    simp only [changePass, body]
    refine attempt_of_ok ?_
    simp only [alterTable, absent, optional, if_true]

section
variable (guarded : st.isGuarded = true)
include guarded

theorem adds_changePass (index : Nat) : Adds d fun w => changePass d w (st, index) := by
  cases Statement.guarded guarded with
  | table body =>
    simp only [changePass, body]
    exact fun w w' run => Except.ok.inj run ▸ partOf_of_tables rfl
  | index body named =>
    simp only [changePass, body]
    exact Adds.attempt (fun w w' run => (hasIndex_createIndex named run).1) st.position st.source
  | columns body guards =>
    simp only [changePass, body]
    refine Adds.attempt (fun w w' run => ?_) st.position st.source
    simp only [alterTable] at run
    split at run
    · exact adds_alterActions guards w w' (settle_eq_ok_iff.1 run)
    · split_ifs at run
      exact Except.ok.inj run ▸ partOf_of_tables rfl

theorem unnumbered_changePass_of_isGuarded (index : Nat) : Unnumbered fun w => changePass d w (st, index) := by
  refine unnumbered_changePass (fun drop dropped => ?_) (renamesTable_of_isGuarded guarded) index
  cases Statement.guarded guarded with
  | table body | index body | columns body => simp [body] at dropped

/-- once a statement is applied without an error, everything is there that it asks for -/
theorem meets_of_changePass (declared : w.Declares d st) (run : changePass d w (st, index) = .ok w')
    (fine : w'.errors = []) : w'.Meets d st := by
  cases Statement.guarded guarded with
  | @table table body =>
    simp only [changePass, body] at run
    obtain ⟨t, found⟩ := declared table body
    exact Except.ok.inj run ▸ .table body found
  | index body named guard =>
    simp only [changePass, body] at run
    obtain ⟨-, t, found, there⟩ := hasIndex_createIndex named (change_of_attempt run fine)
    exact .index body named guard found there
  | @columns alter body guards =>
    simp only [changePass, body] at run
    have made := change_of_attempt run fine
    simp only [alterTable] at made
    split at made
    · rename_i t found
      have done := settle_eq_ok_iff.1 made
      rw [(table?_eq_some found).2] at done
      obtain ⟨t', found', -⟩ := (adds_alterActions guards w w' done).kept _ t found
      exact .columns body guards found' fun clause ha => hasColumn_alterActions guards done fine ha t' found'
    · rename_i absent
      split_ifs at made with optional
      rw [← Except.ok.inj made]
      exact .skipped body absent optional

end

/-! ## Runs -/

/-- so it is for all statements, once they are applied -/
theorem meets_of_changes (guarded : ∀ n ∈ l, n.1.isGuarded = true) (declared : ∀ n ∈ l, w.Declares d n.1)
    (run : l.foldlM (changePass d) w = .ok w') (fine : w'.errors = []) : ∀ n ∈ l, w'.Meets d n.1 := by
  intro n hn
  obtain ⟨before, after, rfl⟩ := List.append_of_mem hn
  rw [List.foldlM_append, bind_eq_ok_iff] at run
  obtain ⟨v, first, run⟩ := run
  rw [List.foldlM_cons, bind_eq_ok_iff] at run
  obtain ⟨v', made, later⟩ := run
  have behind : ∀ m ∈ after, m.1.isGuarded = true := fun m hm =>
    guarded m (List.mem_append_right _ (List.mem_cons_of_mem _ hm))
  have ahead : w.PartOf d v :=
    Adds.foldlM (fun m hm => adds_changePass (guarded m (List.mem_append_left _ hm)) m.2) w v first
  have fine' : v'.errors = [] :=
    (Unnumbered.foldlM fun m hm => unnumbered_changePass_of_isGuarded (behind m hm) m.2).errors_eq_nil later fine
  have met := meets_of_changePass (guarded n hn) ((declared n hn).of_partOf ahead) made fine'
  exact met.of_partOf (Adds.foldlM (fun m hm => adds_changePass (behind m hm) m.2) v' w' later)

/-- steps that do nothing but warn -/
theorem exists_foldlM_of_idle {step : Workspace → Statement × Nat → Except Refusal Workspace}
    (idle : ∀ n ∈ l, ∀ v : Workspace, v.quiet = w.quiet → ∃ v', step v n = .ok v' ∧ v'.quiet = v.quiet) :
    ∃ w', l.foldlM step w = .ok w' ∧ w'.quiet = w.quiet := by
  -- the steps behind the first one start from what it left, which is as quiet
  induction l generalizing w with
  | nil => exact ⟨w, rfl, rfl⟩
  | cons n rest ih =>
    obtain ⟨v, first, same⟩ := idle n List.mem_cons_self w rfl
    obtain ⟨w', later, same'⟩ := ih (w := v) fun m hm u alike => idle m (List.mem_cons_of_mem n hm) u (alike.trans same)
    refine ⟨w', ?_, same'.trans same⟩
    rw [List.foldlM_cons, first]
    exact later

/-! ### Declarations -/

theorem exists_table?_iff : (∃ t, w.table? key = some t) ↔ key ∈ w.tables.map (·.key) := by
  rw [← not_iff_not, ← table?_eq_none_iff]
  cases w.table? key <;> simp

theorem tables_of_quiet (same : w'.quiet = w.quiet) : w'.tables = w.tables := (Workspace.mk.inj same).1

section
variable (kept : ∀ key first last, droppedBetween d S key first last = false)
include kept

/-- Where no table is dropped, a guarded statement declares a table that was not there yet, or only warns. -/
theorem declarationPass_cases (guarded : st.isGuarded = true) (index : Nat) (w : Workspace) :
    (w.Declares d st ∧ ∃ w', declarationPass d S w (st, index) = .ok w' ∧ w'.quiet = w.quiet) ∨
    ∃ table, st.body = .createTable table ∧ w.table? (table.name.key d) = none ∧
      declarationPass d S w (st, index) = addTable d st table index w := by
  have change : st.isChange = true → w.Declares d st ∧
      ∃ w', declarationPass d S w (st, index) = .ok w' ∧ w'.quiet = w.quiet := by
    intro change
    refine ⟨fun table body => ?_, w, declarationPass_of_isChange change index w, rfl⟩
    rw [Statement.isChange, body] at change
    exact absurd change Bool.false_ne_true
  cases Statement.guarded guarded with
  | @table table body guard =>
    cases found : w.table? (table.name.key d) with
    | none => exact Or.inr ⟨table, body, found, declarationPass_createTable body found index⟩
    | some t =>
      refine Or.inl ⟨fun other same => ?_, _, declarationPass_of_kept body found (kept ..), ?_⟩
      · obtain rfl : table = other := StatementBody.createTable.inj (body.symm.trans same)
        exact ⟨t, found⟩
      · rw [secondDeclaration, if_pos guard]
        simp only [quiet, enter, List.append_nil]
  | index body => exact Or.inl (change (by rw [Statement.isChange, body]))
  | columns body => exact Or.inl (change (by rw [Statement.isChange, body]))

/-- once a statement is gone through, the table is there that it declares, and so are those that were there before -/
theorem declares_of_declarationPass (guarded : st.isGuarded = true) (run : declarationPass d S w (st, index) = .ok w') :
    w'.Declares d st ∧ ∀ other, w.Declares d other → w'.Declares d other := by
  obtain ⟨declared, v, made, same⟩ | ⟨table, body, -, made⟩ := declarationPass_cases kept guarded index w
  · obtain rfl : v = w' := Except.ok.inj (made.symm.trans run)
    have part : w.PartOf d v := partOf_of_tables (tables_of_quiet same)
    exact ⟨declared.of_partOf part, fun other there => there.of_partOf part⟩
  · have keys := (sameOutline_addTable (made.symm.trans run)).keys
    rw [List.map_append] at keys
    constructor
    · intro table' body'
      obtain rfl : table = table' := StatementBody.createTable.inj (body.symm.trans body')
      rw [exists_table?_iff, keys]
      exact List.mem_append_right _ (List.mem_singleton_self _)
    · intro other there table' body'
      rw [exists_table?_iff, keys]
      exact List.mem_append_left _ (exists_table?_iff.1 (there table' body'))

theorem declares_of_declarations (guarded : ∀ n ∈ l, n.1.isGuarded = true)
    (run : l.foldlM (declarationPass d S) w = .ok w') : ∀ n ∈ l, w'.Declares d n.1 := by
  intro n hn
  obtain ⟨before, after, rfl⟩ := List.append_of_mem hn
  rw [List.foldlM_append, bind_eq_ok_iff] at run
  obtain ⟨v, -, run⟩ := run
  rw [List.foldlM_cons, bind_eq_ok_iff] at run
  obtain ⟨v', made, later⟩ := run
  have behind : ∀ m ∈ after, m.1.isGuarded = true := fun m hm =>
    guarded m (List.mem_append_right _ (List.mem_cons_of_mem _ hm))
  exact foldlM_keeps (P := fun u => u.Declares d n.1)
    (fun m hm u u' there step => (declares_of_declarationPass kept (behind m hm) step).2 n.1 there)
    (declares_of_declarationPass kept (guarded n hn) made).1 later

/-- declarations of tables that are there only warn -/
theorem exists_declarations_of_declares (guarded : ∀ n ∈ l, n.1.isGuarded = true)
    (declared : ∀ n ∈ l, w.Declares d n.1) :
    ∃ w', l.foldlM (declarationPass d S) w = .ok w' ∧ w'.quiet = w.quiet := by
  refine exists_foldlM_of_idle fun n hn v same => ?_
  have there := (declared n hn).of_partOf (partOf_of_tables (tables_of_quiet same))
  obtain ⟨-, idle⟩ | ⟨table, body, absent, -⟩ := declarationPass_cases kept (guarded n hn) n.2 v
  · exact idle
  · obtain ⟨t, found⟩ := there table body
    exact absurd (absent.symm.trans found) (by simp)

end

/-! ### All statements -/

theorem droppedBetween_of_isGuarded (guarded : ∀ st ∈ S, st.isGuarded = true) (key : String) (first last : Nat) :
    droppedBetween d S key first last = false := by
  rw [droppedBetween, List.any_eq_false]
  intro st hst
  rw [dropsTable_of_isGuarded (guarded st (List.mem_of_mem_take (List.mem_of_mem_drop hst)))]
  exact Bool.false_ne_true

/-- what holds of all statements, holds of them with their numbers -/
theorem forall_zipIdx_iff {P : Statement → Prop} {start : Nat} : (∀ n ∈ S.zipIdx start, P n.1) ↔ ∀ st ∈ S, P st := by
  constructor
  · intro each st hst
    rw [← List.zipIdx_map_fst start S] at hst
    obtain ⟨n, hn, rfl⟩ := List.mem_map.1 hst
    exact each n hn
  · exact fun each n hn => each n.1 (List.fst_mem_of_mem_zipIdx hn)

section
variable (guarded : ∀ st ∈ S, st.isGuarded = true) {v v' : Workspace}
include guarded

/-- the declarations of the second copy find the tables of the first -/
theorem exists_declarations_twice (run : S.zipIdx.foldlM (declarationPass d S) {} = .ok v) :
    (∀ st ∈ S, v.Declares d st) ∧
      ∃ v', (S ++ S).zipIdx.foldlM (declarationPass d (S ++ S)) {} = .ok v' ∧ v'.quiet = v.quiet := by
  have kept : ∀ key first last, droppedBetween d (S ++ S) key first last = false :=
    droppedBetween_of_isGuarded fun st hst => guarded st (by simpa using hst)
  have first : S.zipIdx.foldlM (declarationPass d (S ++ S)) {} = .ok v := by
    rw [← run]
    exact foldlM_congr fun n hn u => declarationPass_append (Nat.le_of_lt (List.snd_lt_of_mem_zipIdx hn)) u
  have declares := forall_zipIdx_iff.1 (declares_of_declarations kept (forall_zipIdx_iff.2 guarded) first)
  obtain ⟨v', second, same⟩ := exists_declarations_of_declares (l := S.zipIdx S.length) kept
    (forall_zipIdx_iff.2 guarded) (forall_zipIdx_iff.2 declares)
  refine ⟨declares, v', ?_, same⟩
  rw [List.zipIdx_append, List.foldlM_append, first, Nat.zero_add]
  exact second

/-- the changes of the second copy find what those of the first have added -/
theorem exists_changes_twice (declares : ∀ st ∈ S, v.Declares d st) (same : v'.quiet = v.quiet)
    (run : S.zipIdx.foldlM (changePass d) v = .ok w) (fine : w.errors = []) :
    ∃ w', (S ++ S).zipIdx.foldlM (changePass d) v' = .ok w' ∧ w'.quiet = w.quiet := by
  have alike : (S.zipIdx.foldlM (changePass d) v').map quiet = (S.zipIdx.foldlM (changePass d) v).map quiet :=
    foldlM_quiet (P := fun _ => True)
      (fun n hn u u' _ same => changePass_quiet
        (renamesTable_of_isGuarded (guarded n.1 (List.fst_mem_of_mem_zipIdx hn))) same)
      (fun _ _ _ _ _ _ => trivial) trivial same
  rw [run] at alike
  obtain ⟨u, first, same'⟩ := map_eq_ok_iff.1 alike
  have met := forall_zipIdx_iff.1
    (meets_of_changes (forall_zipIdx_iff.2 guarded) (forall_zipIdx_iff.2 declares) run fine)
  have idle : ∀ n ∈ S.zipIdx S.length, ∀ x : Workspace, x.quiet = u.quiet →
      ∃ x', changePass d x n = .ok x' ∧ x'.quiet = x.quiet := by
    intro n hn x quiet
    have there := met n.1 (List.fst_mem_of_mem_zipIdx hn)
    exact exists_changePass_of_meets (there.of_partOf (partOf_of_tables (tables_of_quiet (quiet.trans same')))) n.2
  obtain ⟨w', second, same''⟩ := exists_foldlM_of_idle idle
  refine ⟨w', ?_, same''.trans same'⟩
  rw [List.zipIdx_append, List.foldlM_append, first, Nat.zero_add]
  exact second

/-- Applied without an error, the statements may be applied once more, and only warn. -/
theorem exists_applyAll_twice (applied : applyAll d S = .ok w) (fine : w.errors = []) :
    ∃ w', applyAll d (S ++ S) = .ok w' ∧ w'.quiet = w.quiet := by
  have enums : ∀ T : List Statement, (∀ st ∈ T, st.isGuarded = true) → T.foldlM (enumPass d) {} = .ok {} :=
    fun T each => foldlM_eq_ok_self fun st hst v => enumPass_of_isGuarded (each st hst) v
  simp only [applyAll, enums S guarded, bind_eq_ok_iff, Except.ok.injEq, exists_eq_left'] at applied
  obtain ⟨v, declared, changed⟩ := applied
  obtain ⟨declares, v', declared', same⟩ := exists_declarations_twice guarded declared
  obtain ⟨w', changed', same'⟩ := exists_changes_twice guarded declares same changed fine
  refine ⟨w', ?_, same'⟩
  rw [applyAll, enums (S ++ S) fun st hst => guarded st (by simpa using hst)]
  exact bind_eq_ok_iff.2 ⟨{}, rfl, bind_eq_ok_iff.2 ⟨v', declared', changed'⟩⟩

end

/-! ## Models -/

variable {schemaFilter : Option String} {b : Built}

/-- what is found besides errors has no part in a model -/
theorem exists_build_of_quiet (same : w'.quiet = w.quiet) (built : w.build d schemaFilter = .ok b) :
    ∃ b', w'.build d schemaFilter = .ok b' ∧ b'.model = b.model := by
  obtain ⟨tables, enums, views, -, errors⟩ := Workspace.mk.inj same
  have named := named_of_build built
  obtain ⟨b', built'⟩ := (exists_build_iff (d := d) (w := w') schemaFilter).2
    ⟨fun t ht => named.tables t (tables ▸ ht), fun t ht => named.columns t (tables ▸ ht)⟩
  refine ⟨b', built', ?_⟩
  have shownTables : b'.model.tables = b.model.tables := by
    rw [tables_of_build built', tables_of_build built, resolvedTables, resolvedTables, tables]
  have shownErrors : b'.model.errors = b.model.errors := by
    rw [(findings_of_build built').1, (findings_of_build built).1, tables, errors]
  rw [model_of_build built', model_of_build built, shownTables, shownErrors, views, enums]

end Workspace

/-- Guarded statements can be run twice: where their model is valid, the list followed by itself has the same model, with
the same tables, relationships, junction tables and types. -/
theorem buildModel_twice {schemaFilter : Option String} {S : List Statement} (guarded : ∀ st ∈ S, st.isGuarded = true)
    {b : Built} (built : buildModel d schemaFilter S = .ok b) (valid : b.model.isValid = true) :
    ∃ b', buildModel d schemaFilter (S ++ S) = .ok b' ∧ b'.model.isValid = true ∧ b'.model = b.model := by
  obtain ⟨w, applied, made⟩ := Workspace.exists_applied_of_buildModel built
  have fine := ((Workspace.isValid_iff made).1 valid).quiet
  obtain ⟨w', again, same⟩ := Workspace.exists_applyAll_twice guarded applied fine
  obtain ⟨b', made', model⟩ := Workspace.exists_build_of_quiet same made
  exact ⟨b', (Workspace.buildModel_of_applied again schemaFilter).trans made', model ▸ valid, model⟩

/-- a table that gets a column before it is declared, is declared again with another one, and refers to a table that is
declared behind it; a table that is not there is passed over -/
def library : List Statement :=
  let integer (name : String) : ColumnClause := { name := name, type := some { base := "INTEGER" }, position := ⟨1, 1, 0⟩ }
  let add (table column : String) (ifExists : Bool) : StatementBody := .alterTable {
    name := ⟨table, none⟩, actions := [.addColumn (integer column) true, .addColumn (integer column) true], ifExists }
  let create (table : String) (columns : List ColumnClause) (constraints : List ConstraintClause) : StatementBody :=
    .createTable { name := ⟨table, none⟩, columns, constraints, ifNotExists := true }
  let writer : ConstraintClause := .foreignKey ["writer"] { table := ⟨"Author", none⟩, columns := [] } none ⟨3, 1, 0⟩
  let index : StatementBody := .createIndex {
    name := some "by_writer", table := ⟨"book", none⟩, elements := [⟨"WRITER", some "WRITER", false⟩], ifNotExists := true }
  [⟨add "book" "year" false, ⟨1, 1, 0⟩, none⟩, ⟨index, ⟨2, 1, 0⟩, none⟩,
    ⟨create "book" [integer "id", integer "writer"] [writer], ⟨3, 1, 0⟩, none⟩, ⟨add "shelf" "room" true, ⟨4, 1, 0⟩, none⟩,
    ⟨create "author" [integer "id"] [.primaryKey ["id"] none ⟨5, 1, 0⟩], ⟨5, 1, 0⟩, none⟩,
    ⟨create "BOOK" [integer "title"] [], ⟨6, 1, 0⟩, none⟩, ⟨index, ⟨7, 1, 0⟩, none⟩]

theorem buildModel_twice_library : ∃ b b', buildModel .sqlite none library = .ok b ∧
    buildModel .sqlite none (library ++ library) = .ok b' ∧ b'.model.isValid = true ∧ b'.model = b.model ∧
    b.model.tables.map (fun t => (t.name, t.columns.map (·.name))) =
      [("book", ["id", "writer", "year"]), ("author", ["id"])] ∧
    b.model.tables.map (·.indexes.length) = [1, 0] ∧ b.model.relationships.length = 1 := by
  have shape : (buildModel .sqlite none library).toOption.map (fun b => (b.model.isValid,
      b.model.tables.map fun t => (t.name, t.columns.map (·.name)))) =
      some (true, [("book", ["id", "writer", "year"]), ("author", ["id"])]) := by
    decide +kernel
  have sizes : (buildModel .sqlite none library).toOption.map (fun b => (b.model.tables.map (·.indexes.length),
      b.model.relationships.length)) = some ([1, 0], 1) := by
    decide +kernel
  obtain ⟨b, built, shape⟩ := Option.map_eq_some_iff.1 shape
  obtain ⟨valid, tables⟩ := Prod.mk.inj shape
  have built := toOption_eq_some_iff.1 built
  rw [built] at sizes
  obtain ⟨indexes, relationships⟩ := Prod.mk.inj (Option.some.inj sizes)
  obtain ⟨b', built', valid', same⟩ := buildModel_twice (by decide) built valid
  exact ⟨b, b', built, built', valid', same, tables, indexes, relationships⟩

end SchemaApi
