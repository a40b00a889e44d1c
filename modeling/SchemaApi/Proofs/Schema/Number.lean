import SchemaApi.Proofs.Schema.Execution
/-!
The numbers of the statements that declared the tables.

A table carries the number of its statement, and `DROP TABLE` compares it with its own. No other change looks at these
numbers or at what was found before, and none but the renaming of a table changes which table carries which number
(`Unnumbered`). So all of them come to the same when the statements are counted otherwise.
-/

namespace SchemaApi

variable {d : Dialect} {f : Nat → Nat}

/-! ## Tables -/

namespace Draft

variable {t t' : Draft}

/-- the table as if it was declared by a statement of another number -/
def renumber (f : Nat → Nat) (t : Draft) : Draft := { t with declaredBy := f t.declaredBy }

/-- the tables have the same key and number -/
structure SameNumber (t t' : Draft) : Prop where
  key : t'.key = t.key
  declaredBy : t'.declaredBy = t.declaredBy

/-- the change of a table has nothing to do with its number -/
structure Unnumbered (change : Draft → Except Failure Draft) : Prop where
  frame : ∀ f t, change (t.renumber f) = (change t).map (renumber f)
  keeps : ∀ t t', change t = .ok t' → SameNumber t t'

theorem map_problem {α β : Type} (g : α → β) (t : Draft) (p : String → Problem) :
    (t.problem p : Except Failure α).map g = t.problem p := by
  unfold problem
  cases t.label? <;> rfl

theorem unnumbered_addIndex (elements : List IndexElement) (name : Option String) (unique : Bool)
    (method condition : Option String) :
    Unnumbered fun t => t.addIndex d elements name unique method condition where
  frame f t := by
    have read : (t.renumber f).elementColumn d = t.elementColumn d := rfl
    simp only [addIndex, read, map_bind_eq]
    rfl
  keeps t t' run := by
    obtain ⟨index, rfl⟩ := addIndex_eq_ok run
    exact ⟨rfl, rfl⟩

theorem requireValues_renumber (names : List String) :
    (t.renumber f).requireValues d names = (t.requireValues d names).renumber f := by
  unfold requireValues
  induction names generalizing t with
  | nil => rfl
  | cons n names ih => exact ih (t := t.updateColumn d n fun c => { c with nullable := false })

theorem unnumbered_addConstraint (source : Option String) (clause : ConstraintClause) :
    Unnumbered fun t => t.addConstraint d source clause where
  frame f t := by
    have read : (t.renumber f).canonical d = t.canonical d := rfl
    have column : (t.renumber f).requireColumn d = t.requireColumn d := rfl
    have primary : (t.renumber f).primaryKey? = t.primaryKey? := rfl
    cases clause with
    | primaryKey columns name position =>
      simp only [addConstraint, read, primary, requireValues_renumber, map_bind_eq]
      refine bind_congr fun cols => ?_
      split_ifs
      · exact (map_problem _ t _).symm
      · rw [map_bind_eq]
        rfl
    | unique columns name position =>
      simp only [addConstraint, read, map_bind_eq]
      rfl
    | foreignKey columns reference name position =>
      simp only [addConstraint, read, map_bind_eq]
      refine bind_congr fun cols => ?_
      split_ifs
      · rfl
      · rw [map_bind_eq]
        rfl
    | check expression name own position =>
      simp only [addConstraint, column, map_bind_eq]
      refine bind_congr fun own => ?_
      split_ifs <;> rfl
    | index elements name unique kind position => exact (unnumbered_addIndex ..).frame f t
  keeps t t' run := by
    rw [addConstraint_eq run]
    exact ⟨rfl, rfl⟩

theorem unnumbered_dropPrimaryKey : Unnumbered dropPrimaryKey where
  frame f t := by
    have same : (t.renumber f).constraints = t.constraints := rfl
    unfold dropPrimaryKey
    rw [same]
    split_ifs
    · rfl
    · exact (map_problem _ t _).symm
  keeps t t' run := by
    unfold dropPrimaryKey at run
    split_ifs at run
    · rw [← Except.ok.inj run]
      exact ⟨rfl, rfl⟩
    · exact absurd run (by simp [problem_eq_ok_iff])

/-- what is dropped of a table has nothing to do with its number -/
structure UnnumberedDrop (drop : Draft → Option Draft) : Prop where
  frame : ∀ f t, drop (t.renumber f) = (drop t).map (renumber f)
  keeps : ∀ t t', drop t = some t' → SameNumber t t'

theorem unnumbered_eraseConstraint? (p : Constraint → Bool) : UnnumberedDrop fun t => t.eraseConstraint? p where
  frame f t := by
    have same : (t.renumber f).constraints = t.constraints := rfl
    simp only [eraseConstraint?, same]
    split_ifs <;> rfl
  keeps t t' run := by
    simp only [eraseConstraint?, Option.ite_none_right_eq_some, Option.some.injEq] at run
    rw [← run.2]
    exact ⟨rfl, rfl⟩

theorem unnumbered_eraseIndex? (name : String) : UnnumberedDrop fun t => t.eraseIndex? d name where
  frame f t := by
    have same : (t.renumber f).indexes = t.indexes := rfl
    simp only [eraseIndex?, same]
    split_ifs <;> rfl
  keeps t t' run := by
    simp only [eraseIndex?, Option.ite_none_right_eq_some, Option.some.injEq] at run
    rw [← run.2]
    exact ⟨rfl, rfl⟩

theorem UnnumberedDrop.or {first second : Draft → Option Draft} (h : UnnumberedDrop first) (h' : UnnumberedDrop second) :
    UnnumberedDrop fun t => (first t).or (second t) where
  frame f t := by
    simp only [h.frame, h'.frame]
    cases first t <;> rfl
  keeps t t' run := by
    rcases Option.or_eq_some_iff.1 run with run | ⟨-, run⟩
    · exact h.keeps t t' run
    · exact h'.keeps t t' run

theorem unnumbered_dropNamed? (name : String) : UnnumberedDrop fun t => t.dropNamed? d name :=
  (unnumbered_eraseConstraint? _).or (unnumbered_eraseIndex? name)

theorem unnumbered_dropIndexNamed? (name : String) : UnnumberedDrop fun t => t.dropIndexNamed? d name :=
  (unnumbered_eraseIndex? name).or (unnumbered_eraseConstraint? _)

end Draft

/-- the action gives the table another name -/
def TableAction.renamesTable : TableAction → Bool
  | .renameTable _ => true
  | _ => false

/-- the statement gives a table another name -/
def Statement.renamesTable (st : Statement) : Bool :=
  match st.body with
  | .alterTable alter => alter.actions.any TableAction.renamesTable
  | _ => false

namespace Workspace

variable {w w' : Workspace} {before : Ledger} {key : String} {ε : Type}

/-- the schema as if its tables were declared by statements of other numbers, and something was found first -/
def renumber (f : Nat → Nat) (before : Ledger) (w : Workspace) : Workspace :=
  { w with
    tables := w.tables.map (Draft.renumber f)
    findings := before.findings ++ w.findings
    errors := before.errors ++ w.errors }

/-- which table was declared by which statement -/
def numbers (w : Workspace) : List (String × Nat) := w.tables.map fun t => (t.key, t.declaredBy)

/-- no two tables have the same key -/
def Distinct (w : Workspace) : Prop := (w.tables.map (·.key)).Nodup

/-- the change has nothing to do with the numbers of the tables -/
structure Unnumbered (change : Workspace → Except ε Workspace) : Prop where
  frame : ∀ f before w, change (w.renumber f before) = (change w).map (renumber f before)
  keeps : ∀ w w', w.Distinct → change w = .ok w' → w'.numbers = w.numbers

/-! ## Parts of changes -/

@[simp] theorem enums_renumber : (w.renumber f before).enums = w.enums := rfl

theorem Distinct.of_numbers (h : w.Distinct) (same : w'.numbers = w.numbers) : w'.Distinct := by
  have keys : ∀ v : Workspace, v.tables.map (·.key) = v.numbers.map (·.1) := fun v => by
    rw [numbers, List.map_map]
    rfl
  rwa [Distinct, keys, same, ← keys]

theorem Distinct.eq_of_key (h : w.Distinct) {x y : Draft} (hx : x ∈ w.tables) (hy : y ∈ w.tables)
    (same : x.key = y.key) : x = y :=
  List.inj_on_of_nodup_map h hx hy same

theorem table?_renumber : (w.renumber f before).table? key = (w.table? key).map (Draft.renumber f) :=
  Draft.find?_key_map (f := Draft.renumber f) (fun _ _ => rfl) key

theorem updateTable_renumber {g g' : Draft → Draft} (same : ∀ t, g' (t.renumber f) = (g t).renumber f) :
    (w.renumber f before).updateTable key g' = (w.updateTable key g).renumber f before := by
  simp only [updateTable, renumber, List.map_map]
  congr 1
  refine List.map_congr_left fun t _ => ?_
  have own : (t.renumber f).key = t.key := rfl
  simp only [Function.comp_apply, own]
  split_ifs
  · exact same t
  · rfl

theorem mapTables_renumber {g : Draft → Draft} (same : ∀ t, g (t.renumber f) = (g t).renumber f) :
    ({ w.renumber f before with tables := (w.renumber f before).tables.map g } : Workspace) =
      renumber f before { w with tables := w.tables.map g } := by
  simp only [renumber, List.map_map]
  congr 1
  exact List.map_congr_left fun t _ => same t

theorem numbers_mapTables {g : Draft → Draft} (same : ∀ t ∈ w.tables, t.SameNumber (g t)) :
    numbers { w with tables := w.tables.map g } = w.numbers := by
  simp only [numbers, List.map_map]
  refine List.map_congr_left fun t ht => ?_
  rw [Function.comp_apply, (same t ht).key, (same t ht).declaredBy]

theorem numbers_updateTable {g : Draft → Draft} (same : ∀ t ∈ w.tables, t.key = key → t.SameNumber (g t)) :
    (w.updateTable key g).numbers = w.numbers := by
  refine numbers_mapTables fun t ht => ?_
  split_ifs with own
  · exact same t ht (beq_iff_eq.1 own)
  · exact ⟨rfl, rfl⟩

/-- the table of a key may be replaced by one of the same number -/
theorem numbers_replace (distinct : w.Distinct) {t t' : Draft} (found : w.table? key = some t) (same : t.SameNumber t') :
    (w.updateTable key fun _ => t').numbers = w.numbers := by
  obtain ⟨ht, isKey⟩ := table?_eq_some found
  refine numbers_updateTable fun x hx own => ?_
  rw [distinct.eq_of_key hx ht (own.trans isKey.symm)]
  exact same

theorem report_renumber (severity : Severity) (code message : String) (position : Position) (source : Option String) :
    (w.renumber f before).report severity code message position source =
      (w.report severity code message position source).renumber f before := by
  simp only [report, renumber, List.append_assoc]

theorem reportType_renumber (type : Option TypeName) (reading : TypeReading) (place : String) (position : Position)
    (source : Option String) : (w.renumber f before).reportType type reading place position source =
      (w.reportType type reading place position source).renumber f before := by
  unfold reportType
  split_ifs
  · exact report_renumber ..
  · rfl

theorem record_renumber (p : Problem) (position : Position) (source : Option String) :
    (w.renumber f before).record p position source = (w.record p position source).renumber f before := by
  simp only [record, renumber, List.append_assoc]

theorem numbers_reportType (type : Option TypeName) (reading : TypeReading) (place : String) (position : Position)
    (source : Option String) : (w.reportType type reading place position source).numbers = w.numbers := by
  rw [numbers, tables_reportType, numbers]

/-- problems are recorded in the same way -/
theorem attempt_renumber {change change' : Change}
    (framed : change' (w.renumber f before) = (change w).map (renumber f before)) (position : Position)
    (source : Option String) : (w.renumber f before).attempt position source change' =
      (w.attempt position source change).map (renumber f before) := by
  rw [attempt, framed, attempt]
  cases change w with
  | ok w' => rfl
  | error failure =>
    cases failure with
    | problem p => exact congrArg Except.ok (record_renumber p position source)
    | refused r => rfl

/-- a run is framed if its steps are -/
theorem foldlM_renumber {α : Type} {step step' : Workspace → α → Except ε Workspace} {l : List α}
    (each : ∀ a ∈ l, ∀ w : Workspace, step' (w.renumber f before) a = (step w a).map (renumber f before))
    (w : Workspace) : l.foldlM step' (w.renumber f before) = (l.foldlM step w).map (renumber f before) := by
  induction l generalizing w with
  | nil => rfl
  | cons a l ih =>
    rw [List.foldlM_cons, List.foldlM_cons, each a List.mem_cons_self]
    cases step w a with
    | error e => rfl
    | ok w' => exact ih (fun b hb => each b (List.mem_cons_of_mem a hb)) w'

namespace Unnumbered

theorem attempt {change : Change} (h : Unnumbered change) (position : Position) (source : Option String) :
    Unnumbered fun w => w.attempt position source change where
  frame f before w := attempt_renumber (h.frame f before w) position source
  keeps w w' distinct run := by
    simp only [Workspace.attempt] at run
    split at run
    · rename_i w₁ made
      rw [← Except.ok.inj run]
      exact h.keeps w w₁ distinct made
    · rw [← Except.ok.inj run]
      rfl
    · simp at run

theorem foldlM {α : Type} {step : Workspace → α → Except ε Workspace} {l : List α}
    (each : ∀ a ∈ l, Unnumbered fun w => step w a) : Unnumbered fun w => l.foldlM step w where
  frame f before := foldlM_renumber fun a ha => (each a ha).frame f before
  keeps w _ distinct run :=
    foldlM_keeps (P := fun v : Workspace => v.numbers = w.numbers)
      (fun a ha v v' same made => ((each a ha).keeps v v' (distinct.of_numbers same) made).trans same) rfl run

theorem settle {change : Workspace → Except Refusal Workspace} (h : Unnumbered change) :
    Unnumbered fun w => Workspace.settle (change w) where
  frame f before w := by
    simp only [h.frame f before w]
    cases change w <;> rfl
  keeps w w' distinct run := h.keeps w w' distinct (settle_eq_ok_iff.1 run)

theorem bind {first second : Workspace → Except ε Workspace} (h : Unnumbered first) (h' : Unnumbered second) :
    Unnumbered fun w => first w >>= second where
  frame f before w := by
    simp only [h.frame f before w]
    cases first w with
    | error e => rfl
    | ok v => exact h'.frame f before v
  keeps w w' distinct run := by
    obtain ⟨v, made, run⟩ := bind_eq_ok_iff.1 run
    have same := h.keeps w v distinct made
    exact (h'.keeps v w' (distinct.of_numbers same) run).trans same

theorem onTable {change : Draft → Except Failure Draft} (h : Draft.Unnumbered change) :
    Unnumbered fun w => w.onTable key change where
  frame f before w := by
    simp only [Workspace.onTable, table?_renumber]
    cases w.table? key with
    | none => rfl
    | some t =>
      simp only [Option.map_some, h.frame f t]
      cases made : change t with
      | error failure => rfl
      | ok t' => exact congrArg Except.ok (updateTable_renumber fun _ => rfl)
  keeps w w' distinct run := by
    simp only [Workspace.onTable] at run
    split at run
    · rw [← Except.ok.inj run]
    · rename_i t found
      obtain ⟨t', made, rfl⟩ := map_eq_ok_iff.1 run
      exact numbers_replace distinct found (h.keeps t t' made)

end Unnumbered

theorem unnumbered_addConstraints (source : Option String) (clauses : List ConstraintClause) :
    Unnumbered fun w => w.addConstraints d key source clauses :=
  .foldlM fun clause _ => (Unnumbered.onTable (Draft.unnumbered_addConstraint source clause)).attempt clause.position
    source

/-! ## Actions of ALTER TABLE -/

theorem unnumbered_addColumn (source : Option String) (clause : ColumnClause) :
    Unnumbered (addColumn d key source clause) where
  frame f before w := by
    unfold addColumn
    rw [table?_renumber]
    cases w.table? key with
    | none => rfl
    | some t =>
      have present : (t.renumber f).column? d clause.name = t.column? d clause.name := rfl
      have label : (t.renumber f).label? = t.label? := rfl
      simp only [Option.map_some, present, label, enums_renumber]
      split_ifs
      · exact (Draft.map_problem _ t _).symm
      · rw [map_bind_eq]
        refine bind_congr fun label => ?_
        rw [map_bind_eq]
        refine bind_congr fun reading => ?_
        rw [reportType_renumber, updateTable_renumber (g := fun t =>
          { t with columns := t.columns ++ [clause.toColumn reading] }) fun _ => rfl]
        exact (unnumbered_addConstraints source clause.constraints).settle.frame f before _
  keeps w w' distinct run := by
    unfold addColumn at run
    split at run
    · rw [← Except.ok.inj run]
    · split_ifs at run
      · exact absurd run (by simp [Draft.problem_eq_ok_iff])
      · simp only [bind_eq_ok_iff, settle_eq_ok_iff] at run
        obtain ⟨label, -, reading, -, run⟩ := run
        have reported := numbers_reportType (w := w) clause.type reading s!"{label}.{clause.name}" clause.position source
        have extended : ((w.reportType clause.type reading s!"{label}.{clause.name}" clause.position source).updateTable
            key fun t => { t with columns := t.columns ++ [clause.toColumn reading] }).numbers = w.numbers := by
          refine (numbers_updateTable fun _ _ _ => ?_).trans reported
          exact ⟨rfl, rfl⟩
        exact ((unnumbered_addConstraints source clause.constraints).keeps _ w' (distinct.of_numbers extended) run).trans
          extended

theorem unnumbered_dropColumn (site : Site) (name : String) (ifExists cascade : Bool) :
    Unnumbered (dropColumn d site key name ifExists cascade) where
  frame f before w := by
    unfold dropColumn
    rw [table?_renumber]
    cases w.table? key with
    | none => rfl
    | some t =>
      have there : (t.renumber f).column? d name = t.column? d name := rfl
      have label : (t.renumber f).label? = t.label? := rfl
      simp only [Option.map_some, there, label]
      cases t.column? d name with
      | none =>
        simp only
        split_ifs
        · simp only [report_renumber, map_bind_eq]
          rfl
        · exact (Draft.map_problem _ t _).symm
      | some column =>
        have erased : (w.renumber f before).updateTable key (fun t => t.eraseColumn d column) =
            (w.updateTable key fun t => t.eraseColumn d column).renumber f before :=
          updateTable_renumber fun _ => rfl
        simp only [erased]
        split_ifs
        · exact congrArg Except.ok
            (mapTables_renumber (g := (·.dropForeignKeysTo d key (some column.name))) fun _ => rfl)
        · rfl
  keeps w w' _ run := by
    unfold dropColumn at run
    split at run
    · rw [← Except.ok.inj run]
    · split at run
      · split_ifs at run
        · simp only [bind_eq_ok_iff, pure_eq_ok_iff] at run
          obtain ⟨_, _, rfl⟩ := run
          rfl
        · exact absurd run (by simp [Draft.problem_eq_ok_iff])
      · rename_i column _
        have erased : (w.updateTable key fun t => t.eraseColumn d column).numbers = w.numbers :=
          numbers_updateTable fun _ _ _ => ⟨rfl, rfl⟩
        split_ifs at run
        · rw [← Except.ok.inj run]
          refine (numbers_mapTables fun _ _ => ?_).trans erased
          exact ⟨rfl, rfl⟩
        · rw [← Except.ok.inj run]
          exact erased

/-- something is dropped from a table, or it is missing -/
theorem unnumbered_dropped {drop : Draft → Option Draft} (h : Draft.UnnumberedDrop drop) (site : Site) (name : String)
    (ifExists : Bool) : Unnumbered fun w =>
      match w.table? key with
      | none => (.ok w : Except Failure Workspace)
      | some t =>
        match drop t with
        | some t' => .ok (w.updateTable key fun _ => t')
        | none =>
          if ifExists then do
            let label ← Workspace.settle t.label?
            return w.report .info "UNKNOWN_CONSTRAINT"
              s!"DROP CONSTRAINT IF EXISTS: no constraint '{name}' on '{label}'" site.position site.source
          else t.problem (.unknownConstraint · name) where
  frame f before w := by
    simp only [table?_renumber]
    cases w.table? key with
    | none => rfl
    | some t =>
      have label : (t.renumber f).label? = t.label? := rfl
      simp only [Option.map_some, h.frame f t, label]
      cases drop t with
      | some t' => exact congrArg Except.ok (updateTable_renumber fun _ => rfl)
      | none =>
        simp only [Option.map_none]
        split_ifs
        · simp only [report_renumber, map_bind_eq]
          rfl
        · exact (Draft.map_problem _ t _).symm
  keeps w w' distinct run := by
    split at run
    · rw [← Except.ok.inj run]
    · rename_i t found
      split at run
      · rename_i t' dropped
        rw [← Except.ok.inj run]
        exact numbers_replace distinct found (h.keeps t t' dropped)
      · split_ifs at run
        · simp only [bind_eq_ok_iff, pure_eq_ok_iff] at run
          obtain ⟨_, _, rfl⟩ := run
          rfl
        · exact absurd run (by simp [Draft.problem_eq_ok_iff])

theorem unnumbered_dropConstraint (site : Site) (target : ConstraintTarget) (ifExists : Bool) :
    Unnumbered (dropConstraint d site key target ifExists) := by
  cases target with
  | primaryKey =>
    have same : dropConstraint d site key .primaryKey ifExists = fun w => w.onTable key Draft.dropPrimaryKey := by
      funext w
      unfold dropConstraint onTable
      cases w.table? key <;> rfl
    rw [same]
    exact .onTable Draft.unnumbered_dropPrimaryKey
  | named name => exact unnumbered_dropped (Draft.unnumbered_dropNamed? name) site name ifExists
  | foreignKey name => exact unnumbered_dropped (Draft.unnumbered_dropNamed? name) site name ifExists
  | index name => exact unnumbered_dropped (Draft.unnumbered_dropIndexNamed? name) site name ifExists

theorem unnumbered_alterColumn (site : Site) (name : String) (setNotNull : Option Bool) (default : Option String)
    (dropDefault : Bool) (newType : Option TypeName) :
    Unnumbered (alterColumn d site key name setNotNull default dropDefault newType) where
  frame f before w := by
    unfold alterColumn
    rw [table?_renumber]
    cases w.table? key with
    | none => rfl
    | some t =>
      have column : (t.renumber f).requireColumn d name "ALTER COLUMN" = t.requireColumn d name "ALTER COLUMN" := rfl
      have primary : (t.renumber f).primaryKey? = t.primaryKey? := rfl
      have label : (t.renumber f).label? = t.label? := rfl
      have changed : ∀ (v : Workspace) (g : Column → Column),
          (v.renumber f before).updateTable key (fun t => t.updateColumn d name g) =
            (v.updateTable key fun t => t.updateColumn d name g).renumber f before := fun v g =>
        updateTable_renumber fun _ => rfl
      simp only [Option.map_some, column, primary, label, map_bind_eq]
      refine bind_congr fun column => ?_
      by_cases nulls : setNotNull = some false ∧ (t.primaryKey?.getD []).contains column.name
      · rw [if_pos nulls, if_pos nulls]
        exact (Draft.map_problem _ t _).symm
      · rw [if_neg nulls, if_neg nulls]
        cases newType with
        | none => exact congrArg Except.ok (changed w _)
        | some type =>
          simp only [changed, enums_renumber, map_bind_eq, reportType_renumber]
          rfl
  keeps w w' _ run := by
    have changed : ∀ (v : Workspace) (g : Column → Column),
        (v.updateTable key fun t => t.updateColumn d name g).numbers = v.numbers := fun v g =>
      numbers_updateTable fun _ _ _ => ⟨rfl, rfl⟩
    unfold alterColumn at run
    split at run
    · rw [← Except.ok.inj run]
    · rename_i t _
      simp only [bind_eq_ok_iff] at run
      obtain ⟨column, -, run⟩ := run
      by_cases nulls : setNotNull = some false ∧ (t.primaryKey?.getD []).contains column.name
      · rw [if_pos nulls] at run
        exact absurd run (by simp [Draft.problem_eq_ok_iff])
      · rw [if_neg nulls] at run
        split at run
        · rw [← pure_eq_ok_iff.1 run]
          exact changed w _
        · simp only [bind_eq_ok_iff, settle_eq_ok_iff, pure_eq_ok_iff] at run
          obtain ⟨label, -, reading, -, rfl⟩ := run
          rw [changed, numbers_reportType, changed]

theorem unnumbered_renameColumn (old new : String) : Unnumbered (renameColumn d key old new) where
  frame f before w := by
    unfold renameColumn
    rw [table?_renumber]
    cases w.table? key with
    | none => rfl
    | some t =>
      have column : (t.renumber f).requireColumn d old "RENAME COLUMN" = t.requireColumn d old "RENAME COLUMN" := rfl
      have taken : (t.renumber f).column? d new = t.column? d new := rfl
      simp only [Option.map_some, column, taken, map_bind_eq]
      refine bind_congr fun column => ?_
      split_ifs
      · exact (Draft.map_problem _ t _).symm
      · rw [updateTable_renumber (g := fun t => t.renameColumn d column.name new) fun _ => rfl]
        exact congrArg Except.ok (mapTables_renumber (g := (·.renameTargetColumn d key column.name new)) fun _ => rfl)
  keeps w w' _ run := by
    unfold renameColumn at run
    split at run
    · rw [← Except.ok.inj run]
    · simp only [bind_eq_ok_iff] at run
      obtain ⟨column, -, run⟩ := run
      split_ifs at run
      · exact absurd run (by simp [Draft.problem_eq_ok_iff])
      · rw [← pure_eq_ok_iff.1 run]
        refine (numbers_mapTables fun _ _ => ?_).trans (numbers_updateTable fun _ _ _ => ?_)
        · exact ⟨rfl, rfl⟩
        · exact ⟨rfl, rfl⟩

/-- a column is replaced in a table of a name -/
theorem unnumbered_replaceColumn (site : Site) (clause : ColumnClause) (old : String) (label : Except Refusal String) :
    Unnumbered fun w => (do
      let label ← Workspace.settle label
      let reading ← Workspace.settle (readType? d w.enums clause.type)
      let w := w.reportType clause.type reading s!"{label}.{clause.name}" clause.position site.source
      let replace (t : Draft) : Draft :=
        let column := clause.toColumn reading
        let inKey := (t.primaryKey?.getD []).contains column.name
        t.updateColumn d old fun _ => if inKey then { column with nullable := false } else column
      Workspace.settle ((w.updateTable key replace).addConstraints d key site.source clause.constraints) :
        Except Failure Workspace) where
  frame f before w := by
    simp only [enums_renumber, map_bind_eq, reportType_renumber]
    refine bind_congr fun label => bind_congr fun reading => ?_
    rw [updateTable_renumber (g := fun t => t.updateColumn d old fun _ =>
      if (t.primaryKey?.getD []).contains (clause.toColumn reading).name
      then { clause.toColumn reading with nullable := false } else clause.toColumn reading) fun _ => rfl]
    exact (unnumbered_addConstraints site.source clause.constraints).settle.frame f before _
  keeps w w' distinct run := by
    simp only [bind_eq_ok_iff, settle_eq_ok_iff] at run
    obtain ⟨label, -, reading, -, run⟩ := run
    have replaced : ((w.reportType clause.type reading s!"{label}.{clause.name}" clause.position site.source).updateTable
        key fun t => t.updateColumn d old fun _ =>
          if (t.primaryKey?.getD []).contains (clause.toColumn reading).name
          then { clause.toColumn reading with nullable := false } else clause.toColumn reading).numbers = w.numbers := by
      refine (numbers_updateTable fun _ _ _ => ?_).trans (numbers_reportType ..)
      exact ⟨rfl, rfl⟩
    have kept := (unnumbered_addConstraints site.source clause.constraints).keeps _ w' (distinct.of_numbers replaced) run
    exact kept.trans replaced

theorem unnumbered_modifyColumn (site : Site) (clause : ColumnClause) (oldName : Option String) :
    Unnumbered (modifyColumn d site key clause oldName) where
  frame f before w := by
    unfold modifyColumn
    rw [table?_renumber]
    cases w.table? key with
    | none => rfl
    | some t =>
      have column : (t.renumber f).requireColumn d = t.requireColumn d := rfl
      simp only [Option.map_some, column]
      rw [map_bind_eq]
      refine bind_congr fun _ => ?_
      split_ifs
      · exact ((unnumbered_renameColumn _ clause.name).bind
          (unnumbered_replaceColumn site clause clause.name t.label?)).frame f before w
      · exact (unnumbered_replaceColumn site clause _ t.label?).frame f before w
  keeps w w' distinct run := by
    unfold modifyColumn at run
    split at run
    · rw [← Except.ok.inj run]
    · rename_i t _
      obtain ⟨_, -, run⟩ := bind_eq_ok_iff.1 run
      dsimp only at run
      split_ifs at run
      · exact ((unnumbered_renameColumn _ clause.name).bind
          (unnumbered_replaceColumn site clause clause.name t.label?)).keeps w w' distinct run
      · exact (unnumbered_replaceColumn site clause _ t.label?).keeps w w' distinct run

/-- what an action does, whatever the key of its table is afterwards -/
def actionChange (d : Dialect) (site : Site) (key : String) (action : TableAction) : Change :=
  fun w => (alterAction d site key action w).map (·.1)

theorem alterAction_eq {action : TableAction} (plain : action.renamesTable = false) (site : Site) (w : Workspace) :
    alterAction d site key action w = (actionChange d site key action w).map (·, key) := by
  have kept : ∀ x : Except Failure Workspace, x.map (·, key) = ((x.map (·, key)).map (·.1)).map (·, key) := fun x => by
    cases x <;> rfl
  cases action with
  | renameTable newName => simp [TableAction.renamesTable] at plain
  | addColumn clause ifNotExists =>
    simp only [actionChange, alterAction]
    split_ifs
    · rfl
    · exact kept _
  | _ => exact kept _

theorem unnumbered_actionChange {action : TableAction} (plain : action.renamesTable = false) (site : Site) :
    Unnumbered (actionChange d site key action) := by
  have whole : ∀ change : Change, Unnumbered change → Unnumbered fun w => ((change w).map (·, key)).map (·.1) := by
    intro change h
    have same : (fun w => ((change w).map (·, key)).map (·.1)) = change := by
      funext w
      cases change w <;> rfl
    rw [same]
    exact h
  cases action with
  | renameTable newName => simp [TableAction.renamesTable] at plain
  | addColumn clause ifNotExists =>
    have present : ∀ f before w, (((renumber f before w).table? key).bind fun t => t.column? d clause.name) =
        (w.table? key).bind fun t => t.column? d clause.name := by
      intro f before w
      rw [table?_renumber]
      cases w.table? key <;> rfl
    have added := whole (Workspace.addColumn d key site.source clause) (unnumbered_addColumn site.source clause)
    constructor
    · intro f before w
      simp only [actionChange, alterAction, present]
      split_ifs
      · rfl
      · exact added.frame f before w
    · intro w w' distinct run
      simp only [actionChange, alterAction] at run
      split_ifs at run
      · rw [← Except.ok.inj run]
      · exact added.keeps w w' distinct run
  | dropColumn name ifExists cascade => exact whole _ (unnumbered_dropColumn site name ifExists cascade)
  | addConstraint clause => exact whole _ (.onTable (Draft.unnumbered_addConstraint site.source clause))
  | dropConstraint target ifExists => exact whole _ (unnumbered_dropConstraint site target ifExists)
  | alterColumn name setNotNull default dropDefault newType =>
    exact whole _ (unnumbered_alterColumn site name setNotNull default dropDefault newType)
  | renameColumn old new => exact whole _ (unnumbered_renameColumn old new)
  | modifyColumn clause oldName => exact whole _ (unnumbered_modifyColumn site clause oldName)

/-- actions that leave the name of the table are made one by one -/
theorem alterActions_eq_foldlM {actions : List TableAction} (plain : ∀ a ∈ actions, a.renamesTable = false)
    (site : Site) (w : Workspace) : alterActions d site actions w key =
      actions.foldlM (fun w a => w.attempt site.position site.source (actionChange d site key a)) w := by
  induction actions generalizing w with
  | nil => rfl
  | cons a rest ih =>
    have later := ih fun b hb => plain b (List.mem_cons_of_mem a hb)
    rw [alterActions, alterAction_eq (plain a List.mem_cons_self), List.foldlM_cons, attempt]
    cases actionChange d site key a w with
    | ok w' => exact later w'
    | error failure =>
      cases failure with
      | problem p => exact later _
      | refused r => rfl

/-! ## Statements -/

theorem unnumbered_add (placed : Addition × Site) : Unnumbered fun w => w.add d key placed := by
  obtain ⟨a, site⟩ := placed
  cases a with
  | column clause => exact (unnumbered_addColumn site.source clause).attempt site.position site.source
  | constraint clause =>
    exact (Unnumbered.onTable (Draft.unnumbered_addConstraint site.source clause)).attempt site.position site.source

/-- a new table carries the number of its statement -/
theorem numbers_addTable {st : Statement} {table : CreateTable} {index : Nat} (distinct : w.Distinct)
    (fresh : ∀ t ∈ w.tables, t.key ≠ table.name.key d) (added : addTable d st table index w = .ok w') :
    w'.numbers = w.numbers ++ [(table.name.key d, index)] := by
  rw [addTable_eq, bind_eq_ok_iff] at added
  obtain ⟨w₁, run, added⟩ := added
  obtain ⟨found, -, rfl⟩ := map_eq_ok_iff.1 added
  have start : Distinct { w with tables := w.tables ++ [newDraft d st table index] } := by
    rw [Distinct, List.map_append, List.nodup_append]
    refine ⟨distinct, List.nodup_singleton _, fun a ha b hb => ?_⟩
    obtain ⟨t, ht, rfl⟩ := List.mem_map.1 ha
    rw [List.mem_singleton.1 hb]
    exact fresh t ht
  have kept := (Unnumbered.foldlM fun a _ => unnumbered_add (d := d) a).keeps _ w₁ start run
  exact kept.trans (List.map_append ..)

theorem addTable_renumber (st : Statement) (table : CreateTable) (index : Nat) :
    addTable d st table (f index) (w.renumber f before) =
      (addTable d st table index w).map (renumber f before) := by
  have start : ({ w.renumber f before with
      tables := (w.renumber f before).tables ++ [newDraft d st table (f index)] } : Workspace) =
      renumber f before { w with tables := w.tables ++ [newDraft d st table index] } := by
    simp only [renumber, List.map_append]
    rfl
  rw [addTable_eq, addTable_eq, start, (Unnumbered.foldlM fun a _ => unnumbered_add (d := d) a).frame, map_bind_eq]
  cases List.foldlM (add d (table.name.key d)) _ _ with
  | error r => rfl
  | ok v =>
    cases emptyFindings d st table with
    | error r => rfl
    | ok found => simp only [Except.map, Bind.bind, Except.bind, renumber, List.append_assoc]

theorem unnumbered_alterTable (st : Statement) {alter : AlterTable}
    (plain : ∀ a ∈ alter.actions, a.renamesTable = false) : Unnumbered (alterTable d st alter) := by
  have actions : ∀ key, Unnumbered fun w => alterActions d ⟨st.position, st.source⟩ alter.actions w key := by
    intro key
    simp only [alterActions_eq_foldlM plain]
    exact .foldlM fun a ha => (unnumbered_actionChange (plain a ha) _).attempt st.position st.source
  constructor
  · intro f before w
    unfold alterTable
    rw [table?_renumber]
    cases w.table? (alter.name.key d) with
    | some t => exact (actions t.key).settle.frame f before w
    | none =>
      simp only [Option.map_none]
      split_ifs
      · exact congrArg Except.ok (report_renumber ..)
      · rfl
  · intro w w' distinct run
    unfold alterTable at run
    split at run
    · rename_i t _
      exact (actions t.key).settle.keeps w w' distinct run
    · split_ifs at run
      rw [← Except.ok.inj run]
      rfl

theorem unnumbered_createIndex (index : CreateIndex) : Unnumbered (createIndex d index) := by
  have added : ∀ key, Unnumbered fun w => w.onTable key fun t =>
      t.addIndex d index.elements index.name index.unique index.method index.condition :=
    fun _ => .onTable (Draft.unnumbered_addIndex ..)
  constructor
  · intro f before w
    simp only [createIndex, requireTable, table?_renumber]
    cases w.table? (index.table.key d) with
    | none => rfl
    | some t =>
      have indexes : (t.renumber f).indexes = t.indexes := rfl
      simp only [Option.map_some]
      cases name : index.name with
      | none =>
        rw [name] at added
        exact (added t.key).frame f before w
      | some name' =>
        rw [name] at added
        simp only [Bind.bind, Except.bind, indexes]
        split_ifs
        · rfl
        · exact (Draft.map_problem _ t _).symm
        · exact (added t.key).frame f before w
  · intro w w' distinct run
    simp only [createIndex, bind_eq_ok_iff] at run
    obtain ⟨t, -, run⟩ := run
    split at run
    · rename_i name
      rw [name] at added
      exact (added t.key).keeps w w' distinct run
    · rename_i name
      rw [name] at added
      split_ifs at run
      · rw [← pure_eq_ok_iff.1 run]
      · exact absurd run (by simp [Draft.problem_eq_ok_iff])
      · exact (added t.key).keeps w w' distinct run

/-- names are gone through in the same way if the same is done for each of them -/
theorem forNames_renumber {change change' : QualifiedName → Change}
    (each : ∀ n w, change' n (w.renumber f before) = (change n w).map (renumber f before)) (st : Statement)
    (names : List QualifiedName) (w : Workspace) :
    forNames st change' names (w.renumber f before) = (forNames st change names w).map (renumber f before) := by
  induction names generalizing w with
  | nil => rfl
  | cons n rest ih =>
    simp only [forNames, each n w]
    cases change n w with
    | ok w' => exact ih w'
    | error failure =>
      cases failure with
      | problem p => exact congrArg Except.ok (record_renumber ..)
      | refused r => rfl

theorem unnumbered_forNames {change : QualifiedName → Change} (each : ∀ n, Unnumbered (change n)) (st : Statement)
    (names : List QualifiedName) : Unnumbered fun w => forNames st change names w where
  frame f before := forNames_renumber (fun n => (each n).frame f before) st names
  keeps w w' distinct run := by
    induction names generalizing w with
    | nil => rw [← Except.ok.inj run]
    | cons n rest ih =>
      simp only [forNames] at run
      split at run
      · rename_i w₁ made
        have same := (each n).keeps w w₁ distinct made
        exact (ih w₁ (distinct.of_numbers same) run).trans same
      · rw [← Except.ok.inj run]
        rfl
      · simp at run

theorem unnumbered_dropIndexNamed (st : Statement) (drop : DropIndex) (table : Option String) (name : QualifiedName) :
    Unnumbered (dropIndexNamed d st drop table name) where
  frame f before w := by
    have found : tableWithIndex? d ((w.renumber f before).tables.filter fun t => (table.map (· == t.key)).getD true)
        name.name = (tableWithIndex? d (w.tables.filter fun t => (table.map (· == t.key)).getD true) name.name).map
          (Draft.renumber f) := by
      rw [tableWithIndex?, tableWithIndex?, renumber, List.filter_map, List.find?_map]
      rfl
    have erased := (Draft.unnumbered_eraseIndex? (d := d) name.name).frame f
    simp only [dropIndexNamed, found]
    cases tableWithIndex? d (w.tables.filter fun t => (table.map (· == t.key)).getD true) name.name with
    | some t =>
      refine congrArg Except.ok (updateTable_renumber fun t => ?_)
      rw [erased t]
      cases t.eraseIndex? d name.name <;> rfl
    | none =>
      simp only [Option.map_none]
      split_ifs
      · exact congrArg Except.ok (report_renumber ..)
      · rfl
  keeps w w' _ run := by
    simp only [dropIndexNamed] at run
    split at run
    · rw [← Except.ok.inj run]
      refine numbers_updateTable fun t _ _ => ?_
      cases dropped : t.eraseIndex? d name.name with
      | none => exact ⟨rfl, rfl⟩
      | some t' => exact (Draft.unnumbered_eraseIndex? name.name).keeps t t' dropped
    · split_ifs at run
      rw [← Except.ok.inj run]
      rfl

theorem unnumbered_dropViewNamed (st : Statement) (drop : DropView) (name : QualifiedName) :
    Unnumbered (dropViewNamed d st drop name) where
  frame f before w := by
    have views : (w.renumber f before).views = w.views := rfl
    simp only [dropViewNamed, views]
    split_ifs
    · rfl
    · exact congrArg Except.ok (report_renumber ..)
    · rfl
  keeps w w' _ run := by
    simp only [dropViewNamed] at run
    split_ifs at run
    all_goals
      rw [← Except.ok.inj run]
      rfl

theorem unnumbered_declareView (view : CreateView) : Unnumbered (declareView d view) where
  frame f before w := by
    have views : (w.renumber f before).views = w.views := rfl
    simp only [declareView, views]
    split_ifs <;> rfl
  keeps w w' _ run := by
    simp only [declareView] at run
    split_ifs at run
    rw [← Except.ok.inj run]
    rfl

theorem unnumbered_commentOn (st : Statement) (comment : CommentOn) : Unnumbered (commentOn d st comment) where
  frame f before w := by
    unfold commentOn
    rw [table?_renumber]
    cases w.table? (comment.table.key d) with
    | none => exact congrArg Except.ok (report_renumber ..)
    | some t =>
      simp only [Option.map_some]
      cases comment.column with
      | none => exact congrArg Except.ok (updateTable_renumber fun _ => rfl)
      | some column =>
        have there : (t.renumber f).column? d column = t.column? d column := rfl
        have label : (t.renumber f).label? = t.label? := rfl
        simp only [there, label]
        split_ifs
        · exact congrArg Except.ok (updateTable_renumber fun _ => rfl)
        · simp only [report_renumber, map_bind_eq]
          rfl
  keeps w w' _ run := by
    unfold commentOn at run
    split at run
    · rw [← Except.ok.inj run]
      rfl
    · split at run
      · rw [← Except.ok.inj run]
        exact numbers_updateTable fun _ _ _ => ⟨rfl, rfl⟩
      · split_ifs at run
        · rw [← Except.ok.inj run]
          exact numbers_updateTable fun _ _ _ => ⟨rfl, rfl⟩
        · simp only [bind_eq_ok_iff, pure_eq_ok_iff] at run
          obtain ⟨_, _, rfl⟩ := run
          rfl

/-- What the third pass does with a statement has nothing to do with numbers, but if it drops tables or renames one. -/
theorem unnumbered_changePass {st : Statement} (noDrop : ∀ drop, st.body ≠ .dropTable drop)
    (plain : st.renamesTable = false) (index : Nat) : Unnumbered fun w => changePass d w (st, index) := by
  cases body : st.body with
  | alterTable alter =>
    simp only [changePass, body]
    refine (unnumbered_alterTable st fun a ha => ?_).attempt st.position st.source
    rw [Statement.renamesTable, body] at plain
    exact Bool.eq_false_iff.2 (List.any_eq_false.1 plain a ha)
  | createIndex create =>
    simp only [changePass, body]
    exact (unnumbered_createIndex create).attempt st.position st.source
  | dropTable drop => exact absurd body (noDrop drop)
  | dropIndex drop =>
    simp only [changePass, body]
    cases drop.table with
    | none => exact unnumbered_forNames (unnumbered_dropIndexNamed st drop none) st drop.names
    | some table =>
      constructor
      · intro f before w
        simp only [requireTable, table?_renumber]
        cases w.table? (table.key d) with
        | none => exact congrArg Except.ok (record_renumber ..)
        | some t => exact (unnumbered_forNames (unnumbered_dropIndexNamed st drop _) st drop.names).frame f before w
      · intro w w' distinct run
        simp only at run
        split at run
        · exact (unnumbered_forNames (unnumbered_dropIndexNamed st drop _) st drop.names).keeps w w' distinct run
        · rw [← Except.ok.inj run]
          rfl
        · simp at run
  | dropView drop =>
    simp only [changePass, body]
    exact unnumbered_forNames (unnumbered_dropViewNamed st drop) st drop.names
  | commentOn comment =>
    simp only [changePass, body]
    exact (unnumbered_commentOn st comment).attempt st.position st.source
  | _ =>
    simp only [changePass, body]
    exact ⟨fun _ _ _ => rfl, fun w w' _ run => by rw [← Except.ok.inj run]⟩

end Workspace

end SchemaApi
