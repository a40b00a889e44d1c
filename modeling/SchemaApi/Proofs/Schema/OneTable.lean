import Mathlib.Data.Multiset.Defs
import SchemaApi.Proofs.Schema.Number
/-!
Statements that concern one table.

`CREATE INDEX`, `COMMENT ON` and most actions of `ALTER TABLE` look at one table and at the enum types, and change that
table alone (`Statement.onlyTable?`). Only where a column is dropped with CASCADE or gets another name, or a table does,
the foreign keys of other tables follow. So such a statement comes to the same whatever else there is
(`isLocal_changePass`), and two that concern different tables may change places: what each of them leaves of its own
table, and finds, is the same before the other and behind it (`IsLocal.swap`).
-/

namespace SchemaApi

variable {d : Dialect}

/-- the action changes its table and nothing else -/
def TableAction.staysInTable (d : Dialect) : TableAction → Bool
  | .dropColumn _ _ cascade => !cascade
  | .modifyColumn clause oldName => !clause.renames d oldName
  | .renameColumn _ _ => false
  | .renameTable _ => false
  | .addColumn _ _ => true
  | .addConstraint _ => true
  | .dropConstraint _ _ => true
  | .alterColumn _ _ _ _ _ => true

/-- the key of the table that a statement concerns, if it concerns no other -/
def Statement.onlyTable? (d : Dialect) (st : Statement) : Option String :=
  match st.body with
  | .alterTable alter => if alter.actions.all (·.staysInTable d) then some (alter.name.key d) else none
  | .createIndex index => some (index.table.key d)
  | .commentOn comment => some (comment.table.key d)
  | _ => none

/-! ## What is dropped from a table -/

namespace Draft

/-- the tables have the same key and name -/
def SameTitle (t t' : Draft) : Prop := t'.key = t.key ∧ t'.name = t.name

variable {t t' : Draft}

theorem Loses.sameTitle (loses : t.Loses t') : t.SameTitle t' := by
  obtain ⟨cs, is, -, -, rfl⟩ := loses
  exact ⟨rfl, rfl⟩

theorem sameTitle_addIndex {elements : List IndexElement} {name : Option String} {unique : Bool}
    {method condition : Option String} (added : t.addIndex d elements name unique method condition = .ok t') :
    t.SameTitle t' := by
  obtain ⟨index, rfl⟩ := addIndex_eq_ok added
  exact ⟨rfl, rfl⟩

end Draft

namespace Workspace

variable {key : String}

/-! ## Actions of ALTER TABLE -/

theorem isLocal_dropColumn (site : Site) (name : String) (ifExists : Bool) :
    IsLocal key (dropColumn d site key name ifExists false) := by
  refine .atTable isLocal_self fun t _ => ?_
  cases t.column? d name with
  | none =>
    by_cases may : ifExists = true
    · simp only [if_pos may]
      exact .behind fun label => isLocal_report ..
    · simp only [if_neg may]
      exact isLocal_problem t _
  | some column => exact isLocal_updateTable fun _ => ⟨rfl, rfl⟩

/-- a table may be replaced if something is found in it, and something else may be done if not -/
theorem IsLocal.replacing {ε : Type} {find : Draft → Option Draft} {otherwise : Draft → Workspace → Except ε Workspace}
    (same : ∀ t t', find t = some t' → t.SameTitle t') (missing : ∀ t, IsLocal key (otherwise t)) :
    IsLocal key fun w => match w.table? key with
      | none => .ok w
      | some t =>
        match find t with
        | some t' => .ok (w.updateTable key fun _ => t')
        | none => otherwise t w where
  frame c w suits := by
    simp only [table?_within suits]
    cases w.table? key with
    | none => rfl
    | some t =>
      cases found : find t with
      | some t' =>
        simp only [found]
        exact congrArg Except.ok (updateTable_within suits _)
      | none =>
        simp only [found]
        exact (missing t).frame c w suits
  keeps w w' run := by
    split at run
    · rw [← Except.ok.inj run]
      exact .refl w
    · rename_i t there
      split at run
      · rename_i t' found
        rw [← Except.ok.inj run]
        exact sameOutline_replace there (same t t' found)
      · exact (missing t).keeps w w' run

/-- something is dropped from a table, or it is missing -/
theorem isLocal_dropped {drop : Draft → Option Draft} (loses : ∀ t t', drop t = some t' → t.Loses t') (site : Site)
    (name : String) (ifExists : Bool) : IsLocal key fun w =>
      match w.table? key with
      | none => (.ok w : Except Failure Workspace)
      | some t =>
        match drop t with
        | some t' => .ok (w.updateTable key fun _ => t')
        | none =>
          if ifExists then do
            let label ← Workspace.settle t.label?
            return w.report .info "UNKNOWN_CONSTRAINT"
              s!"DROP CONSTRAINT IF EXISTS: no constraint '{name}' on '{label}'" site.position site.source
          else t.problem (.unknownConstraint · name) := by
  refine .replacing (fun t t' dropped => (loses t t' dropped).sameTitle) fun t => ?_
  by_cases may : ifExists = true
  · simp only [if_pos may]
    exact .behind fun label => isLocal_report ..
  · simp only [if_neg may]
    exact isLocal_problem t _

theorem isLocal_dropConstraint (site : Site) (target : ConstraintTarget) (ifExists : Bool) :
    IsLocal key (dropConstraint d site key target ifExists) := by
  cases target with
  | primaryKey =>
    have same : dropConstraint d site key .primaryKey ifExists = fun w => w.onTable key Draft.dropPrimaryKey := by
      funext w
      unfold dropConstraint onTable
      cases w.table? key <;> rfl
    rw [same]
    exact .onTable fun _ _ dropped => (Draft.loses_dropPrimaryKey dropped).sameTitle
  | named name => exact isLocal_dropped (fun _ _ => Draft.loses_dropNamed?) site name ifExists
  | foreignKey name => exact isLocal_dropped (fun _ _ => Draft.loses_dropNamed?) site name ifExists
  | index name => exact isLocal_dropped (fun _ _ => Draft.loses_dropIndexNamed?) site name ifExists

theorem isLocal_alterColumn (site : Site) (name : String) (setNotNull : Option Bool) (default : Option String)
    (dropDefault : Bool) (newType : Option TypeName) :
    IsLocal key (alterColumn d site key name setNotNull default dropDefault newType) := by
  have altered (f : Column → Column) : IsLocal key fun w =>
      (.ok (w.updateTable key fun t => t.updateColumn d name f) : Except Failure Workspace) :=
    isLocal_updateTable fun _ => ⟨rfl, rfl⟩
  refine .atTable isLocal_self fun t _ => .behind fun column => ?_
  by_cases nulls : setNotNull = some false ∧ (t.primaryKey?.getD []).contains column.name
  · simp only [if_pos nulls]
    exact isLocal_problem t _
  · simp only [if_neg nulls]
    cases newType with
    | none => exact altered _
    | some type =>
      have retyped : IsLocal key fun w => (do
          let label ← Workspace.settle t.label?
          let reading ← Workspace.settle (readType? d w.enums (some type))
          let w := w.reportType (some type) reading s!"{label}.{column.name}" site.position site.source
          return w.updateTable key fun t => t.updateColumn d name fun c =>
            { c with type := reading.type, autoIncrement := c.autoIncrement || reading.numbered } :
          Except Failure Workspace) := by
        refine .behind fun label => .behindType fun reading => ?_
        have reported : IsLocal key fun w => (.ok (w.reportType (some type) reading s!"{label}.{column.name}"
            site.position site.source) : Except Failure Workspace) := isLocal_reportType ..
        exact reported.bind (altered _)
      exact (altered _).bind retyped

/-- a column that keeps its name is replaced -/
theorem isLocal_modifyColumn (site : Site) {clause : ColumnClause} {oldName : Option String}
    (plain : clause.renames d oldName = false) : IsLocal key (modifyColumn d site key clause oldName) := by
  have whole : modifyColumn d site key clause oldName = fun w =>
      match w.table? key with
      | none => .ok w
      | some t => t.requireColumn d (clause.addressed oldName) "MODIFY COLUMN" >>= fun _ =>
        settle t.label? >>= fun label => settle (readType? d w.enums clause.type) >>= fun reading =>
          settle (((w.reportType clause.type reading s!"{label}.{clause.name}" clause.position site.source).updateTable
            key (·.replaceColumn d (clause.replaced d oldName) (clause.toColumn reading))).addConstraints d key
              site.source clause.constraints) := by
    funext w
    cases found : w.table? key with
    | none => simp only [modifyColumn, found]
    | some t =>
      rw [modifyColumn_eq found, plain]
      rfl
  rw [whole]
  refine .atTable isLocal_self fun t _ => .behind fun _ => .behind fun label => .behindType fun reading => ?_
  have reported : IsLocal key fun w => (.ok (w.reportType clause.type reading s!"{label}.{clause.name}" clause.position
      site.source) : Except Failure Workspace) := isLocal_reportType ..
  have replaced : IsLocal key fun w => (.ok (w.updateTable key
      (·.replaceColumn d (clause.replaced d oldName) (clause.toColumn reading))) : Except Failure Workspace) :=
    isLocal_updateTable fun _ => ⟨rfl, rfl⟩
  exact reported.bind (replaced.bind (isLocal_addConstraints site.source clause.constraints).settle)

theorem isLocal_actionChange {action : TableAction} (stays : action.staysInTable d = true) (site : Site) :
    IsLocal key (actionChange d site key action) := by
  have whole : ∀ change : Change, IsLocal key change → IsLocal key fun w => ((change w).map (·, key)).map (·.1) := by
    intro change h
    have same : (fun w => ((change w).map (·, key)).map (·.1)) = change := by
      funext w
      cases change w <;> rfl
    rw [same]
    exact h
  cases action with
  | renameTable newName => simp [TableAction.staysInTable] at stays
  | renameColumn old new => simp [TableAction.staysInTable] at stays
  | addColumn clause ifNotExists =>
    have added := whole (Workspace.addColumn d key site.source clause) (isLocal_addColumn site.source clause)
    constructor
    · intro c w suits
      simp only [actionChange, alterAction, table?_within suits]
      split_ifs
      · rfl
      · exact added.frame c w suits
    · intro w w' run
      simp only [actionChange, alterAction] at run
      split_ifs at run
      · rw [← Except.ok.inj run]
        exact .refl w
      · exact added.keeps w w' run
  | dropColumn name ifExists cascade =>
    obtain rfl : cascade = false := by simpa [TableAction.staysInTable] using stays
    exact whole _ (isLocal_dropColumn site name ifExists)
  | addConstraint clause => exact whole _ (isLocal_addConstraint site.source clause)
  | dropConstraint target ifExists => exact whole _ (isLocal_dropConstraint site target ifExists)
  | alterColumn name setNotNull default dropDefault newType =>
    exact whole _ (isLocal_alterColumn site name setNotNull default dropDefault newType)
  | modifyColumn clause oldName =>
    exact whole _ (isLocal_modifyColumn site (by simpa [TableAction.staysInTable] using stays))

/-! ## Statements -/

theorem TableAction.renamesTable_of_staysInTable {action : TableAction} (stays : action.staysInTable d = true) :
    action.renamesTable = false := by
  cases action with
  | renameTable newName => simp [TableAction.staysInTable] at stays
  | _ => rfl

theorem isLocal_alterTable (st : Statement) {alter : AlterTable} (own : alter.name.key d = key)
    (stay : ∀ a ∈ alter.actions, a.staysInTable d = true) : IsLocal key (alterTable d st alter) := by
  have whole : alterTable d st alter = fun w =>
      match w.table? key with
      | none =>
        if alter.ifExists then
          .ok (w.report .warning "UNKNOWN_TABLE"
            s!"ALTER TABLE IF EXISTS targets unknown table '{alter.name.text}'; skipped" st.position st.source)
        else .error (.problem (.unknownTable "ALTER TABLE" alter.name.text))
      | some t => settle (alterActions d ⟨st.position, st.source⟩ alter.actions w t.key) := by
    funext w
    rw [alterTable, own]
    cases w.table? key <;> rfl
  rw [whole]
  refine .atTable ?_ fun t own => ?_
  · by_cases may : alter.ifExists = true
    · simp only [if_pos may]
      exact isLocal_report ..
    · simp only [if_neg may]
      exact .stop fun _ run => by cases run
  · rw [own]
    simp only [alterActions_eq_foldlM fun a ha => TableAction.renamesTable_of_staysInTable (stay a ha)]
    exact (IsLocal.foldlM fun a ha => (isLocal_actionChange (stay a ha) _).attempt st.position st.source).settle

/-- a statement may require the table of the key -/
theorem IsLocal.requiring {name : QualifiedName} {what : String} {change : Draft → Change} (own : name.key d = key)
    (there : ∀ t : Draft, t.key = key → IsLocal key (change t)) :
    IsLocal key fun w => w.requireTable d name what >>= fun t => change t w := by
  have whole : (fun w => w.requireTable d name what >>= fun t => change t w) = fun w =>
      match w.table? key with
      | none => .error (.problem (.unknownTable what name.text))
      | some t => change t w := by
    funext w
    rw [requireTable, own]
    cases w.table? key <;> rfl
  rw [whole]
  exact .atTable (.stop fun _ run => by cases run) there

theorem isLocal_createIndex {index : CreateIndex} (own : index.table.key d = key) :
    IsLocal key (createIndex d index) := by
  have added (name : Option String) : IsLocal key fun w => w.onTable key fun t =>
      t.addIndex d index.elements name index.unique index.method index.condition :=
    .onTable fun _ _ => Draft.sameTitle_addIndex
  unfold createIndex
  refine .requiring own fun t own => ?_
  rw [own]
  cases index.name with
  | none => exact added none
  | some name =>
    by_cases taken : (t.indexes.any fun i => hasName d i.name name) = true
    · simp only [if_pos taken]
      by_cases may : index.ifNotExists = true
      · simp only [if_pos may]
        exact isLocal_self
      · simp only [if_neg may]
        exact isLocal_problem t _
    · simp only [if_neg taken]
      exact added (some name)

theorem isLocal_commentOn (st : Statement) {comment : CommentOn} (own : comment.table.key d = key) :
    IsLocal key (commentOn d st comment) := by
  subst own
  refine .atTable (isLocal_report ..) fun t own => ?_
  rw [own]
  cases comment.column with
  | none => exact isLocal_updateTable fun _ => ⟨rfl, rfl⟩
  | some column =>
    by_cases there : (t.column? d column).isSome = true
    · simp only [if_pos there]
      exact isLocal_updateTable fun _ => ⟨rfl, rfl⟩
    · simp only [if_neg there]
      exact .behind fun label => isLocal_report ..

/-- a statement that concerns one table concerns nothing else, whatever its number is -/
theorem isLocal_changePass {st : Statement} (only : st.onlyTable? d = some key) (index : Nat) :
    IsLocal key fun w => changePass d w (st, index) := by
  unfold Statement.onlyTable? at only
  cases body : st.body with
  | alterTable alter =>
    rw [body] at only
    simp only [Option.ite_none_right_eq_some, List.all_eq_true, Option.some.injEq] at only
    simp only [changePass, body]
    exact (isLocal_alterTable st only.2 only.1).attempt st.position st.source
  | createIndex create =>
    rw [body] at only
    simp only [changePass, body]
    exact (isLocal_createIndex (Option.some.inj only)).attempt st.position st.source
  | commentOn comment =>
    rw [body] at only
    simp only [changePass, body]
    exact (isLocal_commentOn st (Option.some.inj only)).attempt st.position st.source
  | _ => simp [body] at only

/-! ## Two tables -/

/-- the table of a key by itself, with the enum types -/
def only (key : String) (w : Workspace) : Workspace := { tables := (w.table? key).toList, enums := w.enums }

/-- the schema with the table of a key as another one has it, and what was found there at last -/
def graft (key : String) (w part : Workspace) : Workspace :=
  { w.updateTable key fun t => (part.table? key).getD t with
    findings := w.findings ++ part.findings
    errors := w.errors ++ part.errors }

/-- the schema with its errors in no order, and nothing else that was found -/
def tally (w : Workspace) : Workspace × Multiset Finding := ({ w with findings := [], errors := [] }, w.errors)

variable {key' : String} {w part : Workspace} {ε : Type}

theorem key_graft (part : Workspace) (t : Draft) (own : t.key = key) : ((part.table? key).getD t).key = key := by
  cases found : part.table? key with
  | none => exact own
  | some t' => exact (table?_eq_some found).2

theorem distinct_graft (distinct : w.Distinct) : (w.graft key part).Distinct := by
  have same : (w.graft key part).tables.map (·.key) = w.tables.map (·.key) := by
    simp only [graft, updateTable, List.map_map]
    refine List.map_congr_left fun t _ => ?_
    simp only [Function.comp_apply]
    split_ifs with own
    · rw [key_graft part t (beq_iff_eq.1 own), beq_iff_eq.1 own]
    · rfl
  rwa [Distinct, same]

/-- the tables of other keys are the same -/
theorem only_graft (other : key' ≠ key) : (w.graft key part).only key' = w.only key' := by
  have same : (w.graft key part).table? key' = w.table? key' := by
    change (w.tables.map fun t => if t.key == key then (part.table? key).getD t else t).find? (fun t => t.key == key') =
      w.tables.find? fun t => t.key == key'
    induction w.tables with
    | nil => rfl
    | cons t rest ih =>
      rw [List.map_cons, List.find?_cons, List.find?_cons, ih]
      by_cases own : t.key = key
      · have left : t.key ≠ key' := fun e => other (e.symm.trans own)
        have left' : ((part.table? key).getD t).key ≠ key' := fun e => other (e.symm.trans (key_graft part t own))
        rw [if_pos (beq_iff_eq.2 own), beq_eq_false_iff_ne.2 left, beq_eq_false_iff_ne.2 left']
      · rw [if_neg (by simpa using own)]
  rw [only, same]
  rfl

/-- without a table of its key, a local change only finds something -/
theorem IsLocal.eq_graft_of_absent {change : Workspace → Except ε Workspace} (h : IsLocal key change)
    (absent : ∀ t ∈ w.tables, t.key ≠ key) (alone : w.only key = { enums := w.enums }) :
    change w = (change (w.only key)).map (w.graft key) := by
  have framed : w = within ⟨w.tables, [], w.enums, w.views, w.findings, w.errors⟩ { enums := w.enums } := by
    simp only [within, List.append_nil]
  rw [alone]
  conv_lhs => rw [framed, h.frame _ _ ⟨absent, by simp, fun _ => rfl⟩]
  cases made : change { enums := w.enums } with
  | error e => rfl
  | ok part =>
    have empty : part.tables = [] := List.map_eq_nil_iff.1 (h.keeps _ part made).keys
    simp only [Except.map, within, graft, updateTable, empty, map_ite_of_key_ne absent, List.append_nil]

/-- The table of the key is what a local change makes of it by itself. -/
theorem IsLocal.eq_graft_of_tables {change : Workspace → Except ε Workspace} (h : IsLocal key change) {t : Draft}
    {left right : List Draft} (tables : w.tables = left ++ t :: right) (own : t.key = key)
    (before : ∀ x ∈ left, x.key ≠ key) (behind : ∀ x ∈ right, x.key ≠ key)
    (alone : w.only key = { tables := [t], enums := w.enums }) :
    change w = (change (w.only key)).map (w.graft key) := by
  have framed : w = within ⟨left, right, w.enums, w.views, w.findings, w.errors⟩ { tables := [t], enums := w.enums } := by
    simp only [within, List.append_nil, List.append_assoc, List.singleton_append, ← tables]
  rw [alone]
  conv_lhs => rw [framed, h.frame _ _ ⟨before, behind, fun _ => rfl⟩]
  cases made : change { tables := [t], enums := w.enums } with
  | error e => rfl
  | ok part =>
    have kept := h.keeps _ part made
    obtain ⟨t', single, same⟩ := List.map_eq_singleton_iff.1 kept.keys
    have there : part.table? key = some t' := by
      rw [table?, single, List.find?_cons_of_pos (by simpa using same.trans own)]
    simp only [Except.map, within, graft, updateTable, single]
    rw [tables, List.map_append, List.map_cons, map_ite_of_key_ne before, map_ite_of_key_ne behind,
      if_pos (by simpa using own), there]
    simp

/-- a local change is made of the table of its key by itself -/
theorem IsLocal.eq_graft {change : Workspace → Except ε Workspace} (h : IsLocal key change) (distinct : w.Distinct) :
    change w = (change (w.only key)).map (w.graft key) := by
  cases found : w.table? key with
  | none => exact h.eq_graft_of_absent (table?_eq_none found) (by rw [only, found]; rfl)
  | some t =>
    obtain ⟨own, left, right, tables, before⟩ := List.find?_eq_some_iff_append.1 found
    have own : t.key = key := by simpa using own
    have behind : ∀ x ∈ right, x.key ≠ key := by
      intro x hx e
      rw [Distinct, tables, List.map_append, List.map_cons, List.nodup_append] at distinct
      exact (List.nodup_cons.1 distinct.2.1).1 (List.mem_map.2 ⟨x, hx, e.trans own.symm⟩)
    exact h.eq_graft_of_tables tables own (fun x hx => by simpa using before x hx) behind (by rw [only, found]; rfl)

theorem tally_graft (other : key ≠ key') (p q : Workspace) :
    tally ((w.graft key p).graft key' q) = tally ((w.graft key' q).graft key p) := by
  refine Prod.ext ?_ (Multiset.coe_eq_coe.2 ?_)
  · simp only [tally, graft, updateTable, List.map_map]
    congr 1
    refine List.map_congr_left fun t _ => ?_
    simp only [Function.comp_apply, beq_iff_eq]
    by_cases own : t.key = key
    · have apart : t.key ≠ key' := own ▸ other
      have left : ((p.table? key).getD t).key ≠ key' := fun e => other ((key_graft p t own).symm.trans e)
      simp only [if_pos own, if_neg left, if_neg apart]
    · by_cases own' : t.key = key'
      · have left : ((q.table? key').getD t).key ≠ key := fun e => other (e.symm.trans (key_graft q t own'))
        simp only [if_neg own, if_pos own', if_neg left]
      · simp only [if_neg own, if_neg own']
  · simp only [graft, List.append_assoc]
    exact List.perm_append_comm.append_left w.errors

/-- Changes of different tables may be made in either order. -/
theorem IsLocal.swap {first second : Workspace → Except ε Workspace} (h : IsLocal key first) (h' : IsLocal key' second)
    (other : key ≠ key') (distinct : w.Distinct) :
    (first w >>= second).toOption.map tally = (second w >>= first).toOption.map tally := by
  have behind (p : Workspace) : second (w.graft key p) = (second (w.only key')).map ((w.graft key p).graft key') := by
    rw [h'.eq_graft (distinct_graft distinct), only_graft other.symm]
  have behind' (q : Workspace) : first (w.graft key' q) = (first (w.only key)).map ((w.graft key' q).graft key) := by
    rw [h.eq_graft (distinct_graft distinct), only_graft other]
  rw [h.eq_graft distinct, h'.eq_graft distinct]
  cases made : first (w.only key) with
  | error e =>
    cases second (w.only key') with
    | error e' => rfl
    | ok q =>
      have stopped := behind' q
      rw [made] at stopped
      simp only [Except.map, Bind.bind, Except.bind, stopped, Except.toOption]
  | ok p =>
    cases made' : second (w.only key') with
    | error e' =>
      have stopped := behind p
      rw [made'] at stopped
      simp only [Except.map, Bind.bind, Except.bind, stopped, Except.toOption]
    | ok q =>
      simp only [Except.map, Bind.bind, Except.bind, behind, behind', made, made']
      exact congrArg some (tally_graft other p q)

end Workspace

end SchemaApi
