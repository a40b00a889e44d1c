import SchemaApi.Proofs.Schema.InPlace
/-!
Failed changes leave the schema as it was.

Run from a schema that statements lead to, each program of an action and of `CREATE INDEX` does what its function says.
When it stops with a problem it has stored nothing, because every check that can still fail comes before the first
store; the one check that comes after a store, that a table had a primary key to drop, fails only if the store changed
nothing. So all that comes of a failed change is that its problem is recorded (`untouched_of_problem`).
-/

namespace SchemaApi.InPlace

variable {d : Dialect} {limit : Nat} {w : Workspace}

/-! ## Constraints and indexes -/

theorem names_updateColumn {t : Draft} {name : String} {f : Column → Column} (same : ∀ c, (f c).name = c.name) :
    (t.updateColumn d name f).columns.map (·.name) = t.columns.map (·.name) := by
  unfold Draft.updateColumn
  induction t.columns with
  | nil => rfl
  | cons c rest ih =>
    rw [Draft.updateColumn.go]
    split_ifs
    · rw [List.map_cons, List.map_cons, same c]
    · rw [List.map_cons, List.map_cons, ih]

theorem exists_column?_iff {t : Draft} {name : String} :
    (∃ c, t.column? d name = some c) ↔ ∃ n ∈ t.columns.map (·.name), d.sameName n name = true := by
  rw [← Option.isSome_iff_exists, Draft.column?, List.find?_isSome]
  simp only [List.mem_map, exists_exists_and_eq_and]

/-- the columns of a key become NOT NULL one by one, and none is missing -/
theorem forM_requireValue {key : String} {t : Draft} {names : List String} (found : w.table? key = some t)
    (known : ∀ n ∈ names, ∃ c, t.column? d n = some c) :
    names.forM (requireValue d key) w = .ok () (w.updateTable key (·.requireValues d names)) := by
  induction names generalizing w t with
  | nil =>
    have idle : w.updateTable key (·.requireValues d []) = w := updateTable_self fun _ _ _ => rfl
    rw [idle]
    rfl
  | cons n names ih =>
    obtain ⟨c, there⟩ := known n List.mem_cons_self
    let change : Draft → Draft := fun t => t.updateColumn d n fun c => { c with nullable := false }
    have first : requireValue d key n w = .ok () (w.updateTable key change) := by
      rw [requireValue, withTable_some _ found, Draft.requireColumn_eq_ok_iff.2 there]
      rfl
    have later : ∀ m ∈ names, ∃ c, (change t).column? d m = some c := by
      intro m hm
      have same : (change t).columns.map (·.name) = t.columns.map (·.name) := names_updateColumn fun _ => rfl
      rw [exists_column?_iff, same, ← exists_column?_iff]
      exact known m (List.mem_cons_of_mem n hm)
    have keys : ∀ t, (change t).key = t.key := fun _ => rfl
    have rest := ih (Workspace.table?_updateTable found keys) later
    calc (n :: names).forM (requireValue d key) w
        = names.forM (requireValue d key) (w.updateTable key change) := bind_of_ok first
      _ = .ok () (w.updateTable key (·.requireValues d (n :: names))) := by
        rw [rest, updateTable_updateTable keys]
        rfl

theorem map_map_eq {ε α β γ : Type} (x : Except ε α) (g : α → β) (f : β → γ) :
    (x.map g).map f = x.map fun a => f (g a) := by
  cases x <;> rfl

/-- what is made first is stored last -/
theorem follows_made (key : String) (x : Except Failure Draft) :
    Follows w (x.map fun t' => (w.updateTable key fun _ => t', ()))
      ((check x >>= fun t' => store key fun _ => t') w) := by
  cases x with
  | ok t' => rfl
  | error e =>
    cases e with
    | problem p => rfl
    | refused r => exact ⟨w, rfl⟩

/-- what is added is added in place, after all checks -/
theorem follows_addConstraint (h : w.Regular d limit) (key : String) (source : Option String)
    (clause : ConstraintClause) :
    Follows w ((w.onTable key fun t => t.addConstraint d source clause).map (·, ()))
      (addConstraint d key source clause w) := by
  apply follows_withTable
  intro t found
  rw [map_map_eq]
  cases clause with
  | primaryKey columns name position =>
    simp only [Draft.addConstraint]
    apply follows_check
    intro cols read
    split_ifs
    · exact follows_map_problem t _
    · have known : ∀ n ∈ cols, ∃ c, t.column? d n = some c := by
        intro n hn
        rw [exists_column?_iff]
        exact ⟨n, Draft.mem_columnNames_of_canonical read n hn, Dialect.sameName_refl d n⟩
      rw [bind_of_ok (forM_requireValue found known)]
      unfold Draft.someColumns
      split_ifs
      · exact ⟨_, rfl⟩
      · have both : (w.updateTable key (·.requireValues d cols)).updateTable key
              (·.addPlaced (.primaryKey name cols) position source) =
            w.updateTable key fun _ => (t.requireValues d cols).addPlaced (.primaryKey name cols) position source := by
          rw [updateTable_updateTable fun t => Draft.requireValues_key cols]
          exact updateTable_congr h found rfl
        exact congrArg _ both
  | unique => exact follows_made key _
  | foreignKey => exact follows_made key _
  | check => exact follows_made key _
  | index => exact follows_made key _

theorem settle_bind {α β : Type} (x : Except Refusal α) (k : α → Except Refusal β) :
    Workspace.settle (x >>= k) = Workspace.settle x >>= fun a => Workspace.settle (k a) := by
  cases x <;> rfl

/-- adding constraints one by one in place records the same problems -/
theorem follows_addConstraints (h : w.Regular d limit) (key : String) (source : Option String)
    (clauses : List ConstraintClause) (w₀ : Workspace) :
    Follows w₀ ((Workspace.settle (w.addConstraints d key source clauses)).map (·, ()))
      (addConstraints d key source clauses w) := by
  induction clauses generalizing w with
  | nil => rfl
  | cons clause rest ih =>
    have first : Follows w₀ ((Workspace.settle (w.attempt clause.position source fun w =>
          w.onTable key fun t => t.addConstraint d source clause)).map (·, ()))
        (attempt clause.position source () (addConstraint d key source clause) w) :=
      follows_attempt _ _ (follows_addConstraint h key source clause) w₀
    unfold Workspace.addConstraints
    rw [List.foldlM_cons, settle_bind]
    apply follows_bind first
    intro w₁ added
    have regular : w₁.Regular d limit := Workspace.attempt_regular
      (Workspace.onTable_keepsRegular fun _ _ sound added => Draft.addConstraint_regular sound added) h
      (Workspace.settle_eq_ok_iff.1 added)
    exact ih regular

theorem follows_createIndex (index : CreateIndex) :
    Follows w ((Workspace.createIndex d index w).map (·, ())) (createIndex d index w) := by
  unfold Workspace.createIndex createIndex
  rw [get_bind]
  apply follows_check
  intro t required
  have found : w.table? t.key = some t := by
    unfold Workspace.requireTable at required
    split at required
    · rename_i t' there
      obtain rfl := Except.ok.inj required
      rwa [(Workspace.table?_eq_some there).2]
    · contradiction
  have made : Follows w
      ((w.onTable t.key fun t => t.addIndex d index.elements index.name index.unique index.method index.condition).map
        (·, ()))
      ((check (t.addIndex d index.elements index.name index.unique index.method index.condition) >>= fun t' =>
        store t.key fun _ => t') w) := by
    unfold Workspace.onTable
    rw [found]
    dsimp only
    rw [map_map_eq]
    exact follows_made t.key _
  cases named : index.name with
  | none =>
    rw [named] at made
    exact made
  | some name =>
    rw [named] at made
    dsimp only [Option.map_some, Option.getD_some]
    by_cases taken : (t.indexes.any fun i => hasName d i.name name) = true
    · rw [if_pos taken, if_pos taken]
      split_ifs
      · rfl
      · exact follows_map_problem t _
    · rw [if_neg taken, if_neg taken]
      exact made

/-! ## Actions -/

theorem follows_addColumn (h : w.Regular d limit) (key : String) (source : Option String) (clause : ColumnClause) :
    Follows w ((Workspace.addColumn d key source clause w).map (·, ())) (addColumn d key source clause w) := by
  apply follows_withTable
  intro t found
  split_ifs with present
  · exact follows_map_problem t _
  · apply follows_settle
    intro label _
    rw [get_bind]
    apply follows_settle
    intro reading _
    rw [modify_bind, store_bind]
    apply follows_addConstraints
    have new : t.column? d clause.name = none := by simpa using present
    have sound := h.each t (Workspace.table?_eq_some found).1
    exact (h.of_tables (Workspace.tables_reportType ..)).updateTable ((Workspace.table?_reportType ..).trans found)
      ⟨@Draft.Regular.addColumn _ _ t sound (clause.toColumn reading) new, rfl⟩

theorem follows_dropColumn (site : Workspace.Site) (key name : String) (ifExists cascade : Bool) :
    Follows w ((Workspace.dropColumn d site key name ifExists cascade w).map (·, ()))
      (dropColumn d site key name ifExists cascade w) := by
  apply follows_withTable
  intro t found
  cases t.column? d name with
  | none =>
    dsimp only
    split_ifs
    · apply follows_settle
      intro label _
      rfl
    · exact follows_map_problem t _
  | some column =>
    dsimp only
    have erased := updateTable_fields (w := w) key (fun cs => cs.eraseP fun c => d.sameName c.name column.name)
      (fun es => es.filter fun e => !Draft.constraintNames d column.name e.constraint)
      (fun is => is.filter fun i => !Draft.indexNames d column.name i)
    rw [store_bind, store_bind, store_bind, erased]
    split_ifs
    · rfl
    · rfl

theorem updateColumn_id (t : Draft) (name : String) : (t.updateColumn d name fun c => c) = t := by
  have same : ∀ columns : List Column, Draft.updateColumn.go d name (fun c => c) columns = columns := by
    intro columns
    induction columns with
    | nil => rfl
    | cons c rest ih =>
      rw [Draft.updateColumn.go, ih]
      exact ite_self _
  rw [Draft.updateColumn, same]

theorem updateColumn_updateColumn {t : Draft} {name : String} {f g : Column → Column}
    (same : ∀ c, (f c).name = c.name) :
    (t.updateColumn d name f).updateColumn d name g = t.updateColumn d name fun c => g (f c) := by
  have both : ∀ columns : List Column,
      Draft.updateColumn.go d name g (Draft.updateColumn.go d name f columns) =
        Draft.updateColumn.go d name (fun c => g (f c)) columns := by
    intro columns
    induction columns with
    | nil => rfl
    | cons c rest ih =>
      by_cases here : d.sameName c.name name = true
      · have there : d.sameName (f c).name name = true := (same c).symm ▸ here
        rw [Draft.updateColumn.go, if_pos here, Draft.updateColumn.go, if_pos there, Draft.updateColumn.go, if_pos here]
      · rw [Draft.updateColumn.go, if_neg here, Draft.updateColumn.go, if_neg here, Draft.updateColumn.go,
          if_neg here, ih]
  unfold Draft.updateColumn
  rw [both]

/-- a column may be changed twice -/
theorem updateColumn_twice (key name : String) {f g : Column → Column} (same : ∀ c, (f c).name = c.name) :
    (w.updateTable key fun t => t.updateColumn d name f).updateTable key (fun t => t.updateColumn d name g) =
      w.updateTable key fun t => t.updateColumn d name fun c => g (f c) := by
  have keys : ∀ t : Draft, (t.updateColumn d name f).key = t.key := fun _ => rfl
  rw [updateTable_updateTable keys]
  simp only [updateColumn_updateColumn same]

/-- a change that is not asked for leaves the column -/
theorem storeColumn_eq {α : Type} (key name : String) (wanted : Option α) (change : α → Column → Column) :
    storeColumn d key name wanted change w =
      .ok () (w.updateTable key fun t => t.updateColumn d name fun c => (wanted.map (change · c)).getD c) := by
  cases wanted with
  | none =>
    have idle : (w.updateTable key fun t => t.updateColumn d name fun c => c) = w :=
      updateTable_self fun t _ _ => updateColumn_id t name
    exact congrArg _ idle.symm
  | some a => rfl

theorem storeFlags_eq (key name : String) (setNotNull : Option Bool) (default : Option String) (dropDefault : Bool) :
    storeFlags d key name setNotNull default dropDefault w =
      .ok () (w.updateTable key fun t => t.updateColumn d name fun c => { c with
        nullable := (setNotNull.map (!·)).getD c.nullable
        default := if dropDefault then none else default.or c.default }) := by
  have nullable : ∀ c : Column, ((setNotNull.map fun b => { c with nullable := !b }).getD c).name = c.name := by
    intro c
    cases setNotNull <;> rfl
  have text : ∀ c : Column, ((default.map fun text => { c with default := some text }).getD c).name = c.name := by
    intro c
    cases default <;> rfl
  unfold storeFlags
  rw [bind_of_ok (storeColumn_eq key name setNotNull _), bind_of_ok (storeColumn_eq key name default _),
    storeColumn_eq, updateColumn_twice key name nullable, updateColumn_twice key name]
  · congr 2
    funext t
    congr 1
    funext c
    cases setNotNull <;> cases default <;> cases dropDefault <;> rfl
  · intro c
    exact (text _).trans (nullable c)

theorem follows_alterColumn (site : Workspace.Site) (key name : String)
    (setNotNull : Option Bool) (default : Option String) (dropDefault : Bool) (newType : Option TypeName) :
    Follows w ((Workspace.alterColumn d site key name setNotNull default dropDefault newType w).map (·, ()))
      (alterColumn d site key name setNotNull default dropDefault newType w) := by
  apply follows_withTable
  intro t found
  apply follows_check
  intro column named
  by_cases nulls : setNotNull = some false ∧ (t.primaryKey?.getD []).contains column.name
  · rw [if_pos nulls, if_pos nulls]
    exact follows_map_problem t _
  rw [if_neg nulls, if_neg nulls]
  rw [bind_of_ok (storeFlags_eq key name setNotNull default dropDefault)]
  cases newType with
  | none => rfl
  | some type =>
    apply follows_settle
    intro label _
    rw [get_bind]
    apply follows_settle
    intro reading _
    rw [modify_bind, store_bind]
    have typed (v : Workspace) := updateColumn_twice (d := d) (w := v) key name
      (f := fun c : Column => { c with type := reading.type })
      (g := fun c : Column => { c with autoIncrement := c.autoIncrement || reading.numbered }) fun _ => rfl
    exact congrArg (EStateM.Result.ok ()) (typed _)

/-- a table without a primary key is the same without it, so nothing was changed when that turns out -/
theorem follows_dropPrimaryKey (h : w.Regular d limit) {key : String} {t : Draft} (found : w.table? key = some t) :
    Follows w ((w.onTable key Draft.dropPrimaryKey).map (·, ())) (dropPrimaryKey key t w) := by
  let kept : Draft → Draft := fun t => { t with
    constraints := t.constraints.filter fun e => !e.constraint.isPrimaryKey }
  have after : (w.updateTable key kept).table? key = some (kept t) :=
    Workspace.table?_updateTable found fun _ => rfl
  have run : dropPrimaryKey key t w =
      (if (kept t).constraints.length = t.constraints.length then check ((kept t).problem .noPrimaryKey) else return :
        InPlace Unit) (w.updateTable key kept) := by
    unfold dropPrimaryKey
    rw [store_bind]
    exact withTable_some _ after
  have shorter : (kept t).constraints.length = t.constraints.length ↔
      ∀ e ∈ t.constraints, (!e.constraint.isPrimaryKey) = true := List.length_filter_eq_length_iff
  unfold Workspace.onTable Draft.dropPrimaryKey
  rw [found, run]
  dsimp only
  by_cases there : (t.constraints.any (·.constraint.isPrimaryKey)) = true
  · have fewer : ¬(kept t).constraints.length = t.constraints.length := by
      rw [shorter]
      intro none
      obtain ⟨e, he, primary⟩ := List.any_eq_true.1 there
      simpa [primary] using none e he
    rw [if_pos there, if_neg fewer]
    exact congrArg (EStateM.Result.ok ()) (updateTable_congr h found rfl)
  · have none : ∀ e ∈ t.constraints, (!e.constraint.isPrimaryKey) = true := by
      intro e he
      simpa using fun primary => there (List.any_eq_true.2 ⟨e, he, primary⟩)
    have same : kept t = t := congrArg (fun es => { t with constraints := es }) (List.filter_eq_self.2 none)
    have idle : w.updateTable key kept = w :=
      (updateTable_congr h found same).trans (updateTable_self fun _ _ _ => rfl)
    rw [if_neg there, if_pos (shorter.2 none), idle, same, map_map_eq]
    exact follows_map_problem t _

theorem follows_storeDropped (site : Workspace.Site) (ifExists : Bool) (key : String) (t : Draft) (name : String)
    (result : Option Draft) :
    Follows w ((match result with
      | some t' => (.ok (w.updateTable key fun _ => t') : Except Failure Workspace)
      | none =>
        if ifExists then do
          let label ← Workspace.settle t.label?
          return w.report .info "UNKNOWN_CONSTRAINT"
            s!"DROP CONSTRAINT IF EXISTS: no constraint '{name}' on '{label}'" site.position site.source
        else t.problem (.unknownConstraint · name)).map (·, ()))
      (storeDropped site ifExists key t name result w) := by
  cases result with
  | some t' => rfl
  | none =>
    unfold storeDropped
    dsimp only
    split_ifs
    · apply follows_settle
      intro label _
      rfl
    · exact follows_map_problem t _

theorem follows_dropConstraint (h : w.Regular d limit) (site : Workspace.Site) (key : String)
    (target : ConstraintTarget) (ifExists : Bool) :
    Follows w ((Workspace.dropConstraint d site key target ifExists w).map (·, ()))
      (dropConstraint d site key target ifExists w) := by
  apply follows_withTable
  intro t found
  cases target with
  | primaryKey => exact follows_dropPrimaryKey h found
  | named name => exact follows_storeDropped site ifExists key t name (t.dropNamed? d name)
  | foreignKey name => exact follows_storeDropped site ifExists key t name (t.dropNamed? d name)
  | index name => exact follows_storeDropped site ifExists key t name (t.dropIndexNamed? d name)

theorem follows_renameColumn (key old new : String) :
    Follows w ((Workspace.renameColumn d key old new w).map (·, ())) (renameColumn d key old new w) := by
  apply follows_withTable
  intro t found
  apply follows_check
  intro column named
  split_ifs with taken
  · exact follows_map_problem t _
  · have renamed := updateTable_fields (w := w) key
      (Draft.updateColumn.go d column.name fun c => { c with name := new })
      (fun es => es.map fun e =>
        { e with constraint := Draft.renameInConstraint d column.name new e.constraint })
      (fun is => is.map (Draft.renameInIndex d column.name new))
    rw [store_bind, store_bind, store_bind]
    unfold Draft.updateColumn
    rw [renamed]
    rfl

theorem follows_renameTable (key : String) (newName : QualifiedName) :
    Follows w (Workspace.renameTable d key newName w) (renameTable d key newName w) := by
  unfold renameTable table?
  rw [bind_assoc, get_bind, pure_bind]
  cases found : w.table? key with
  | none =>
    unfold Workspace.renameTable
    rw [found]
    rfl
  | some t =>
    obtain rfl : t.key = key := (Workspace.table?_eq_some found).2
    rw [Workspace.renameTable_eq found]
    dsimp only
    rw [get_bind]
    by_cases taken : (w.table? (d.tableKey (newName.refIn t.schema).schema newName.name)).isSome = true ∧
        d.tableKey (newName.refIn t.schema).schema newName.name ≠ t.key
    · rw [if_pos taken, if_pos taken]
      exact follows_problem t _
    · rw [if_neg taken, if_neg taken, get_bind, store_bind]
      by_cases unnamed : newName.name = "" ∧ (w.tables.any (·.refersTo d t.key)) = true
      · rw [if_pos unnamed, if_pos unnamed]
        exact ⟨_, rfl⟩
      · rw [if_neg unnamed, if_neg unnamed]
        rfl

/-- Once the column has its name, nothing but the constraints written at it can be a problem, and those are attempts. -/
theorem follows_replace {w₁ : Workspace} (h : w₁.Regular d limit) {t : Draft} (site : Workspace.Site) (key : String)
    (clause : ColumnClause) (oldName : Option String) :
    Follows w ((do
        let label ← Workspace.settle t.label?
        let reading ← Workspace.settle (readType? d w₁.enums clause.type)
        Workspace.settle (((w₁.reportType clause.type reading s!"{label}.{clause.name}" clause.position
          site.source).updateTable key (·.replaceColumn d (clause.replaced d oldName)
            (clause.toColumn reading))).addConstraints d key site.source clause.constraints)).map (·, ()))
      (replaceColumn d site key t clause oldName w₁) := by
  unfold replaceColumn
  apply follows_settle
  intro label _
  rw [get_bind]
  apply follows_settle
  intro reading _
  rw [modify_bind, store_bind]
  apply follows_addConstraints
  exact (h.of_tables (Workspace.tables_reportType ..)).replaceColumn key (clause.sameName_replaced oldName)

theorem follows_modifyColumn (h : w.Regular d limit) (site : Workspace.Site) (key : String) (clause : ColumnClause)
    (oldName : Option String) :
    Follows w ((Workspace.modifyColumn d site key clause oldName w).map (·, ()))
      (modifyColumn d site key clause oldName w) := by
  cases found : w.table? key with
  | none =>
    unfold Workspace.modifyColumn modifyColumn
    rw [found, withTable_none _ found]
    rfl
  | some t =>
    rw [Workspace.modifyColumn_eq found]
    unfold modifyColumn
    rw [withTable_some _ found]
    apply follows_check
    intro column named
    by_cases renames : clause.renames d oldName = true
    · rw [if_pos renames, if_pos renames]
      apply follows_bind (follows_renameColumn key _ clause.name)
      intro w₁ renamed
      have regular : w₁.Regular d limit := Workspace.renameColumn_keepsRegular key _ clause.name w w₁ h renamed
      exact follows_replace regular site key clause oldName
    · rw [if_neg renames, if_neg renames]
      exact follows_replace h site key clause oldName

/-- each action does in place what its function says -/
theorem follows_alterAction (h : w.Regular d limit) (site : Workspace.Site) (key : String) (action : TableAction) :
    Follows w (Workspace.alterAction d site key action w) (alterAction d site key action w) := by
  have kept {x : Except Failure Workspace} {program : InPlace Unit} (first : Follows w (x.map (·, ())) (program w)) :
      Follows w (x.map (·, key)) ((program >>= fun _ => pure key) w) := by
    have same : (x >>= .ok) = x := by cases x <;> rfl
    have returned : Follows w ((x >>= .ok).map (·, key)) ((program >>= fun _ => pure key) w) :=
      follows_bind first fun w₁ _ => rfl
    rwa [same] at returned
  cases action with
  | renameTable newName => exact follows_renameTable key newName
  | addColumn clause ifNotExists =>
    dsimp only [Workspace.alterAction, alterAction]
    rw [get_bind]
    split_ifs
    · rfl
    · exact kept (follows_addColumn h key site.source clause)
  | dropColumn name ifExists cascade => exact kept (follows_dropColumn site key name ifExists cascade)
  | addConstraint clause => exact kept (follows_addConstraint h key site.source clause)
  | dropConstraint target ifExists => exact kept (follows_dropConstraint h site key target ifExists)
  | alterColumn name setNotNull default dropDefault newType =>
    exact kept (follows_alterColumn site key name setNotNull default dropDefault newType)
  | renameColumn old new => exact kept (follows_renameColumn key old new)
  | modifyColumn clause oldName => exact kept (follows_modifyColumn h site key clause oldName)

/-- the actions of a statement, each an attempt, do in place what their function says -/
theorem follows_alterActions (h : w.Regular d limit) (site : Workspace.Site) (actions : List TableAction) (key : String)
    (w₀ : Workspace) :
    Follows w₀ ((Workspace.settle (Workspace.alterActions d site actions w key)).map (·, ()))
      (alterActions d site actions key w) := by
  induction actions generalizing w key with
  | nil => rfl
  | cons action rest ih =>
    have first := follows_alterAction h site key action
    unfold Workspace.alterActions alterActions
    cases result : Workspace.alterAction d site key action w with
    | ok changed =>
      obtain ⟨w₁, key₁⟩ := changed
      rw [result] at first
      have run : attempt site.position site.source key (alterAction d site key action) w = .ok key₁ w₁ :=
        attempt_of_ok first
      rw [bind_of_ok run]
      exact ih (Workspace.alterAction_regular h result) key₁
    | error e =>
      rw [result] at first
      cases e with
      | problem p =>
        have run := attempt_of_problem site.position site.source key first
        rw [bind_of_ok run]
        exact ih (h.of_tables (Workspace.tables_record ..)) key
      | refused r =>
        obtain ⟨w', run⟩ := attempt_of_refused site.position site.source key first
        rw [bind_of_error run]
        exact ⟨w', rfl⟩

/-! ## Failed changes -/

/-- Whatever statements and actions came before, an action or a `CREATE INDEX` that stops with a problem has left the
schema as it was, and all that comes of it is that the problem is recorded. -/
theorem untouched_of_problem (reachable : w.Reachable d) :
    (∀ site key action,
      Follows w (Workspace.alterAction d site key action w) (alterAction d site key action w) ∧
      ∀ p w', alterAction d site key action w = .error (.problem p) w' → w' = w ∧
        attempt site.position site.source key (alterAction d site key action) w =
          .ok key (w.record p site.position site.source) ∧
        ∀ rest, Workspace.alterActions d site (action :: rest) w key =
          Workspace.alterActions d site rest (w.record p site.position site.source) key) ∧
    ∀ index,
      Follows w ((Workspace.createIndex d index w).map (·, ())) (createIndex d index w) ∧
      ∀ p w', createIndex d index w = .error (.problem p) w' → w' = w ∧ ∀ position source,
        attempt position source () (createIndex d index) w = .ok () (w.record p position source) ∧
        ∀ n, Workspace.changePass d w (⟨.createIndex index, position, source⟩, n) =
          .ok (w.record p position source) := by
  obtain ⟨limit, regular⟩ := reachable.regular
  constructor
  · intro site key action
    have follows := follows_alterAction regular site key action
    refine ⟨follows, fun p w' stops => ?_⟩
    obtain ⟨same, result⟩ := follows.problem stops
    rw [same] at stops
    refine ⟨same, attempt_of_problem site.position site.source key stops, fun rest => ?_⟩
    rw [Workspace.alterActions, result]
  · intro index
    have follows := follows_createIndex (d := d) (w := w) index
    refine ⟨follows, fun p w' stops => ?_⟩
    obtain ⟨same, result⟩ := follows.problem stops
    rw [same] at stops
    refine ⟨same, fun position source => ⟨attempt_of_problem position source () stops, fun n => ?_⟩⟩
    have failed : Workspace.createIndex d index w = .error (.problem p) := map_eq_error_iff.1 result
    show w.attempt position source (Workspace.createIndex d index) = _
    rw [Workspace.attempt, failed]

/-- a table without a primary key -/
def note : Statement :=
  ⟨.createTable
    { name := ⟨"note", none⟩
      columns := [{ name := "content", type := none, position := ⟨1, 1, 0⟩ }] }, ⟨1, 1, 0⟩, none⟩

/-- the primary key is taken out of the table before it turns out that there was none -/
theorem untouched_of_problem_note : ∃ w, w.Reachable .mysql ∧
    alterAction .mysql ⟨⟨2, 1, 0⟩, none⟩ ".note" (.dropConstraint .primaryKey false) w =
      .error (.problem (.noPrimaryKey "note")) w ∧
    attempt ⟨2, 1, 0⟩ none ".note"
        (alterAction .mysql ⟨⟨2, 1, 0⟩, none⟩ ".note" (.dropConstraint .primaryKey false)) w =
      .ok ".note" (w.record (.noPrimaryKey "note") ⟨2, 1, 0⟩ none) := by
  have stops : (Workspace.afterChanges .mysql [note] 1).toOption.map (fun w =>
      match alterAction .mysql ⟨⟨2, 1, 0⟩, none⟩ ".note" (.dropConstraint .primaryKey false) w with
      | .ok _ _ => none
      | .error e _ => some e) = some (some (.problem (.noPrimaryKey "note"))) := by
    decide +kernel
  obtain ⟨w, before, stops⟩ := Option.map_eq_some_iff.1 stops
  have reachable : w.Reachable .mysql :=
    ⟨[note], 1, w, ⟨⟨2, 1, 0⟩, none⟩, [], ".note", toOption_eq_some_iff.1 before, rfl⟩
  cases run : alterAction .mysql ⟨⟨2, 1, 0⟩, none⟩ ".note" (.dropConstraint .primaryKey false) w with
  | ok key w' =>
    rw [run] at stops
    contradiction
  | error e w' =>
    rw [run] at stops
    obtain rfl := Option.some.inj stops
    obtain ⟨rfl, recorded, -⟩ :=
      ((untouched_of_problem reachable).1 ⟨⟨2, 1, 0⟩, none⟩ ".note" (.dropConstraint .primaryKey false)).2 _ w' run
    exact ⟨w', reachable, run, recorded⟩

end SchemaApi.InPlace
