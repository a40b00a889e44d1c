import SchemaApi.Proofs.Schema.Rename
/-!
Changes made in place.

The changes of a schema are functions, so one that fails yields no schema at all. Here they are written as programs on
a schema that is there (`InPlace`): a program reads the table as it is at that point, stores one thing after the other,
and what it has stored stays when it stops. Each handler of an action, and of `CREATE INDEX`, makes the same checks and
stores as one that changes tables where they stand, in the same order.

A run does what a function says (`Follows`) if it ends with the same value and schema, or stops with the same failure;
if that is a problem, it has to leave the schema as it was. The lemmas here take such a statement apart: a check that
fails may come first, what can only be refused may come anywhere, and stores one after the other are one.
-/

namespace SchemaApi

/-- a program that changes a schema as it goes -/
abbrev InPlace := EStateM Failure Workspace

namespace InPlace

variable (d : Dialect)

/-! ## Steps -/

/-- the table of a key, as it is now -/
def table? (key : String) : InPlace (Option Draft) := do return (← get).table? key

/-- goes on with the table of a key, if there is one -/
def withTable (key : String) (program : Draft → InPlace Unit) : InPlace Unit := do
  match ← table? key with
  | none => return
  | some t => program t

/-- a part that may fail, and stores nothing -/
def check {α : Type} (x : Except Failure α) : InPlace α :=
  match x with
  | .ok a => pure a
  | .error e => throw e

/-- changes the table of a key -/
def store (key : String) (f : Draft → Draft) : InPlace Unit := modify fun w => w.updateTable key f

/-- does a part; if a problem stops it, the problem is recorded, and what it has stored stays -/
def attempt {α : Type} (position : Position) (source : Option String) (otherwise : α) (program : InPlace α) :
    InPlace α :=
  tryCatch program fun
    | .problem p => do
      modify fun w => w.record p position source
      return otherwise
    | .refused r => throw (.refused r)

/-! ## Constraints and indexes -/

/-- makes a column of a key NOT NULL -/
def requireValue (key name : String) : InPlace Unit :=
  withTable key fun t => do
    let _ ← check (t.requireColumn d name "Primary key")
    store key fun t => t.updateColumn d name fun c => { c with nullable := false }

/-- Adds a constraint or an index. The columns of a primary key become NOT NULL one by one before it is added;
whatever else is added is made first. -/
def addConstraint (key : String) (source : Option String) (clause : ConstraintClause) : InPlace Unit :=
  withTable key fun t =>
    match clause with
    | .primaryKey columns name position => do
      let columns ← check (t.canonical d columns "Primary key")
      if t.primaryKey?.isSome then check (t.problem .multiplePrimaryKeys)
      else do
        columns.forM (requireValue d key)
        check (Draft.someColumns "PrimaryKeyConstraint" columns)
        store key fun t => t.addPlaced (.primaryKey name columns) position source
    | clause => do
      let t' ← check (t.addConstraint d source clause)
      store key fun _ => t'

/-- adds constraints one by one; problems are recorded -/
def addConstraints (key : String) (source : Option String) (clauses : List ConstraintClause) : InPlace Unit :=
  clauses.forM fun clause => attempt clause.position source () (addConstraint d key source clause)

def createIndex (index : CreateIndex) : InPlace Unit := do
  let t ← check ((← get).requireTable d index.table "CREATE INDEX")
  if (index.name.map fun name => t.indexes.any fun i => hasName d i.name name).getD false then
    if index.ifNotExists then return
    else check (t.problem (.duplicateIndex · (index.name.getD "")))
  else do
    let t' ← check (t.addIndex d index.elements index.name index.unique index.method index.condition)
    store t.key fun _ => t'

/-! ## Actions of ALTER TABLE -/

def addColumn (key : String) (source : Option String) (clause : ColumnClause) : InPlace Unit :=
  withTable key fun t =>
    if (t.column? d clause.name).isSome then check (t.problem (.duplicateColumn · clause.name))
    else do
      let label ← check (Workspace.settle t.label?)
      let reading ← check (Workspace.settle (readType? d (← get).enums clause.type))
      modify fun w => w.reportType clause.type reading s!"{label}.{clause.name}" clause.position source
      store key fun t => { t with columns := t.columns ++ [clause.toColumn reading] }
      addConstraints d key source clause.constraints

/-- first the column goes, then the constraints that name it, then the indexes, then the foreign keys to it -/
def dropColumn (site : Workspace.Site) (key name : String) (ifExists cascade : Bool) : InPlace Unit :=
  withTable key fun t =>
    match t.column? d name with
    | none =>
      if ifExists then do
        let label ← check (Workspace.settle t.label?)
        modify fun w => w.report .info "UNKNOWN_COLUMN"
          s!"DROP COLUMN IF EXISTS: no column '{name}' in '{label}'" site.position site.source
      else check (t.problem (.unknownColumn "DROP COLUMN" · name))
    | some column => do
      store key fun t => { t with columns := t.columns.eraseP fun c => d.sameName c.name column.name }
      store key fun t =>
        { t with constraints := t.constraints.filter fun e => !Draft.constraintNames d column.name e.constraint }
      store key fun t => { t with indexes := t.indexes.filter fun i => !Draft.indexNames d column.name i }
      if cascade then
        modify fun w => { w with tables := w.tables.map (·.dropForeignKeysTo d key (some column.name)) }

/-- the primary key is taken out before it is known whether there was one -/
def dropPrimaryKey (key : String) (before : Draft) : InPlace Unit := do
  store key fun t => { t with constraints := t.constraints.filter fun e => !e.constraint.isPrimaryKey }
  withTable key fun t =>
    if t.constraints.length = before.constraints.length then check (t.problem .noPrimaryKey) else return

/-- what has a name is looked up before it goes -/
def storeDropped (site : Workspace.Site) (ifExists : Bool) (key : String) (t : Draft) (name : String)
    (result : Option Draft) : InPlace Unit :=
  match result with
  | some t' => store key fun _ => t'
  | none =>
    if ifExists then do
      let label ← check (Workspace.settle t.label?)
      modify fun w => w.report .info "UNKNOWN_CONSTRAINT"
        s!"DROP CONSTRAINT IF EXISTS: no constraint '{name}' on '{label}'" site.position site.source
    else check (t.problem (.unknownConstraint · name))

def dropConstraint (site : Workspace.Site) (key : String) (target : ConstraintTarget) (ifExists : Bool) :
    InPlace Unit :=
  withTable key fun t =>
    match target with
    | .primaryKey => dropPrimaryKey key t
    | .named name => storeDropped site ifExists key t name (t.dropNamed? d name)
    | .foreignKey name => storeDropped site ifExists key t name (t.dropNamed? d name)
    | .index name => storeDropped site ifExists key t name (t.dropIndexNamed? d name)

/-- changes a column, where a change is asked for -/
def storeColumn {α : Type} (key name : String) (wanted : Option α) (change : α → Column → Column) : InPlace Unit :=
  match wanted with
  | none => return
  | some a => store key fun t => t.updateColumn d name (change a)

/-- changes the nullability of a column, then its default -/
def storeFlags (key name : String) (setNotNull : Option Bool) (default : Option String) (dropDefault : Bool) :
    InPlace Unit := do
  storeColumn d key name setNotNull fun notNull c => { c with nullable := !notNull }
  storeColumn d key name default fun text c => { c with default := some text }
  storeColumn d key name (if dropDefault then some () else none) fun _ c => { c with default := none }

def alterColumn (site : Workspace.Site) (key name : String) (setNotNull : Option Bool) (default : Option String)
    (dropDefault : Bool) (newType : Option TypeName) : InPlace Unit :=
  withTable key fun t => do
    let column ← check (t.requireColumn d name "ALTER COLUMN")
    if setNotNull = some false ∧ (t.primaryKey?.getD []).contains column.name then
      check (t.problem (.primaryKeyNullable · column.name))
    else do
      storeFlags d key name setNotNull default dropDefault
      match newType with
      | none => return
      | some type =>
        let label ← check (Workspace.settle t.label?)
        let reading ← check (Workspace.settle (readType d (← get).enums type))
        modify fun w => w.reportType newType reading s!"{label}.{column.name}" site.position site.source
        store key fun t => t.updateColumn d name fun c => { c with type := reading.type }
        store key fun t => t.updateColumn d name fun c =>
          { c with autoIncrement := c.autoIncrement || reading.numbered }

/-- first the column gets the name, then the constraints, then the indexes, then the foreign keys to it -/
def renameColumn (key old new : String) : InPlace Unit :=
  withTable key fun t => do
    let column ← check (t.requireColumn d old "RENAME COLUMN")
    if (t.column? d new).isSome ∧ !d.sameName old new then check (t.problem (.columnNameTaken · old new))
    else do
      store key fun t => t.updateColumn d column.name fun c => { c with name := new }
      store key fun t => { t with
        constraints := t.constraints.map fun e =>
          { e with constraint := Draft.renameInConstraint d column.name new e.constraint } }
      store key fun t => { t with indexes := t.indexes.map (Draft.renameInIndex d column.name new) }
      modify fun w => { w with tables := w.tables.map (·.renameTargetColumn d key column.name new) }

/-- the table gets its name before it is known whether foreign keys can refer to it by that -/
def renameTable (key : String) (newName : QualifiedName) : InPlace String := do
  match ← table? key with
  | none => return key
  | some t =>
    let ref := newName.refIn t.schema
    let newKey := d.tableKey ref.schema newName.name
    if ((← get).table? newKey).isSome ∧ newKey ≠ key then check (t.problem (.tableNameTaken · newName.text))
    else do
      let referred := (← get).tables.any (·.refersTo d key)
      store key (·.withName d ref)
      if newName.name = "" ∧ referred then throw (.refused (.emptyField "TableRef" "name"))
      else do
        modify fun w => { w with tables := w.tables.map (·.retarget d key ref) }
        return newKey

/-- puts the new column in its place, and then adds the constraints that were written at it -/
def replaceColumn (site : Workspace.Site) (key : String) (t : Draft) (clause : ColumnClause)
    (oldName : Option String) : InPlace Unit := do
  let label ← check (Workspace.settle t.label?)
  let reading ← check (Workspace.settle (readType? d (← get).enums clause.type))
  modify fun w => w.reportType clause.type reading s!"{label}.{clause.name}" clause.position site.source
  store key (·.replaceColumn d (clause.replaced d oldName) (clause.toColumn reading))
  addConstraints d key site.source clause.constraints

def modifyColumn (site : Workspace.Site) (key : String) (clause : ColumnClause) (oldName : Option String) :
    InPlace Unit :=
  withTable key fun t => do
    let _ ← check (t.requireColumn d (clause.addressed oldName) "MODIFY COLUMN")
    if clause.renames d oldName then do
      renameColumn d key (clause.addressed oldName) clause.name
      replaceColumn d site key t clause oldName
    else replaceColumn d site key t clause oldName

/-- one action on the table of a key, and the key of that table afterwards -/
def alterAction (site : Workspace.Site) (key : String) : TableAction → InPlace String
  | .renameTable newName => renameTable d key newName
  | .addColumn clause ifNotExists => do
    let present := (((← get).table? key).bind fun t => t.column? d clause.name).isSome
    if ifNotExists && present then return key
    else do
      addColumn d key site.source clause
      return key
  | .dropColumn name ifExists cascade => do
    dropColumn d site key name ifExists cascade
    return key
  | .addConstraint clause => do
    addConstraint d key site.source clause
    return key
  | .dropConstraint target ifExists => do
    dropConstraint d site key target ifExists
    return key
  | .alterColumn name setNotNull default dropDefault newType => do
    alterColumn d site key name setNotNull default dropDefault newType
    return key
  | .renameColumn old new => do
    renameColumn d key old new
    return key
  | .modifyColumn clause oldName => do
    modifyColumn d site key clause oldName
    return key

/-- the actions of `ALTER TABLE` one by one, each an attempt -/
def alterActions (site : Workspace.Site) : List TableAction → String → InPlace Unit
  | [], _ => return
  | action :: rest, key => do
    let key' ← attempt site.position site.source key (alterAction d site key action)
    alterActions site rest key'

/-! ## Doing what a function says -/

/-- A run does what a function says: it gives the same value and schema, or stops with the same failure, and if that is
a problem the schema is the one it started from. -/
def Follows {α : Type} (w : Workspace) (result : Except Failure (Workspace × α))
    (run : EStateM.Result Failure Workspace α) : Prop :=
  match result with
  | .ok (w', a) => run = .ok a w'
  | .error (.problem p) => run = .error (.problem p) w
  | .error (.refused r) => ∃ w', run = .error (.refused r) w'

variable {d} {limit : Nat} {w : Workspace}

section

variable {α β γ : Type} {f : γ → Workspace × α}

/-- a run that stops with a problem ends where it started, and the function stops with it too -/
theorem Follows.problem {result : Except Failure (Workspace × α)} {run : EStateM.Result Failure Workspace α}
    (follows : Follows w result run) {p : Problem} {w' : Workspace} (stops : run = .error (.problem p) w') :
    w' = w ∧ result = .error (.problem p) := by
  subst stops
  match result with
  | .ok (v, a) =>
    have same : (.error (.problem p) w' : EStateM.Result Failure Workspace α) = .ok a v := follows
    contradiction
  | .error (.problem q) =>
    have same : (.error (.problem p) w' : EStateM.Result Failure Workspace α) = .error (.problem q) w := follows
    obtain ⟨e, here⟩ := EStateM.Result.error.inj same
    exact ⟨here, e ▸ rfl⟩
  | .error (.refused r) =>
    obtain ⟨v, same⟩ : ∃ v, (.error (.problem p) w' : EStateM.Result Failure Workspace α) = .error (.refused r) v :=
      follows
    exact Failure.noConfusion (EStateM.Result.error.inj same).1

theorem follows_check {x : Except Failure β} {k : β → Except Failure γ} {k' : β → InPlace α}
    (rest : ∀ b, x = .ok b → Follows w ((k b).map f) (k' b w)) : Follows w ((x >>= k).map f) ((check x >>= k') w) := by
  cases x with
  | ok b => exact rest b rfl
  | error e =>
    cases e with
    | problem p => rfl
    | refused r => exact ⟨w, rfl⟩

/-- a part that can only be refused may come after a store -/
theorem follows_settle {x : Except Refusal β} {k : β → Except Failure γ} {k' : β → InPlace α} {w₁ : Workspace}
    (rest : ∀ b, x = .ok b → Follows w ((k b).map f) (k' b w₁)) :
    Follows w ((Workspace.settle x >>= k).map f) ((check (Workspace.settle x) >>= k') w₁) := by
  cases x with
  | ok b => exact rest b rfl
  | error r => exact ⟨w₁, rfl⟩

theorem follows_map_problem (t : Draft) (p : String → Problem) :
    Follows w ((t.problem p : Except Failure γ).map f) (check (t.problem p : Except Failure α) w) := by
  unfold Draft.problem
  cases t.label? with
  | ok label => rfl
  | error r => exact ⟨w, rfl⟩

theorem follows_problem (t : Draft) (p : String → Problem) :
    Follows w (t.problem p : Except Failure (Workspace × α)) (check (t.problem p) w) := by
  have mapped := follows_map_problem (w := w) (f := (id : Workspace × α → Workspace × α)) (α := α) t p
  rwa [Except.map_id] at mapped

theorem bind_of_ok {program : InPlace β} {rest : β → InPlace α} {b : β} {w' : Workspace}
    (run : program w = .ok b w') : (program >>= rest) w = rest b w' := by
  show EStateM.bind program rest w = _
  rw [EStateM.bind, run]

theorem bind_of_error {program : InPlace β} {rest : β → InPlace α} {e : Failure} {w' : Workspace}
    (run : program w = .error e w') : (program >>= rest) w = .error e w' := by
  show EStateM.bind program rest w = _
  rw [EStateM.bind, run]

/-- a program that does what a function says may be followed by another -/
theorem follows_bind {x : Except Failure Workspace} {program : InPlace Unit} {k : Workspace → Except Failure γ}
    {k' : InPlace α} {w₀ : Workspace} (first : Follows w₀ (x.map (·, ())) (program w))
    (rest : ∀ w₁, x = .ok w₁ → Follows w₀ ((k w₁).map f) (k' w₁)) :
    Follows w₀ ((x >>= k).map f) ((program >>= fun _ => k') w) := by
  match x with
  | .ok w₁ =>
    have run : program w = .ok () w₁ := first
    rw [bind_of_ok run]
    exact rest w₁ rfl
  | .error (.problem p) =>
    have run : program w = .error (.problem p) w₀ := first
    exact bind_of_error run
  | .error (.refused r) =>
    obtain ⟨w', run⟩ : ∃ w', program w = .error (.refused r) w' := first
    exact ⟨w', bind_of_error run⟩

theorem get_bind (rest : Workspace → InPlace α) : ((get : InPlace Workspace) >>= rest) w = rest w w := rfl

theorem modify_bind (g : Workspace → Workspace) (rest : Unit → InPlace α) :
    ((modify g : InPlace Unit) >>= rest) w = rest () (g w) := rfl

theorem store_bind (key : String) (g : Draft → Draft) (rest : Unit → InPlace α) :
    (store key g >>= rest) w = rest () (w.updateTable key g) := rfl

theorem withTable_none {key : String} (program : Draft → InPlace Unit) (found : w.table? key = none) :
    withTable key program w = .ok () w := by
  show (match w.table? key with | none => pure () | some t => program t : InPlace Unit) w = _
  rw [found]
  rfl

theorem withTable_some {key : String} {t : Draft} (program : Draft → InPlace Unit) (found : w.table? key = some t) :
    withTable key program w = program t w := by
  show (match w.table? key with | none => pure () | some t => program t : InPlace Unit) w = _
  rw [found]

/-- where there is no table of the key, nothing is done -/
theorem follows_withTable {key : String} {k : Draft → Except Failure Workspace} {program : Draft → InPlace Unit}
    (rest : ∀ t, w.table? key = some t → Follows w ((k t).map (·, ())) (program t w)) :
    Follows w ((match w.table? key with
      | none => .ok w
      | some t => k t : Except Failure Workspace).map (·, ())) (withTable key program w) := by
  cases found : w.table? key with
  | none =>
    rw [withTable_none _ found]
    rfl
  | some t =>
    rw [withTable_some _ found]
    exact rest t found

theorem attempt_eq (position : Position) (source : Option String) (otherwise : α) (program : InPlace α) :
    attempt position source otherwise program w =
      match program w with
      | .ok a w' => .ok a w'
      | .error (.problem p) w' => .ok otherwise (w'.record p position source)
      | .error (.refused r) w' => .error (.refused r) w' := by
  simp only [attempt, tryCatch, tryCatchThe, MonadExceptOf.tryCatch, EStateM.tryCatch]
  cases program w with
  | ok a w' => rfl
  | error e w' => cases e <;> rfl

theorem attempt_of_ok {position : Position} {source : Option String} {otherwise a : α} {program : InPlace α}
    {w' : Workspace} (run : program w = .ok a w') : attempt position source otherwise program w = .ok a w' := by
  rw [attempt_eq, run]

theorem attempt_of_problem (position : Position) (source : Option String) (otherwise : α) {program : InPlace α}
    {p : Problem} {w' : Workspace} (run : program w = .error (.problem p) w') :
    attempt position source otherwise program w = .ok otherwise (w'.record p position source) := by
  rw [attempt_eq, run]

theorem attempt_of_refused (position : Position) (source : Option String) (otherwise : α) {program : InPlace α}
    {r : Refusal} (run : ∃ w', program w = .error (.refused r) w') :
    ∃ w', attempt position source otherwise program w = .error (.refused r) w' := by
  obtain ⟨w', run⟩ := run
  refine ⟨w', ?_⟩
  rw [attempt_eq, run]

/-- an attempt in place records the problem of a program that has stored nothing -/
theorem follows_attempt {change : Workspace.Change} {program : InPlace Unit} (position : Position)
    (source : Option String) (follows : Follows w ((change w).map (·, ())) (program w)) (w₀ : Workspace) :
    Follows w₀ ((Workspace.settle (w.attempt position source change)).map (·, ()))
      (attempt position source () program w) := by
  rw [attempt_eq]
  unfold Workspace.attempt
  cases result : change w with
  | ok w' =>
    rw [result] at follows
    have run : program w = .ok () w' := follows
    rw [run]
    rfl
  | error e =>
    rw [result] at follows
    cases e with
    | problem p =>
      have run : program w = .error (.problem p) w := follows
      rw [run]
      rfl
    | refused r =>
      obtain ⟨w', run⟩ : ∃ w', program w = .error (.refused r) w' := follows
      rw [run]
      exact ⟨w', rfl⟩

end

/-! ### Stores -/

theorem updateTable_updateTable {key : String} {f g : Draft → Draft} (same : ∀ t, (f t).key = t.key) :
    (w.updateTable key f).updateTable key g = w.updateTable key fun t => g (f t) := by
  simp only [Workspace.updateTable, List.map_map]
  congr 1
  refine List.map_congr_left fun t _ => ?_
  simp only [Function.comp_apply]
  split_ifs with here there
  · rfl
  · exact absurd ((same t).symm ▸ here) there
  · rfl

/-- columns, constraints and indexes may be changed one after the other -/
theorem updateTable_fields (key : String) (columns : List Column → List Column)
    (constraints : List Placed → List Placed) (indexes : List Index → List Index) :
    ((w.updateTable key fun t => { t with columns := columns t.columns }).updateTable key fun t => { t with
        constraints := constraints t.constraints }).updateTable key (fun t => { t with indexes := indexes t.indexes }) =
      w.updateTable key fun t => { t with
        columns := columns t.columns, constraints := constraints t.constraints, indexes := indexes t.indexes } := by
  let f : Draft → Draft := fun t => { t with columns := columns t.columns }
  let g : Draft → Draft := fun t => { t with constraints := constraints t.constraints }
  let h : Draft → Draft := fun t => { t with indexes := indexes t.indexes }
  calc ((w.updateTable key f).updateTable key g).updateTable key h
      = (w.updateTable key f).updateTable key fun t => h (g t) := updateTable_updateTable fun _ => rfl
    _ = w.updateTable key fun t => h (g (f t)) := updateTable_updateTable fun _ => rfl

theorem updateTable_self {key : String} {f : Draft → Draft} (same : ∀ t ∈ w.tables, t.key = key → f t = t) :
    w.updateTable key f = w := by
  unfold Workspace.updateTable
  have each : ∀ t ∈ w.tables, (if t.key == key then f t else t) = id t := by
    intro t ht
    split_ifs with here
    · exact same t ht (beq_iff_eq.1 here)
    · rfl
  rw [List.map_congr_left each, List.map_id]

/-- where keys differ, the table of a key is the only one that is changed -/
theorem updateTable_congr (h : w.Regular d limit) {key : String} {t : Draft} (found : w.table? key = some t)
    {f g : Draft → Draft} (same : f t = g t) : w.updateTable key f = w.updateTable key g := by
  obtain ⟨ht, own⟩ := Workspace.table?_eq_some found
  unfold Workspace.updateTable
  congr 1
  refine List.map_congr_left fun x hx => ?_
  split_ifs with here
  · rw [h.eq_of_key hx ht ((beq_iff_eq.1 here).trans own.symm), same]
  · rfl

end InPlace

end SchemaApi
