import SchemaApi.Schema.ColumnType
/-!
Changes of one table: columns, constraints and indexes are added, altered and dropped.

The functions on a draft are pure, and a change either yields the whole new draft or fails, so a
problem leaves the table as it was.
-/

namespace SchemaApi

/-- an optional name is the given one -/
def hasName (d : Dialect) (own : Option String) (name : String) : Bool :=
  (own.map fun n => d.sameName n name).getD false

/-- the names with one of them replaced -/
def renameIn (d : Dialect) (old new : String) (names : List String) : List String :=
  names.map fun n => if d.sameName n old then new else n

namespace Draft

/-! ### Adding -/

def addPlaced (t : Draft) (c : Constraint) (position : Position) (source : Option String) : Draft :=
  { t with constraints := t.constraints ++ [⟨c, position, source⟩] }

/-- makes the columns of a key NOT NULL -/
def requireValues (d : Dialect) (t : Draft) (names : List String) : Draft :=
  names.foldl (fun t n => t.updateColumn d n fun c => { c with nullable := false }) t

/-- the columns that a record is about; there is at least one -/
def someColumns (record : String) (columns : List String) : Except Failure Unit :=
  if columns = [] then .error (.refused (.emptyList record "columns")) else .ok ()

/-- the column that an element of an index means, or the element as written -/
def elementColumn (d : Dialect) (t : Draft) (e : IndexElement) : Except Failure String :=
  match e.column with
  | none => .ok e.text
  | some c => (t.requireColumn d c "Index").map (·.name)

/-- adds an index over elements -/
def addIndex (d : Dialect) (t : Draft) (elements : List IndexElement) (name : Option String)
    (unique : Bool) (method condition : Option String) : Except Failure Draft := do
  let columns ← elements.mapM (t.elementColumn d)
  someColumns "Index" columns
  let index : Index :=
    { name := name
      columns := columns
      unique := unique
      method := method
      condition := condition
      isExpression := elements.any (·.column.isNone) }
  return { t with indexes := t.indexes ++ [index] }

/-- adds a declared constraint or index -/
def addConstraint (d : Dialect) (source : Option String) (t : Draft) (clause : ConstraintClause) :
    Except Failure Draft :=
  match clause with
  | .primaryKey columns name position => do
    let columns ← t.canonical d columns "Primary key"
    if t.primaryKey?.isSome then t.problem .multiplePrimaryKeys
    else
      someColumns "PrimaryKeyConstraint" columns
      return (t.requireValues d columns).addPlaced (.primaryKey name columns) position source
  | .unique columns name position => do
    let columns ← t.canonical d columns "Unique constraint"
    someColumns "UniqueConstraint" columns
    return t.addPlaced (.unique name columns) position source
  | .foreignKey columns reference name position => do
    let columns ← t.canonical d columns "Foreign key"
    if reference.table.name = "" then
      throw (.refused (.emptyField "TableRef" "name"))
    someColumns "ForeignKeyConstraint" columns
    let key : ForeignKey :=
      { name := name
        columns := columns
        target := ⟨reference.table.name, reference.table.schema⟩
        targetColumns := reference.columns
        onDelete := reference.onDelete
        onUpdate := reference.onUpdate }
    return t.addPlaced (.foreignKey key) position source
  | .check expression name column position => do
    let column ← column.mapM fun c => (t.requireColumn d c "Check constraint").map (·.name)
    if expression = "" then
      throw (.refused (.emptyField "CheckConstraint" "expression"))
    return t.addPlaced (.check name expression column) position source
  | .index elements name unique kind _ => t.addIndex d elements name unique kind none

/-! ### Dropping -/

/-- the constraint names a column -/
def constraintNames (d : Dialect) (column : String) : Constraint → Bool
  | .primaryKey _ columns => columns.any (d.sameName · column)
  | .unique _ columns => columns.any (d.sameName · column)
  | .foreignKey k => k.columns.any (d.sameName · column)
  | .check _ _ own => hasName d own column

/-- the index names a column -/
def indexNames (d : Dialect) (column : String) (i : Index) : Bool :=
  !i.isExpression && i.columns.any (d.sameName · column)

/-- drops a column with the constraints and indexes that name it -/
def eraseColumn (d : Dialect) (t : Draft) (column : Column) : Draft :=
  { t with
    columns := t.columns.eraseP fun c => d.sameName c.name column.name
    constraints := t.constraints.filter fun e => !constraintNames d column.name e.constraint
    indexes := t.indexes.filter fun i => !indexNames d column.name i }

/-- drops the first constraint that passes a test, if there is one -/
def eraseConstraint? (t : Draft) (p : Constraint → Bool) : Option Draft :=
  if t.constraints.any fun e => p e.constraint then
    some { t with constraints := t.constraints.eraseP fun e => p e.constraint }
  else none

/-- drops the first index of a name, if there is one -/
def eraseIndex? (d : Dialect) (t : Draft) (name : String) : Option Draft :=
  if t.indexes.any fun i => hasName d i.name name then
    some { t with indexes := t.indexes.eraseP fun i => hasName d i.name name }
  else none

/-- drops the primary key -/
def dropPrimaryKey (t : Draft) : Except Failure Draft :=
  if t.constraints.any (·.constraint.isPrimaryKey) then
    .ok { t with constraints := t.constraints.filter fun e => !e.constraint.isPrimaryKey }
  else t.problem .noPrimaryKey

/-- drops the first constraint, or else the first index, of a name -/
def dropNamed? (d : Dialect) (t : Draft) (name : String) : Option Draft :=
  (t.eraseConstraint? fun c => hasName d c.name name).or (t.eraseIndex? d name)

/-- drops the first index, or else the first unique constraint, of a name -/
def dropIndexNamed? (d : Dialect) (t : Draft) (name : String) : Option Draft :=
  (t.eraseIndex? d name).or
    (t.eraseConstraint? fun c => c.isUnique && hasName d c.name name)

/-! ### Altering -/

/-- the columns that a constraint names, with one of them renamed -/
def renameInConstraint (d : Dialect) (old new : String) : Constraint → Constraint
  | .primaryKey n columns => .primaryKey n (renameIn d old new columns)
  | .unique n columns => .unique n (renameIn d old new columns)
  | .foreignKey k => .foreignKey { k with columns := renameIn d old new k.columns }
  | .check n e own => .check n e (if hasName d own old then some new else own)

def renameInIndex (d : Dialect) (old new : String) (i : Index) : Index :=
  if i.isExpression then i else { i with columns := renameIn d old new i.columns }

/-- renames a column, in the constraints and indexes of its table too -/
def renameColumn (d : Dialect) (t : Draft) (old new : String) : Draft :=
  let t := t.updateColumn d old fun c => { c with name := new }
  { t with
    constraints := t.constraints.map fun e =>
      { e with constraint := renameInConstraint d old new e.constraint }
    indexes := t.indexes.map (renameInIndex d old new) }

/-- renames a column of another table in the foreign keys that refer to it -/
def renameTargetColumn (d : Dialect) (t : Draft) (key old new : String) : Draft :=
  t.mapForeignKeys fun k =>
    if k.targetKey d == key then { k with targetColumns := renameIn d old new k.targetColumns }
    else k

/-- the foreign keys to a table refer to it by another name -/
def retarget (d : Dialect) (t : Draft) (key : String) (ref : TableRef) : Draft :=
  t.mapForeignKeys fun k => if k.targetKey d == key then { k with target := ref } else k

/-- some foreign key refers to a table -/
def refersTo (d : Dialect) (t : Draft) (key : String) : Bool :=
  t.constraints.any fun e =>
    (e.constraint.foreignKey?.map fun k => k.targetKey d == key).getD false

/-- drops the foreign keys to a table, or those to one of its columns -/
def dropForeignKeysTo (d : Dialect) (t : Draft) (key : String) (column : Option String) : Draft :=
  { t with
    constraints := t.constraints.filter fun e =>
      match e.constraint with
      | .foreignKey k =>
        !(k.targetKey d == key
          && (column.map fun c => k.targetColumns.any (d.sameName · c)).getD true)
      | _ => true }

end Draft

namespace Workspace

/-- a change of the table of a key, if there is one -/
def onTable (w : Workspace) (key : String) (change : Draft → Except Failure Draft) :
    Except Failure Workspace :=
  match w.table? key with
  | none => .ok w
  | some t => (change t).map fun t' => w.updateTable key fun _ => t'

/-- adds constraints one by one; problems are recorded -/
def addConstraints (d : Dialect) (w : Workspace) (key : String) (source : Option String)
    (clauses : List ConstraintClause) : Except Refusal Workspace :=
  clauses.foldlM
    (fun w clause =>
      w.attempt clause.position source fun w =>
        w.onTable key fun t => t.addConstraint d source clause)
    w

/-- adds a column, and then the constraints that were written at it -/
def addColumn (d : Dialect) (key : String) (source : Option String) (clause : ColumnClause) :
    Change := fun w =>
  match w.table? key with
  | none => .ok w
  | some t =>
    if (t.column? d clause.name).isSome then t.problem (.duplicateColumn · clause.name)
    else do
      let label ← settle t.label?
      let reading ← settle (readType? d w.enums clause.type)
      let w := w.reportType clause.type reading s!"{label}.{clause.name}" clause.position source
      let w := w.updateTable key fun t =>
        { t with columns := t.columns ++ [clause.toColumn reading] }
      settle (w.addConstraints d key source clause.constraints)

/-! ### Actions of ALTER TABLE -/

/-- the statement that an action belongs to -/
structure Site where
  position : Position
  source : Option String

/-- drops a column, and with CASCADE the foreign keys to it -/
def dropColumn (d : Dialect) (site : Site) (key name : String) (ifExists cascade : Bool) :
    Change := fun w =>
  match w.table? key with
  | none => .ok w
  | some t =>
    match t.column? d name with
    | none =>
      if ifExists then do
        let label ← settle t.label?
        return w.report .info "UNKNOWN_COLUMN"
          s!"DROP COLUMN IF EXISTS: no column '{name}' in '{label}'" site.position site.source
      else t.problem (.unknownColumn "DROP COLUMN" · name)
    | some column =>
      let w := w.updateTable key fun t => t.eraseColumn d column
      if cascade then
        .ok { w with tables := w.tables.map (·.dropForeignKeysTo d key (some column.name)) }
      else .ok w

/-- drops a constraint or an index -/
def dropConstraint (d : Dialect) (site : Site) (key : String) (target : ConstraintTarget)
    (ifExists : Bool) : Change := fun w =>
  match w.table? key with
  | none => .ok w
  | some t =>
    let missing (name : String) : Except Failure Workspace :=
      if ifExists then do
        let label ← settle t.label?
        return w.report .info "UNKNOWN_CONSTRAINT"
          s!"DROP CONSTRAINT IF EXISTS: no constraint '{name}' on '{label}'"
          site.position site.source
      else t.problem (.unknownConstraint · name)
    let dropped (name : String) (result : Option Draft) : Except Failure Workspace :=
      match result with
      | some t' => .ok (w.updateTable key fun _ => t')
      | none => missing name
    match target with
    | .primaryKey => w.onTable key Draft.dropPrimaryKey
    | .named name => dropped name (t.dropNamed? d name)
    | .foreignKey name => dropped name (t.dropNamed? d name)
    | .index name => dropped name (t.dropIndexNamed? d name)

/-- alters the nullability, default or type of a column -/
def alterColumn (d : Dialect) (site : Site) (key name : String) (setNotNull : Option Bool)
    (default : Option String) (dropDefault : Bool) (newType : Option TypeName) : Change := fun w =>
  match w.table? key with
  | none => .ok w
  | some t => do
    let column ← t.requireColumn d name "ALTER COLUMN"
    if setNotNull = some false ∧ (t.primaryKey?.getD []).contains column.name then
      t.problem (.primaryKeyNullable · column.name)
    else
      let change (c : Column) : Column :=
        { c with
          nullable := (setNotNull.map (!·)).getD c.nullable
          default := if dropDefault then none else default.or c.default }
      let w := w.updateTable key fun t => t.updateColumn d name change
      match newType with
      | none => return w
      | some type =>
        let label ← settle t.label?
        let reading ← settle (readType d w.enums type)
        let w := w.reportType newType reading s!"{label}.{column.name}" site.position site.source
        return w.updateTable key fun t => t.updateColumn d name fun c =>
          { c with type := reading.type, autoIncrement := c.autoIncrement || reading.numbered }

/-- renames a column wherever it is named -/
def renameColumn (d : Dialect) (key old new : String) : Change := fun w =>
  match w.table? key with
  | none => .ok w
  | some t => do
    let column ← t.requireColumn d old "RENAME COLUMN"
    if (t.column? d new).isSome ∧ !d.sameName old new then t.problem (.columnNameTaken · old new)
    else
      let w := w.updateTable key fun t => t.renameColumn d column.name new
      return { w with tables := w.tables.map (·.renameTargetColumn d key column.name new) }

/-- renames a table wherever it is named -/
def renameTable (d : Dialect) (key : String) (newName : QualifiedName) :
    Workspace → Except Failure (Workspace × String) := fun w =>
  match w.table? key with
  | none => .ok (w, key)
  | some t =>
    let schema :=
      match newName.schema with
      | none => t.schema
      | some s => if s = "" then t.schema else some s
    let newKey := d.tableKey schema newName.name
    if (w.table? newKey).isSome ∧ newKey ≠ key then t.problem (.tableNameTaken · newName.text)
    else if newName.name = "" ∧ w.tables.any (·.refersTo d key) then
      .error (.refused (.emptyField "TableRef" "name"))
    else
      let w := w.updateTable key fun t =>
        { t with name := newName.name, schema := schema, key := newKey }
      let ref : TableRef := ⟨newName.name, schema⟩
      .ok ({ w with tables := w.tables.map (·.retarget d key ref) }, newKey)

/-- replaces a column, under a new name if that differs -/
def modifyColumn (d : Dialect) (site : Site) (key : String) (clause : ColumnClause)
    (oldName : Option String) : Change := fun w =>
  match w.table? key with
  | none => .ok w
  | some t => do
    let old :=
      match oldName with
      | none => clause.name
      | some n => if n = "" then clause.name else n
    let _ ← t.requireColumn d old "MODIFY COLUMN"
    let renames := oldName.isSome && !d.sameName old clause.name
    let w ← if renames then renameColumn d key old clause.name w else pure w
    let label ← settle t.label?
    let reading ← settle (readType? d w.enums clause.type)
    let w := w.reportType clause.type reading s!"{label}.{clause.name}" clause.position site.source
    let replace (t : Draft) : Draft :=
      let column := clause.toColumn reading
      let inKey := (t.primaryKey?.getD []).contains column.name
      t.updateColumn d (if renames then clause.name else old) fun _ =>
        if inKey then { column with nullable := false } else column
    settle ((w.updateTable key replace).addConstraints d key site.source clause.constraints)

/-- one action of ALTER TABLE on the table of a key, and the key of that table afterwards -/
def alterAction (d : Dialect) (site : Site) (key : String) (action : TableAction)
    (w : Workspace) : Except Failure (Workspace × String) :=
  match action with
  | .renameTable newName => renameTable d key newName w
  | .addColumn clause ifNotExists =>
    let present := ((w.table? key).bind fun t => t.column? d clause.name).isSome
    if ifNotExists && present then .ok (w, key)
    else (addColumn d key site.source clause w).map (·, key)
  | .dropColumn name ifExists cascade =>
    (dropColumn d site key name ifExists cascade w).map (·, key)
  | .addConstraint clause =>
    (w.onTable key fun t => t.addConstraint d site.source clause).map (·, key)
  | .dropConstraint target ifExists => (dropConstraint d site key target ifExists w).map (·, key)
  | .alterColumn name setNotNull default dropDefault newType =>
    (alterColumn d site key name setNotNull default dropDefault newType w).map (·, key)
  | .renameColumn old new => (renameColumn d key old new w).map (·, key)
  | .modifyColumn clause oldName => (modifyColumn d site key clause oldName w).map (·, key)

/-- the actions of ALTER TABLE one by one; problems are recorded -/
def alterActions (d : Dialect) (site : Site) : List TableAction → Workspace → String →
    Except Refusal Workspace
  | [], w, _ => .ok w
  | action :: rest, w, key =>
    match alterAction d site key action w with
    | .ok (w', key') => alterActions d site rest w' key'
    | .error (.problem p) => alterActions d site rest (w.record p site.position site.source) key
    | .error (.refused r) => .error r

end Workspace

end SchemaApi
