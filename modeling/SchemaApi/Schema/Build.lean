import SchemaApi.Data.Value
import SchemaApi.Schema.Change
import SchemaApi.Schema.Dependence
import SchemaApi.Schema.Resolution
import SchemaApi.Schema.Relationship
/-!
Building a model from statements.

Enum types are declared first, then tables and views, then all other statements are applied in their
order. At last foreign keys are resolved and relationships derived. A statement that cannot be
applied is recorded as an error of the model, and building goes on. The errors of the model are what
was recorded in the ledger of errors.
-/

namespace SchemaApi

/-- the schema of a declared name; an empty one counts as not given -/
def declaredSchema (d : Dialect) (n : QualifiedName) : Option String :=
  match n.schema with
  | none => d.defaultSchema
  | some s => if s = "" then d.defaultSchema else some s

/-- the key of a name -/
def QualifiedName.key (d : Dialect) (n : QualifiedName) : String := d.tableKey n.schema n.name

namespace Workspace

/-! ## Declarations -/

def declareEnum (d : Dialect) (st : Statement) (enum : CreateEnum) : Change := fun w =>
  let key := enum.name.key d
  if w.enums.any (·.1 == key) then .error (.problem (.duplicateType enum.name.text))
  else if enum.name.name = "" then .error (.refused (.emptyField "EnumType" "name"))
  else
    let values := enum.values.eraseDups
    let w :=
      if values.length = enum.values.length then w
      else
        w.report .warning "DUPLICATE_ENUM_VALUE" s!"Enum type '{enum.name.text}' repeats a value"
          st.position st.source
    let type : EnumType := ⟨enum.name.name, declaredSchema d enum.name, values⟩
    .ok { w with enums := w.enums ++ [(key, type)] }

def declareView (d : Dialect) (view : CreateView) : Change := fun w =>
  let key := view.name.key d
  if w.views.any (·.1 == key) ∧ !view.orReplace then
    .error (.problem (.duplicateView view.name.text))
  else if view.name.name = "" then .error (.refused (.emptyField "ViewDefinition" "name"))
  else
    let declared : View :=
      ⟨view.name.name, declaredSchema d view.name, view.query, view.materialized, view.columns⟩
    .ok { w with views := setEntry w.views key declared }

/-- a statement drops the table of a key -/
def dropsTable (d : Dialect) (key : String) (st : Statement) : Bool :=
  match st.body with
  | .dropTable drop => drop.names.any fun n => n.key d == key
  | _ => false

/-- a statement between two others drops the table of a key -/
def droppedBetween (d : Dialect) (statements : List Statement) (key : String)
    (first last : Nat) : Bool :=
  ((statements.take last).drop (first + 1)).any (dropsTable d key)

/-- a new table without columns -/
def newDraft (d : Dialect) (st : Statement) (table : CreateTable) (index : Nat) : Draft :=
  { name := table.name.name
    schema := declaredSchema d table.name
    key := table.name.key d
    declaredBy := index
    position := st.position
    source := st.source
    comment := table.comment }

/-- adds a new table, its columns and its constraints -/
def addTable (d : Dialect) (st : Statement) (table : CreateTable) (index : Nat)
    (w : Workspace) : Except Refusal Workspace := do
  let draft := newDraft d st table index
  let w := { w with tables := w.tables ++ [draft] }
  let w ← table.columns.foldlM
    (fun w c => w.attempt c.position st.source (addColumn d draft.key st.source c)) w
  let w ← w.addConstraints d draft.key st.source table.constraints
  if table.columns.isEmpty then
    let label ← draft.label?
    return w.report .warning "EMPTY_TABLE" s!"Table '{label}' declares no columns"
      st.position st.source
  else return w

/-- Declares a table. A second declaration counts if the first table is dropped in between; else it
is passed over with IF NOT EXISTS, and a problem without. -/
def declareTable (d : Dialect) (statements : List Statement) (st : Statement)
    (table : CreateTable) (index : Nat) : Change := fun w =>
  let key := table.name.key d
  match w.table? key with
  | none => settle (w.addTable d st table index)
  | some first =>
    if droppedBetween d statements key first.declaredBy index then
      settle ((w.dropTable key).addTable d st table index)
    else if table.ifNotExists then
      .ok (w.report .warning "DUPLICATE_TABLE"
        (s!"Table '{table.name.text}' is declared again with IF NOT EXISTS; "
          ++ "the first declaration is kept")
        st.position st.source)
    else .error (.problem (.duplicateTable table.name.text first.position))

/-! ## Other statements -/

/-- the table of a name, or the problem that there is none -/
def requireTable (d : Dialect) (w : Workspace) (name : QualifiedName) (what : String) :
    Except Failure Draft :=
  match w.table? (name.key d) with
  | some t => .ok t
  | none => .error (.problem (.unknownTable what name.text))

def alterTable (d : Dialect) (st : Statement) (alter : AlterTable) : Change := fun w =>
  match w.table? (alter.name.key d) with
  | some t => settle (alterActions d ⟨st.position, st.source⟩ alter.actions w t.key)
  | none =>
    if alter.ifExists then
      .ok (w.report .warning "UNKNOWN_TABLE"
        s!"ALTER TABLE IF EXISTS targets unknown table '{alter.name.text}'; skipped"
        st.position st.source)
    else .error (.problem (.unknownTable "ALTER TABLE" alter.name.text))

def createIndex (d : Dialect) (index : CreateIndex) : Change := fun w => do
  let t ← w.requireTable d index.table "CREATE INDEX"
  match index.name with
  | none =>
    w.onTable t.key fun t =>
      t.addIndex d index.elements none index.unique index.method index.condition
  | some name =>
    if t.indexes.any fun i => hasName d i.name name then
      if index.ifNotExists then return w
      else t.problem (.duplicateIndex · name)
    else
      w.onTable t.key fun t =>
        t.addIndex d index.elements (some name) index.unique index.method index.condition

/-- Does something for each name in turn. The first problem is recorded and ends the statement;
what was done for the names before stays. -/
def forNames (st : Statement) (change : QualifiedName → Change) :
    List QualifiedName → Workspace → Except Refusal Workspace
  | [], w => .ok w
  | name :: rest, w =>
    match change name w with
    | .ok w' => forNames st change rest w'
    | .error (.problem p) => .ok (w.record p st.position st.source)
    | .error (.refused r) => .error r

/-- drops a table that is there at this point -/
def dropTableNamed (d : Dialect) (st : Statement) (drop : DropTable) (index : Nat)
    (name : QualifiedName) : Change := fun w =>
  let key := name.key d
  let skipped :=
    w.report .info "DROP_SKIPPED" s!"DROP TABLE: '{name.text}' does not exist at this point"
      st.position st.source
  match w.table? key with
  | some t =>
    if t.declaredBy < index then
      let w := w.dropTable key
      if drop.cascade then
        .ok { w with tables := w.tables.map (·.dropForeignKeysTo d key none) }
      else .ok w
    else .ok skipped
  | none =>
    if drop.ifExists then .ok skipped else .error (.problem (.unknownTable "DROP TABLE" name.text))

/-- the first of the tables that has an index of a name -/
def tableWithIndex? (d : Dialect) (tables : List Draft) (name : String) : Option Draft :=
  tables.find? fun t => t.indexes.any fun i => hasName d i.name name

/-- drops an index of a name from the first table that has one -/
def dropIndexNamed (d : Dialect) (st : Statement) (drop : DropIndex) (table : Option String)
    (name : QualifiedName) : Change := fun w =>
  let candidates := w.tables.filter fun t => (table.map (· == t.key)).getD true
  match tableWithIndex? d candidates name.name with
  | some t => .ok (w.updateTable t.key fun t => (t.eraseIndex? d name.name).getD t)
  | none =>
    if drop.ifExists then
      .ok (w.report .info "DROP_SKIPPED" s!"DROP INDEX: '{name.text}' does not exist"
        st.position st.source)
    else .error (.problem (.unknownIndex name.text))

def dropViewNamed (d : Dialect) (st : Statement) (drop : DropView) (name : QualifiedName) :
    Change := fun w =>
  let key := name.key d
  if w.views.any (·.1 == key) then .ok { w with views := w.views.filter (·.1 != key) }
  else if drop.ifExists then
    .ok (w.report .info "DROP_SKIPPED" s!"DROP VIEW: '{name.text}' does not exist"
      st.position st.source)
  else .error (.problem (.unknownView name.text))

def commentOn (d : Dialect) (st : Statement) (comment : CommentOn) : Change := fun w =>
  match w.table? (comment.table.key d) with
  | none =>
    .ok (w.report .warning "UNKNOWN_COMMENT_TARGET"
      s!"COMMENT ON targets unknown table '{comment.table.text}'" st.position st.source)
  | some t =>
    match comment.column with
    | none => .ok (w.updateTable t.key fun t => { t with comment := comment.text })
    | some column =>
      if (t.column? d column).isSome then
        .ok (w.updateTable t.key fun t =>
          t.updateColumn d column fun c => { c with comment := comment.text })
      else do
        let label ← settle t.label?
        return w.report .warning "UNKNOWN_COMMENT_TARGET"
          s!"COMMENT ON targets unknown column '{label}.{column}'" st.position st.source

/-! ## Passes -/

/-- a statement of the first pass: enum types -/
def enumPass (d : Dialect) (w : Workspace) (st : Statement) : Except Refusal Workspace :=
  match st.body with
  | .createEnum enum => w.attempt st.position st.source (declareEnum d st enum)
  | _ => .ok w

/-- a statement of the second pass: tables and views -/
def declarationPass (d : Dialect) (statements : List Statement) (w : Workspace)
    (numbered : Statement × Nat) : Except Refusal Workspace :=
  let (st, index) := numbered
  match st.body with
  | .createTable table =>
    w.attempt st.position st.source (declareTable d statements st table index)
  | .createView view => w.attempt st.position st.source (declareView d view)
  | _ => .ok w

/-- a statement of the third pass: changes -/
def changePass (d : Dialect) (w : Workspace) (numbered : Statement × Nat) :
    Except Refusal Workspace :=
  let (st, index) := numbered
  match st.body with
  | .alterTable alter => w.attempt st.position st.source (alterTable d st alter)
  | .createIndex create => w.attempt st.position st.source (createIndex d create)
  | .dropTable drop => forNames st (dropTableNamed d st drop index) drop.names w
  | .dropIndex drop =>
    match drop.table with
    | none => forNames st (dropIndexNamed d st drop none) drop.names w
    | some table =>
      match w.requireTable d table "DROP INDEX" with
      | .ok t => forNames st (dropIndexNamed d st drop (some t.key)) drop.names w
      | .error (.problem p) => .ok (w.record p st.position st.source)
      | .error (.refused r) => .error r
  | .dropView drop => forNames st (dropViewNamed d st drop) drop.names w
  | .commentOn comment => w.attempt st.position st.source (commentOn d st comment)
  | _ => .ok w

/-- all statements applied -/
def applyAll (d : Dialect) (statements : List Statement) : Except Refusal Workspace := do
  let w ← statements.foldlM (enumPass d) {}
  let w ← statements.zipIdx.foldlM (declarationPass d statements) w
  statements.zipIdx.foldlM (changePass d) w

/-- foreign keys resolved -/
def resolveAll (d : Dialect) (w : Workspace) : Except Refusal Workspace := do
  let resolved ← w.tables.mapM (Draft.resolveTable d w.tables)
  return { w with
    tables := resolved.map (·.1)
    findings := w.findings ++ resolved.flatMap (·.2.findings)
    errors := w.errors ++ resolved.flatMap (·.2.errors) }

/-- the warning about a table without a primary key -/
def primaryKeyFindings (t : Draft) : Except Refusal Findings :=
  match t.primaryKey? with
  | some _ => .ok []
  | none => do
    let label ← t.label?
    return [Finding.about .warning .model "NO_PRIMARY_KEY" s!"Table '{label}' has no primary key"
      t.source (some t.position)]

/-- what is reported about the finished tables -/
def finalFindings (d : Dialect) (tables : List Draft) : Except Refusal Findings := do
  let keys ← tables.mapM primaryKeyFindings
  let circles ← (cycles d tables).mapM (cycleFinding tables)
  return keys.flatten ++ circles.flatten

end Workspace

/-- a finished table; tables and columns must have names -/
def Draft.finish (t : Draft) : Except Refusal Table :=
  if t.columns.any (·.name = "") then .error (.emptyField "Column" "name")
  else if t.name = "" then .error (.emptyField "Table" "name")
  else .ok t.toTable

/-! ## Restriction to one schema -/

/-- the foreign keys of a table that leave a set of tables -/
def foreignKeysOut (kept : List TableRef) (t : Table) : List ForeignKey :=
  t.foreignKeys.filter fun k => !kept.contains k.target

/-- a table without the foreign keys that leave a set of tables -/
def restrictTable (kept : List TableRef) (t : Table) : Table :=
  { t with
    constraints := t.constraints.filter fun c =>
      (c.foreignKey?.map fun k => kept.contains k.target).getD true }

/-- the warning about a foreign key that leaves the schema -/
def leavingFinding (wanted : String) (t : Table) (k : ForeignKey) : Finding :=
  Finding.about .warning .model "CROSS_SCHEMA_REFERENCE"
    (s!"Foreign key ({commas k.columns}) on '{t.qualifiedName}' leaves "
      ++ s!"schema '{wanted}' (→ {k.target.text}); dropped")
    none none

/-- the tables of one schema, and warnings -/
def restrictTables (d : Dialect) (wanted : String) (tables : List Table) : List Table × Findings :=
  let kept := tables.filter fun t => d.inSchema t.schema wanted
  let refs := kept.map (·.ref)
  (kept.map (restrictTable refs),
    kept.flatMap fun t => (foreignKeysOut refs t).map (leavingFinding wanted t))

/-- a model with the findings that were made on the way -/
structure Built where
  model : Model
  findings : Findings

/-- the model that statements declare, restricted to a schema if one is given -/
def buildModel (d : Dialect) (schemaFilter : Option String) (statements : List Statement) :
    Except Refusal Built := do
  let w ← Workspace.applyAll d statements
  let w ← w.resolveAll d
  let final ← Workspace.finalFindings d w.tables
  let tables ← w.tables.mapM Draft.finish
  let (tables, leaving) :=
    match schemaFilter with
    | none => (tables, [])
    | some wanted => restrictTables d wanted tables
  let inFilter (schema : Option String) : Bool :=
    (schemaFilter.map (d.inSchema schema)).getD true
  let model : Model :=
    { dialect := d
      tables := tables
      relationships := deriveRelationships tables
      junctionTables := junctionTables tables
      views := (w.views.map (·.2)).filter fun v => inFilter v.schema
      enums := (w.enums.map (·.2)).filter fun e => inFilter e.schema
      errors := w.errors }
  return { model := model, findings := w.findings ++ final ++ leaving }

end SchemaApi
