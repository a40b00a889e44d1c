import SchemaApi.Schema.Problem
/-!
Tables while their statements are being applied.

A draft is a table whose constraints still know where they were declared. `Workspace` holds the
drafts in the order of their creation, the enum types and views, the findings made so far, and in a
ledger of their own the problems that were recorded; every change is a function on it.
-/

namespace SchemaApi

/-- a constraint and where it was declared -/
structure Placed where
  constraint : Constraint
  position : Position
  source : Option String := none
  deriving DecidableEq, Repr

structure Draft where
  name : String
  schema : Option String
  key : String
  /-- the index of the statement that created the table -/
  declaredBy : Nat
  position : Position
  source : Option String := none
  comment : Option String := none
  columns : List Column := []
  constraints : List Placed := []
  indexes : List Index := []
  deriving DecidableEq, Repr

namespace Draft

/-- the table with its constraints, wherever they were declared -/
def toTable (t : Draft) : Table :=
  { name := t.name
    schema := t.schema
    key := t.key
    columns := t.columns
    constraints := t.constraints.map (·.constraint)
    indexes := t.indexes
    comment := t.comment }

/-- the reference to the table; an empty name refers to nothing -/
def ref? (t : Draft) : Except Refusal TableRef :=
  if t.name = "" then .error (.emptyField "TableRef" "name") else .ok ⟨t.name, t.schema⟩

/-- the table as messages show it -/
def label? (t : Draft) : Except Refusal String := t.ref?.map TableRef.text

/-- the columns of the primary key -/
def primaryKey? (t : Draft) : Option (List String) := t.toTable.primaryKey?

/-- primary key, unique constraints and full unique indexes -/
def uniqueSets (t : Draft) : List (List String) := t.toTable.uniqueSets

/-- the column that a name means -/
def column? (d : Dialect) (t : Draft) (name : String) : Option Column :=
  t.columns.find? fun c => d.sameName c.name name

/-- the column that a name means, or the problem that there is none -/
def requireColumn (d : Dialect) (t : Draft) (name what : String) : Except Failure Column :=
  match t.column? d name with
  | some c => .ok c
  | none =>
    match t.label? with
    | .ok label => .error (.problem (.unknownColumn what label name))
    | .error r => .error (.refused r)

/-- the column names that a list of names means -/
def canonical (d : Dialect) (t : Draft) (names : List String) (what : String) :
    Except Failure (List String) :=
  names.mapM fun n => (t.requireColumn d n what).map (·.name)

/-- a problem that names the table -/
def problem {α : Type} (t : Draft) (p : String → Problem) : Except Failure α :=
  match t.label? with
  | .ok label => .error (.problem (p label))
  | .error r => .error (.refused r)

/-- changes the first column that a name means -/
def updateColumn (d : Dialect) (t : Draft) (name : String) (f : Column → Column) : Draft :=
  { t with columns := go t.columns }
where
  go : List Column → List Column
    | [] => []
    | c :: rest => if d.sameName c.name name then f c :: rest else c :: go rest

/-- changes every foreign key -/
def mapForeignKeys (t : Draft) (f : ForeignKey → ForeignKey) : Draft :=
  { t with
    constraints := t.constraints.map fun e =>
      match e.constraint with
      | .foreignKey k => { e with constraint := .foreignKey (f k) }
      | _ => e }

end Draft

/-- what the key of a foreign key's target is -/
def ForeignKey.targetKey (d : Dialect) (k : ForeignKey) : String :=
  d.tableKey k.target.schema k.target.name

/-- what is found: all findings in order, and once more the problems among them -/
structure Ledger where
  findings : Findings := []
  errors : Findings := []

/-- the state of a schema between two statements -/
structure Workspace where
  /-- in order of creation, with different keys -/
  tables : List Draft := []
  /-- by key, in order of declaration -/
  enums : List (String × EnumType) := []
  views : List (String × View) := []
  findings : Findings := []
  /-- the problems recorded, which become the errors of the model -/
  errors : Findings := []

namespace Workspace

def table? (w : Workspace) (key : String) : Option Draft := w.tables.find? fun t => t.key == key

/-- changes the table of a key -/
def updateTable (w : Workspace) (key : String) (f : Draft → Draft) : Workspace :=
  { w with tables := w.tables.map fun t => if t.key == key then f t else t }

/-- drops the table of a key -/
def dropTable (w : Workspace) (key : String) : Workspace :=
  { w with tables := w.tables.filter fun t => t.key != key }

/-- adds a finding of the model stage -/
def report (w : Workspace) (severity : Severity) (code message : String) (position : Position)
    (source : Option String) : Workspace :=
  { w with
    findings := w.findings ++ [Finding.about severity .model code message source (some position)] }

/-- records a problem, among the findings and in the ledger of errors -/
def record (w : Workspace) (p : Problem) (position : Position) (source : Option String) :
    Workspace :=
  { w with
    findings := w.findings ++ [p.finding position source]
    errors := w.errors ++ [p.finding position source] }

/-- a change of the workspace -/
abbrev Change := Workspace → Except Failure Workspace

/-- Makes a change; if a problem stands in the way, the problem is recorded and nothing else
happens. -/
def attempt (w : Workspace) (position : Position) (source : Option String) (change : Change) :
    Except Refusal Workspace :=
  match change w with
  | .ok w' => .ok w'
  | .error (.problem p) => .ok (w.record p position source)
  | .error (.refused r) => .error r

/-- a part of a change that can only be refused -/
def settle {α : Type} (result : Except Refusal α) : Except Failure α :=
  result.mapError .refused

end Workspace

end SchemaApi
