import SchemaApi.Statement
import SchemaApi.Finding
import SchemaApi.Dialect.TypeRule
/-!
The relational schema that a script declares: tables with their columns, constraints and indexes,
the relationships between tables, views and enum types.

`Table.uniqueSets` lists the column lists whose values are unique in every row of a table; what a
foreign key may refer to, and what rows may be addressed by, is decided by it.
-/

namespace SchemaApi

/-- a declared type and its meaning -/
structure SqlType where
  /-- the type as written -/
  declared : String
  /-- the name in upper case -/
  base : String
  meaning : Meaning
  format : Option String := none
  length : Option Nat := none
  precision : Option Nat := none
  scale : Option Nat := none
  enumValues : List String := []
  isArray : Bool := false
  unsigned : Bool := false
  timezone : Option Bool := none
  deriving DecidableEq, Repr

structure Column where
  name : String
  type : SqlType
  nullable : Bool := true
  default : Option String := none
  autoIncrement : Bool := false
  /-- the expression the column is computed by -/
  generated : Option String := none
  comment : Option String := none
  deriving DecidableEq, Repr

/-- the values come from the database -/
def Column.isGenerated (c : Column) : Bool := c.autoIncrement || c.generated.isSome

/-- a table, by name -/
structure TableRef where
  name : String
  schema : Option String := none
  deriving DecidableEq, Repr

/-- the reference as messages show it -/
def TableRef.text (r : TableRef) : String := dotted r.schema r.name

structure ForeignKey where
  name : Option String := none
  columns : List String
  target : TableRef
  /-- as declared before resolution, the columns of the key referred to afterwards -/
  targetColumns : List String := []
  onDelete : Option ReferentialAction := none
  onUpdate : Option ReferentialAction := none
  deriving DecidableEq, Repr

inductive Constraint where
  | primaryKey (name : Option String) (columns : List String)
  | unique (name : Option String) (columns : List String)
  | foreignKey (key : ForeignKey)
  /-- `column` is the column that the check was written at -/
  | check (name : Option String) (expression : String) (column : Option String)
  deriving DecidableEq, Repr

namespace Constraint

def name : Constraint → Option String
  | primaryKey n _ => n
  | unique n _ => n
  | foreignKey k => k.name
  | check n _ _ => n

def isPrimaryKey : Constraint → Bool
  | primaryKey _ _ => true
  | _ => false

def isUnique : Constraint → Bool
  | unique _ _ => true
  | _ => false

def primaryColumns? : Constraint → Option (List String)
  | primaryKey _ cs => some cs
  | _ => none

def uniqueColumns? : Constraint → Option (List String)
  | unique _ cs => some cs
  | _ => none

def foreignKey? : Constraint → Option ForeignKey
  | foreignKey k => some k
  | _ => none

end Constraint

structure Index where
  name : Option String := none
  /-- column names, or the elements as written -/
  columns : List String
  unique : Bool := false
  method : Option String := none
  /-- the rows that are indexed, if not all -/
  condition : Option String := none
  /-- some element is an expression -/
  isExpression : Bool := false
  deriving DecidableEq, Repr

/-- no two rows of the table agree on the columns -/
def Index.isFullUnique (i : Index) : Bool := i.unique && !i.isExpression && i.condition.isNone

structure Table where
  name : String
  schema : Option String := none
  /-- what the table is looked up by -/
  key : String
  columns : List Column := []
  constraints : List Constraint := []
  indexes : List Index := []
  comment : Option String := none
  deriving DecidableEq, Repr

namespace Table

def ref (t : Table) : TableRef := ⟨t.name, t.schema⟩

def qualifiedName (t : Table) : String := t.ref.text

def columnNames (t : Table) : List String := t.columns.map (·.name)

/-- the last column of a name -/
def column? (t : Table) (name : String) : Option Column :=
  t.columns.reverse.find? fun c => c.name == name

def primaryKey? (t : Table) : Option (List String) := t.constraints.findSome? (·.primaryColumns?)

/-- the columns of the primary key, none without one -/
def primaryColumns (t : Table) : List String := t.primaryKey?.getD []

def foreignKeys (t : Table) : List ForeignKey := t.constraints.filterMap (·.foreignKey?)

/-- the column lists of unique constraints -/
def uniqueConstraints (t : Table) : List (List String) :=
  t.constraints.filterMap (·.uniqueColumns?)

/-- primary key, unique constraints and the unique indexes that hold for all rows, in order -/
def uniqueSets (t : Table) : List (List String) :=
  (if t.primaryColumns.isEmpty then [] else [t.primaryColumns])
    ++ t.uniqueConstraints
    ++ (t.indexes.filter (·.isFullUnique)).map (·.columns)

end Table

/-- two lists hold the same texts -/
def sameMembers (a b : List String) : Bool := a.all b.contains && b.all a.contains

/-- the columns are, in some order, one of the unique sets -/
def Table.isUniqueSet (t : Table) (columns : List String) : Bool :=
  t.uniqueSets.any (sameMembers · columns)

/-! ### Relationships -/

inductive RelationshipKind where
  | oneToMany | oneToOne | manyToMany
  deriving DecidableEq, Repr

namespace RelationshipKind

def all : List RelationshipKind := [oneToMany, oneToOne, manyToMany]

def name : RelationshipKind → String
  | oneToMany => "one_to_many"
  | oneToOne => "one_to_one"
  | manyToMany => "many_to_many"

end RelationshipKind

/-- the table behind a many-to-many relationship -/
structure JunctionLink where
  table : TableRef
  fromColumns : List String
  toColumns : List String
  deriving DecidableEq, Repr

/-- A relationship between two tables. The first side refers to the second; both sides are linked
tables when there is a junction. -/
structure Relationship where
  kind : RelationshipKind
  name : String
  fromTable : TableRef
  fromColumns : List String
  toTable : TableRef
  toColumns : List String
  junction : Option JunctionLink := none
  onDelete : Option ReferentialAction := none
  onUpdate : Option ReferentialAction := none
  selfReferential : Bool := false
  deriving DecidableEq, Repr

/-- the table is one of the sides or the junction -/
def Relationship.involves (r : Relationship) (ref : TableRef) : Bool :=
  r.fromTable == ref || r.toTable == ref || (r.junction.map (·.table)) == some ref

/-! ### Views, enum types and the model -/

structure View where
  name : String
  schema : Option String := none
  query : String
  materialized : Bool := false
  columns : List String := []
  deriving DecidableEq, Repr

structure EnumType where
  name : String
  schema : Option String := none
  values : List String := []
  deriving DecidableEq, Repr

/-- everything a script declares, and the errors found in it -/
structure Model where
  dialect : Dialect
  tables : List Table := []
  relationships : List Relationship := []
  junctionTables : List TableRef := []
  views : List View := []
  enums : List EnumType := []
  errors : Findings := []
  deriving DecidableEq, Repr

namespace Model

def isValid (m : Model) : Bool := m.errors.isEmpty

/-- the last table of a name and schema -/
def tableFor (m : Model) (ref : TableRef) : Option Table :=
  m.tables.reverse.find? fun t => t.ref == ref

/-- a table by its key, or by its name and, if given, its schema -/
def table? (m : Model) (name : String) (schema : Option String) : Option Table :=
  match m.tables.reverse.find? fun t => t.key == name with
  | some t => some t
  | none => m.tables.find? fun t => t.name == name && (schema.isNone || t.schema == schema)

def isJunction (m : Model) (t : Table) : Bool := m.junctionTables.contains t.ref

/-- the relationships that a table takes part in -/
def relationshipsFor (m : Model) (ref : TableRef) : List Relationship :=
  m.relationships.filter (·.involves ref)

end Model

end SchemaApi
