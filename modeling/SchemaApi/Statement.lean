import SchemaApi.Token
/-!
Statements of the data definition language, as read from a script. Expressions are kept as the
characters of the script.
-/

namespace SchemaApi

/-- a name with an optional schema in front -/
structure QualifiedName where
  name : String
  schema : Option String := none
  deriving DecidableEq, Repr

/-- a name behind its schema; an empty schema is not shown -/
def dotted (schema : Option String) (name : String) : String :=
  match schema with
  | none => name
  | some s => if s = "" then name else s ++ "." ++ name

/-- the name as messages show it -/
def QualifiedName.text (n : QualifiedName) : String := dotted n.schema n.name

/-- what happens to referencing rows -/
inductive ReferentialAction where
  | cascade | setNull | setDefault | restrict | noAction
  deriving DecidableEq, Repr

namespace ReferentialAction

def all : List ReferentialAction := [cascade, setNull, setDefault, restrict, noAction]

def name : ReferentialAction → String
  | cascade => "CASCADE"
  | setNull => "SET NULL"
  | setDefault => "SET DEFAULT"
  | restrict => "RESTRICT"
  | noAction => "NO ACTION"

def ofName? (s : String) : Option ReferentialAction := all.find? (·.name == s)

end ReferentialAction

/-- a declared type -/
structure TypeName where
  /-- the name in upper case, without a time zone part -/
  base : String
  args : List String := []
  /-- the declaration as written -/
  raw : String := ""
  isArray : Bool := false
  unsigned : Bool := false
  timezone : Option Bool := none
  /-- the name as an identifier, unless it is a keyword -/
  identifier : Option String := none
  schema : Option String := none
  deriving DecidableEq, Repr

/-- what a foreign key refers to -/
structure ReferenceClause where
  table : QualifiedName
  columns : List String := []
  onDelete : Option ReferentialAction := none
  onUpdate : Option ReferentialAction := none
  deriving DecidableEq, Repr

/-- an indexed element: a column, or an expression when `column` is missing -/
structure IndexElement where
  text : String
  column : Option String := none
  descending : Bool := false
  deriving DecidableEq, Repr

/-- a constraint or index inside a table declaration -/
inductive ConstraintClause where
  | primaryKey (columns : List String) (name : Option String) (position : Position)
  | unique (columns : List String) (name : Option String) (position : Position)
  | foreignKey (columns : List String) (reference : ReferenceClause) (name : Option String)
      (position : Position)
  /-- `column` is the column that the check was written at -/
  | check (expression : String) (name : Option String) (column : Option String)
      (position : Position)
  | index (elements : List IndexElement) (name : Option String) (unique : Bool)
      (kind : Option String) (position : Position)
  deriving DecidableEq, Repr

def ConstraintClause.position : ConstraintClause → Position
  | primaryKey _ _ p => p
  | unique _ _ p => p
  | foreignKey _ _ _ p => p
  | check _ _ _ p => p
  | index _ _ _ _ p => p

/-- a column declaration; constraints written at the column name it in their column lists -/
structure ColumnClause where
  name : String
  type : Option TypeName
  position : Position
  /-- missing when nothing was said -/
  notNull : Option Bool := none
  default : Option String := none
  autoIncrement : Bool := false
  generated : Option String := none
  comment : Option String := none
  constraints : List ConstraintClause := []
  deriving DecidableEq, Repr

/-- which constraint an action drops -/
inductive ConstraintTarget where
  | named (name : String)
  | primaryKey
  | foreignKey (name : String)
  | index (name : String)
  deriving DecidableEq, Repr

/-- an action of `ALTER TABLE` -/
inductive TableAction where
  | addColumn (column : ColumnClause) (ifNotExists : Bool)
  | dropColumn (name : String) (ifExists cascade : Bool)
  | addConstraint (clause : ConstraintClause)
  | dropConstraint (target : ConstraintTarget) (ifExists : Bool)
  | alterColumn (name : String) (setNotNull : Option Bool) (default : Option String)
      (dropDefault : Bool) (newType : Option TypeName)
  | renameColumn (old new : String)
  | renameTable (newName : QualifiedName)
  /-- replaces a column, under a new name when an old one is given -/
  | modifyColumn (column : ColumnClause) (oldName : Option String)
  deriving DecidableEq, Repr

structure CreateTable where
  name : QualifiedName
  columns : List ColumnClause
  constraints : List ConstraintClause := []
  ifNotExists : Bool := false
  temporary : Bool := false
  comment : Option String := none
  deriving DecidableEq, Repr

structure AlterTable where
  name : QualifiedName
  actions : List TableAction
  ifExists : Bool := false
  deriving DecidableEq, Repr

structure CreateIndex where
  name : Option String
  table : QualifiedName
  elements : List IndexElement
  unique : Bool := false
  method : Option String := none
  condition : Option String := none
  ifNotExists : Bool := false
  deriving DecidableEq, Repr

structure CreateView where
  name : QualifiedName
  query : String
  orReplace : Bool := false
  materialized : Bool := false
  columns : List String := []
  deriving DecidableEq, Repr

structure CreateEnum where
  name : QualifiedName
  values : List String
  deriving DecidableEq, Repr

structure DropTable where
  names : List QualifiedName
  ifExists : Bool := false
  cascade : Bool := false
  deriving DecidableEq, Repr

structure DropIndex where
  names : List QualifiedName
  ifExists : Bool := false
  table : Option QualifiedName := none
  deriving DecidableEq, Repr

structure DropView where
  names : List QualifiedName
  ifExists : Bool := false
  deriving DecidableEq, Repr

/-- a comment on a table, or on one of its columns; a missing text takes the comment away -/
structure CommentOn where
  table : QualifiedName
  column : Option String := none
  text : Option String := none
  deriving DecidableEq, Repr

/-- what a statement says -/
inductive StatementBody where
  | createTable (st : CreateTable)
  | alterTable (st : AlterTable)
  | createIndex (st : CreateIndex)
  | createView (st : CreateView)
  | createEnum (st : CreateEnum)
  | dropTable (st : DropTable)
  | dropIndex (st : DropIndex)
  | dropView (st : DropView)
  | commentOn (st : CommentOn)
  deriving DecidableEq, Repr

/-- a statement and where it begins -/
structure Statement where
  body : StatementBody
  position : Position
  source : Option String := none
  deriving DecidableEq, Repr

end SchemaApi
