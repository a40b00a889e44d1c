import SchemaApi.Text.Blank
import SchemaApi.Text.Case
/-!
The SQL dialects: how names and texts are delimited, how identifiers fold and compare, and which
schema an unqualified name belongs to.
-/

namespace SchemaApi

open Text

/-- the dialects that scripts are written in -/
inductive Dialect where
  | postgresql | mysql | sqlite | mssql
  deriving DecidableEq, Repr

namespace Dialect

def all : List Dialect := [postgresql, mysql, sqlite, mssql]

def name : Dialect → String
  | postgresql => "postgresql"
  | mysql => "mysql"
  | sqlite => "sqlite"
  | mssql => "mssql"

/-- the accepted spellings -/
def aliases : List (String × Dialect) := [
  ("postgresql", postgresql), ("postgres", postgresql), ("pg", postgresql), ("mysql", mysql),
  ("mariadb", mysql), ("sqlite", sqlite), ("sqlite3", sqlite), ("mssql", mssql),
  ("sqlserver", mssql), ("tsql", mssql)]

/-- the dialect that a text names, blanks and case aside -/
def ofName? (text : String) : Option Dialect := aliases.lookup (lower (strip text))

/-- what is said about a name that no dialect has -/
def unknownMessage (text : String) : String :=
  s!"Unknown dialect '{text}'. Expected one of: " ++ ", ".intercalate (all.map name) ++ "."

/-! ### Delimiters and comments -/

/-- opening and closing delimiters of quoted identifiers -/
def identifierQuotes : Dialect → List (Char × Char)
  | postgresql => [('"', '"')]
  | mysql => [('\x60', '\x60')]
  | sqlite => [('"', '"'), ('\x60', '\x60'), ('[', ']')]
  | mssql => [('[', ']'), ('"', '"')]

/-- delimiters of texts -/
def stringQuotes : Dialect → List Char
  | mysql => ['\'', '"']
  | _ => ['\'']

/-- a backslash inside a text escapes the next character -/
def backslashEscapes (d : Dialect) : Bool := d == mysql

/-- `#` begins a comment -/
def hashComments (d : Dialect) : Bool := d == mysql

/-- texts may stand between `$tag$` marks -/
def dollarQuoting (d : Dialect) : Bool := d == postgresql

/-! ### Types -/

/-- a type name outside the tables has a meaning by its spelling -/
def affinityTypes (d : Dialect) : Bool := d == sqlite

/-- a column may be declared without a type -/
def optionalColumnTypes (d : Dialect) : Bool := d == sqlite

/-- `TINYINT(1)` is a truth value -/
def tinyint1Boolean (d : Dialect) : Bool := d == mysql

/-- only the basic grammar is supported -/
def reserved (d : Dialect) : Bool := d == mssql

/-! ### Identifiers -/

/-- the schema of unqualified names -/
def defaultSchema : Dialect → Option String
  | postgresql => some "public"
  | mysql => none
  | sqlite => some "main"
  | mssql => some "dbo"

/-- an unquoted identifier is put into lower case -/
def foldsUnquoted (d : Dialect) : Bool := d == postgresql

/-- identifiers that differ in case differ -/
def caseSensitive (d : Dialect) : Bool := d == postgresql

/-- the name that an identifier as written stands for -/
def normalize (d : Dialect) (text : String) (isQuoted : Bool) : String :=
  if isQuoted || !d.foldsUnquoted then text else lower text

/-- what identifiers are compared by; a missing one compares as empty -/
def fold (d : Dialect) : Option String → String
  | none => ""
  | some name => if d.caseSensitive then name else lower name

/-- the folded form of a name -/
def foldName (d : Dialect) (name : String) : String := d.fold (some name)

/-- two names are the same identifier -/
def sameName (d : Dialect) (a b : String) : Bool := d.foldName a == d.foldName b

/-- the schema that a name with this qualifier belongs to -/
def effectiveSchema (d : Dialect) (schema : Option String) : Option String :=
  match schema with
  | some s => some s
  | none => d.defaultSchema

/-- what tables are looked up by: folded schema and name -/
def tableKey (d : Dialect) (schema : Option String) (name : String) : String :=
  d.fold (d.effectiveSchema schema) ++ "." ++ d.foldName name

/-- a name with this qualifier belongs to the wanted schema -/
def inSchema (d : Dialect) (schema : Option String) (wanted : String) : Bool :=
  d.fold (d.effectiveSchema schema) == d.foldName wanted

end Dialect

end SchemaApi
