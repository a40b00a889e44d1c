import SchemaApi.Fault
import SchemaApi.Refusal
import SchemaApi.Schema.Basic
/-!
Problems: why a statement cannot be applied to the tables declared so far. Each problem has a code
and a message; `label` stands for a table as messages show it.
-/

namespace SchemaApi

inductive Problem where
  | duplicateType (type : String)
  | duplicateView (view : String)
  | duplicateTable (table : String) (first : Position)
  | unknownTable (what table : String)
  | unknownColumn (what label column : String)
  | unknownIndex (index : String)
  | unknownView (view : String)
  | duplicateColumn (label column : String)
  | columnNameTaken (label old new : String)
  | tableNameTaken (label new : String)
  | multiplePrimaryKeys (label : String)
  | noPrimaryKey (label : String)
  | unknownConstraint (label constraint : String)
  | primaryKeyNullable (label column : String)
  | duplicateIndex (label index : String)
  | unknownReferencedTable (key table : String)
  | targetWithoutPrimaryKey (key target : String)
  | columnCount (key : String) (own referenced : Nat)
  | columnOrder (key target : String) (referenced : List String)
  | targetNotUnique (key target : String) (referenced : List String)
  deriving DecidableEq, Repr

/-- names with commas between them -/
def commas (names : List String) : String := ", ".intercalate names

namespace Problem

def code : Problem → String
  | duplicateType _ => "DUPLICATE_TYPE"
  | duplicateView _ => "DUPLICATE_VIEW"
  | duplicateTable _ _ => "DUPLICATE_TABLE"
  | unknownTable _ _ => "UNKNOWN_TABLE"
  | unknownColumn _ _ _ => "UNKNOWN_COLUMN"
  | unknownIndex _ => "UNKNOWN_INDEX"
  | unknownView _ => "UNKNOWN_VIEW"
  | duplicateColumn _ _ => "DUPLICATE_COLUMN"
  | columnNameTaken _ _ _ => "DUPLICATE_COLUMN"
  | tableNameTaken _ _ => "DUPLICATE_TABLE"
  | multiplePrimaryKeys _ => "MULTIPLE_PRIMARY_KEYS"
  | noPrimaryKey _ => "UNKNOWN_CONSTRAINT"
  | unknownConstraint _ _ => "UNKNOWN_CONSTRAINT"
  | primaryKeyNullable _ _ => "PRIMARY_KEY_NULLABLE"
  | duplicateIndex _ _ => "DUPLICATE_INDEX"
  | unknownReferencedTable _ _ => "UNKNOWN_REFERENCED_TABLE"
  | targetWithoutPrimaryKey _ _ => "FK_TARGET_NO_PRIMARY_KEY"
  | columnCount _ _ _ => "FK_COLUMN_COUNT_MISMATCH"
  | columnOrder _ _ _ => "FK_COLUMN_ORDER_MISMATCH"
  | targetNotUnique _ _ _ => "FK_TARGET_NOT_UNIQUE"

def message : Problem → String
  | duplicateType type => s!"Duplicate enum type '{type}'"
  | duplicateView view => s!"Duplicate view '{view}'"
  | duplicateTable table first => s!"Duplicate table '{table}' (first declared at {first.text})"
  | unknownTable what table => s!"{what} targets unknown table '{table}'"
  | unknownColumn what label column =>
    s!"{what} on table '{label}' references unknown column '{column}'"
  | unknownIndex index => s!"DROP INDEX targets unknown index '{index}'"
  | unknownView view => s!"DROP VIEW targets unknown view '{view}'"
  | duplicateColumn label column => s!"Duplicate column '{column}' in table '{label}'"
  | columnNameTaken label old new =>
    s!"Cannot rename '{label}.{old}': column '{new}' already exists"
  | tableNameTaken label new => s!"Cannot rename '{label}' to '{new}': table already exists"
  | multiplePrimaryKeys label => s!"Table '{label}' declares more than one primary key"
  | noPrimaryKey label => s!"Table '{label}' has no primary key to drop"
  | unknownConstraint label constraint =>
    s!"Table '{label}' has no constraint or index named '{constraint}'"
  | primaryKeyNullable label column =>
    s!"Column '{label}.{column}' is part of the primary key and cannot be nullable"
  | duplicateIndex label index => s!"Index '{index}' already exists on table '{label}'"
  | unknownReferencedTable key table => s!"{key} references unknown table '{table}'"
  | targetWithoutPrimaryKey key target =>
    s!"{key} references '{target}' without columns, but '{target}' has no primary key"
  | columnCount key own referenced => s!"{key} has {own} column(s) but references {referenced}"
  | columnOrder key target referenced =>
    s!"{key} names the key columns of '{target}' in a different order: ({commas referenced})"
  | targetNotUnique key target referenced =>
    s!"{key} references ({commas referenced}) of '{target}', "
      ++ "which is neither its primary key nor a unique key"

/-- a problem with a statement, as a fault -/
def fault (p : Problem) (position : Position) : Fault :=
  .ofStage .model p.code p.message (some position) none

/-- the finding that a problem is reported as -/
def finding (p : Problem) (position : Position) (source : Option String) : Finding :=
  (p.fault position).finding source .error

end Problem

/-- why a change is not made: a problem, which is recorded, or a refusal -/
inductive Failure where
  | problem (p : Problem)
  | refused (r : Refusal)
  deriving DecidableEq, Repr

end SchemaApi
