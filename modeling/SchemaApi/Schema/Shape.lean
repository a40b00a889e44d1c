import SchemaApi.Data.Shape
import SchemaApi.Schema.Basic
/-!
The shapes of the parts of a model, and tables and foreign keys read from data.
-/

namespace SchemaApi

open Shape

namespace Shapes

def name : Shape := .text 1
def texts : Shape := .list 0 (.text 0)
def columnNames : Shape := .list 1 (.text 0)
def no : Option Value := some (.bool false)
def empty : Option Value := some (.list [])

def action : Shape := .choice (ReferentialAction.all.map ReferentialAction.name)
def meaning : Shape := .choice (Meaning.all.map Meaning.name)

def finding : Shape := .record [
  .required "severity" (.choice (Severity.all.map Severity.name)),
  .required "stage" (.choice (Stage.all.map Stage.name)),
  .required "code" name, .required "message" (.text 0), .nullable "source" (.text 0),
  .nullable "line" (.int (some 1) none), .nullable "column" (.int (some 1) none)]

def sqlType : Shape := .record [
  .required "declared" (.text 0), .required "base" (.text 0), .required "semantic" meaning,
  .nullable "format" (.text 0), .nullable "length" (.int (some 1) none),
  .nullable "precision" (.int (some 0) none), .nullable "scale" (.int (some 0) none),
  .mk "enum_values" empty texts, .mk "is_array" no .bool, .mk "unsigned" no .bool,
  .nullable "timezone" .bool]

def column : Shape := .record [
  .required "name" name, .required "type" sqlType, .mk "nullable" (some (.bool true)) .bool,
  .nullable "default" (.text 0), .mk "auto_increment" no .bool, .nullable "generated" (.text 0),
  .nullable "comment" (.text 0)]

def tableRef : Shape := .record [.required "name" name, .nullable "schema_name" (.text 0)]

/-- the field that tells constraints apart -/
def kind (name : String) : Field := .mk "kind" (some (.str name)) (.constant name)

def primaryKey : Shape := .record [
  kind "primary_key", .nullable "name" (.text 0), .required "columns" columnNames]

def unique : Shape := .record [
  kind "unique", .nullable "name" (.text 0), .required "columns" columnNames]

def foreignKey : Shape := .record [
  kind "foreign_key", .nullable "name" (.text 0), .required "columns" columnNames,
  .required "referenced_table" tableRef, .mk "referenced_columns" empty texts,
  .nullable "on_delete" action, .nullable "on_update" action]

def checkConstraint : Shape := .record [
  kind "check", .nullable "name" (.text 0), .required "expression" name,
  .nullable "column" (.text 0)]

def constraint : Shape := .tagged "kind" [
  .required "primary_key" primaryKey, .required "unique" unique,
  .required "foreign_key" foreignKey, .required "check" checkConstraint]

def index : Shape := .record [
  .nullable "name" (.text 0), .required "columns" columnNames, .mk "unique" no .bool,
  .nullable "method" (.text 0), .nullable "where" (.text 0), .mk "is_expression" no .bool]

def table : Shape := .record [
  .required "name" name, .nullable "schema_name" (.text 0), .required "key" name,
  .mk "columns" empty (.list 0 column), .mk "constraints" empty (.list 0 constraint),
  .mk "indexes" empty (.list 0 index), .nullable "comment" (.text 0)]

def junctionLink : Shape := .record [
  .required "table" tableRef, .required "from_columns" texts, .required "to_columns" texts]

/-- the columns of one side of a relationship; there has to be one -/
def sideColumns : Shape := .checked texts fun
  | .list [] => some "Relationship column lists must not be empty."
  | _ => none

def relationship : Shape := .record [
  .required "kind" (.choice (RelationshipKind.all.map RelationshipKind.name)),
  .required "name" name, .required "from_table" tableRef, .required "from_columns" sideColumns,
  .required "to_table" tableRef, .required "to_columns" sideColumns,
  .nullable "junction" junctionLink, .nullable "on_delete" action, .nullable "on_update" action,
  .mk "self_referential" no .bool]

def view : Shape := .record [
  .required "name" name, .nullable "schema_name" (.text 0), .required "query" (.text 0),
  .mk "materialized" no .bool, .mk "columns" empty texts]

def enumType : Shape := .record [
  .required "name" name, .nullable "schema_name" (.text 0), .mk "values" empty texts]

def model : Shape := .record [
  .required "dialect" (.text 0), .mk "tables" empty (.list 0 table),
  .mk "relationships" empty (.list 0 relationship),
  .mk "junction_tables" empty (.list 0 tableRef), .mk "views" empty (.list 0 view),
  .mk "enums" empty (.list 0 enumType), .mk "errors" empty (.list 0 finding)]

/-- the records of a model by title -/
def modelRecords : List RecordShape := [
  ⟨"Diagnostic", finding⟩, ⟨"SqlType", sqlType⟩, ⟨"Column", column⟩, ⟨"TableRef", tableRef⟩,
  ⟨"PrimaryKeyConstraint", primaryKey⟩, ⟨"UniqueConstraint", unique⟩,
  ⟨"ForeignKeyConstraint", foreignKey⟩, ⟨"CheckConstraint", checkConstraint⟩, ⟨"Index", index⟩,
  ⟨"Table", table⟩, ⟨"JunctionLink", junctionLink⟩, ⟨"Relationship", relationship⟩,
  ⟨"ViewDefinition", view⟩, ⟨"EnumType", enumType⟩, ⟨"DomainModel", model⟩]

end Shapes

/-! ### Reading checked data -/

namespace Value

def text (v : Value) : String := match v with
  | .str s => s
  | _ => ""

def text? : Value → Option String
  | .str s => some s
  | _ => none

def nat? : Value → Option Nat
  | .int n => if n < 0 then none else some n.toNat
  | _ => none

def truth : Value → Bool
  | .bool b => b
  | _ => false

def truth? : Value → Option Bool
  | .bool b => some b
  | _ => none

def items : Value → List Value
  | .list vs => vs
  | _ => []

def texts (v : Value) : List String := v.items.map text

end Value

def TableRef.ofValue (v : Value) : TableRef := ⟨(v.get "name").text, (v.get "schema_name").text?⟩

def SqlType.ofValue (v : Value) : SqlType :=
  { declared := (v.get "declared").text
    base := (v.get "base").text
    meaning := (Meaning.ofName? (v.get "semantic").text).getD .other
    format := (v.get "format").text?
    length := (v.get "length").nat?
    precision := (v.get "precision").nat?
    scale := (v.get "scale").nat?
    enumValues := (v.get "enum_values").texts
    isArray := (v.get "is_array").truth
    unsigned := (v.get "unsigned").truth
    timezone := (v.get "timezone").truth? }

def Column.ofValue (v : Value) : Column :=
  { name := (v.get "name").text
    type := .ofValue (v.get "type")
    nullable := (v.get "nullable").truth
    default := (v.get "default").text?
    autoIncrement := (v.get "auto_increment").truth
    generated := (v.get "generated").text?
    comment := (v.get "comment").text? }

def ForeignKey.ofValue (v : Value) : ForeignKey :=
  { name := (v.get "name").text?
    columns := (v.get "columns").texts
    target := .ofValue (v.get "referenced_table")
    targetColumns := (v.get "referenced_columns").texts
    onDelete := (v.get "on_delete").text?.bind ReferentialAction.ofName?
    onUpdate := (v.get "on_update").text?.bind ReferentialAction.ofName? }

def Constraint.ofValue (v : Value) : Constraint :=
  let name := (v.get "name").text?
  match (v.get "kind").text with
  | "primary_key" => .primaryKey name (v.get "columns").texts
  | "unique" => .unique name (v.get "columns").texts
  | "foreign_key" => .foreignKey (.ofValue v)
  | _ => .check name (v.get "expression").text (v.get "column").text?

def Index.ofValue (v : Value) : Index :=
  { name := (v.get "name").text?
    columns := (v.get "columns").texts
    unique := (v.get "unique").truth
    method := (v.get "method").text?
    condition := (v.get "where").text?
    isExpression := (v.get "is_expression").truth }

def Table.ofValue (v : Value) : Table :=
  { name := (v.get "name").text
    schema := (v.get "schema_name").text?
    key := (v.get "key").text
    columns := (v.get "columns").items.map .ofValue
    constraints := (v.get "constraints").items.map .ofValue
    indexes := (v.get "indexes").items.map .ofValue
    comment := (v.get "comment").text? }

def Finding.ofValue (v : Value) : Finding :=
  { severity := (Severity.ofName? (v.get "severity").text).getD .error
    stage := (Stage.ofName? (v.get "stage").text).getD .input
    code := (v.get "code").text
    message := (v.get "message").text
    source := (v.get "source").text?
    line := (v.get "line").nat?
    column := (v.get "column").nat? }

/-- a table from data -/
def Table.read (v : Value) : Except Refusal Table :=
  (RecordShape.read ⟨"Table", Shapes.table⟩ v).map Table.ofValue

/-- a foreign key from data -/
def ForeignKey.read (v : Value) : Except Refusal ForeignKey :=
  (RecordShape.read ⟨"ForeignKeyConstraint", Shapes.foreignKey⟩ v).map ForeignKey.ofValue

/-- a finding from data -/
def Finding.read (v : Value) : Except Refusal Finding :=
  (RecordShape.read ⟨"Diagnostic", Shapes.finding⟩ v).map Finding.ofValue

end SchemaApi
