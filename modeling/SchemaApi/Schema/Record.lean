import SchemaApi.Data.Value
import SchemaApi.Schema.Basic
/-!
The parts of a model as data, with their fields in a fixed order, and in short form for the
terminal.
-/

namespace SchemaApi

/-- an action that may be missing -/
def ReferentialAction.value? : Option ReferentialAction → Value
  | some a => .str a.name
  | none => .null

def Finding.toValue (f : Finding) : Value := .map [
  ("severity", .str f.severity.name), ("stage", .str f.stage.name), ("code", .str f.code),
  ("message", .str f.message), ("source", .ofString? f.source), ("line", .ofNat? f.line),
  ("column", .ofNat? f.column)]

def SqlType.toValue (t : SqlType) : Value := .map [
  ("declared", .str t.declared), ("base", .str t.base), ("semantic", .str t.meaning.name),
  ("format", .ofString? t.format), ("length", .ofNat? t.length),
  ("precision", .ofNat? t.precision), ("scale", .ofNat? t.scale),
  ("enum_values", .ofStrings t.enumValues), ("is_array", .bool t.isArray),
  ("unsigned", .bool t.unsigned), ("timezone", .ofBool? t.timezone)]

def Column.toValue (c : Column) : Value := .map [
  ("name", .str c.name), ("type", c.type.toValue), ("nullable", .bool c.nullable),
  ("default", .ofString? c.default), ("auto_increment", .bool c.autoIncrement),
  ("generated", .ofString? c.generated), ("comment", .ofString? c.comment)]

def TableRef.toValue (r : TableRef) : Value := .map [
  ("name", .str r.name), ("schema_name", .ofString? r.schema)]

def Constraint.toValue : Constraint → Value
  | .primaryKey name columns => .map [
      ("kind", .str "primary_key"), ("name", .ofString? name), ("columns", .ofStrings columns)]
  | .unique name columns => .map [
      ("kind", .str "unique"), ("name", .ofString? name), ("columns", .ofStrings columns)]
  | .foreignKey k => .map [
      ("kind", .str "foreign_key"), ("name", .ofString? k.name), ("columns", .ofStrings k.columns),
      ("referenced_table", k.target.toValue),
      ("referenced_columns", .ofStrings k.targetColumns),
      ("on_delete", ReferentialAction.value? k.onDelete),
      ("on_update", ReferentialAction.value? k.onUpdate)]
  | .check name expression column => .map [
      ("kind", .str "check"), ("name", .ofString? name), ("expression", .str expression),
      ("column", .ofString? column)]

def Index.toValue (i : Index) : Value := .map [
  ("name", .ofString? i.name), ("columns", .ofStrings i.columns), ("unique", .bool i.unique),
  ("method", .ofString? i.method), ("where", .ofString? i.condition),
  ("is_expression", .bool i.isExpression)]

def Table.toValue (t : Table) : Value := .map [
  ("name", .str t.name), ("schema_name", .ofString? t.schema), ("key", .str t.key),
  ("columns", .list (t.columns.map Column.toValue)),
  ("constraints", .list (t.constraints.map Constraint.toValue)),
  ("indexes", .list (t.indexes.map Index.toValue)), ("comment", .ofString? t.comment)]

def JunctionLink.toValue (j : JunctionLink) : Value := .map [
  ("table", j.table.toValue), ("from_columns", .ofStrings j.fromColumns),
  ("to_columns", .ofStrings j.toColumns)]

def Relationship.toValue (r : Relationship) : Value := .map [
  ("kind", .str r.kind.name), ("name", .str r.name), ("from_table", r.fromTable.toValue),
  ("from_columns", .ofStrings r.fromColumns), ("to_table", r.toTable.toValue),
  ("to_columns", .ofStrings r.toColumns),
  ("junction", (r.junction.map JunctionLink.toValue).getD .null),
  ("on_delete", ReferentialAction.value? r.onDelete),
  ("on_update", ReferentialAction.value? r.onUpdate),
  ("self_referential", .bool r.selfReferential)]

def View.toValue (v : View) : Value := .map [
  ("name", .str v.name), ("schema_name", .ofString? v.schema), ("query", .str v.query),
  ("materialized", .bool v.materialized), ("columns", .ofStrings v.columns)]

def EnumType.toValue (e : EnumType) : Value := .map [
  ("name", .str e.name), ("schema_name", .ofString? e.schema), ("values", .ofStrings e.values)]

def Model.toValue (m : Model) : Value := .map [
  ("dialect", .str m.dialect.name), ("tables", .list (m.tables.map Table.toValue)),
  ("relationships", .list (m.relationships.map Relationship.toValue)),
  ("junction_tables", .list (m.junctionTables.map TableRef.toValue)),
  ("views", .list (m.views.map View.toValue)), ("enums", .list (m.enums.map EnumType.toValue)),
  ("errors", .list (m.errors.map Finding.toValue))]

/-! ### Short forms -/

def SqlType.display (t : SqlType) : String := s!"<SqlType {t.declared} → {t.meaning.name}>"

def Column.display (c : Column) : String :=
  s!"<Column {c.name} {c.type.declared}" ++ (if c.nullable then " NULL>" else " NOT NULL>")

def ForeignKey.display (k : ForeignKey) : String :=
  let own := ", ".intercalate k.columns
  let other := ", ".intercalate k.targetColumns
  s!"<FK ({own}) → {k.target.text}({other})>"

def Table.display (t : Table) : String :=
  s!"<Table {t.qualifiedName} ({t.columns.length} cols, {t.constraints.length} constraints)>"

def Relationship.display (r : Relationship) : String :=
  s!"<Relationship {r.name} ({r.kind.name}) {r.fromTable.text} → {r.toTable.text}>"

def Model.display (m : Model) : String :=
  s!"<DomainModel {m.dialect.name} ({m.tables.length} tables, "
    ++ s!"{m.relationships.length} relationships, {m.errors.length} errors)>"

end SchemaApi
