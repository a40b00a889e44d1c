import SchemaApi.Schema.Basic
/-!
Relationships between tables, derived from foreign keys.

A foreign key that resolves to a key of an existing table makes a relationship, one-to-one when its
own columns are unique. A table that only links two others by two foreign keys makes one
many-to-many relationship instead.
-/

namespace SchemaApi

/-- the last table of a reference -/
def tableOf (tables : List Table) (ref : TableRef) : Option Table :=
  tables.reverse.find? fun t => t.ref == ref

/-- the table a foreign key refers to, if it names as many columns as it has and they are, in this
order, a unique set of that table -/
def resolvedTarget (tables : List Table) (key : ForeignKey) : Option Table :=
  match tableOf tables key.target with
  | none => none
  | some target =>
    if key.targetColumns.isEmpty || key.targetColumns.length != key.columns.length then none
    else if target.uniqueSets.contains key.targetColumns then some target
    else none

/-- the two foreign keys of a table that has no others -/
def linkKeys? (t : Table) : Option (ForeignKey × ForeignKey) :=
  match t.foreignKeys with
  | [left, right] => some (left, right)
  | _ => none

/-- a column that rows can be added without -/
def isOptionalColumn (t : Table) (c : Column) : Bool :=
  t.primaryColumns.contains c.name || c.nullable || c.default.isSome || c.isGenerated

/-- the foreign keys link two tables, and no further column has to be given -/
def linksOnly (tables : List Table) (t : Table) (left right : ForeignKey) : Bool :=
  (resolvedTarget tables left).isSome && (resolvedTarget tables right).isSome
    && !left.columns.any right.columns.contains
    && t.columns.all fun c =>
      left.columns.contains c.name || right.columns.contains c.name || isOptionalColumn t c

/-- the foreign keys of a table that only exists to link two others -/
def junctionKeys? (tables : List Table) (t : Table) : Option (ForeignKey × ForeignKey) :=
  match linkKeys? t with
  | some (left, right) => if linksOnly tables t left right then some (left, right) else none
  | none => none

def isJunctionTable (tables : List Table) (t : Table) : Bool := (junctionKeys? tables t).isSome

/-- the name of a foreign key, made up when it has none -/
def ForeignKey.relationshipName (key : ForeignKey) (t : Table) : String :=
  match key.name with
  | some n => if n = "" then made else n
  | none => made
where
  made : String := t.name ++ "_" ++ "_".intercalate key.columns ++ "_fkey"

/-- the relationship that a foreign key makes -/
def keyRelationship (t : Table) (key : ForeignKey) : Relationship :=
  { kind := if t.isUniqueSet key.columns then .oneToOne else .oneToMany
    name := key.relationshipName t
    fromTable := t.ref
    fromColumns := key.columns
    toTable := key.target
    toColumns := key.targetColumns
    onDelete := key.onDelete
    onUpdate := key.onUpdate
    selfReferential := key.target == t.ref }

/-- the relationship that a junction table makes -/
def junctionRelationship (t : Table) (left right : ForeignKey) : Relationship :=
  { kind := .manyToMany
    name := t.name
    fromTable := left.target
    fromColumns := left.targetColumns
    toTable := right.target
    toColumns := right.targetColumns
    junction := some ⟨t.ref, left.columns, right.columns⟩
    onDelete := left.onDelete
    onUpdate := left.onUpdate
    selfReferential := left.target == right.target }

/-- the relationships that one table makes -/
def tableRelationships (tables : List Table) (t : Table) : List Relationship :=
  match junctionKeys? tables t with
  | some (left, right) => [junctionRelationship t left right]
  | none =>
    (t.foreignKeys.filter fun k => (resolvedTarget tables k).isSome).map (keyRelationship t)

/-- the relationships of all tables -/
def deriveRelationships (tables : List Table) : List Relationship :=
  tables.flatMap (tableRelationships tables)

/-- the tables that only link others -/
def junctionTables (tables : List Table) : List TableRef :=
  (tables.filter (isJunctionTable tables)).map (·.ref)

end SchemaApi
