import SchemaApi.Check.Rule
import SchemaApi.Settings
/-!
The description of an interface: its resources with their fields, operations, validation rules and
relationships.
-/

namespace SchemaApi

inductive OperationKind where
  | list | create | read | update | patch | delete
  deriving DecidableEq, Repr

namespace OperationKind

def all : List OperationKind := [list, create, read, update, patch, delete]

def name : OperationKind → String
  | list => "list"
  | create => "create"
  | read => "read"
  | update => "update"
  | patch => "patch"
  | delete => "delete"

/-- the method of a request -/
def method : OperationKind → String
  | list => "GET"
  | create => "POST"
  | read => "GET"
  | update => "PUT"
  | patch => "PATCH"
  | delete => "DELETE"

/-- the status of a request that succeeds -/
def successStatus : OperationKind → Nat
  | create => 201
  | delete => 204
  | _ => 200

end OperationKind

inductive ParameterPlace where
  | path | query
  deriving DecidableEq, Repr

def ParameterPlace.name : ParameterPlace → String
  | path => "path"
  | query => "query"

/-- what the items of a resource are addressed by -/
inductive IdentitySource where
  | primaryKey | unique | none
  deriving DecidableEq, Repr

def IdentitySource.name : IdentitySource → String
  | primaryKey => "primary_key"
  | unique => "unique"
  | none => "none"

/-- the kinds of relationships, as seen from the resource that has them -/
inductive BindingKind where
  | manyToOne | oneToMany | oneToOne | manyToMany
  deriving DecidableEq, Repr

def BindingKind.name : BindingKind → String
  | manyToOne => "many_to_one"
  | oneToMany => "one_to_many"
  | oneToOne => "one_to_one"
  | manyToMany => "many_to_many"

/-- what a foreign key in a field refers to -/
structure FieldReference where
  resource : String
  fields : List String
  deriving DecidableEq, Repr

/-- a field of a resource -/
structure Property where
  name : String
  column : String
  meaning : Meaning
  format : Option String := none
  sqlType : String
  nullable : Bool := true
  required : Bool := false
  readOnly : Bool := false
  default : Option String := none
  maxLength : Option Nat := none
  precision : Option Nat := none
  scale : Option Nat := none
  enum : List String := []
  isArray : Bool := false
  unique : Bool := false
  reference : Option FieldReference := none
  description : Option String := none
  deriving DecidableEq, Repr

/-- a parameter of a request -/
structure Parameter where
  name : String
  place : ParameterPlace
  meaning : Meaning
  format : Option String := none
  required : Bool := false
  default : Option Nat := none
  minimum : Option Nat := none
  maximum : Option Nat := none
  allowedValues : List String := []
  description : Option String := none
  deriving DecidableEq, Repr

/-- the ways to filter by a field -/
structure FieldFilter where
  field : String
  meaning : Meaning
  operators : List String
  deriving DecidableEq, Repr

/-- how a list of items is cut, sorted and filtered -/
structure ListParameters where
  limit : Parameter
  offset : Parameter
  sort : Parameter
  filters : List FieldFilter := []
  deriving DecidableEq, Repr

/-- the fields to sort by -/
def ListParameters.sortableFields (p : ListParameters) : List String :=
  p.sort.allowedValues.filter fun v => v.toList.head? != some '-'

/-- what a request may hold -/
structure RequestBody where
  fields : List String
  required : List String := []
  isPartial : Bool := false
  deriving DecidableEq, Repr

structure Operation where
  kind : OperationKind
  path : String
  pathParameters : List Parameter := []
  queryParameters : List Parameter := []
  requestBody : Option RequestBody := none
  deriving DecidableEq, Repr

/-- a relationship on a resource -/
structure Binding where
  name : String
  kind : BindingKind
  targetResource : String
  localFields : List String
  targetFields : List String
  mode : RelationshipMode
  /-- the junction table behind it -/
  via : Option String := none
  nullable : Bool := true
  deriving DecidableEq, Repr

structure Resource where
  name : String
  table : String
  schema : Option String := none
  path : String
  itemPath : Option String := none
  identity : List String := []
  identitySource : IdentitySource := .none
  properties : List Property := []
  operations : List Operation := []
  listParameters : ListParameters
  rules : List ValidationRule := []
  bindings : List Binding := []
  description : Option String := none
  deriving DecidableEq, Repr

/-- the whole interface -/
structure Description where
  dialect : Dialect
  naming : NamingStrategy := .passthrough
  mode : RelationshipMode := .reference
  resources : List Resource := []
  deriving DecidableEq, Repr

/-! ### Look-ups -/

namespace Resource

def operation? (r : Resource) (kind : String) : Option Operation :=
  r.operations.find? fun o => o.kind.name == kind

def property? (r : Resource) (name : String) : Option Property :=
  r.properties.find? fun p => p.name == name

def rulesFor (r : Resource) (field : String) : List ValidationRule :=
  r.rules.filter fun rule => rule.fields.contains field

def binding? (r : Resource) (name : String) : Option Binding :=
  r.bindings.find? fun b => b.name == name

def display (r : Resource) : String :=
  s!"<Resource {r.name} {r.path} ({r.operations.length} ops)>"

end Resource

namespace Description

/-- the last resource of a name -/
def resource? (d : Description) (name : String) : Option Resource :=
  d.resources.reverse.find? fun r => r.name == name

/-- the first resource of a table -/
def resourceForTable? (d : Description) (table : String) (schema : Option String) :
    Option Resource :=
  d.resources.find? fun r => r.table == table && (schema.isNone || r.schema == schema)

def display (d : Description) : String :=
  s!"<ApiDescriptor {d.dialect.name} ({d.resources.length} resources)>"

end Description

/-! ### Records -/

def optionValue {α : Type} (f : α → Value) : Option α → Value
  | some a => f a
  | none => .null

def FieldReference.toValue (r : FieldReference) : Value := .map [
  ("resource", .str r.resource), ("fields", .ofStrings r.fields)]

def Property.toValue (p : Property) : Value := .map [
  ("name", .str p.name), ("column", .str p.column), ("semantic", .str p.meaning.name),
  ("format", .ofString? p.format), ("sql_type", .str p.sqlType), ("nullable", .bool p.nullable),
  ("required", .bool p.required), ("read_only", .bool p.readOnly),
  ("default", .ofString? p.default), ("max_length", .ofNat? p.maxLength),
  ("precision", .ofNat? p.precision), ("scale", .ofNat? p.scale), ("enum", .ofStrings p.enum),
  ("is_array", .bool p.isArray), ("unique", .bool p.unique),
  ("reference", optionValue FieldReference.toValue p.reference),
  ("description", .ofString? p.description)]

def Parameter.toValue (p : Parameter) : Value := .map [
  ("name", .str p.name), ("location", .str p.place.name), ("semantic", .str p.meaning.name),
  ("format", .ofString? p.format), ("required", .bool p.required),
  ("default", .ofNat? p.default), ("minimum", .ofNat? p.minimum), ("maximum", .ofNat? p.maximum),
  ("allowed_values", .ofStrings p.allowedValues), ("description", .ofString? p.description)]

def FieldFilter.toValue (f : FieldFilter) : Value := .map [
  ("field", .str f.field), ("semantic", .str f.meaning.name),
  ("operators", .ofStrings f.operators)]

def ListParameters.toValue (p : ListParameters) : Value := .map [
  ("limit", p.limit.toValue), ("offset", p.offset.toValue), ("sort", p.sort.toValue),
  ("filters", .list (p.filters.map FieldFilter.toValue))]

def RequestBody.toValue (b : RequestBody) : Value := .map [
  ("fields", .ofStrings b.fields), ("required", .ofStrings b.required),
  ("partial", .bool b.isPartial)]

def Operation.toValue (o : Operation) : Value := .map [
  ("kind", .str o.kind.name), ("method", .str o.kind.method), ("path", .str o.path),
  ("path_parameters", .list (o.pathParameters.map Parameter.toValue)),
  ("query_parameters", .list (o.queryParameters.map Parameter.toValue)),
  ("request_body", optionValue RequestBody.toValue o.requestBody),
  ("success_status", .ofNat o.kind.successStatus)]

def Binding.toValue (b : Binding) : Value := .map [
  ("name", .str b.name), ("kind", .str b.kind.name), ("target_resource", .str b.targetResource),
  ("local_fields", .ofStrings b.localFields), ("target_fields", .ofStrings b.targetFields),
  ("mode", .str b.mode.name), ("via", .ofString? b.via), ("nullable", .bool b.nullable)]

def Resource.toValue (r : Resource) : Value := .map [
  ("name", .str r.name), ("table", .str r.table), ("schema_name", .ofString? r.schema),
  ("path", .str r.path), ("item_path", .ofString? r.itemPath),
  ("identity", .ofStrings r.identity), ("identity_source", .str r.identitySource.name),
  ("properties", .list (r.properties.map Property.toValue)),
  ("operations", .list (r.operations.map Operation.toValue)),
  ("list_parameters", r.listParameters.toValue),
  ("validation_rules", .list (r.rules.map ValidationRule.toValue)),
  ("relationships", .list (r.bindings.map Binding.toValue)),
  ("description", .ofString? r.description)]

def Description.toValue (d : Description) : Value := .map [
  ("dialect", .str d.dialect.name), ("naming_strategy", .str d.naming.name),
  ("relationship_mode", .str d.mode.name),
  ("resources", .list (d.resources.map Resource.toValue))]

end SchemaApi
