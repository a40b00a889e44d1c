import SchemaApi.Api.Binding
import SchemaApi.Check.Condition
/-!
From a model to the description of an interface.

Every table but the junction tables is a resource. Its items are addressed by the primary key, or by
the first unique set without nullable columns; a resource without such a set can only be listed and
added to.
-/

namespace SchemaApi.Api

/-! ## Fields -/

/-- a value has to be given -/
def isRequired (c : Column) : Bool := !c.nullable && c.default.isNone && !c.isGenerated

/-- what the items of a table are addressed by -/
def identity (t : Table) : List String × IdentitySource :=
  if !t.primaryColumns.isEmpty then (t.primaryColumns, .primaryKey)
  else
    let candidates :=
      t.uniqueConstraints ++ (t.indexes.filter (·.isFullUnique)).map (·.columns)
    let holdsValues (name : String) : Bool := ((t.column? name).map fun c => !c.nullable).getD false
    match candidates.find? (·.all holdsValues) with
    | some columns => (columns, .unique)
    | none => ([], .none)

/-- what the first foreign key with a column refers to from it -/
def fieldReference? (names : List (TableRef × String)) (t : Table) (column : String) :
    Option FieldReference :=
  t.foreignKeys.findSome? fun k =>
    match nameOf? names k.target with
    | none => none
    | some target => ((k.columns.zip k.targetColumns).lookup column).map fun c => ⟨target, [c]⟩

/-- the field of a column -/
def property (names : List (TableRef × String)) (t : Table) (c : Column) : Property :=
  { name := c.name
    column := c.name
    meaning := c.type.meaning
    format := c.type.format
    sqlType := c.type.declared
    nullable := c.nullable
    required := isRequired c
    readOnly := c.isGenerated
    default := c.default
    maxLength := if c.type.meaning == .text then c.type.length else none
    precision := c.type.precision
    scale := c.type.scale
    enum := c.type.enumValues
    isArray := c.type.isArray
    unique := t.uniqueSets.contains [c.name]
    reference := fieldReference? names t c.name
    description := c.comment }

/-! ## Lists -/

/-- how fields of a meaning are filtered -/
def filterOperators (m : Meaning) : List String :=
  if m.isNumeric || m.isTemporal then ["eq", "ne", "gt", "gte", "lt", "lte"]
  else if m == .text then ["eq", "ne", "like"]
  else if m == .enum then ["eq", "ne", "in"]
  else ["eq", "ne"]

/-- the columns of unique sets and of indexes on columns, each once -/
def sortableColumns (t : Table) : List String :=
  (t.uniqueSets.flatten
    ++ (t.indexes.filter fun i => !i.isExpression).flatMap (·.columns)).eraseDups

def limitParameter (s : Settings) : Parameter :=
  { name := "limit"
    place := .query
    meaning := .integer
    format := some "int32"
    default := some s.defaultLimit
    minimum := some 1
    maximum := some s.maxLimit
    description := some "Maximum number of items to return" }

def offsetParameter : Parameter :=
  { name := "offset"
    place := .query
    meaning := .integer
    format := some "int32"
    default := some 0
    minimum := some 0
    description := some "Number of items to skip" }

def sortParameter (t : Table) : Parameter :=
  { name := "sort"
    place := .query
    meaning := .text
    allowedValues := (sortableColumns t).flatMap fun c => [c, "-" ++ c]
    description := some "Sort field; prefix with '-' for descending order" }

def listParameters (s : Settings) (t : Table) (properties : List Property) : ListParameters :=
  { limit := limitParameter s
    offset := offsetParameter
    sort := sortParameter t
    filters := properties.map fun p => ⟨p.name, p.meaning, filterOperators p.meaning⟩ }

/-! ## Operations -/

/-- the parameter that a field of the identity is given by -/
def pathParameter (resource : String) (properties : List Property) (column : String) :
    Except Refusal Parameter :=
  match properties.find? fun p => p.name == column with
  | none => .error (.unknownField column)
  | some p =>
    .ok {
      name := column
      place := .path
      meaning := p.meaning
      format := p.format
      required := true
      description := some s!"{column} of the {resource} to address" }

/-- what can be done with the list of items -/
def collectionOperations (path : String) (properties : List Property) (lists : ListParameters) :
    List Operation :=
  let writable := (properties.filter fun p => !p.readOnly).map (·.name)
  let required := (properties.filter (·.required)).map (·.name)
  [{ kind := .list, path := path, queryParameters := [lists.limit, lists.offset, lists.sort] },
    { kind := .create, path := path, requestBody := some ⟨writable, required, false⟩ }]

/-- what can be done with one item -/
def itemOperations (path : String) (properties : List Property) (parameters : List Parameter) :
    List Operation :=
  let writable := (properties.filter fun p => !p.readOnly).map (·.name)
  let required := (properties.filter (·.required)).map (·.name)
  [{ kind := .read, path := path, pathParameters := parameters },
    { kind := .update, path := path, pathParameters := parameters,
      requestBody := some ⟨writable, required, false⟩ },
    { kind := .patch, path := path, pathParameters := parameters,
      requestBody := some ⟨writable, [], true⟩ },
    { kind := .delete, path := path, pathParameters := parameters }]

/-! ## Validation rules -/

/-- the rules of one column -/
def columnRules (c : Column) : List ValidationRule :=
  let presence : List ValidationRule :=
    if c.nullable then []
    else if isRequired c then
      [{ kind := .required, fields := [c.name], message := s!"{c.name} is required" }]
    else [{ kind := .notNull, fields := [c.name], message := s!"{c.name} must not be null" }]
  let length : List ValidationRule :=
    match c.type.meaning, c.type.length with
    | .text, some n =>
      [{ kind := .maxLength, fields := [c.name], value := .one (.int n),
         message := s!"{c.name} must be at most {n} characters" }]
    | _, _ => []
  let values : List ValidationRule :=
    if c.type.enumValues.isEmpty then []
    else
      [{ kind := .enum, fields := [c.name], value := .many (c.type.enumValues.map .text),
         message := s!"{c.name} must be one of " ++ ", ".intercalate c.type.enumValues }]
  presence ++ length ++ values

/-- the rule of columns that are unique together -/
def uniqueRule (columns : List String) : ValidationRule :=
  let names := ", ".intercalate columns
  { kind := .unique, fields := columns,
    message := s!"({names}) must be unique (enforced by the database)" }

/-- the column lists that rules say are unique -/
def publishedUniqueSets (t : Table) : List (List String) :=
  t.uniqueConstraints ++ (t.indexes.filter fun i => i.unique && !i.isExpression).map (·.columns)

/-- what is made of the conditions of a table -/
def checkRules (d : Dialect) (t : Table) : Except Refusal (List ConditionRules) :=
  (t.constraints.filterMap fun c =>
    match c with
    | .check _ expression column => some (expression, column)
    | _ => none).mapM fun (expression, column) =>
      conditionRules d t.columnNames expression column (some t.qualifiedName)

/-- the rules of a table, and warnings -/
def validationRules (d : Dialect) (t : Table) :
    Except Refusal (List ValidationRule × Findings) := do
  let checks ← checkRules d t
  return (t.columns.flatMap columnRules ++ (publishedUniqueSets t).map uniqueRule
      ++ checks.flatMap (·.rules),
    checks.filterMap (·.warning))

/-! ## Resources -/

/-- the warning about a resource whose items cannot be addressed -/
def identityFinding (name : String) (t : Table) : Finding :=
  Finding.about .warning .inference "NO_IDENTITY"
    (s!"Resource '{name}' (table '{t.qualifiedName}') has no primary key "
      ++ "or NOT NULL unique key; only list and create are exposed")
    none none

/-- the path of one item of a collection -/
def itemPath? (path : String) (columns : List String) : Option String :=
  if columns.isEmpty then none
  else some (path ++ String.join (columns.map fun c => "/\x7b" ++ c ++ "\x7d"))

/-- the resource of a table, and warnings -/
def resource (s : Settings) (d : Dialect) (names : List (TableRef × String))
    (bound : List (TableRef × Binding)) (t : Table) : Except Refusal (Resource × Findings) := do
  let name := (nameOf? names t.ref).getD ""
  let path := "/" ++ segment name
  let (columns, source) := identity t
  let properties := t.columns.map (property names t)
  let lists := listParameters s t properties
  let parameters ← columns.mapM (pathParameter name properties)
  let itemPath := itemPath? path columns
  let (rules, findings) ← validationRules d t
  if name = "" then throw (.emptyField "Resource" "name")
  let resource : Resource :=
    { name := name
      table := t.name
      schema := t.schema
      path := path
      itemPath := itemPath
      identity := columns
      identitySource := source
      properties := properties
      operations :=
        collectionOperations path properties lists
          ++ ((itemPath.map fun p => itemOperations p properties parameters).getD [])
      listParameters := lists
      rules := rules
      bindings := (bound.filter (·.1 == t.ref)).map (·.2)
      description := t.comment }
  return (resource, if columns.isEmpty then identityFinding name t :: findings else findings)

/-- why no interface is derived -/
inductive InferenceError where
  /-- the model has errors -/
  | invalidModel (errors : Nat)
  | refused (r : Refusal)
  deriving DecidableEq, Repr

/-- what is said about a model with errors -/
def invalidMessage (errors : Nat) : String :=
  s!"Cannot infer an API from an invalid domain model ({errors} model error(s))."

/-- the resources of a model, and warnings -/
def resources (s : Settings) (m : Model) : Except Refusal (List Resource × Findings) := do
  let tables := m.tables.filter fun t => !m.isJunction t
  let named := resourceNames s.naming tables
  let bound := bindings m s.mode named.names
  let built ← tables.mapM (resource s m.dialect named.names bound.bindings)
  return (built.map (·.1), named.findings ++ bound.findings ++ built.flatMap (·.2))

/-- the interface of a model without errors, and warnings -/
def infer (s : Settings) (m : Model) : Except InferenceError (Description × Findings) :=
  if m.isValid then
    match resources s m with
    | .ok (rs, findings) =>
      .ok ({ dialect := m.dialect, naming := s.naming, mode := s.mode, resources := rs }, findings)
    | .error r => .error (.refused r)
  else .error (.invalidModel m.errors.length)

end SchemaApi.Api
