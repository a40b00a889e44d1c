import SchemaApi.Api.Naming
import SchemaApi.Api.Description
/-!
Relationships on resources. Each relationship between two resources is seen from both of them.
-/

namespace SchemaApi.Api

/-- bindings by the table whose resource has them, and findings -/
structure BindingsSoFar where
  bindings : List (TableRef × Binding) := []
  findings : Findings := []

namespace BindingsSoFar

/-- the names of the bindings of a table -/
def namesOf (state : BindingsSoFar) (owner : TableRef) : List String :=
  (state.bindings.filter (·.1 == owner)).map (·.2.name)

/-- adds a binding, with a number behind its name if that is taken -/
def add (state : BindingsSoFar) (owner : TableRef) (b : Binding) : BindingsSoFar :=
  let taken := state.namesOf owner
  let name := freeName taken.contains taken.length b.name
  { state with bindings := state.bindings ++ [(owner, { b with name := name })] }

end BindingsSoFar

/-- cuts an ending off a longer name -/
def cutEnding? (name ending : String) : Option String :=
  if ending.toList.isSuffixOf name.toList ∧ ending.length < name.length then
    some (String.ofList (name.toList.take (name.length - ending.length)))
  else none

/-- the name of a reference: its only column without the ending of an id, or the other resource -/
def outgoingName (r : Relationship) (target : String) : String :=
  match r.fromColumns with
  | [column] => (["_id", "_ID", "Id"].findSome? (cutEnding? column)).getD target
  | _ => target

/-- some column of the referring side may be null -/
def mayBeNull (m : Model) (r : Relationship) : Bool :=
  match m.tableFor r.fromTable with
  | none => true
  | some t => r.fromColumns.any fun name => ((t.column? name).map (·.nullable)).getD true

/-- the warning about a relationship one side of which is no resource -/
def unexposedFinding (r : Relationship) (missing : TableRef) : Finding :=
  Finding.about .warning .inference "RELATIONSHIP_NOT_EXPOSED"
    (s!"Relationship '{r.name}' ({r.fromTable.text} -> {r.toTable.text}) has no binding: "
      ++ s!"junction table '{missing.text}' is not a resource")
    none none

/-- the two sides of a relationship between the resources `source` and `target` -/
def sides (m : Model) (mode : RelationshipMode) (r : Relationship) (source target : String) :
    Binding × Binding :=
  let outgoing : Binding :=
    { name := outgoingName r target
      kind := .manyToOne
      targetResource := target
      localFields := r.fromColumns
      targetFields := r.toColumns
      mode := mode
      nullable := mayBeNull m r }
  let incoming : Binding :=
    { name := source
      kind := .oneToMany
      targetResource := source
      localFields := r.toColumns
      targetFields := r.fromColumns
      mode := mode }
  match r.kind with
  | .oneToMany => (outgoing, incoming)
  | .oneToOne => ({ outgoing with kind := .oneToOne }, { incoming with kind := .oneToOne })
  | .manyToMany =>
    let via := ((r.junction.map (·.table.name)).getD r.name)
    ({ outgoing with name := target, kind := .manyToMany, via := some via, nullable := true },
      { incoming with kind := .manyToMany, via := some via })

/-- adds the bindings of one relationship -/
def bindRelationship (m : Model) (mode : RelationshipMode) (names : List (TableRef × String))
    (state : BindingsSoFar) (r : Relationship) : BindingsSoFar :=
  match nameOf? names r.fromTable, nameOf? names r.toTable with
  | some source, some target =>
    let (outgoing, incoming) := sides m mode r source target
    (state.add r.fromTable outgoing).add r.toTable incoming
  | none, _ => { state with findings := state.findings ++ [unexposedFinding r r.fromTable] }
  | some _, none => { state with findings := state.findings ++ [unexposedFinding r r.toTable] }

/-- the bindings of all relationships of a model -/
def bindings (m : Model) (mode : RelationshipMode) (names : List (TableRef × String)) :
    BindingsSoFar :=
  m.relationships.foldl (bindRelationship m mode names) {}

end SchemaApi.Api
