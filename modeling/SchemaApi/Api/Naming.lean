import SchemaApi.Naming
import SchemaApi.Settings
import SchemaApi.Finding
import SchemaApi.Schema.Basic
/-!
Names of resources.

Names are told apart by their path segments. Tables whose names come to the same segment get their
schema in front, and a number behind as long as the segment is taken.
-/

namespace SchemaApi

/-- the name of a table by a naming strategy -/
def NamingStrategy.apply : NamingStrategy → String → String
  | .singular, name => Naming.singular name
  | .plural, name => Naming.plural name
  | .passthrough, name => name

namespace Api

/-- the path segment of a name: its kebab form, or the name itself if that is empty -/
def segment (name : String) : String :=
  let kebab := Naming.kebab name
  if kebab = "" then name else kebab

/-- The first of `name`, `name_2`, `name_3`, … that is not taken. The fuel bounds the number of
tries. -/
def firstFree (taken : String → Bool) (name : String) : Nat → Nat → String → String
  | 0, _, candidate => candidate
  | fuel + 1, suffix, candidate =>
    if taken candidate then firstFree taken name fuel (suffix + 1) s!"{name}_{suffix}"
    else candidate

/-- a name that is not taken, with a number behind if it has to be; one more try than there are
taken ones is enough -/
def freeName (taken : String → Bool) (count : Nat) (name : String) : String :=
  firstFree taken name (count + 1) 2 name

/-- names given so far, and findings -/
structure NamesSoFar where
  names : List (TableRef × String) := []
  used : List String := []
  findings : Findings := []

/-- the finding about a name that had to be changed -/
def collisionFinding (base chosen : String) (t : Table) : Finding :=
  Finding.about .warning .inference "RESOURCE_NAME_COLLISION"
    (s!"Resource name '{base}' of table '{t.qualifiedName}' collides "
      ++ s!"with another resource; using '{chosen}'")
    none none

/-- the name to try first: with the schema in front if other tables have the same segment -/
def wantedName (bases : List String) (t : Table) (base : String) : String :=
  if 1 < (bases.filter fun b => segment b == segment base).length then
    match t.schema with
    | none => base
    | some s => if s = "" then base else s ++ "_" ++ base
  else base

/-- names one more table -/
def nameTable (bases : List String) (state : NamesSoFar) (item : Table × String) : NamesSoFar :=
  let (t, base) := item
  let chosen := freeName (fun n => state.used.contains (segment n)) state.used.length
    (wantedName bases t base)
  { names := state.names ++ [(t.ref, chosen)]
    used := state.used ++ [segment chosen]
    findings :=
      if chosen = base then state.findings
      else state.findings ++ [collisionFinding base chosen t] }

/-- the names of the resources of tables -/
def resourceNames (strategy : NamingStrategy) (tables : List Table) : NamesSoFar :=
  let bases := tables.map fun t => strategy.apply t.name
  (tables.zip bases).foldl (nameTable bases) {}

/-- the name of the resource of a table, if it has one; of several, the last -/
def nameOf? (names : List (TableRef × String)) (ref : TableRef) : Option String :=
  names.reverse.lookup ref

end Api

end SchemaApi
