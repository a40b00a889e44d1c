import SchemaApi.Data.Shape
import SchemaApi.Schema.Shape
/-!
Settings of a run: how scripts are read and how the interface is derived from the model.
-/

namespace SchemaApi

open Text

/-- how resources are named after tables -/
inductive NamingStrategy where
  | singular | plural | passthrough
  deriving DecidableEq, Repr

namespace NamingStrategy

def all : List NamingStrategy := [singular, plural, passthrough]

def name : NamingStrategy → String
  | singular => "singular"
  | plural => "plural"
  | passthrough => "passthrough"

def ofName? (s : String) : Option NamingStrategy := all.find? (·.name == s)

end NamingStrategy

/-- how related resources appear on a resource -/
inductive RelationshipMode where
  | embed | reference
  deriving DecidableEq, Repr

namespace RelationshipMode

def all : List RelationshipMode := [embed, reference]

def name : RelationshipMode → String
  | embed => "embed"
  | reference => "reference"

def ofName? (s : String) : Option RelationshipMode := all.find? (·.name == s)

end RelationshipMode

structure Settings where
  dialect : Dialect := .postgresql
  /-- the schema that the model is restricted to -/
  schemaFilter : Option String := none
  naming : NamingStrategy := .passthrough
  mode : RelationshipMode := .reference
  /-- the size of a page when none is asked for -/
  defaultLimit : Nat := 100
  /-- the greatest size of a page -/
  maxLimit : Nat := 1000
  /-- how many sources may be parsed at a time -/
  maxWorkers : Nat := 1
  /-- warnings make a run fail -/
  failOnWarnings : Bool := false
  default_le_max : defaultLimit ≤ maxLimit := by decide
  deriving Repr

namespace Settings

def defaults : Settings := {}

def toValue (s : Settings) : Value := .map [
  ("dialect", .str s.dialect.name), ("schema_filter", .ofString? s.schemaFilter),
  ("naming_strategy", .str s.naming.name), ("relationship_mode", .str s.mode.name),
  ("default_limit", .ofNat s.defaultLimit), ("max_limit", .ofNat s.maxLimit),
  ("max_workers", .ofNat s.maxWorkers), ("fail_on_warnings", .bool s.failOnWarnings)]

/-- the proper name of a dialect -/
def readDialect (text : String) : Except String String :=
  match Dialect.ofName? text with
  | some d => .ok d.name
  | none => .error (Dialect.unknownMessage text)

/-- the title of the settings as a record -/
def title : String := "PipelineConfig"

def shape : Shape := .record [
  .mk "dialect" (some (.str Dialect.postgresql.name)) (.named readDialect),
  .nullable "schema_filter" (.text 0),
  .mk "naming_strategy" (some (.str NamingStrategy.passthrough.name))
    (.choice (NamingStrategy.all.map NamingStrategy.name)),
  .mk "relationship_mode" (some (.str RelationshipMode.reference.name))
    (.choice (RelationshipMode.all.map RelationshipMode.name)),
  .mk "default_limit" (some (.int 100)) (.int (some 1) none),
  .mk "max_limit" (some (.int 1000)) (.int (some 1) none),
  .mk "max_workers" (some (.int 1)) (.int (some 1) (some 64)),
  .mk "fail_on_warnings" (some (.bool false)) .bool]

/-- a filter of blanks alone is none -/
def filterOf (filter : Option String) : Option String :=
  filter.filter fun s => !(strip s).isEmpty

/-- settings from data of the right shape; the default limit must not exceed the maximum -/
def ofChecked (v : Value) : Except (List FieldFault) Settings :=
  let low := ((v.get "default_limit").nat?).getD 0
  let high := ((v.get "max_limit").nat?).getD 0
  if h : low ≤ high then
    .ok {
      dialect := (Dialect.ofName? (v.get "dialect").text).getD .postgresql
      schemaFilter := filterOf (v.get "schema_filter").text?
      naming := (NamingStrategy.ofName? (v.get "naming_strategy").text).getD .passthrough
      mode := (RelationshipMode.ofName? (v.get "relationship_mode").text).getD .reference
      defaultLimit := low
      maxLimit := high
      maxWorkers := ((v.get "max_workers").nat?).getD 1
      failOnWarnings := (v.get "fail_on_warnings").truth
      default_le_max := h }
  else
    Shape.complaint s!"default_limit ({low}) must not exceed max_limit ({high})."

/-- settings from a map -/
def ofMap (v : Value) : Except (List FieldFault) Settings := (shape.check v).bind ofChecked

/-- settings with some entries replaced; null entries replace nothing -/
def override (s : Settings) (entries : List (String × Value)) :
    Except (List FieldFault) Settings :=
  let given := entries.filter fun e => match e.2 with
    | .null => false
    | _ => true
  match given, s.toValue with
  | [], _ => .ok s
  | given, .map known => ofMap (.map (given.foldl (fun es e => setEntry es e.1 e.2) known))
  | _, _ => .ok s

end Settings

/-- why settings cannot be read from data -/
inductive SettingsError where
  /-- the data is not a map but of this kind -/
  | notMap (kind : String)
  /-- the entry that the settings stand under is not a map -/
  | sectionNotMap
  | invalid (faults : List FieldFault)
  deriving DecidableEq, Repr

/-- the entry that settings may stand under -/
def settingsSection : String := "ddlapi"

namespace SettingsError

def message : SettingsError → String
  | notMap kind => s!"Expected a mapping at top level, got {kind}."
  | sectionNotMap => s!"The '{settingsSection}' key must hold a mapping."
  | invalid _ => "Config validation failed"

end SettingsError

namespace Settings

/-- the kind of a value, as messages name it -/
def kindOf : Value → String
  | .null => "NoneType"
  | .bool _ => "bool"
  | .int _ => "int"
  | .float _ => "float"
  | .str _ => "str"
  | .list _ => "list"
  | .map _ => "dict"

/-- a value that stands for nothing -/
def isVoid : Value → Bool
  | .null => true
  | .bool b => !b
  | .int n => n == 0
  | .float (.finite _ m _) => m == 0
  | .float _ => false
  | .str s => s == ""
  | .list vs => vs.isEmpty
  | .map es => es.isEmpty

/-- the map of settings in a document, which may stand under an entry of its own -/
def section? (v : Value) : Except SettingsError Value :=
  match v with
  | .map entries =>
    match entries.lookup settingsSection with
    | none => .ok v
    | some inner =>
      if isVoid inner then .ok (.map [])
      else
        match inner with
        | .map es => .ok (.map es)
        | _ => .error .sectionNotMap
  | .null => .ok (.map [])
  | other => .error (.notMap (kindOf other))

/-- settings from a document -/
def ofValue (v : Value) : Except SettingsError Settings := do
  (ofMap (← section? v)).mapError .invalid

end Settings

end SchemaApi
