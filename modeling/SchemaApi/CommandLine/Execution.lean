import SchemaApi.CommandLine.Files
import SchemaApi.CommandLine.Options
import SchemaApi.Data.Json.Printer
import SchemaApi.Data.Yaml.Printer
import SchemaApi.Listing
import SchemaApi.Run.Summary
import SchemaApi.Schema.Record
import SchemaApi.Settings.File
/-!
What a command line does: it reads settings and scripts, runs them, and shows or writes the result.

Everything here is a function of what stands at the paths. Only whether a file can be written is
left open: a `Plan` says how the command ends in either case.
-/

namespace SchemaApi.CommandLine

/-- what is shown or written -/
inductive Artifact where
  | text (s : String)
  | json (v : Value)
  | yaml (v : Value)
  deriving Repr

namespace Artifact

def render : Artifact → String
  | text s => s
  | json v => Json.pretty v ++ "\n"
  | yaml v => Yaml.render v

def none : Artifact := .text ""

end Artifact

/-- how a command ends -/
structure Outcome where
  exit : Nat
  /-- what is shown on standard output -/
  shown : Artifact := Artifact.none
  /-- the findings that are shown, one per line -/
  lines : List String := []
  /-- what went wrong -/
  log : List String := []

/-- how a command goes on after its run -/
inductive Plan where
  | finish (outcome : Outcome)
  /-- a file is written first; the second outcome is for when it cannot be -/
  | write (path : String) (artifact : Artifact) (written refused : Outcome)

/-- the status of a command that could not read its words, its settings or its scripts -/
def inputStatus : Nat := 4

def versionText : String := "ddlapi v1.0.0\n"

/-- how the command is called -/
def usageText : String := "usage: ddlapi [options] INPUT [INPUT ...]\n"

def helpText : String :=
  usageText ++ "\noptions:\n"
    ++ String.join ((Switch.names.map (·.1)).map fun name => "  " ++ name ++ "\n")

/-! ## Settings -/

/-- the options that replace settings -/
def Options.overrides (o : Options) : List (String × Value) :=
  [("dialect", .ofString? o.dialect), ("schema_filter", .ofString? o.schemaFilter),
    ("naming_strategy", .ofString? (o.naming.map (·.name))),
    ("relationship_mode", .ofString? (o.mode.map (·.name))),
    ("max_workers", (o.workers.map Value.int).getD .null),
    ("fail_on_warnings", if o.failOnWarnings then .bool true else .null)]

/-- settings from what stands at a path -/
def settingsAt (path : Path) : Reading → Except SettingsFileError Settings
  | .missing => .error .missing
  | .directory => .error .notFile
  | .file bytes =>
    match (Reading.file bytes).text? with
    | some text => Settings.ofText path.name text
    | none => .error .notText

/-- the settings of a command, none if they are in disorder -/
def Options.settings? (o : Options) (read : Path → Reading) : Option Settings :=
  let base : Option Settings :=
    match o.config with
    | none => some Settings.defaults
    | some name =>
      if name = "" then some Settings.defaults
      else (settingsAt (.ofText name) (read (.ofText name))).toOption
  base.bind fun s => (s.override o.overrides).toOption

/-! ## Scripts -/

/-- the name that stands for standard input -/
def stdinName : String := "-"

/-- the scripts that were read, and findings about the others -/
structure Fetched where
  sources : List (String × String) := []
  findings : Findings := []
  log : List String := []

/-- the finding about a script that cannot be read -/
def unreadable (source : String) : Finding :=
  Finding.about .error .input "INPUT_ERROR" "Cannot read input" (some source) none

/-- reads one file -/
def fetchFile (read : Path → Reading) (state : Fetched) (name : String) : Fetched :=
  let path := Path.ofText name
  match (read path).script? with
  | some text => { state with sources := state.sources ++ [(path.text, text)] }
  | none =>
    { state with
      findings := state.findings ++ [unreadable path.text]
      log := state.log ++ [s!"Cannot read {path.text}"] }

/-- reads one file, or standard input, which can be read once; sources keep the names given -/
def fetchInput (read : Path → Reading) (state : Fetched × String) (name : String) :
    Fetched × String :=
  let (fetched, stdin) := state
  if name = stdinName then
    ({ fetched with sources := fetched.sources ++ [("<stdin>", stdin)] }, "")
  else
    match (read (.ofText name)).script? with
    | some text => ({ fetched with sources := fetched.sources ++ [(name, text)] }, stdin)
    | none => ({ fetched with findings := fetched.findings ++ [unreadable name] }, stdin)

/-- reads all scripts of a command -/
def fetch (read : Path → Reading) (stdin : String) (inputs : List String) : Fetched :=
  if inputs.contains stdinName then
    (inputs.foldl (fetchInput read)
      ({}, String.ofList (unifyLineBreaks stdin.toList))).1
  else inputs.foldl (fetchFile read) {}

/-! ## Result -/

/-- a finding is shown: errors always, warnings unless quiet, the rest only when asked for -/
def Options.shows (o : Options) (f : Finding) : Bool :=
  match f.severity with
  | .error => true
  | .warning => !o.quiet
  | .info => !o.quiet && 0 < o.verbose

/-- what the command is to emit, if there is anything -/
def Options.artifact? (o : Options) (r : Run) : Option Artifact :=
  let laidOut (v : Value) : Artifact := if o.yaml then .yaml v else .json v
  let description := r.description.map Description.toValue
  if o.listing then some (.text (Listing.render r.model true))
  else
    match o.emission with
    | .description => description.map laidOut
    | .model => some (laidOut r.model.toValue)
    | .both =>
      some (laidOut (.map [("model", r.model.toValue), ("descriptor", description.getD .null)]))

/-- the end of a command after its run -/
def conclude (o : Options) (exit : Nat) (lines log : List String) (r : Run) : Plan :=
  let closing := if exit = 0 then [] else [s!"Finished with exit code {exit}."]
  let outcome (shown : Artifact) (log : List String) : Outcome := ⟨exit, shown, lines, log⟩
  if o.validateOnly then
    .finish (outcome (.text (if o.quiet then "" else r.summary ++ "\n")) log)
  else
    match o.artifact? r with
    | none =>
      .finish (outcome .none (log ++ "Nothing to emit: the domain model has errors." :: closing))
    | some artifact =>
      match o.output with
      | none => .finish (outcome artifact (log ++ closing))
      | some path =>
        .write path artifact (outcome .none (log ++ closing))
          ⟨inputStatus, .none, lines, log ++ [s!"Cannot write {path}"]⟩

/-- a command with its options -/
def plan (o : Options) (read : Path → Reading) (stdin : String) : Except Refusal Plan :=
  match o.settings? read with
  | none => .ok (.finish { exit := inputStatus, log := ["Invalid configuration"] })
  | some s => do
    let fetched := fetch read stdin o.inputs
    let r ← runScripts s fetched.findings fetched.sources
    let lines := (r.findings.filter o.shows).map Finding.text
    return conclude o (r.exitStatus s.failOnWarnings) lines (fetched.log ++ r.log) r

/-- what a command line does -/
def planOf (args : List String) (read : Path → Reading) (stdin : String) : Except Refusal Plan :=
  match request args with
  | .help => .ok (.finish { exit := 0, shown := .text helpText })
  | .version => .ok (.finish { exit := 0, shown := .text versionText })
  | .misuse => .ok (.finish { exit := inputStatus })
  | .run o => plan o read stdin

/-- Runs a command line over files: how it ends, and what it writes where. -/
def execute (args : List String) (files : Files) (stdin : String) :
    Except Refusal (Outcome × Option (Path × Artifact)) := do
  match ← planOf args files.read stdin with
  | .finish outcome => return (outcome, none)
  | .write name artifact written refused =>
    let path := Path.ofText name
    match files.write? path artifact.render.toUTF8 with
    | some _ => return (written, some (path, artifact))
    | none => return (refused, none)

end SchemaApi.CommandLine
