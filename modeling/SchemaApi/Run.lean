import SchemaApi.Api.Inference
import SchemaApi.Schema.Build
import SchemaApi.Script
/-!
A run: from named scripts to the description of an interface.

The scripts of a run make one schema. A script that cannot be split into tokens is left out; the
statements of the others make one model, and a model without errors makes a description.
`exitStatus` says by one number how a run ended, the stage nearest to the input first.
-/

namespace SchemaApi

/-- how one step of a run went -/
structure Step where
  name : String
  success : Bool
  detail : String
  milliseconds : Nat := 0
  deriving DecidableEq, Repr

structure Run where
  model : Model
  /-- missing exactly when the model has errors -/
  description : Option Description := none
  findings : Findings
  steps : List Step
  sources : List String
  statementCount : Nat
  /-- what went wrong, for the log -/
  log : List String
  milliseconds : Nat := 0

namespace Run

/-! ## Steps -/

/-- what is wrong with the scripts themselves -/
def isSyntaxError (f : Finding) : Bool := f.isError && (f.stage == .lex || f.stage == .parse)

def isInputError (f : Finding) : Bool := f.isError && f.stage == .input

/-- the statements of all scripts so far -/
structure Statements where
  statements : List Statement := []
  findings : Findings
  /-- the number of scripts that were left out -/
  aborted : Nat := 0
  log : List String := []

/-- adds the statements of one script -/
def readSource (d : Dialect) (state : Statements) (source : String × String) :
    Except Refusal Statements :=
  let (name, text) := source
  let parsed := parseScript d (some name) text
  match parsed.error with
  | none =>
    .ok { state with
      statements := state.statements ++ parsed.statements
      findings := state.findings ++ parsed.findings }
  | some ⟨.noNumeral, _⟩ => .error .noNumeral
  | some e =>
    .ok { state with
      findings := state.findings ++ parsed.findings ++ [e.asFault.finding (some name) .error]
      aborted := state.aborted + 1
      log := state.log ++ [s!"Lexical error in {name}: {e.asFault.text}"] }

/-- the statements of all scripts, in order -/
def readSources (d : Dialect) (findings : Findings) (sources : List (String × String)) :
    Except Refusal Statements :=
  sources.foldlM (readSource d) { findings := findings }

def parseStep (state : Statements) (sources : Nat) : Step :=
  { name := "Parse"
    success := !state.findings.any isSyntaxError
    detail := s!"{state.statements.length} statement(s) from {sources} input(s)"
      ++ (if state.aborted = 0 then "" else s!", {state.aborted} aborted") }

def buildStep (m : Model) : Step :=
  { name := "Build Model"
    success := m.isValid
    detail :=
      if m.isValid then
        s!"{m.tables.length} table(s), {m.relationships.length} relationship(s)"
      else s!"{m.errors.length} model error(s)" }

def inferStep : Option Description → Step
  | some d =>
    { name := "Infer API", success := true, detail := s!"{d.resources.length} resource(s)" }
  | none => { name := "Infer API", success := false, detail := "skipped (invalid model)" }

/-- the description of a model and the findings about it, if the model has no errors -/
def describe (s : Settings) (m : Model) : Except Refusal (Option Description × Findings) :=
  match Api.infer s m with
  | .ok (d, findings) => .ok (some d, findings)
  | .error (.refused r) => .error r
  | .error (.invalidModel _) => .ok (none, [])

end Run

/-- Runs named scripts. `findings` are those made before, when the scripts were fetched. -/
def runScripts (s : Settings) (findings : Findings) (sources : List (String × String)) :
    Except Refusal Run := do
  let state ← Run.readSources s.dialect findings sources
  let built ← buildModel s.dialect s.schemaFilter state.statements
  let m := built.model
  let (description, inferred) ← Run.describe s m
  return {
    model := m
    description := description
    findings := state.findings ++ built.findings ++ inferred
    steps := [Run.parseStep state sources.length, Run.buildStep m, Run.inferStep description]
    sources := sources.map (·.1)
    statementCount := state.statements.length
    log := state.log ++
      if m.isValid then [] else [s!"Model has {m.errors.length} error(s); inference skipped."] }

namespace Run

/-! ## Outcome -/

def success (r : Run) : Bool := !Findings.hasErrors r.findings && r.description.isSome

/-- the tables of a model without errors -/
def usableTables (r : Run) : List Table := if r.model.isValid then r.model.tables else []

/-- How a run ended: 4 if a script could not be fetched, 2 if one is malformed, 1 if the model has
errors, 3 if there are warnings and they count, and 0 otherwise. -/
def exitStatus (r : Run) (failOnWarnings : Bool) : Nat :=
  if r.findings.any isInputError then 4
  else if r.findings.any isSyntaxError then 2
  else if Findings.hasErrors r.findings || !r.model.isValid then 1
  else if failOnWarnings && Findings.hasWarnings r.findings then 3
  else 0

end Run

end SchemaApi
