import SchemaApi.Token
/-!
Findings: what the stages report about their input, in the order they report it.
-/

namespace SchemaApi

inductive Severity where
  | error | warning | info
  deriving DecidableEq, Repr

namespace Severity

def all : List Severity := [error, warning, info]

def name : Severity → String
  | error => "error"
  | warning => "warning"
  | info => "info"

def ofName? (s : String) : Option Severity := all.find? (·.name == s)

end Severity

/-- the stages from the input to the description of the interface -/
inductive Stage where
  | input | lex | parse | model | inference
  deriving DecidableEq, Repr

namespace Stage

def all : List Stage := [input, lex, parse, model, inference]

def name : Stage → String
  | input => "input"
  | lex => "lex"
  | parse => "parse"
  | model => "model"
  | inference => "inference"

def ofName? (s : String) : Option Stage := all.find? (·.name == s)

end Stage

/-- something reported about the input -/
structure Finding where
  severity : Severity
  stage : Stage
  code : String
  message : String
  source : Option String := none
  line : Option Nat := none
  column : Option Nat := none
  deriving DecidableEq, Repr

namespace Finding

/-- a finding about a place in a source -/
def about (severity : Severity) (stage : Stage) (code message : String) (source : Option String)
    (position : Option Position) : Finding :=
  ⟨severity, stage, code, message, source, position.map (·.line), position.map (·.column)⟩

def isError (f : Finding) : Bool := f.severity == .error

def isWarning (f : Finding) : Bool := f.severity == .warning

/-- an error that keeps the model from being used -/
def isModelError (f : Finding) : Bool := f.isError && f.stage == .model

/-- the name of a source, as lines show it -/
def sourceLabel : Option String → String
  | none => "<input>"
  | some s => if s = "" then "<input>" else s

/-- source, line and column, as far as they are known -/
def location (f : Finding) : String :=
  match f.line, f.column with
  | none, _ => sourceLabel f.source
  | some line, none => s!"{sourceLabel f.source}:{line}"
  | some line, some column => s!"{sourceLabel f.source}:{line}:{column}"

/-- the finding on one line -/
def text (f : Finding) : String :=
  s!"{f.location}: {f.severity.name}[{f.code}]: {f.message}"

end Finding

/-- findings in the order they were made -/
abbrev Findings := List Finding

namespace Findings

def errors (fs : Findings) : Findings := fs.filter Finding.isError

def warnings (fs : Findings) : Findings := fs.filter Finding.isWarning

def modelErrors (fs : Findings) : Findings := fs.filter Finding.isModelError

def byStage (fs : Findings) (stage : Stage) : Findings := fs.filter fun f => f.stage == stage

def withCode (fs : Findings) (code : String) : Findings := fs.filter fun f => f.code == code

def hasErrors (fs : Findings) : Bool := fs.any Finding.isError

def hasWarnings (fs : Findings) : Bool := fs.any Finding.isWarning

/-- the stages that occur, in order of first occurrence, with their numbers of findings -/
def countsByStage (fs : Findings) : List (Stage × Nat) :=
  fs.foldl
    (fun counts f =>
      if counts.any (·.1 == f.stage) then
        counts.map fun (stage, n) => if stage == f.stage then (stage, n + 1) else (stage, n)
      else counts ++ [(f.stage, 1)])
    []

/-- how many errors, warnings and findings there are -/
def summary (fs : Findings) : String :=
  s!"Diagnostics: {(errors fs).length} error(s), {(warnings fs).length} warning(s), "
    ++ s!"{fs.length} total item(s)."

/-- the summary and one line per finding -/
def report (fs : Findings) (includeInfo : Bool) : String :=
  let shown := fs.filter fun f => includeInfo || f.severity != .info
  "\n".intercalate (summary fs :: shown.map fun f => "  " ++ f.text)

end Findings

end SchemaApi
