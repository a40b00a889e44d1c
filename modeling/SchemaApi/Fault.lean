import SchemaApi.Finding
/-!
Faults: what a stage gives up on. A fault is shown with its position, and is reported as a finding.
-/

namespace SchemaApi

structure Fault where
  stage : Stage
  code : String
  message : String
  position : Option Position := none
  source : Option String := none
  deriving DecidableEq, Repr

namespace Fault

/-- the code of the faults of a stage that have no other -/
def defaultCode : Stage → String
  | .lex => "LEX_ERROR"
  | .parse => "PARSE_ERROR"
  | .model => "MODEL_ERROR"
  | .input => "ERROR"
  | .inference => "ERROR"

/-- a fault of a stage; an empty code stands for the usual one -/
def ofStage (stage : Stage) (code message : String) (position : Option Position)
    (source : Option String) : Fault :=
  { stage := stage
    code := if code = "" then defaultCode stage else code
    message := message
    position := position
    source := source }

/-- message and position -/
def text (f : Fault) : String :=
  match f.position with
  | some p => s!"{f.message} (at {p.text})"
  | none => f.message

/-- the finding that a fault is reported as; a given source goes before the fault's own -/
def finding (f : Fault) (source : Option String) (severity : Severity) : Finding :=
  Finding.about severity f.stage f.code f.message (source.or f.source) f.position

end Fault

end SchemaApi
