import SchemaApi.Run
/-!
The summary of a run, for the terminal.
-/

namespace SchemaApi

namespace Summary

/-- a time in seconds, to three places -/
def seconds (milliseconds : Nat) : String :=
  let fraction := toString (milliseconds % 1000)
  s!"{milliseconds / 1000}." ++ String.ofList (List.replicate (3 - fraction.length) '0')
    ++ fraction ++ "s"

/-- a text with blanks behind it up to a width -/
def padEnd (width : Nat) (text : String) : String :=
  text ++ String.ofList (List.replicate (width - text.length) ' ')

/-- a text with blanks in front of it up to a width -/
def padStart (width : Nat) (text : String) : String :=
  String.ofList (List.replicate (width - text.length) ' ') ++ text

end Summary

open Summary

/-- one step on a line -/
def Step.line (s : Step) : String :=
  "    " ++ (if s.success then "✓" else "✗") ++ " " ++ padEnd 20 s.name ++ " "
    ++ padStart 8 (seconds s.milliseconds) ++ "  " ++ s.detail

namespace Run

/-- a rule across the page -/
def rule (c : Char) : String := String.ofList (List.replicate 60 c)

/-- a summary for the terminal -/
def summary (r : Run) : String :=
  let inputs := ", ".intercalate r.sources
  let resources := (r.description.map fun d => [s!"  Resources:   {d.resources.length}"]).getD []
  "\n".intercalate <|
    [rule '=', "  ddlapi — Pipeline Report", rule '=',
      "  Status:      " ++ (if r.success then "✅ SUCCESS" else "❌ FAILED"),
      "  Inputs:      " ++ (if inputs = "" then "-" else inputs),
      s!"  Statements:  {r.statementCount}",
      s!"  Tables:      {r.model.tables.length}",
      s!"  Relations:   {r.model.relationships.length}"]
    ++ resources
    ++ ["  " ++ Findings.summary r.findings, "  Total time:  " ++ seconds r.milliseconds, rule '─']
    ++ (if r.steps.isEmpty then [] else "  Pipeline Steps:" :: r.steps.map Step.line)
    ++ [rule '=']

end Run

end SchemaApi
