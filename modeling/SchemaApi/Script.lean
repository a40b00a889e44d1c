import SchemaApi.Token.Phrase
import SchemaApi.Reading.Statement
/-!
Scripts: from a text to its statements.

The tokens of a script are cut into segments at separators. Each segment is read on its own, so a
malformed statement costs no statement of another segment. A script whose tokens break off at a
fault still has the complete segments before it read, and their findings are kept.
-/

namespace SchemaApi

open Text

/-- a semicolon, or the word GO at the start of a line where that ends a batch -/
def isSeparator (d : Dialect) (t : Token) : Bool :=
  t.isPunct ";" || (d == .mssql && t.spells "GO" && t.position.column == 1)

/-- The segments of a stream, without empty ones. The tokens of the current segment are nearest
first; a fault loses them. -/
def segmentsFrom (d : Dialect) : List Token → TokenStream → List (List Token)
  | [], .done => []
  | current, .done => [current.reverse]
  | _, .failed _ => []
  | current, .token t rest =>
    if isSeparator d t then
      if current.isEmpty then segmentsFrom d [] rest
      else current.reverse :: segmentsFrom d [] rest
    else segmentsFrom d (t :: current) rest

def segments (d : Dialect) (stream : TokenStream) : List (List Token) := segmentsFrom d [] stream

/-- the statements of the tokens left in a segment, and the findings -/
def readFrom (scope : Scope) (tokens : List Token) : List Statement × Findings :=
  if tokens.isEmpty then ([], [])
  else
    match Reading.statement scope { rest := tokens } with
    | .stop why notes => ([], notes ++ [why.finding scope.source])
    | .ok st next =>
      match next.rest with
      | [] => ([st], next.notes)
      | trailing :: _ =>
        if Reading.startsStatement trailing then
          let warning := Finding.about .warning .parse "MISSING_SEMICOLON"
            "Missing ';' between statements" scope.source (some trailing.position)
          if next.rest.length < tokens.length then
            let (sts, findings) := readFrom scope next.rest
            (st :: sts, next.notes ++ warning :: findings)
          else ([st], next.notes ++ [Stop.stalled.finding scope.source])
        else
          let why := Stop.trailing trailing.text trailing.position
          ([], next.notes ++ [why.finding scope.source])
termination_by tokens.length

/-- the statements of a segment, and the findings -/
def readSegment (d : Dialect) (source : Option String) (script : Option (List Char))
    (segment : List Token) : List Statement × Findings :=
  readFrom
    { dialect := d, source := source, script := script
      last := segment.getLast?.map (·.position) }
    segment

/-- what is said once about a dialect whose grammar is basic -/
def dialectNotes (d : Dialect) (source : Option String) : Findings :=
  if d.reserved then
    [Finding.about .info .parse "RESERVED_DIALECT"
      s!"Dialect '{d.name}' has basic grammar support only." source none]
  else []

/-- a parsed script -/
structure Parsed where
  statements : List Statement
  findings : Findings
  /-- the fault that the tokens broke off at; the statements do not count then -/
  error : Option LexError := none

/-- the statements of a stream of tokens -/
def parseTokens (d : Dialect) (source : Option String) (script : Option (List Char))
    (stream : TokenStream) : Parsed :=
  let parts := (segments d stream).map (readSegment d source script)
  { statements := parts.flatMap (·.1)
    findings := dialectNotes d source ++ parts.flatMap (·.2)
    error := stream.error? }

/-- the statements of a script -/
def parseScript (d : Dialect) (source : Option String) (script : String) : Parsed :=
  let text := script.toList
  parseTokens d source (some text) (tokenize d text)

namespace LexError

/-- what is said about a token that cannot be read -/
def message (e : LexError) : String :=
  match e.fault with
  | .unterminated what _ => what.describe
  | .noNumeral => ""

/-- a token that cannot be read, as a fault -/
def asFault (e : LexError) : Fault := .ofStage .lex "" e.message (some e.position) none

end LexError

end SchemaApi
