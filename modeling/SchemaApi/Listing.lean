import SchemaApi.Schema.Basic
import SchemaApi.Text.Blank
import SchemaApi.Data.Value
/-!
Listings: a model as lines of text, and the entries of its tables read back.

A table is a header line, an indented comment line if it has a comment, and one indented line per
column, constraint and index. Line breaks and backslashes inside an entry are escaped, so an entry
never leaves its line.
-/

namespace SchemaApi.Listing

open Text

/-! ## Lines -/

/-- the escaped form of a character of an entry -/
def escapeChar (c : Char) : List Char :=
  if c = '\\' then ['\\', '\\']
  else if c = '\n' then ['\\', 'n']
  else if c = '\r' then ['\\', 'r']
  else [c]

/-- a text on one line -/
def escape (text : List Char) : List Char := text.flatMap escapeChar

/-- the text that a line stands for; an unknown escape stands for itself -/
def unescape : List Char → List Char
  | [] => []
  | '\\' :: 'n' :: rest => '\n' :: unescape rest
  | '\\' :: 'r' :: rest => '\r' :: unescape rest
  | '\\' :: '\\' :: rest => '\\' :: unescape rest
  | c :: rest => c :: unescape rest

/-- the lines of a text; only a line feed ends one -/
def splitLines : List Char → List (List Char)
  | [] => [[]]
  | c :: rest =>
    if c = '\n' then [] :: splitLines rest
    else
      match splitLines rest with
      | [] => [[c]]
      | line :: lines => (c :: line) :: lines

/-! ## Entries -/

/-- parts that are there, with blanks between them -/
def spaced (parts : List (Option String)) : String := " ".intercalate (parts.filterMap id)

/-- the text, unless it is empty -/
def filled : Option String → Option String
  | some s => if s = "" then none else some s
  | none => none

def columnEntry (c : Column) : String :=
  spaced [
    some "COLUMN", some c.name, some (if c.type.declared = "" then "-" else c.type.declared),
    some (if c.nullable then "NULL" else "NOT NULL"), c.default.map ("DEFAULT " ++ ·),
    if c.autoIncrement then some "AUTO_INCREMENT" else none,
    c.generated.map fun e => s!"GENERATED AS ({e})"]

/-- a constraint behind its name -/
def named (name : Option String) (body : String) : String :=
  spaced [(filled name).map ("CONSTRAINT " ++ ·), some body]

def columnsText (names : List String) : String := "(" ++ ", ".intercalate names ++ ")"

def constraintEntry : Constraint → String
  | .primaryKey name columns => named name ("PRIMARY KEY " ++ columnsText columns)
  | .unique name columns => named name ("UNIQUE " ++ columnsText columns)
  | .foreignKey k =>
    named k.name (spaced [
      some "FOREIGN KEY", some (columnsText k.columns), some "REFERENCES", some k.target.text,
      some (columnsText k.targetColumns), k.onDelete.map fun a => "ON DELETE " ++ a.name,
      k.onUpdate.map fun a => "ON UPDATE " ++ a.name])
  | .check name expression _ => named name s!"CHECK ({expression})"

def indexEntry (i : Index) : String :=
  spaced [
    some (if i.unique then "UNIQUE INDEX" else "INDEX"), filled i.name,
    some (columnsText i.columns), (filled i.method).map ("USING " ++ ·),
    (filled i.condition).map ("WHERE " ++ ·)]

/-- columns, constraints and, if wanted, indexes of a table -/
def entries (t : Table) (includeIndexes : Bool) : List String :=
  t.columns.map columnEntry ++ t.constraints.map constraintEntry
    ++ if includeIndexes then t.indexes.map indexEntry else []

/-! ## Rendering -/

def tableMark : String := "TABLE "

def junctionMark : String := " [junction]"

def indent : String := "  "

/-- an indented line -/
def entryLine (entry : String) : String := indent ++ String.ofList (escape entry.toList)

/-- the line above the entries of a table -/
def header (m : Model) (t : Table) : String :=
  tableMark ++ t.qualifiedName ++ if m.isJunction t then junctionMark else ""

/-- the lines of a table -/
def tableLines (m : Model) (t : Table) (includeIndexes : Bool) : List String :=
  header m t
    :: ((filled t.comment).map fun c => commentLine c).toList
    ++ (entries t includeIndexes).map entryLine
where
  /-- the line of a comment -/
  commentLine (comment : String) : String :=
    indent ++ "-- " ++ String.ofList (escape comment.toList)

def relationshipLine (r : Relationship) : String :=
  s!"RELATIONSHIP {r.name} {r.kind.name} {r.fromTable.text}" ++ columnsText r.fromColumns
    ++ s!" → {r.toTable.text}" ++ columnsText r.toColumns
    ++ ((r.junction.map fun j => s!" VIA {j.table.text}").getD "")

/-- the lines of all tables, with an empty line between two of them -/
def tableBlocks (m : Model) (includeIndexes : Bool) : List String :=
  [""].intercalate (m.tables.map fun t => tableLines m t includeIndexes)

/-- all lines of a model -/
def lines (m : Model) (includeIndexes : Bool) : List String :=
  tableBlocks m includeIndexes
    ++ if m.relationships.isEmpty then [] else "" :: m.relationships.map relationshipLine

/-- a model as text -/
def render (m : Model) (includeIndexes : Bool) : String :=
  String.join ((lines m includeIndexes).map (· ++ "\n"))

/-! ## Reading back -/

/-- the text behind a beginning -/
def afterMark? (mark line : List Char) : Option (List Char) :=
  if mark.isPrefixOf line then some (line.drop mark.length) else none

/-- the name in a header line -/
def headerName (line : List Char) : String :=
  let mark := junctionMark.toList
  String.ofList (if mark.isSuffixOf line then line.take (line.length - mark.length) else line)

/-- the tables read so far, and the name of the one that entries belong to -/
structure ReadState where
  tables : List (String × List String) := []
  current : Option String := none

/-- adds an entry to the table of a name -/
def addEntry (tables : List (String × List String)) (name entry : String) :
    List (String × List String) :=
  tables.map fun (n, es) => if n == name then (n, es ++ [entry]) else (n, es)

/-- reads one line -/
def readLine (state : ReadState) (line : List Char) : ReadState :=
  match afterMark? tableMark.toList line with
  | some name =>
    let name := headerName name
    if state.tables.any (·.1 == name) then { state with current := some name }
    else { tables := state.tables ++ [(name, [])], current := some name }
  | none =>
    if line.all isBlank || !indent.toList.isPrefixOf line then { state with current := none }
    else
      match state.current with
      | none => state
      | some name =>
        if "--".toList.isPrefixOf (stripChars line) then state
        else
          let entry := String.ofList (unescape (line.drop indent.length))
          { state with tables := addEntry state.tables name entry }

/-- the entries per table of a listing -/
def parse (text : String) : List (String × List String) :=
  ((splitLines text.toList).foldl readLine {}).tables

end SchemaApi.Listing
