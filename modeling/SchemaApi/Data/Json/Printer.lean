import SchemaApi.Data.Value
import SchemaApi.Text.Quoted
/-!
Data as JSON text: entries in their order, characters outside ASCII as they are.
-/

namespace SchemaApi.Json

open Text

/-- a character inside a JSON text -/
def escapeChar (c : Char) : List Char :=
  if c = '"' then ['\\', '"']
  else if c = '\\' then ['\\', '\\']
  else if c = '\n' then ['\\', 'n']
  else if c = '\r' then ['\\', 'r']
  else if c = '\t' then ['\\', 't']
  else if c.toNat = 8 then ['\\', 'b']
  else if c.toNat = 12 then ['\\', 'f']
  else if c.toNat < 32 then '\\' :: 'u' :: hexDigits 4 c.toNat
  else [c]

/-- a text between double quotes -/
def escape (text : String) : String :=
  String.ofList ('"' :: text.toList.flatMap escapeChar ++ ['"'])

/-- how a document is laid out -/
structure Style where
  /-- blanks per level; none means everything on one line -/
  indent : Option Nat := none
  /-- what stands between two items on one line -/
  comma : String := ","
  /-- what stands between a name and its value -/
  colon : String := ":"
  numbers : Binary64.Layout := .padded
  /-- the text of positive infinity; the negative one has a sign in front -/
  infinity : Option String := none

/-- line break and indentation in front of an item at a depth -/
def Style.break (style : Style) (depth : Nat) : String :=
  match style.indent with
  | some width => "\n" ++ String.ofList (List.replicate (width * depth) ' ')
  | none => ""

/-- what stands between two items at a depth -/
def Style.between (style : Style) (depth : Nat) : String :=
  match style.indent with
  | some _ => "," ++ style.break depth
  | none => style.comma

/-- a number with a fraction -/
def floatText (style : Style) (x : Binary64) : String :=
  match x with
  | .finite .. => x.text style.numbers
  | .infinite negative =>
    match style.infinity with
    | some name => if negative then "-" ++ name else name
    | none => "null"

/-- items between brackets -/
def bracketed (style : Style) (depth : Nat) (opening closing : String) (items : List String) :
    String :=
  if items.isEmpty then opening ++ closing
  else
    opening ++ style.break (depth + 1) ++ (style.between (depth + 1)).intercalate items
      ++ style.break depth ++ closing

mutual

/-- a value at a depth of nesting -/
def render (style : Style) (depth : Nat) : Value → String
  | .null => "null"
  | .bool b => if b then "true" else "false"
  | .int n => toString n
  | .float x => floatText style x
  | .str s => escape s
  | .list items => bracketed style depth "[" "]" (renderItems style (depth + 1) items)
  | .map entries => bracketed style depth "\x7b" "\x7d" (renderEntries style (depth + 1) entries)

def renderItems (style : Style) (depth : Nat) : List Value → List String
  | [] => []
  | v :: rest => render style depth v :: renderItems style depth rest

def renderEntries (style : Style) (depth : Nat) : List (String × Value) → List String
  | [] => []
  | (name, v) :: rest =>
    (escape name ++ style.colon ++ render style depth v) :: renderEntries style depth rest

end

/-- a document with the given indentation, or without any blanks -/
def document (indent : Option Nat) (v : Value) : String :=
  render
    { indent := indent, colon := if indent.isSome then ": " else ":", numbers := .unpadded } 0 v

/-- a document with two blanks per level, for the terminal and for files -/
def pretty (v : Value) : String :=
  render { indent := some 2, colon := ": ", infinity := some "Infinity" } 0 v

end SchemaApi.Json
