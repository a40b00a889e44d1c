import SchemaApi.Data.Value
import SchemaApi.Text.Quoted
/-!
Data as YAML text: maps and lists by indentation, texts between double quotes.
-/

namespace SchemaApi.Yaml

open Text

/-- a character that stands for itself between double quotes -/
def isVerbatim (c : Char) : Bool :=
  (' ' ≤ c && c ≤ '~') || (0xA0 ≤ c.toNat && c.toNat ≤ 0x2027)
    || (0x202A ≤ c.toNat && c.toNat ≤ 0xFEFE) || (0xFF00 ≤ c.toNat && c.toNat ≤ 0xFFFD)
    || 0x10000 ≤ c.toNat

/-- a character between double quotes -/
def escapeChar (c : Char) : List Char :=
  if c = '"' then ['\\', '"']
  else if c = '\\' then ['\\', '\\']
  else if c = '\n' then ['\\', 'n']
  else if c = '\r' then ['\\', 'r']
  else if c = '\t' then ['\\', 't']
  else if isVerbatim c then [c]
  else '\\' :: 'u' :: hexDigits 4 c.toNat

def escape (text : String) : String :=
  String.ofList ('"' :: text.toList.flatMap escapeChar ++ ['"'])

/-- a number with a fraction; it has a point even where it has an exponent part -/
def floatText : Binary64 → String
  | .infinite negative => if negative then "-.inf" else ".inf"
  | x =>
    let cs := (x.text .padded).toList
    if cs.contains '.' then String.ofList cs
    else
      let mantissa := cs.takeWhile (· ≠ 'e')
      String.ofList (mantissa ++ ['.', '0'] ++ cs.drop mantissa.length)

/-- a value that stands on one line -/
def inline? : Value → Option String
  | .null => some "null"
  | .bool b => some (if b then "true" else "false")
  | .int n => some (toString n)
  | .float x => some (floatText x)
  | .str s => some (escape s)
  | .list [] => some "[]"
  | .map [] => some "\x7b\x7d"
  | _ => none

/-- the indentation of a depth -/
def margin (depth : Nat) : String := String.ofList (List.replicate (2 * depth) ' ')

mutual

/-- the lines of a value at a depth -/
def lines (depth : Nat) : Value → List String
  | .list items => itemLines depth items
  | .map entries => entryLines depth entries
  | v => [margin depth ++ (inline? v).getD ""]

def itemLines (depth : Nat) : List Value → List String
  | [] => []
  | v :: rest =>
    (match inline? v with
      | some text => [margin depth ++ "- " ++ text]
      | none => (margin depth ++ "-") :: lines (depth + 1) v)
      ++ itemLines depth rest

def entryLines (depth : Nat) : List (String × Value) → List String
  | [] => []
  | (name, v) :: rest =>
    (match inline? v with
      | some text => [margin depth ++ escape name ++ ": " ++ text]
      | none => (margin depth ++ escape name ++ ":") :: lines (depth + 1) v)
      ++ entryLines depth rest

end

/-- a whole document -/
def render (v : Value) : String :=
  match inline? v with
  | some text => text ++ "\n"
  | none => String.join ((lines 0 v).map (· ++ "\n"))

end SchemaApi.Yaml
