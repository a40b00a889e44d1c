import SchemaApi.Data.Value
import SchemaApi.Text.Digit
/-!
Plain scalars: what a word without quotes stands for. Numbers may have single or repeated
underscores between their digits, may be written in base 2, 8, 10, 16 or 60, and a number with a
fraction has a point.
-/

namespace SchemaApi.Yaml

open Text

def nullWords : List String := ["", "~", "null", "Null", "NULL"]

def trueWords : List String :=
  ["yes", "Yes", "YES", "true", "True", "TRUE", "on", "On", "ON"]

def falseWords : List String :=
  ["no", "No", "NO", "false", "False", "FALSE", "off", "Off", "OFF"]

/-- splits a sign off; true for a minus -/
def splitSign : List Char → Bool × List Char
  | '-' :: rest => (true, rest)
  | '+' :: rest => (false, rest)
  | cs => (false, cs)

/-- the value of a digit in a base of at most 16 -/
def digitIn? (base : Nat) (c : Char) : Option Nat :=
  let value : Option Nat :=
    if c.isDigit then some (c.toNat - 48)
    else if 'a' ≤ c ∧ c ≤ 'f' then some (c.toNat - 87)
    else if 'A' ≤ c ∧ c ≤ 'F' then some (c.toNat - 55)
    else none
  value.filter (· < base)

/-- the number that digits and underscores spell in a base -/
def basedNumber? (base : Nat) (cs : List Char) : Option Nat :=
  if (cs.filter (· ≠ '_')).isEmpty then none
  else
    (cs.filter (· ≠ '_')).foldl
      (fun n c => n.bind fun n => (digitIn? base c).map fun d => base * n + d) (some 0)

/-- the parts of a text between colons -/
def colonParts (cs : List Char) : List (List Char) :=
  (String.ofList cs).splitOn ":" |>.map String.toList

/-- one place of a number in base 60 behind the first: `0` to `59` -/
def sexagesimalPlace? : List Char → Option Nat
  | [c] => digitIn? 10 c
  | [c, d] =>
    match digitIn? 6 c, digitIn? 10 d with
    | some a, some b => some (10 * a + b)
    | _, _ => none
  | _ => none

/-- a number in base 60, such as `1:30` -/
def sexagesimal? (cs : List Char) : Option Nat :=
  match colonParts cs with
  | first :: second :: rest =>
    if first.head?.all fun c => c = '0' || c = '_' then none
    else
      (second :: rest).foldl
        (fun n part => n.bind fun n => (sexagesimalPlace? part).map fun d => 60 * n + d)
        (basedNumber? 10 first)
  | _ => none

/-- a whole number without its sign -/
def natural? : List Char → Option Nat
  | ['0'] => some 0
  | '0' :: 'b' :: digits => basedNumber? 2 digits
  | '0' :: 'x' :: digits => basedNumber? 16 digits
  | '0' :: digits => basedNumber? 8 ('0' :: digits)
  | cs =>
    if cs.head?.all (· = '_') then none
    else if cs.all fun c => c.isDigit || c = '_' then basedNumber? 10 cs
    else sexagesimal? cs

/-- an exponent part has a sign and digits -/
def isExponent : List Char → Bool
  | [] => true
  | e :: sign :: digits =>
    (e = 'e' || e = 'E') && (sign = '+' || sign = '-') && !digits.isEmpty
      && digits.all Char.isDigit
  | _ => false

/-- a number with a point, without its sign -/
def fractional? (signed : Bool) (cs : List Char) : Option Binary64 :=
  let isPlace (c : Char) : Bool := c.isDigit || c = '_'
  let whole := cs.takeWhile isPlace
  let fraction := (cs.drop (whole.length + 1)).takeWhile isPlace
  let exponent := cs.drop (whole.length + 1 + fraction.length)
  let led : Bool :=
    match whole.head? with
    | some c => c.isDigit
    | none => !signed && fraction.head?.any Char.isDigit
  if cs[whole.length]? = some '.' && led && isExponent exponent then
    some (Numeral.ofChars
      (whole.filter (· ≠ '_') ++ '.' :: fraction.filter (· ≠ '_') ++ exponent)).toBinary64
  else none

/-- a number with a fraction, or one beyond all numbers -/
def float? (cs : List Char) : Option Binary64 :=
  let (negative, body) := splitSign cs
  if [".inf", ".Inf", ".INF"].contains (String.ofList body) then some (.infinite negative)
  else if [".nan", ".NaN", ".NAN"].contains (String.ofList cs) then some (.infinite false)
  else
    (fractional? (body.length < cs.length) body).map fun x => if negative then x.neg else x

/-- what a plain scalar stands for -/
def scalar (text : String) : Value :=
  let (negative, body) := splitSign text.toList
  if nullWords.contains text then .null
  else if trueWords.contains text then .bool true
  else if falseWords.contains text then .bool false
  else
    match natural? body with
    | some n => .int (if negative then -(n : Int) else n)
    | none =>
      match float? text.toList with
      | some x => .float x
      | none => .str text

end SchemaApi.Yaml
