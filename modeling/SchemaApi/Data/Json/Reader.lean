import SchemaApi.Data.Value
import SchemaApi.Text.Digit
/-!
Reading JSON text. A name that occurs twice in a map keeps its first place and its last value.
Beside the numbers of the standard, `NaN`, `Infinity` and `-Infinity` are numbers too.
-/

namespace SchemaApi.Json

open Text

/-- the blanks between the parts of a document -/
def isGap (c : Char) : Bool := c = ' ' || c = '\t' || c = '\n' || c = '\r'

def skipGap (cs : List Char) : List Char := cs.dropWhile isGap

/-- the value of one hexadecimal digit -/
def hexValue? (c : Char) : Option Nat :=
  if c.isDigit then some (c.toNat - 48)
  else if 'a' ≤ c ∧ c ≤ 'f' then some (c.toNat - 87)
  else if 'A' ≤ c ∧ c ≤ 'F' then some (c.toNat - 55)
  else none

/-- four hexadecimal digits -/
def hex4? : List Char → Option (Nat × List Char)
  | a :: b :: c :: d :: rest => do
    let w ← hexValue? a
    let x ← hexValue? b
    let y ← hexValue? c
    let z ← hexValue? d
    some (4096 * w + 256 * x + 16 * y + z, rest)
  | _ => none

/-- the character of an escape letter -/
def escapeLetter? : Char → Option Char
  | '"' => some '"'
  | '\\' => some '\\'
  | '/' => some '/'
  | 'b' => some (Char.ofNat 8)
  | 'f' => some (Char.ofNat 12)
  | 'n' => some '\n'
  | 'r' => some '\r'
  | 't' => some '\t'
  | _ => none

/-- The character of `\u` digits; two halves of a pair make one character. -/
def unicodeEscape? (cs : List Char) : Option (Char × List Char) := do
  let (high, rest) ← hex4? cs
  if 0xD800 ≤ high ∧ high < 0xDC00 then
    match rest with
    | '\\' :: 'u' :: more =>
      match hex4? more with
      | some (low, rest') =>
        if 0xDC00 ≤ low ∧ low < 0xE000 then
          some (Char.ofNat (0x10000 + 0x400 * (high - 0xD800) + (low - 0xDC00)), rest')
        else some (Char.ofNat 0xFFFD, rest)
      | none => some (Char.ofNat 0xFFFD, rest)
    | _ => some (Char.ofNat 0xFFFD, rest)
  else if 0xDC00 ≤ high ∧ high < 0xE000 then some (Char.ofNat 0xFFFD, rest)
  else some (Char.ofNat high, rest)

/-- the rest of a text behind its opening quote; the fuel bounds the number of characters -/
def textBody : Nat → List Char → List Char → Option (String × List Char)
  | 0, _, _ => none
  | _ + 1, _, [] => none
  | fuel + 1, seen, '\\' :: 'u' :: rest =>
    match unicodeEscape? rest with
    | some (c, rest') => textBody fuel (c :: seen) rest'
    | none => none
  | fuel + 1, seen, '\\' :: letter :: rest =>
    match escapeLetter? letter with
    | some c => textBody fuel (c :: seen) rest
    | none => none
  | fuel + 1, seen, c :: rest =>
    if c = '"' then some (String.ofList seen.reverse, rest)
    else if c.toNat < 32 ∨ c = '\\' then none
    else textBody fuel (c :: seen) rest

/-- a text in quotes -/
def text? : List Char → Option (String × List Char)
  | '"' :: rest => textBody (rest.length + 1) [] rest
  | _ => none

/-- the fraction part of a number, point included -/
def fractionPart (cs : List Char) : List Char :=
  match cs with
  | '.' :: rest =>
    let digits := rest.takeWhile Char.isDigit
    if digits.isEmpty then [] else '.' :: digits
  | _ => []

/-- the exponent part of a number -/
def exponentPart (cs : List Char) : List Char :=
  match cs with
  | e :: rest =>
    if e = 'e' ∨ e = 'E' then
      let sign := rest.take (if rest.head? = some '+' ∨ rest.head? = some '-' then 1 else 0)
      let digits := (rest.drop sign.length).takeWhile Char.isDigit
      if digits.isEmpty then [] else e :: (sign ++ digits)
    else []
  | [] => []

/-- a number without its sign -/
def unsigned? (negative : Bool) (cs : List Char) : Option (Value × List Char) :=
  let whole :=
    match cs with
    | '0' :: _ => ['0']
    | _ => cs.takeWhile Char.isDigit
  if whole.isEmpty then none
  else
    let rest := cs.drop whole.length
    let fraction := fractionPart rest
    let rest := rest.drop fraction.length
    let exponent := exponentPart rest
    let rest := rest.drop exponent.length
    if fraction.isEmpty ∧ exponent.isEmpty then
      let n : Int := decimalNumber whole
      some (.int (if negative then -n else n), rest)
    else
      let x := (Numeral.ofChars (whole ++ fraction ++ exponent)).toBinary64
      some (.float (if negative then x.neg else x), rest)

/-- a word that stands for a value -/
def word? (cs : List Char) : Option (Value × List Char) :=
  let words : List (String × Value) := [
    ("null", .null), ("true", .bool true), ("false", .bool false),
    ("Infinity", .float (.infinite false)), ("-Infinity", .float (.infinite true)),
    ("NaN", .float (.infinite false))]
  (words.find? fun entry => entry.1.toList.isPrefixOf cs).map fun entry =>
    (entry.2, cs.drop entry.1.length)

/-- a number or a word -/
def scalar? (cs : List Char) : Option (Value × List Char) :=
  match word? cs with
  | some found => some found
  | none =>
    match cs with
    | '-' :: rest => unsigned? true rest
    | _ => unsigned? false cs

mutual

/-- a value at the head of a text without leading blanks -/
def value? : Nat → List Char → Option (Value × List Char)
  | 0, _ => none
  | _ + 1, '"' :: rest => (text? ('"' :: rest)).map fun (s, rest) => (.str s, rest)
  | fuel + 1, '[' :: rest =>
    match skipGap rest with
    | ']' :: rest => some (.list [], rest)
    | rest => (items? fuel [] rest).map fun (vs, rest) => (.list vs, rest)
  | fuel + 1, '\x7b' :: rest =>
    match skipGap rest with
    | '\x7d' :: rest => some (.map [], rest)
    | rest => (entries? fuel [] rest).map fun (es, rest) => (.map es, rest)
  | _ + 1, cs => scalar? cs

/-- the items of a list up to its bracket; the items before are nearest first -/
def items? : Nat → List Value → List Char → Option (List Value × List Char)
  | 0, _, _ => none
  | fuel + 1, seen, cs =>
    match value? fuel (skipGap cs) with
    | none => none
    | some (v, rest) =>
      match skipGap rest with
      | ',' :: rest => items? fuel (v :: seen) rest
      | ']' :: rest => some ((v :: seen).reverse, rest)
      | _ => none

/-- the entries of a map up to its brace -/
def entries? : Nat → List (String × Value) → List Char →
    Option (List (String × Value) × List Char)
  | 0, _, _ => none
  | fuel + 1, seen, cs =>
    match text? (skipGap cs) with
    | none => none
    | some (name, rest) =>
      match skipGap rest with
      | ':' :: rest =>
        match value? fuel (skipGap rest) with
        | none => none
        | some (v, rest) =>
          match skipGap rest with
          | ',' :: rest => entries? fuel (setEntry seen name v) rest
          | '\x7d' :: rest => some (setEntry seen name v, rest)
          | _ => none
      | _ => none

end

/-- the value that a whole text spells -/
def parse? (text : String) : Option Value :=
  let cs := text.toList
  match value? (2 * cs.length + 2) (skipGap cs) with
  | some (v, rest) => if (skipGap rest).isEmpty then some v else none
  | none => none

end SchemaApi.Json
