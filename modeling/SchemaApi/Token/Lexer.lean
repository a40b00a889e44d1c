import SchemaApi.Token
import SchemaApi.Dialect.Keyword
import SchemaApi.Text.Word
import SchemaApi.Text.Find
/-!
From a script to its raw tokens.

`pieceAt` says what stands at the head of a text: white space or a comment, a lexeme, or the start
of something that is never closed. `scan` goes through a script piece by piece, keeping the
position, and yields a stream of tokens that ends or breaks off at the first fault.
-/

namespace SchemaApi

open Text

/-! ## Faults and streams -/

/-- the constructs that need a closing delimiter -/
inductive Enclosure where
  | blockComment | string | quotedIdentifier | dollarString
  deriving DecidableEq, Repr

namespace Enclosure

def describe : Enclosure → String
  | blockComment => "Unterminated block comment"
  | string => "Unterminated string literal"
  | quotedIdentifier => "Unterminated quoted identifier"
  | dollarString => "Unterminated dollar-quoted string"

end Enclosure

/-- why a script cannot be split into tokens -/
inductive LexFault where
  /-- a construct is not closed; it began with this delimiter -/
  | unterminated (what : Enclosure) (opening : String)
  /-- a digit that is not decimal stands where a number has to begin -/
  | noNumeral
  deriving DecidableEq, Repr

/-- a fault and where it began -/
structure LexError where
  fault : LexFault
  position : Position
  deriving DecidableEq, Repr

/-- tokens up to the end of a script, or up to a fault -/
inductive TokenStream where
  | done
  | failed (error : LexError)
  | token (head : Token) (rest : TokenStream)
  deriving Repr

namespace TokenStream

/-- the tokens before the end or the fault -/
def toList : TokenStream → List Token
  | done => []
  | failed _ => []
  | token t rest => t :: rest.toList

/-- the fault that broke the stream off -/
def error? : TokenStream → Option LexError
  | done => none
  | failed e => some e
  | token _ rest => rest.error?

/-- the stream of a list of tokens -/
def ofList : List Token → TokenStream
  | [] => done
  | t :: rest => token t (ofList rest)

end TokenStream

/-! ## Pieces -/

/-- what stands at the head of a text, and how many characters it takes -/
inductive Piece where
  | trivia (size : Nat)
  | lexeme (kind : TokenKind) (value : String) (quoted : Bool) (size : Nat)
  | fault (what : LexFault)
  deriving DecidableEq, Repr

/-- the length of the longest beginning of one class -/
def runLength (p : Char → Bool) (cs : List Char) : Nat := (cs.takeWhile p).length

/-- operators of several characters and of one, in the order they are tried -/
def operators : List String := [
  "->>", "#>>", "::", "<=", ">=", "<>", "!=", "||", "->", "#>", "@>", "<@", "@@", "?|", "?&", "=",
  "<", ">", "+", "-", "*", "/", "%", "~", "&", "|", "^"]

def punctuation : List Char := ['(', ')', ',', ';', '.', '[', ']']

/-- the character that a backslash and a letter stand for -/
def unescape : Char → Char
  | 'n' => '\n'
  | 't' => '\t'
  | 'r' => '\r'
  | '0' => Char.ofNat 0
  | 'b' => Char.ofNat 8
  | 'Z' => Char.ofNat 26
  | c => c

/-- The contents of a delimited text behind its opening delimiter, and how many characters they
take with the closing one. A doubled closing delimiter stands for itself. -/
def delimited (closing : Char) (escapes : Bool) : List Char → Option (List Char × Nat)
  | [] => none
  | [c] => if c = closing then some ([], 1) else none
  | c :: d :: rest =>
    if escapes ∧ c = '\\' then
      (delimited closing escapes rest).map fun (value, size) => (unescape d :: value, size + 2)
    else if c = closing then
      if d = closing then
        (delimited closing escapes rest).map fun (value, size) => (closing :: value, size + 2)
      else some ([], 1)
    else
      (delimited closing escapes (d :: rest)).map fun (value, size) => (c :: value, size + 1)

/-- a string whose opening delimiter stands behind `lead` characters -/
def stringPiece (lead : Nat) (quote : Char) (escapes : Bool) (body : List Char) : Piece :=
  match delimited quote escapes body with
  | some (value, size) => .lexeme .string (String.ofList value) false (lead + 1 + size)
  | none => .fault (.unterminated .string (String.singleton quote))

/-- a delimited identifier, behind its opening delimiter -/
def identifierPiece (opening closing : Char) (body : List Char) : Piece :=
  match delimited closing false body with
  | some (value, size) => .lexeme .identifier (String.ofList value) true (1 + size)
  | none => .fault (.unterminated .quotedIdentifier (String.singleton opening))

/-- the length of the tag between two dollar signs, behind the first -/
def dollarTag? : List Char → Option Nat
  | [] => none
  | c :: rest =>
    if c = '$' then some 0
    else if isWordStart c then
      let size := 1 + runLength isWordChar rest
      if (rest.drop (size - 1)).head? = some '$' then some size else none
    else none

/-- a text between dollar marks, or the sign alone as an operator -/
def dollarPiece (body : List Char) : Piece :=
  match dollarTag? body with
  | none => .lexeme .operator "$" false 1
  | some n =>
    let tag := '$' :: body.take (n + 1)
    match findFirst? tag (body.drop (n + 1)) with
    | some size =>
      .lexeme .string (String.ofList ((body.drop (n + 1)).take size)) false
        (2 * (n + 2) + size)
    | none => .fault (.unterminated .dollarString (String.ofList tag))

/-- the length of an exponent part at the head of a text -/
def exponentLength : List Char → Nat
  | e :: sign :: rest =>
    if e = 'e' ∨ e = 'E' then
      if sign = '+' ∨ sign = '-' then
        let digits := runLength isDecimal rest
        if digits = 0 then 0 else 2 + digits
      else
        let digits := runLength isDecimal (sign :: rest)
        if digits = 0 then 0 else 1 + digits
    else 0
  | _ => 0

/-- the length of a fraction part at the head of a text, point included -/
def fractionLength : List Char → Nat
  | '.' :: rest => 1 + runLength isDecimal rest
  | _ => 0

/-- the length of a hexadecimal numeral at the head of a text -/
def hexLength : List Char → Nat
  | '0' :: x :: rest =>
    if x = 'x' ∨ x = 'X' then
      let digits := runLength isHexDigit rest
      if digits = 0 then 0 else 2 + digits
    else 0
  | _ => 0

/-- the length of a decimal numeral at the head of a text -/
def decimalLength (cs : List Char) : Nat :=
  let whole := runLength isDecimal cs
  let fraction := fractionLength (cs.drop whole)
  if whole = 0 ∧ fraction ≤ 1 then 0
  else whole + fraction + exponentLength (cs.drop (whole + fraction))

/-- the length of a numeral at the head of a text, zero when there is none -/
def numeralLength (cs : List Char) : Nat :=
  if hexLength cs = 0 then decimalLength cs else hexLength cs

def numberPiece (cs : List Char) : Piece :=
  let size := numeralLength cs
  if size = 0 then .fault .noNumeral
  else .lexeme .number (String.ofList (cs.take size)) false size

/-- a letter that may stand in front of a string -/
def isStringMark (c : Char) : Bool :=
  c.toUpper = 'E' || c.toUpper = 'N' || c.toUpper = 'X' || c.toUpper = 'B'

/-- a word, or a string with a letter in front -/
def wordPiece (d : Dialect) (c : Char) (rest : List Char) : Piece :=
  let size := 1 + runLength (fun c => isWordChar c || c = '$') rest
  let word := String.ofList ((c :: rest).take size)
  if isStringMark c ∧ size = 1 ∧ rest.head? = some '\'' then
    stringPiece 1 '\'' (c.toUpper = 'E' || d.backslashEscapes) (rest.drop 1)
  else if d.isKeyword word then .lexeme .keyword (upper word) false size
  else .lexeme .identifier (d.normalize word false) false size

/-- an operator, or any other single character -/
def symbolPiece (c : Char) (rest : List Char) : Piece :=
  match operators.find? fun op => op.toList.isPrefixOf (c :: rest) with
  | some op => .lexeme .operator op false op.length
  | none =>
    let kind := if punctuation.contains c then TokenKind.punctuation else .operator
    .lexeme kind (String.singleton c) false 1

/-- the length of the rest of a line, its line feed included -/
def lineLength : List Char → Nat
  | [] => 0
  | c :: rest => if c = '\n' then 1 else 1 + lineLength rest

/-- white space or a comment at the head of a text -/
def triviaPiece? (d : Dialect) (c : Char) (rest : List Char) : Option Piece :=
  if isBlank c then some (.trivia 1)
  else if (c = '-' ∧ rest.head? = some '-') ∨ (c = '#' ∧ d.hashComments) then
    some (.trivia (lineLength (c :: rest)))
  else if c = '/' ∧ rest.head? = some '*' then
    match findFirst? ['*', '/'] (rest.drop 1) with
    | some size => some (.trivia (size + 4))
    | none => some (.fault (.unterminated .blockComment "/*"))
  else none

/-- a number begins here -/
def startsNumber (c : Char) (rest : List Char) : Bool :=
  isDigit c || (c = '.' && (rest.head?.map isDigit).getD false)

/-- a lexeme at the head of a text -/
def lexemePiece (d : Dialect) (c : Char) (rest : List Char) : Piece :=
  match d.identifierQuotes.lookup c with
  | some closing => identifierPiece c closing rest
  | none =>
    if d.stringQuotes.contains c then stringPiece 0 c d.backslashEscapes rest
    else if c = '$' ∧ d.dollarQuoting then dollarPiece rest
    else if startsNumber c rest then numberPiece (c :: rest)
    else if isLetter c || c = '_' then wordPiece d c rest
    else symbolPiece c rest

/-- what stands at the head of a text -/
def pieceAt (d : Dialect) (c : Char) (rest : List Char) : Piece :=
  (triviaPiece? d c rest).getD (lexemePiece d c rest)

/-! ## Scanning -/

/-- The raw tokens of a text that begins at a position. The first argument counts the characters
that still belong to the piece before. -/
def scanFrom (d : Dialect) : Nat → Position → List Char → TokenStream
  | _, _, [] => .done
  | skip + 1, p, c :: rest => scanFrom d skip (p.advance c) rest
  | 0, p, c :: rest =>
    match pieceAt d c rest with
    | .trivia size => scanFrom d (size - 1) (p.advance c) rest
    | .lexeme kind value isQuoted size =>
      .token ⟨kind, String.ofList ((c :: rest).take size), value, p, isQuoted⟩
        (scanFrom d (size - 1) (p.advance c) rest)
    | .fault what => .failed ⟨what, p⟩

/-- the raw tokens of a script -/
def scan (d : Dialect) (text : List Char) : TokenStream := scanFrom d 0 Position.start text

end SchemaApi
