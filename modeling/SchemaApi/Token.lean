import SchemaApi.Dialect
/-!
Tokens and their positions in a script.

`Position.after` gives the position behind a stretch of text. It is what the lexer computes one
character at a time, and what the positions of tokens mean.
-/

namespace SchemaApi

open Text

/-- line and column, counted from one, and the number of characters before -/
structure Position where
  line : Nat := 1
  column : Nat := 1
  offset : Nat := 0
  deriving DecidableEq, Repr

namespace Position

/-- the start of a script -/
def start : Position := {}

/-- the position behind one character; only a line feed begins a new line -/
def advance (p : Position) (c : Char) : Position :=
  if c = '\n' then ⟨p.line + 1, 1, p.offset + 1⟩ else ⟨p.line, p.column + 1, p.offset + 1⟩

/-- the position behind a stretch of text -/
def after (p : Position) (text : List Char) : Position := text.foldl advance p

/-- line and column, as messages show them -/
def text (p : Position) : String := s!"{p.line}:{p.column}"

end Position

/-- the characters from one offset up to another -/
def slice (text : List Char) (first last : Nat) : String :=
  String.ofList ((text.drop first).take (last - first))

/-- lexical categories -/
inductive TokenKind where
  | keyword | identifier | string | number | operator | punctuation
  deriving DecidableEq, Repr

namespace TokenKind

def name : TokenKind → String
  | keyword => "keyword"
  | identifier => "identifier"
  | string => "string"
  | number => "number"
  | operator => "operator"
  | punctuation => "punctuation"

end TokenKind

/-- a lexical token -/
structure Token where
  kind : TokenKind
  /-- the characters of the script -/
  text : String
  /-- what they stand for: keywords in upper case with single spaces, quoted texts without their
  quotes, identifiers as the dialect folds them -/
  value : String
  position : Position
  /-- a delimited identifier -/
  quoted : Bool := false
  deriving DecidableEq, Repr

namespace Token

/-- the offset behind the token -/
def stop (t : Token) : Nat := t.position.offset + t.text.length

/-- a text or a number -/
def isLiteral (t : Token) : Bool := t.kind == .string || t.kind == .number

/-- a keyword or an identifier -/
def isWord (t : Token) : Bool := t.kind == .keyword || t.kind == .identifier

def isKeyword (t : Token) (value : String) : Bool := t.kind == .keyword && t.value == value

def isPunct (t : Token) (value : String) : Bool := t.kind == .punctuation && t.value == value

def isOperator (t : Token) (value : String) : Bool := t.kind == .operator && t.value == value

/-- an unquoted word in upper case -/
def word? (t : Token) : Option String :=
  if !t.isWord || t.quoted then none
  else if t.kind == .keyword then some t.value
  else some (upper t.text)

/-- a keyword of several words -/
def isPhrase (t : Token) : Bool := t.kind == .keyword && t.value.toList.contains ' '

/-- the name that a word stands for -/
def nameIn (d : Dialect) (t : Token) : String :=
  if t.quoted || t.kind == .identifier then t.value else d.normalize t.text false

end Token

end SchemaApi
