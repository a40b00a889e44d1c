import SchemaApi.Statement
import SchemaApi.Fault
import SchemaApi.Text.Quoted
/-!
Reading the tokens of one segment of a script.

A rule of the grammar is a `Reading`: it takes the tokens that are left and either gives a value and
the tokens it leaves, or stops. Rules only ever drop tokens from the front. `iterate` repeats a rule
as long as it goes on, and lets it go on only while tokens are used up, so every rule ends.
-/

namespace SchemaApi

open Text

/-! ## Complaints -/

/-- what is wrong with a statement -/
inductive Complaint where
  | unexpectedEnd
  | expectedWords (words : List String)
  | expectedPunct (value : String)
  | expected (what : String)
  | missingType (column : String)
  | strayInColumn (column : String)
  deriving DecidableEq, Repr

def Complaint.text : Complaint → String
  | unexpectedEnd => "Unexpected end of statement"
  | expectedWords words => "Expected " ++ " or ".intercalate words
  | expectedPunct value => s!"Expected '{value}'"
  | expected what => s!"Expected {what}"
  | missingType column => s!"Expected a type for column '{column}'"
  | strayInColumn column => s!"Unexpected token in definition of column '{column}'"

/-- why reading a statement stops -/
inductive Stop where
  /-- the statement is malformed; `found` is the token in the way, missing at the end -/
  | malformed (complaint : Complaint) (found : Option String) (position : Option Position)
  /-- something else follows a complete statement -/
  | trailing (found : String) (position : Position)
  /-- the statement is outside the grammar -/
  | unsupported (what : String) (position : Position)
  /-- a rule went on without using up a token, or behind the last one; no rule does -/
  | stalled
  deriving DecidableEq, Repr

/-- a malformed statement, as a fault -/
def syntaxFault (message : String) (position : Option Position) : Fault :=
  .ofStage .parse "" message position none

/-- the finding that a stop is reported as -/
def Stop.finding (source : Option String) : Stop → Finding
  | malformed complaint found position =>
    let message :=
      match found with
      | some token => s!"{complaint.text}, found {quoted token}"
      | none => s!"{complaint.text} at end of statement"
    (syntaxFault message position).finding source .error
  | trailing found position =>
    (syntaxFault s!"Unexpected {quoted found} after end of statement" (some position)).finding
      source .error
  | unsupported what position =>
    Finding.about .info .parse "UNSUPPORTED_STATEMENT" s!"Skipped unsupported statement: {what}"
      source (some position)
  | stalled => (syntaxFault "Reading does not go on" none).finding source .error

/-! ## Cursor and rules -/

/-- what stays the same while a segment is read -/
structure Scope where
  dialect : Dialect
  source : Option String := none
  /-- the script, if the tokens come from one -/
  script : Option (List Char) := none
  /-- where the last token of the segment stands -/
  last : Option Position := none

/-- the tokens left, and the findings so far -/
structure Cursor where
  rest : List Token
  notes : List Finding := []

/-- what a rule comes to -/
inductive Outcome (α : Type) where
  | ok (value : α) (next : Cursor)
  | stop (why : Stop) (notes : List Finding)

/-- a rule of the grammar -/
def Reading (α : Type) : Type := Scope → Cursor → Outcome α

namespace Reading

/-- one rule after another -/
def andThen {α β : Type} (rule : Reading α) (next : α → Reading β) : Reading β :=
  fun scope cursor =>
    match rule scope cursor with
    | .ok value cursor => next value scope cursor
    | .stop why notes => .stop why notes

instance : Monad Reading where
  pure value := fun _ cursor => .ok value cursor
  bind := andThen

/-- stops with a complaint about the next token -/
def refuse {α : Type} (complaint : Complaint) : Reading α := fun scope cursor =>
  match cursor.rest with
  | t :: _ => .stop (.malformed complaint (some t.text) (some t.position)) cursor.notes
  | [] => .stop (.malformed complaint none scope.last) cursor.notes

def unsupported {α : Type} (what : String) (position : Position) : Reading α :=
  fun _ cursor => .stop (.unsupported what position) cursor.notes

/-- reports something and goes on -/
def note (severity : Severity) (code message : String) (position : Position) : Reading Unit :=
  fun scope cursor =>
    let finding := Finding.about severity .parse code message scope.source (some position)
    .ok () { cursor with notes := cursor.notes ++ [finding] }

/-- the dialect of the script -/
def dialect : Reading Dialect := fun scope cursor => .ok scope.dialect cursor

/-- the token at a distance, if there is one -/
def peekAt (ahead : Nat) : Reading (Option Token) := fun _ cursor => .ok cursor.rest[ahead]? cursor

/-- the next token -/
def peek : Reading (Option Token) := fun _ cursor => .ok cursor.rest.head? cursor

/-- the next token as an unquoted word -/
def peekWord : Reading (Option String) := fun _ cursor =>
  .ok (cursor.rest.head?.bind Token.word?) cursor

/-- the token at a distance as an unquoted word -/
def peekWordAt (ahead : Nat) : Reading (Option String) := fun _ cursor =>
  .ok (cursor.rest[ahead]?.bind Token.word?) cursor

/-- the next token is this punctuation mark -/
def peekPunct (value : String) : Reading Bool := fun _ cursor =>
  .ok ((cursor.rest.head?.map (·.isPunct value)).getD false) cursor

def atEnd : Reading Bool := fun _ cursor => .ok cursor.rest.isEmpty cursor

/-- takes the next token -/
def advance : Reading Token := fun scope cursor =>
  match cursor.rest with
  | t :: rest => .ok t { cursor with rest := rest }
  | [] => refuse .unexpectedEnd scope cursor

/-- drops tokens that are known to be there -/
def skip (count : Nat) : Reading Unit := fun _ cursor =>
  if count ≤ cursor.rest.length then .ok () { cursor with rest := cursor.rest.drop count }
  else .stop .stalled cursor.notes

/-- takes the next token if it is one of the words -/
def acceptWord (words : List String) : Reading (Option String) := fun _ cursor =>
  match cursor.rest with
  | [] => .ok none cursor
  | t :: rest =>
    match t.word? with
    | none => .ok none cursor
    | some word =>
      if words.contains word then .ok (some word) { cursor with rest := rest }
      else .ok none cursor

/-- takes the next token if it is this word -/
def accept (word : String) : Reading Bool := do
  return (← acceptWord [word]).isSome

/-- takes one of the words -/
def expectWord (words : List String) : Reading String := do
  match ← acceptWord words with
  | some word => return word
  | none => refuse (.expectedWords words)

/-- takes the next token if it is this punctuation mark -/
def acceptPunct (value : String) : Reading Bool := fun _ cursor =>
  match cursor.rest with
  | [] => .ok false cursor
  | t :: rest => if t.isPunct value then .ok true { cursor with rest := rest } else .ok false cursor

def expectPunct (value : String) : Reading Unit := do
  unless ← acceptPunct value do refuse (.expectedPunct value)

/-- takes the next token if it is this operator -/
def acceptOperator (value : String) : Reading Bool := fun _ cursor =>
  match cursor.rest with
  | [] => .ok false cursor
  | t :: rest =>
    if t.isOperator value then .ok true { cursor with rest := rest } else .ok false cursor

/-- Repeats a rule, starting from a state, until it gives a result. -/
def iterate {σ α : Type} (step : σ → Reading (σ ⊕ α)) (state : σ) : Reading α :=
  fun scope cursor =>
    match step state scope cursor with
    | .stop why notes => .stop why notes
    | .ok (.inr value) next => .ok value next
    | .ok (.inl state) next =>
      if next.rest.length < cursor.rest.length then iterate step state scope next
      else .stop .stalled next.notes
termination_by _ cursor => cursor.rest.length

/-- one more item behind others, and the comma or the closing parenthesis behind it -/
def commaItem {α : Type} (item : Reading α) (items : List α) : Reading (List α ⊕ List α) := do
  let items := items ++ [← item]
  if ← acceptPunct "," then return .inl items
  expectPunct ")"
  return .inr items

/-- items by one rule, with commas between, up to a closing parenthesis -/
def commaList {α : Type} (item : Reading α) : Reading (List α) := iterate (commaItem item) []

/-- a rule, and the tokens it took -/
def withTokens {α : Type} (rule : Reading α) : Reading (α × List Token) := fun scope cursor =>
  match rule scope cursor with
  | .ok value next =>
    .ok (value, cursor.rest.take (cursor.rest.length - next.rest.length)) next
  | .stop why notes => .stop why notes

/-! ## Verbatim text -/

/-- the texts of tokens, with one space where they do not touch -/
def spaced (previous : Token) : List Token → String
  | [] => ""
  | t :: rest =>
    (if previous.stop < t.position.offset then " " else "") ++ t.text ++ spaced t rest

/-- the characters from the first token to the last -/
def spelled (script : Option (List Char)) : List Token → String
  | [] => ""
  | t :: rest =>
    match script with
    | some text => slice text t.position.offset (rest.getLastD t).stop
    | none => t.text ++ spaced t rest

def verbatim (tokens : List Token) : Reading String := fun scope cursor =>
  .ok (spelled scope.script tokens) cursor

/-! ## Groups and expressions -/

/-- the tokens up to the parenthesis that closes a group, and those behind it -/
def splitGroup : Nat → List Token → Option (List Token × List Token)
  | _, [] => none
  | depth, t :: rest =>
    if t.isPunct "(" then
      (splitGroup (depth + 1) rest).map fun (inner, left) => (t :: inner, left)
    else if t.isPunct ")" then
      match depth with
      | 0 => some ([], rest)
      | outer + 1 => (splitGroup outer rest).map fun (inner, left) => (t :: inner, left)
    else
      (splitGroup depth rest).map fun (inner, left) => (t :: inner, left)

/-- takes `( ... )` and gives the tokens inside -/
def group : Reading (List Token) := do
  expectPunct "("
  fun scope cursor =>
    match splitGroup 0 cursor.rest with
    | some (inner, left) => .ok inner { cursor with rest := left }
    | none => refuse .unexpectedEnd scope { cursor with rest := [] }

/-- The tokens up to a comma, a closing parenthesis or a token to stop at, outside all parentheses,
and the tokens from there on. -/
def splitExpression (stopAt : Token → Bool) : Nat → List Token → List Token × List Token
  | _, [] => ([], [])
  | depth, t :: rest =>
    if depth = 0 ∧ (t.isPunct "," ∨ t.isPunct ")" ∨ stopAt t) then ([], t :: rest)
    else
      let depth :=
        if t.isPunct "(" then depth + 1 else if t.isPunct ")" then depth - 1 else depth
      let (taken, left) := splitExpression stopAt depth rest
      (t :: taken, left)

/-- takes the tokens of an expression that is nested to a depth already -/
def collect (stopAt : Token → Bool) (depth : Nat) : Reading (List Token) := fun _ cursor =>
  let (taken, left) := splitExpression stopAt depth cursor.rest
  .ok taken { cursor with rest := left }

/-- takes the tokens up to a comma or a closing parenthesis -/
def collectAll : Reading (List Token) := collect (fun _ => false) 0

/-- An expression up to one of the words. Its first token belongs to it in any case. -/
def expression (stopWords : List String) : Reading String := do
  match ← peek with
  | none => refuse .unexpectedEnd
  | some first =>
    if first.isPunct "," || first.isPunct ")" then refuse (.expected "an expression")
    let _ ← advance
    let stopAt (t : Token) : Bool := (t.word?.map stopWords.contains).getD false
    let tokens ← collect stopAt (if first.isPunct "(" then 1 else 0)
    verbatim (first :: tokens)

/-! ## Names and literals -/

/-- a name: a word that is no phrase -/
def name (what : String) : Reading String := do
  match ← peek with
  | none => refuse (.expected what)
  | some t =>
    if !t.isWord || t.isPhrase then refuse (.expected what)
    let _ ← advance
    return t.nameIn (← dialect)

/-- one more name behind a point, in front of the names before it -/
def dottedName (what : String) (names : List String) : Reading (List String ⊕ List String) := do
  if ← acceptPunct "." then return .inl ((← name what) :: names)
  return .inr names

/-- names with points between them, the last first -/
def dottedNames (what next : String) : Reading (List String) := do
  iterate (dottedName next) [← name what]

/-- the last name and the one before it; further ones are left out -/
def qualify : List String → QualifiedName
  | [] => ⟨"", none⟩
  | [last] => ⟨last, none⟩
  | last :: schema :: _ => ⟨last, some schema⟩

def qualifiedName (what : String) : Reading QualifiedName := do
  return qualify (← dottedNames what what)

/-- one more name behind a comma -/
def listedName (what : String) (names : List QualifiedName) :
    Reading (List QualifiedName ⊕ List QualifiedName) := do
  if ← acceptPunct "," then return .inl (names ++ [← qualifiedName what])
  return .inr names

/-- qualified names with commas between them -/
def nameList (what : String) : Reading (List QualifiedName) := do
  iterate (listedName what) [← qualifiedName what]

def stringLiteral : Reading String := do
  match ← peek with
  | none => refuse (.expected "a string literal")
  | some t =>
    if t.kind != .string then refuse (.expected "a string literal")
    let _ ← advance
    return t.value

/-! ## Starts of statements -/

def statementStarts : List String := ["CREATE", "ALTER", "DROP", "COMMENT ON"]

/-- a statement begins with the token -/
def startsStatement (t : Token) : Bool := (t.word?.map statementStarts.contains).getD false

/-- the segment ends here, or another statement begins -/
def atStatementEnd : Reading Bool := fun _ cursor =>
  .ok ((cursor.rest.head?.map startsStatement).getD true) cursor

/-- takes the tokens up to the end of the statement -/
def restOfStatement : Reading (List Token) := fun _ cursor =>
  .ok (cursor.rest.takeWhile fun t => !startsStatement t)
    { cursor with rest := cursor.rest.dropWhile fun t => !startsStatement t }

end Reading

end SchemaApi
