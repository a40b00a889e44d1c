import SchemaApi.Reading.Column
/-!
Rules for whole statements.
-/

namespace SchemaApi.Reading

open Text

/-- a statement about a script that begins at a token -/
def located (start : Token) (body : StatementBody) : Reading Statement := fun scope cursor =>
  .ok { body := body, position := start.position, source := scope.source } cursor

/-- a phrase that says what is not supported, without blanks at its ends -/
def unsupportedPhrase {α : Type} (start : Token) (words : String) (what : Option String) :
    Reading α :=
  unsupported (strip (words ++ " " ++ what.getD "")) start.position

/-! ## CREATE -/

/-- one option, or the last token of one; the text of a comment takes the place of another one -/
def tableOption (comment : Option String) : Reading (Option String ⊕ Option String) := do
  if ← atStatementEnd then return .inr comment
  if ← accept "COMMENT" then
    let _ ← acceptOperator "="
    return .inl (some (← stringLiteral))
  if ← peekPunct "(" then
    let _ ← group
    return .inl comment
  let _ ← advance
  return .inl comment

/-- the options behind a table declaration: the text of the last comment, if there is one -/
def tableOptions : Reading (Option String) := iterate tableOption none

/-- one more column or constraint, and the comma or the closing parenthesis behind it -/
def tableElement : List ColumnClause × List ConstraintClause →
    Reading (List ColumnClause × List ConstraintClause ⊕ List ColumnClause × List ConstraintClause)
  | (columns, constraints) => do
    let (columns, constraints) ←
      if ← atTableConstraint then
        match ← tableConstraint with
        | some clause => pure (columns, constraints ++ [clause])
        | none => pure (columns, constraints)
      else
        let column ← columnDefinition
        pure (columns ++ [column], constraints)
    if ← acceptPunct "," then return .inl (columns, constraints)
    expectPunct ")"
    return .inr (columns, constraints)

/-- columns and constraints between the parentheses of a table declaration -/
def tableElements : Reading (List ColumnClause × List ConstraintClause) := do
  expectPunct "("
  if ← acceptPunct ")" then return ([], [])
  iterate tableElement ([], [])

def createTable (start : Token) (temporary : Bool) : Reading Statement := do
  let _ ← expectWord ["TABLE"]
  let ifNotExists ← accept "IF NOT EXISTS"
  let table ← qualifiedName "table name"
  match ← peekWord with
  | some "AS" => unsupported "CREATE TABLE ... AS" start.position
  | some "LIKE" => unsupported "CREATE TABLE ... LIKE" start.position
  | _ =>
    let (columns, constraints) ← tableElements
    let comment ← tableOptions
    located start (.createTable ⟨table, columns, constraints, ifNotExists, temporary, comment⟩)

/-- what stands in front of the word INDEX: whether the index is unique, and its kind -/
def indexHead : Reading (Bool × Option String) := do
  if ← accept "UNIQUE INDEX" then return (true, none)
  let unique ← accept "UNIQUE"
  let modifier ← acceptWord ["CLUSTERED", "NONCLUSTERED", "FULLTEXT", "SPATIAL"]
  let _ ← expectWord ["INDEX"]
  let isKind := modifier == some "FULLTEXT" || modifier == some "SPATIAL"
  return (unique, if isKind then modifier.map lower else none)

/-- one clause behind the elements of an index, or a token of one that is passed over -/
def indexClause : Option String × Option String →
    Reading (Option String × Option String ⊕ Option String × Option String)
  | (method, condition) => do
    if ← atStatementEnd then return .inr (method, condition)
    if ← accept "WHERE" then
      let text ← verbatim (← restOfStatement)
      return .inl (method, some text)
    if (← peekWord) == some "USING" then
      return .inl (firstFilled (← indexMethod) method, condition)
    if (← acceptWord ["INCLUDE", "WITH"]).isSome then
      if ← peekPunct "(" then
        let _ ← group
      return .inl (method, condition)
    let _ ← advance
    return .inl (method, condition)

/-- the clauses behind the elements of an index: its method and its condition -/
def indexTail (method : Option String) : Reading (Option String × Option String) :=
  iterate indexClause (method, none)

def createIndex (start : Token) : Reading Statement := do
  let (unique, kind) ← indexHead
  let _ ← accept "CONCURRENTLY"
  let ifNotExists ← accept "IF NOT EXISTS"
  let index ←
    if (← peekWord) == some "ON" then pure none
    else (fun n => some n.name) <$> qualifiedName "index name"
  let method := firstFilled (← indexMethod) kind
  let _ ← expectWord ["ON"]
  let _ ← accept "ONLY"
  let table ← qualifiedName "table name"
  let method := firstFilled (← indexMethod) method
  let elements ← indexElements
  let (method, condition) ← indexTail method
  located start (.createIndex ⟨index, table, elements, unique, method, condition, ifNotExists⟩)

/-- takes all tokens of the segment -/
def takeAll : Reading (List Token) := fun _ cursor => .ok cursor.rest { cursor with rest := [] }

def createView (start : Token) (orReplace : Bool) : Reading Statement := do
  let materialized ← accept "MATERIALIZED"
  let _ ← expectWord ["VIEW"]
  let _ ← accept "IF NOT EXISTS"
  let view ← qualifiedName "view name"
  let columns ← if ← peekPunct "(" then columnList else pure []
  if ← accept "WITH" then
    let _ ← group
  let _ ← expectWord ["AS"]
  if ← atEnd then refuse (.expected "a view query")
  let query ← verbatim (← takeAll)
  located start (.createView ⟨view, query, orReplace, materialized, columns⟩)

def createEnum (start : Token) : Reading Statement := do
  let _ ← expectWord ["TYPE"]
  let type ← qualifiedName "type name"
  let _ ← expectWord ["AS"]
  unless ← accept "ENUM" do unsupported "CREATE TYPE (non-enum)" start.position
  expectPunct "("
  let values ← if ← acceptPunct ")" then pure [] else commaList stringLiteral
  located start (.createEnum ⟨type, values⟩)

/-- one of the words between CREATE and what is created -/
def createModifier (temporary : Bool) : Reading (Bool ⊕ Bool) := do
  match ← acceptWord ["TEMP", "TEMPORARY", "GLOBAL", "LOCAL", "UNLOGGED"] with
  | none => return .inr temporary
  | some word => return .inl (temporary || word == "TEMP" || word == "TEMPORARY")

/-- the words between CREATE and what is created: whether it is temporary -/
def createModifiers : Reading Bool := iterate createModifier false

/-- the words that begin what an index is created with -/
def indexStarts : List String :=
  ["INDEX", "UNIQUE", "UNIQUE INDEX", "CLUSTERED", "NONCLUSTERED", "FULLTEXT", "SPATIAL"]

def create (start : Token) : Reading Statement := do
  let orReplace ← accept "OR REPLACE"
  let temporary ← createModifiers
  let word ← peekWord
  match word with
  | some "TABLE" => createTable start temporary
  | some "VIEW" | some "MATERIALIZED" => createView start orReplace
  | some "TYPE" => createEnum start
  | some other =>
    if indexStarts.contains other then createIndex start
    else unsupportedPhrase start "CREATE" (some other)
  | none => unsupportedPhrase start "CREATE" ((← peek).map (·.text))

/-! ## ALTER TABLE -/

/-- passes over an action that is not supported -/
def skipAction (t : Token) : Reading Unit := do
  note .warning "UNSUPPORTED_ALTER_ACTION"
    s!"Skipped unsupported ALTER TABLE action starting with {quoted t.text}" t.position
  let _ ← collectAll

def addAction : Reading (Option TableAction) := do
  if ← accept "COLUMN" then
    let ifNotExists ← accept "IF NOT EXISTS"
    return some (.addColumn (← columnDefinition) ifNotExists)
  let ifNotExists ← accept "IF NOT EXISTS"
  if ← atTableConstraint then
    return (← tableConstraint).map .addConstraint
  return some (.addColumn (← columnDefinition) ifNotExists)

def dropAction : Reading TableAction := do
  match ← peekWord with
  | some "CONSTRAINT" =>
    let _ ← advance
    let ifExists ← accept "IF EXISTS"
    let constraint ← name "constraint name"
    let _ ← acceptWord ["CASCADE", "RESTRICT"]
    return .dropConstraint (.named constraint) ifExists
  | some "PRIMARY KEY" =>
    let _ ← advance
    return .dropConstraint .primaryKey false
  | some "FOREIGN KEY" =>
    let _ ← advance
    return .dropConstraint (.foreignKey (← name "constraint name")) false
  | some "INDEX" | some "KEY" =>
    let _ ← advance
    return .dropConstraint (.index (← name "index name")) false
  | _ =>
    let _ ← accept "COLUMN"
    let ifExists ← accept "IF EXISTS"
    let column ← name "column name"
    let behaviour ← acceptWord ["CASCADE", "RESTRICT"]
    return .dropColumn column ifExists (behaviour == some "CASCADE")

/-- what is done to a column of a name; an action that is passed over gives nothing -/
def alterColumnAction (column : String) (start : Token) : Reading (Option TableAction) := do
  if ← accept "SET NOT NULL" then
    return some (.alterColumn column (some true) none false none)
  if ← accept "DROP NOT NULL" then
    return some (.alterColumn column (some false) none false none)
  if ← accept "SET DEFAULT" then
    return some (.alterColumn column none (some (← expression [])) false none)
  if ← accept "DROP DEFAULT" then
    return some (.alterColumn column none none true none)
  if (← acceptWord ["SET DATA TYPE", "TYPE"]).isSome then
    let newType ← typeName
    if ← accept "USING" then
      let _ ← collectAll
    return some (.alterColumn column none none false (some newType))
  if ((← peekWord).map ["SET", "DROP", "ADD", "RESET"].contains).getD false then
    skipAction start
    return none
  let newType ← typeName
  if ← accept "NOT NULL" then
    return some (.alterColumn column (some true) none false (some newType))
  if ← accept "NULL" then
    return some (.alterColumn column (some false) none false (some newType))
  return some (.alterColumn column none none false (some newType))

def renameAction (start : Token) : Reading (Option TableAction) := do
  if ← accept "COLUMN" then
    let old ← name "column name"
    let _ ← expectWord ["TO"]
    return some (.renameColumn old (← name "column name"))
  if (← acceptWord ["TO", "AS"]).isSome then
    return some (.renameTable (← qualifiedName "table name"))
  if ((← peekWord).map ["CONSTRAINT", "INDEX", "KEY"].contains).getD false then
    skipAction start
    return none
  let old ← name "column name"
  if ← accept "TO" then
    return some (.renameColumn old (← name "column name"))
  return some (.renameTable ⟨old, none⟩)

def TableAction.addsColumn : TableAction → Bool
  | .addColumn _ _ => true
  | _ => false

/-- the words that begin an action which is not one more column -/
def actionStarts : List String :=
  ["SET", "ENGINE", "OWNER", "ENABLE", "DISABLE", "CLUSTER", "INHERIT"]

/-- a further column behind an action that added one, or an action to pass over -/
def otherAction (previous : Option TableAction) (t : Token) : Reading (Option TableAction) := do
  let follows := (previous.map TableAction.addsColumn).getD false
  let isStart := (t.word?.map actionStarts.contains).getD false
  if follows && t.isWord && !isStart then
    return some (.addColumn (← columnDefinition) false)
  skipAction t
  return none

/-- `WITH CHECK` or `WITH NOCHECK` in front of an action; nothing of it is kept -/
def checkMode : Reading Unit := do
  if (← peekWord) == some "WITH" &&
      ((← peekWordAt 1).map ["CHECK", "NOCHECK"].contains).getD false then
    skip 2

/-- one action of ALTER TABLE; `previous` is the last one that was kept -/
def tableAction (previous : Option TableAction) : Reading (Option TableAction) := do
  checkMode
  match ← peek with
  | none => refuse (.expected "an ALTER TABLE action")
  | some t =>
    match t.word? with
    | some "ADD" =>
      let _ ← advance
      addAction
    | some "DROP" =>
      let _ ← advance
      some <$> dropAction
    | some "ALTER" =>
      let _ ← advance
      let _ ← accept "COLUMN"
      alterColumnAction (← name "column name") t
    | some "RENAME" =>
      let _ ← advance
      renameAction t
    | some "MODIFY" =>
      let _ ← advance
      let _ ← accept "COLUMN"
      return some (.modifyColumn (← columnDefinition) none)
    | some "CHANGE" =>
      let _ ← advance
      let _ ← accept "COLUMN"
      let old ← name "column name"
      return some (.modifyColumn (← columnDefinition) (some old))
    | _ => otherAction previous t

/-- one more action, and the comma behind it if another one follows -/
def furtherAction (actions : List TableAction) : Reading (List TableAction ⊕ List TableAction) := do
  let action ← tableAction actions.getLast?
  let actions := actions ++ action.toList
  if ← acceptPunct "," then return .inl actions
  return .inr actions

/-- actions with commas between them -/
def tableActions : Reading (List TableAction) := iterate furtherAction []

def alter (start : Token) : Reading Statement := do
  unless ← accept "TABLE" do unsupportedPhrase start "ALTER" (← peekWord)
  let ifExists ← accept "IF EXISTS"
  let _ ← accept "ONLY"
  let table ← qualifiedName "table name"
  let actions ← tableActions
  located start (.alterTable ⟨table, actions, ifExists⟩)

/-! ## DROP and COMMENT ON -/

def drop (start : Token) : Reading Statement := do
  let word ← peekWord
  match word with
  | some "TABLE" =>
    let _ ← advance
    let ifExists ← accept "IF EXISTS"
    let names ← nameList "table name"
    let behaviour ← acceptWord ["CASCADE", "RESTRICT"]
    located start (.dropTable ⟨names, ifExists, behaviour == some "CASCADE"⟩)
  | some "INDEX" =>
    let _ ← advance
    let _ ← accept "CONCURRENTLY"
    let ifExists ← accept "IF EXISTS"
    let names ← nameList "index name"
    let table ← if ← accept "ON" then some <$> qualifiedName "table name" else pure none
    let _ ← acceptWord ["CASCADE", "RESTRICT"]
    located start (.dropIndex ⟨names, ifExists, table⟩)
  | some "VIEW" | some "MATERIALIZED" =>
    let _ ← advance
    if word == some "MATERIALIZED" then
      let _ ← expectWord ["VIEW"]
    let ifExists ← accept "IF EXISTS"
    let names ← nameList "view name"
    let _ ← acceptWord ["CASCADE", "RESTRICT"]
    located start (.dropView ⟨names, ifExists⟩)
  | _ => unsupportedPhrase start "DROP" word

/-- the table and the column that dotted names, the last first, mean -/
def columnTarget : List String → Reading (QualifiedName × String)
  | column :: table => match table with
    | [] => refuse (.expected "table.column")
    | _ => return (qualify table, column)
  | [] => refuse (.expected "table.column")

def commentOn (start : Token) : Reading Statement := do
  let word ← peekWord
  let (table, column) ← match word with
    | some "TABLE" =>
      let _ ← advance
      pure (← qualifiedName "table name", none)
    | some "COLUMN" =>
      let _ ← advance
      let (table, column) ← columnTarget (← dottedNames "table name" "column name")
      pure (table, some column)
    | _ => unsupportedPhrase start "COMMENT ON" word
  let _ ← expectWord ["IS"]
  let text ← if ← accept "NULL" then pure none else some <$> stringLiteral
  located start (.commentOn ⟨table, column, text⟩)

/-- one statement -/
def statement : Reading Statement := do
  match ← peek with
  | none => refuse .unexpectedEnd
  | some t =>
    match t.word? with
    | some "CREATE" =>
      let _ ← advance
      create t
    | some "ALTER" =>
      let _ ← advance
      alter t
    | some "DROP" =>
      let _ ← advance
      drop t
    | some "COMMENT ON" =>
      let _ ← advance
      commentOn t
    | some word => unsupported word t.position
    | none => unsupported t.text t.position

end SchemaApi.Reading
