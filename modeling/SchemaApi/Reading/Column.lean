import SchemaApi.Reading.Cursor
import SchemaApi.Dialect.TypeRule
/-!
Rules for columns and constraints: declared types, the clauses behind a column's name, and the
constraints of a table declaration.
-/

namespace SchemaApi.Reading

open Text

/-! ## Clauses that several rules share -/

/-- the words that end a default expression and show that a column has no type -/
def columnClauseStarts : List String := [
  "AFTER", "AS", "AUTO_INCREMENT", "AUTOINCREMENT", "CHARACTER SET", "CHARSET", "CHECK", "COLLATE",
  "COMMENT", "CONSTRAINT", "DEFAULT", "DEFERRABLE", "FIRST", "GENERATED ALWAYS AS",
  "GENERATED ALWAYS AS IDENTITY", "GENERATED BY DEFAULT AS IDENTITY", "IDENTITY", "INITIALLY",
  "NOT NULL", "NULL", "ON", "ON UPDATE", "PRIMARY KEY", "REFERENCES", "UNIQUE", "UNIQUE KEY"]

/-- the words that begin a constraint of a table -/
def tableConstraintStarts : List String := [
  "CONSTRAINT", "PRIMARY KEY", "FOREIGN KEY", "UNIQUE", "UNIQUE KEY", "UNIQUE INDEX", "CHECK",
  "EXCLUDE"]

/-- the words that begin an index inside a table declaration -/
def inlineIndexStarts : List String := ["KEY", "INDEX", "FULLTEXT", "SPATIAL"]

/-- the first text that is there and not empty -/
def firstFilled : Option String → Option String → Option String
  | some a, b => if a = "" then b else some a
  | none, b => b

/-- `USING method` -/
def indexMethod : Reading (Option String) := do
  if ← accept "USING" then return some (lower (← name "index method"))
  return none

/-- `ON CONFLICT action` -/
def conflictClause : Reading Unit := do
  if (← peekWord) == some "ON" && (← peekWordAt 1) == some "CONFLICT" then
    skip 2
    let _ ← advance

/-- one phrase about when a constraint is checked -/
def constraintAttribute : Reading (Unit ⊕ Unit) := do
  if (← acceptWord ["DEFERRABLE", "ENFORCED"]).isSome then return .inl ()
  if (← peekWord) == some "NOT" then
    if let some next ← peekWordAt 1 then
      if ["DEFERRABLE", "VALID", "ENFORCED"].contains next then
        skip 2
        return .inl ()
  if ← accept "INITIALLY" then
    let _ ← expectWord ["DEFERRED", "IMMEDIATE"]
    return .inl ()
  return .inr ()

/-- when a constraint is checked; nothing of it is kept -/
def constraintAttributes : Reading Unit := iterate (fun _ => constraintAttribute) ()

/-- a name in a list; a length and an order behind it are passed over -/
def listedColumn : Reading String := do
  let column ← name "column name"
  if ← peekPunct "(" then
    let _ ← group
  let _ ← acceptWord ["ASC", "DESC"]
  return column

/-- `(name, ...)` -/
def columnList : Reading (List String) := do
  expectPunct "("
  commaList listedColumn

/-- the referential action that a phrase names -/
def referentialAction : Reading ReferentialAction := do
  let phrases := ["CASCADE", "RESTRICT", "SET NULL", "SET DEFAULT", "NO ACTION"]
  let word ← expectWord phrases
  return (ReferentialAction.ofName? word).getD .noAction

/-- one event of a foreign key and what happens then -/
def referenceEvent (clause : ReferenceClause) : Reading (ReferenceClause ⊕ ReferenceClause) := do
  if ← accept "MATCH" then
    let _ ← advance
    return .inl clause
  match ← acceptWord ["ON DELETE", "ON UPDATE"] with
  | none => return .inr clause
  | some word =>
    let action ← referentialAction
    if word == "ON DELETE" then return .inl { clause with onDelete := some action }
    return .inl { clause with onUpdate := some action }

/-- what stands behind `REFERENCES` -/
def referenceClause : Reading ReferenceClause := do
  let table ← qualifiedName "table name"
  let columns ← if ← peekPunct "(" then columnList else pure []
  let clause ← iterate referenceEvent { table := table, columns := columns }
  constraintAttributes
  return clause

/-! ## Indexed elements -/

/-- an element of an index: a column with an optional length and order, or an expression -/
def indexElement (head : Token) (rest : List Token) : Reading IndexElement := do
  let text ← verbatim (head :: rest)
  let isDescending (t : Token) : Bool := t.word? == some "DESC"
  let expression : IndexElement := ⟨text, none, isDescending (rest.getLastD head)⟩
  if head.isWord && !head.isPhrase then
    let rest :=
      match rest with
      | a :: b :: c :: more =>
        if a.isPunct "(" && b.kind == TokenKind.number && c.isPunct ")" then more else rest
      | _ => rest
    if rest.all (·.isWord) then
      return ⟨text, some (head.nameIn (← dialect)), rest.any isDescending⟩
  return expression

/-- the tokens up to the end of an element, as one -/
def listedElement : Reading IndexElement := do
  match ← collectAll with
  | [] => refuse (.expected "an index element")
  | head :: rest => indexElement head rest

/-- `(element, ...)` -/
def indexElements : Reading (List IndexElement) := do
  expectPunct "("
  commaList listedElement

/-! ## Types -/

/-- the tokens between the commas outside all parentheses -/
def splitCommas : Nat → List Token → List (List Token)
  | _, [] => [[]]
  | depth, t :: rest =>
    if depth = 0 ∧ t.isPunct "," then [] :: splitCommas 0 rest
    else
      let depth :=
        if t.isPunct "(" then depth + 1 else if t.isPunct ")" then depth - 1 else depth
      match splitCommas depth rest with
      | [] => [[t]]
      | part :: parts => (t :: part) :: parts

/-- one argument of a type: the value of a text, the characters of anything else -/
def typeArgument (tokens : List Token) : Reading String := do
  match tokens with
  | [t] => if t.kind == .string then return t.value else verbatim tokens
  | _ => verbatim tokens

/-- `(argument, ...)`; empty arguments are left out -/
def typeArguments : Reading (List String) := do
  let inner ← group
  ((splitCommas 0 inner).filter fun part => !part.isEmpty).mapM typeArgument

/-- cuts an ending off a text that has it -/
def cutSuffix? (suffix text : String) : Option String :=
  if suffix.toList.isSuffixOf text.toList then
    some (String.ofList (text.toList.take (text.length - suffix.length)))
  else none

/-- the name of a type without its time zone part, and what that part says -/
def splitTimezone (base : String) : String × Option Bool :=
  let (base, zone) :=
    match cutSuffix? " WITH TIME ZONE" base with
    | some shorter => (shorter, some true)
    | none => (base, none)
  match cutSuffix? " WITHOUT TIME ZONE" base with
  | some shorter => (shorter, some false)
  | none => (base, zone)

/-- the first word of a type, with the name behind its schema -/
def typeHead : Reading TypeName := do
  match ← peek with
  | none => refuse (.expected "a column type")
  | some t =>
    if !t.isWord then refuse (.expected "a column type")
    let _ ← advance
    if t.kind == .keyword then return { base := t.value }
    let first := t.nameIn (← dialect)
    if ← acceptPunct "." then
      let second ← name "type name"
      return { base := upper second, identifier := some second, schema := some first }
    return { base := upper first, identifier := some first }

/-- `UNSIGNED` and its like -/
def signedness (unsigned : Bool) : Reading (Bool ⊕ Bool) := do
  match ← acceptWord ["UNSIGNED", "SIGNED", "ZEROFILL"] with
  | none => return .inr unsigned
  | some word => return .inl (unsigned || word == "UNSIGNED")

/-- drops the tokens through the next closing bracket -/
def skipBracket : Reading Unit := fun scope cursor =>
  match cursor.rest.dropWhile fun t => !t.isPunct "]" with
  | [] => refuse .unexpectedEnd scope { cursor with rest := [] }
  | _ :: rest => .ok () { cursor with rest := rest }

/-- `[ ... ]` and `ARRAY` -/
def arrayBounds (isArray : Bool) : Reading (Bool ⊕ Bool) := do
  if ← acceptPunct "[" then
    skipBracket
    return .inl true
  if ← accept "ARRAY" then return .inl true
  return .inr isArray

/-- a declared type -/
def typeName : Reading TypeName := do
  let (declared, tokens) ← withTokens do
    let head ← typeHead
    let (base, zone) := splitTimezone head.base
    let args ← if ← peekPunct "(" then typeArguments else pure []
    let zone ← match ← acceptWord ["WITH TIME ZONE", "WITHOUT TIME ZONE"] with
      | some word => pure (some (word == "WITH TIME ZONE"))
      | none => pure zone
    let unsigned ← iterate signedness false
    let isArray ← iterate arrayBounds false
    return { head with
      base := base, args := args, timezone := zone, unsigned := unsigned, isArray := isArray }
  return { declared with raw := ← verbatim tokens }

/-! ## Columns -/

/-- a column as read so far, and the name of the constraint that comes next -/
structure ColumnDraft where
  column : ColumnClause
  constraint : Option String := none

/-- adds a constraint under the pending name -/
def ColumnDraft.constrain (draft : ColumnDraft) (clause : Option String → ConstraintClause) :
    ColumnClause :=
  { draft.column with constraints := draft.column.constraints ++ [clause draft.constraint] }

/-- one clause behind a column's type, beginning with the token -/
def columnClause (draft : ColumnDraft) (t : Token) (word : String) : Reading ColumnClause := do
  let column := draft.column
  match word with
  | "NOT NULL" =>
    let _ ← advance
    return { column with notNull := some true }
  | "NULL" =>
    let _ ← advance
    return { column with notNull := some false }
  | "PRIMARY KEY" =>
    let _ ← advance
    let _ ← acceptWord ["ASC", "DESC"]
    conflictClause
    let numbered ← accept "AUTOINCREMENT"
    let column := draft.constrain fun name => .primaryKey [column.name] name t.position
    return { column with autoIncrement := column.autoIncrement || numbered }
  | "UNIQUE" | "UNIQUE KEY" =>
    let _ ← advance
    conflictClause
    return draft.constrain fun name => .unique [column.name] name t.position
  | "DEFAULT" =>
    let _ ← advance
    return { column with default := some (← expression columnClauseStarts) }
  | "CHECK" =>
    let _ ← advance
    let text ← verbatim (← group)
    return draft.constrain fun name => .check text name (some column.name) t.position
  | "REFERENCES" =>
    let _ ← advance
    let reference ← referenceClause
    return draft.constrain fun name => .foreignKey [column.name] reference name t.position
  | "AUTO_INCREMENT" | "AUTOINCREMENT" =>
    let _ ← advance
    return { column with autoIncrement := true }
  | "IDENTITY" | "GENERATED ALWAYS AS IDENTITY" | "GENERATED BY DEFAULT AS IDENTITY" =>
    let _ ← advance
    if ← peekPunct "(" then
      let _ ← group
    return { column with autoIncrement := true }
  | "GENERATED ALWAYS AS" | "AS" =>
    let _ ← advance
    let text ← verbatim (← group)
    let _ ← acceptWord ["STORED", "VIRTUAL", "PERSISTED"]
    return { column with generated := some text }
  | "COMMENT" =>
    let _ ← advance
    return { column with comment := some (← stringLiteral) }
  | "COLLATE" =>
    let _ ← advance
    let _ ← advance
    return column
  | "CHARACTER SET" | "CHARSET" =>
    let _ ← advance
    let _ ← acceptOperator "="
    let _ ← advance
    return column
  | "ON UPDATE" =>
    let _ ← advance
    let _ ← expression columnClauseStarts
    return column
  | "DEFERRABLE" | "INITIALLY" =>
    constraintAttributes
    return column
  | "FIRST" =>
    let _ ← advance
    return column
  | "AFTER" =>
    let _ ← advance
    let _ ← name "column name"
    return column
  | _ =>
    let next ← peekWordAt 1
    if word == "NOT" && next == some "DEFERRABLE" then
      constraintAttributes
      return column
    if word == "ON" && next == some "CONFLICT" then
      conflictClause
      return column
    refuse (.strayInColumn column.name)

/-- one more clause of a column, or the name of a constraint that comes next -/
def furtherClause (draft : ColumnDraft) : Reading (ColumnDraft ⊕ ColumnClause) := do
  match ← peek with
  | none => return .inr draft.column
  | some t =>
    if t.isPunct "," || t.isPunct ")" then return .inr draft.column
    match t.word? with
    | none => refuse (.strayInColumn draft.column.name)
    | some "CONSTRAINT" =>
      let _ ← advance
      return .inl { draft with constraint := some (← name "constraint name") }
    | some word => return .inl { column := ← columnClause draft t word }

/-- the clauses behind a column's type, up to a comma or a closing parenthesis -/
def columnClauses (column : ColumnClause) : Reading ColumnClause :=
  iterate furtherClause { column := column }

/-- what follows the name of a column shows that it has no type -/
def lacksType : Reading Bool := do
  match ← peek with
  | none => return true
  | some t =>
    return t.isPunct "," || t.isPunct ")" || (t.word?.map columnClauseStarts.contains).getD false

/-- a column declaration -/
def columnDefinition : Reading ColumnClause := do
  let first ← peek
  let column ← name "column name"
  let position := (first.map (·.position)).getD Position.start
  if ← lacksType then
    unless (← dialect).optionalColumnTypes || (← peekWord) == some "AS" do
      refuse (.missingType column)
    columnClauses { name := column, type := none, position := position }
  else
    let declared ← typeName
    columnClauses { name := column, type := some declared, position := position }

/-! ## Constraints of a table -/

/-- a constraint or an index begins here, not a column -/
def atTableConstraint : Reading Bool := do
  match ← peekWord with
  | none => return false
  | some word =>
    if tableConstraintStarts.contains word then return true
    let d ← dialect
    if d != .mysql || !inlineIndexStarts.contains word then return false
    match ← peekAt 1 with
    | none => return true
    | some next =>
      if !next.isWord || (d.typeRule? next.text).isNone then return true
      let opens := ((← peekAt 2).map (·.isPunct "(")).getD false
      return opens && ((← peekAt 3).map Token.isWord).getD false

/-- the clauses behind the column list of a key -/
def keyTail : Reading Unit := do
  let _ ← indexMethod
  conflictClause
  constraintAttributes

/-- the name of an index in front of its column list -/
def indexName? : Reading (Option String) := do
  if ← peekPunct "(" then return none
  return some (← name "index name")

/-- an index inside a table declaration; a kind is kept in small letters -/
def inlineIndex (given : Option String) (position : Position) : Reading ConstraintClause := do
  let word := (← advance).word?
  let isKind := word == some "FULLTEXT" || word == some "SPATIAL"
  if isKind then
    let _ ← acceptWord ["KEY", "INDEX"]
  let own ← indexName?
  let method ← indexMethod
  let elements ← indexElements
  let method := firstFilled (← indexMethod) method
  let kind := if isKind then word.map lower else method
  return .index elements (firstFilled own given) false kind position

/-- a constraint or an index of a table declaration; one that is passed over gives nothing -/
def tableConstraint : Reading (Option ConstraintClause) := do
  let first ← peek
  let position := (first.map (·.position)).getD Position.start
  let given ← if ← accept "CONSTRAINT" then some <$> name "constraint name" else pure none
  match ← peekWord with
  | some "PRIMARY KEY" =>
    let _ ← advance
    let _ ← acceptWord ["CLUSTERED", "NONCLUSTERED"]
    let columns ← columnList
    keyTail
    return some (.primaryKey columns given position)
  | some "UNIQUE" | some "UNIQUE KEY" | some "UNIQUE INDEX" =>
    let _ ← advance
    let _ ← acceptWord ["KEY", "INDEX", "CLUSTERED", "NONCLUSTERED"]
    let own ← indexName?
    let columns ← columnList
    keyTail
    return some (.unique columns (if own.isSome then firstFilled given own else given) position)
  | some "FOREIGN KEY" =>
    let _ ← advance
    let own ← indexName?
    let columns ← columnList
    let _ ← expectWord ["REFERENCES"]
    let reference ← referenceClause
    return some (.foreignKey columns reference
      (if own.isSome then firstFilled given own else given) position)
  | some "CHECK" =>
    let _ ← advance
    let text ← verbatim (← group)
    constraintAttributes
    return some (.check text given none position)
  | some "EXCLUDE" =>
    note .warning "UNSUPPORTED_CLAUSE" "Skipped unsupported EXCLUDE constraint in table definition"
      position
    let _ ← collectAll
    return none
  | some word =>
    if inlineIndexStarts.contains word then return some (← inlineIndex given position)
    refuse (.expected "a table constraint")
  | none => refuse (.expected "a table constraint")

end SchemaApi.Reading
