import SchemaApi.Proofs.Reading.Report
/-!
Reading makes progress and stays within the tokens.

A cursor stands at a place among the tokens of a segment. Every rule refuses the statement or leaves the cursor at a
place that is neither before the one it was given nor behind the last token (`Outcome.Within`), since the tokens that it
leaves end those it was given (`Proceeds`). A statement, and every round after which a loop goes on, leaves a later
place (`Spends`). So loops end, and would if nothing looked at the tokens that they use up: the outcome of a loop is
derived from its rounds alone (`Ends`), and so is what is read from a segment (`ReadsTo`).

Four rules drop many tokens in one step here: groups, the tokens of an expression, those up to a closing bracket and
those up to the end of a statement. They are loops as well, over rounds of one token each.
-/

namespace SchemaApi

namespace Reading

/-! ## Loops token by token -/

/-- one more token of a group that is nested to a depth -/
def groupToken : Nat × List Token → Reading (Nat × List Token ⊕ List Token)
  | (depth, inner) => do
    let t ← advance
    if t.isPunct "(" then return .inl (depth + 1, inner ++ [t])
    if t.isPunct ")" then
      if depth = 0 then return .inr inner
      return .inl (depth - 1, inner ++ [t])
    return .inl (depth, inner ++ [t])

/-- one more token of an expression that is nested to a depth -/
def expressionToken (stopAt : Token → Bool) : Nat × List Token → Reading (Nat × List Token ⊕ List Token)
  | (depth, taken) => do
    match ← peek with
    | none => return .inr taken
    | some t =>
      if depth = 0 ∧ (t.isPunct "," ∨ t.isPunct ")" ∨ stopAt t) then return .inr taken
      let _ ← advance
      let depth := if t.isPunct "(" then depth + 1 else if t.isPunct ")" then depth - 1 else depth
      return .inl (depth, taken ++ [t])

/-- one more token in front of a closing bracket -/
def bracketToken : Reading (Unit ⊕ Unit) := do
  if ← acceptPunct "]" then return .inr ()
  let _ ← advance
  return .inl ()

/-- one more token of a statement -/
def remainingToken (taken : List Token) : Reading (List Token ⊕ List Token) := do
  if ← atStatementEnd then return .inr taken
  return .inl (taken ++ [← advance])

section
variable {scope : Scope} {notes : List Finding} {ts : List Token}

theorem groupToken_cons (depth : Nat) (inner : List Token) (t : Token) (rest : List Token) :
    groupToken (depth, inner) scope ⟨t :: rest, notes⟩ = .ok
      (if t.isPunct "(" then .inl (depth + 1, inner ++ [t])
      else if t.isPunct ")" then if depth = 0 then .inr inner else .inl (depth - 1, inner ++ [t])
      else .inl (depth, inner ++ [t])) ⟨rest, notes⟩ := by
  change (if t.isPunct "(" = true then _ else _ : Reading _) scope _ = _
  split_ifs <;> rfl

/-- what reading a group comes to that has these tokens already, its other ones split off -/
def groupOutcome (scope : Scope) (notes : List Finding) (inner : List Token) :
    Option (List Token × List Token) → Outcome (List Token)
  | some parts => .ok (inner ++ parts.1) ⟨parts.2, notes⟩
  | none => refuse .unexpectedEnd scope ⟨[], notes⟩

theorem groupOutcome_grow (inner : List Token) (t : Token) (split : Option (List Token × List Token)) :
    groupOutcome scope notes (inner ++ [t]) split =
      groupOutcome scope notes inner (split.map fun parts => (t :: parts.1, parts.2)) := by
  cases split with
  | none => rfl
  | some parts => simp [groupOutcome]

theorem iterate_groupToken (depth : Nat) (inner : List Token) :
    iterate groupToken (depth, inner) scope ⟨ts, notes⟩ = groupOutcome scope notes inner (splitGroup depth ts) := by
  induction ts generalizing depth inner with
  | nil =>
    rw [iterate]
    rfl
  | cons t rest ih =>
    have round : groupToken (depth, inner) scope ⟨t :: rest, notes⟩ = _ := groupToken_cons depth inner t rest
    have split := splitGroup.eq_def depth (t :: rest)
    -- a token that does not end the group belongs to it
    have inside (outer : Nat)
        (split : splitGroup depth (t :: rest) = (splitGroup outer rest).map fun parts => (t :: parts.1, parts.2))
        (round : groupToken (depth, inner) scope ⟨t :: rest, notes⟩ = .ok (.inl (outer, inner ++ [t])) ⟨rest, notes⟩) :
        iterate groupToken (depth, inner) scope ⟨t :: rest, notes⟩ =
          groupOutcome scope notes inner (splitGroup depth (t :: rest)) := by
      rw [iterate_goes round (Nat.lt_succ_self _), ih, groupOutcome_grow, split]
    by_cases opens : t.isPunct "(" = true
    · rw [if_pos opens] at round
      exact inside (depth + 1) (split.trans (if_pos opens)) round
    rw [if_neg opens] at round
    by_cases closes : t.isPunct ")" = true
    · rw [if_pos closes] at round
      cases depth with
      | zero =>
        have ends : splitGroup 0 (t :: rest) = some ([], rest) := split.trans ((if_neg opens).trans (if_pos closes))
        rw [iterate_done round, ends, groupOutcome, List.append_nil]
      | succ outer => exact inside outer (split.trans ((if_neg opens).trans (if_pos closes))) round
    · rw [if_neg closes] at round
      exact inside depth (split.trans ((if_neg opens).trans (if_neg closes))) round

theorem iterate_expressionToken (stopAt : Token → Bool) (depth : Nat) (taken : List Token) :
    iterate (expressionToken stopAt) (depth, taken) scope ⟨ts, notes⟩ =
      .ok (taken ++ (splitExpression stopAt depth ts).1) ⟨(splitExpression stopAt depth ts).2, notes⟩ := by
  induction ts generalizing depth taken with
  | nil => rw [iterate_done rfl, splitExpression, List.append_nil]
  | cons t rest ih =>
    rw [splitExpression]
    by_cases ends : depth = 0 ∧ (t.isPunct "," ∨ t.isPunct ")" ∨ stopAt t)
    · have round : expressionToken stopAt (depth, taken) scope ⟨t :: rest, notes⟩ =
          .ok (.inr taken) ⟨t :: rest, notes⟩ := by
        change (if _ then _ else _ : Reading _) scope _ = _
        rw [if_pos ends]
        rfl
      rw [iterate_done round, if_pos ends, List.append_nil]
    · have round : expressionToken stopAt (depth, taken) scope ⟨t :: rest, notes⟩ = .ok
          (.inl (if t.isPunct "(" then depth + 1 else if t.isPunct ")" then depth - 1 else depth, taken ++ [t]))
          ⟨rest, notes⟩ := by
        change (if _ then _ else _ : Reading _) scope _ = _
        rw [if_neg ends]
        rfl
      rw [iterate_goes round (Nat.lt_succ_self _), ih, if_neg ends, List.append_assoc]
      rfl

theorem iterate_bracketToken :
    iterate (fun _ => bracketToken) () scope ⟨ts, notes⟩ = skipBracket scope ⟨ts, notes⟩ := by
  induction ts with
  | nil =>
    rw [iterate]
    rfl
  | cons t rest ih =>
    have round : bracketToken scope ⟨t :: rest, notes⟩ =
        .ok (if t.isPunct "]" then .inr () else .inl ()) ⟨rest, notes⟩ := by
      by_cases closes : t.isPunct "]" = true
      · have taken : acceptPunct "]" scope ⟨t :: rest, notes⟩ = .ok true ⟨rest, notes⟩ := if_pos closes
        rw [bracketToken, andThen_ok taken, if_pos closes]
        rfl
      · have left : acceptPunct "]" scope ⟨t :: rest, notes⟩ = .ok false ⟨t :: rest, notes⟩ := if_neg closes
        rw [bracketToken, andThen_ok left, if_neg closes]
        rfl
    rw [skipBracket, List.dropWhile_cons]
    by_cases closes : t.isPunct "]" = true
    · rw [if_pos closes] at round
      rw [iterate_done round, closes]
      rfl
    · rw [if_neg closes] at round
      rw [iterate_goes round (Nat.lt_succ_self _), ih, skipBracket, if_pos (by simpa using closes)]

theorem iterate_remainingToken (taken : List Token) :
    iterate remainingToken taken scope ⟨ts, notes⟩ =
      .ok (taken ++ ts.takeWhile fun t => !startsStatement t) ⟨ts.dropWhile fun t => !startsStatement t, notes⟩ := by
  induction ts generalizing taken with
  | nil => rw [iterate_done rfl, List.takeWhile_nil, List.append_nil, List.dropWhile_nil]
  | cons t rest ih =>
    by_cases starts : startsStatement t = true
    · have round : remainingToken taken scope ⟨t :: rest, notes⟩ = .ok (.inr taken) ⟨t :: rest, notes⟩ := by
        change (if startsStatement t = true then _ else _ : Reading _) scope _ = _
        rw [if_pos starts]
        rfl
      rw [iterate_done round]
      simp [starts]
    · have round : remainingToken taken scope ⟨t :: rest, notes⟩ = .ok (.inl (taken ++ [t])) ⟨rest, notes⟩ := by
        change (if startsStatement t = true then _ else _ : Reading _) scope _ = _
        rw [if_neg starts]
        rfl
      rw [iterate_goes round (Nat.lt_succ_self _), ih]
      simp [starts]

end

/-- a group is read token by token -/
theorem group_eq : group = (expectPunct "(" >>= fun _ => iterate groupToken (0, [])) := by
  rw [group]
  refine congrArg (fun rule => expectPunct "(" >>= fun _ => rule) (funext fun scope => funext fun c => ?_)
  rw [iterate_groupToken]
  cases splitGroup 0 c.rest <;> rfl

/-- the tokens of an expression are collected one by one -/
theorem collect_eq (stopAt : Token → Bool) (depth : Nat) :
    collect stopAt depth = iterate (expressionToken stopAt) (depth, []) :=
  funext fun _ => funext fun _ => (iterate_expressionToken stopAt depth []).symm

theorem skipBracket_eq : skipBracket = iterate (fun _ => bracketToken) () :=
  funext fun _ => funext fun _ => iterate_bracketToken.symm

theorem restOfStatement_eq : restOfStatement = iterate remainingToken [] :=
  funext fun _ => funext fun _ => (iterate_remainingToken []).symm

/-! ## Rules and rounds -/

/-- The rules of the grammar. Dropping tokens unread (`skip`) is none of them: where a rule does so, it has looked at the
tokens before. -/
inductive IsRule : ∀ {α : Type}, Reading α → Prop where
  -- looking ahead
  | peek : IsRule peek
  | peekAt (ahead : Nat) : IsRule (peekAt ahead)
  | peekWord : IsRule peekWord
  | peekWordAt (ahead : Nat) : IsRule (peekWordAt ahead)
  | peekPunct (value : String) : IsRule (peekPunct value)
  | atEnd : IsRule atEnd
  | atStatementEnd : IsRule atStatementEnd
  -- single tokens
  | advance : IsRule advance
  | acceptWord (words : List String) : IsRule (acceptWord words)
  | accept (word : String) : IsRule (accept word)
  | expectWord (words : List String) : IsRule (expectWord words)
  | acceptPunct (value : String) : IsRule (acceptPunct value)
  | expectPunct (value : String) : IsRule (expectPunct value)
  | acceptOperator (value : String) : IsRule (acceptOperator value)
  | name (what : String) : IsRule (name what)
  | stringLiteral : IsRule stringLiteral
  -- names, groups and expressions
  | dottedNames (what next : String) : IsRule (dottedNames what next)
  | qualifiedName (what : String) : IsRule (qualifiedName what)
  | nameList (what : String) : IsRule (nameList what)
  | group : IsRule group
  | collect (stopAt : Token → Bool) (depth : Nat) : IsRule (collect stopAt depth)
  | collectAll : IsRule collectAll
  | expression (stopWords : List String) : IsRule (expression stopWords)
  | restOfStatement : IsRule restOfStatement
  | takeAll : IsRule takeAll
  -- columns and constraints
  | indexMethod : IsRule indexMethod
  | conflictClause : IsRule conflictClause
  | constraintAttributes : IsRule constraintAttributes
  | listedColumn : IsRule listedColumn
  | columnList : IsRule columnList
  | referentialAction : IsRule referentialAction
  | referenceClause : IsRule referenceClause
  | listedElement : IsRule listedElement
  | indexElements : IsRule indexElements
  | typeHead : IsRule typeHead
  | typeArguments : IsRule typeArguments
  | skipBracket : IsRule skipBracket
  | typeName : IsRule typeName
  | columnClause (draft : ColumnDraft) (t : Token) (word : String) : IsRule (columnClause draft t word)
  | columnClauses (column : ColumnClause) : IsRule (columnClauses column)
  | lacksType : IsRule lacksType
  | columnDefinition : IsRule columnDefinition
  | atTableConstraint : IsRule atTableConstraint
  | keyTail : IsRule keyTail
  | indexName? : IsRule indexName?
  | inlineIndex (given : Option String) (p : Position) : IsRule (inlineIndex given p)
  | tableConstraint : IsRule tableConstraint
  -- statements
  | tableOptions : IsRule tableOptions
  | tableElements : IsRule tableElements
  | createTable (start : Token) (temporary : Bool) : IsRule (createTable start temporary)
  | indexHead : IsRule indexHead
  | indexTail (method : Option String) : IsRule (indexTail method)
  | createIndex (start : Token) : IsRule (createIndex start)
  | createView (start : Token) (orReplace : Bool) : IsRule (createView start orReplace)
  | createEnum (start : Token) : IsRule (createEnum start)
  | createModifiers : IsRule createModifiers
  | create (start : Token) : IsRule (create start)
  | checkMode : IsRule checkMode
  | skipAction (t : Token) : IsRule (skipAction t)
  | addAction : IsRule addAction
  | dropAction : IsRule dropAction
  | alterColumnAction (column : String) (start : Token) : IsRule (alterColumnAction column start)
  | renameAction (start : Token) : IsRule (renameAction start)
  | otherAction (previous : Option TableAction) (t : Token) : IsRule (otherAction previous t)
  | tableAction (previous : Option TableAction) : IsRule (tableAction previous)
  | tableActions : IsRule tableActions
  | alter (start : Token) : IsRule (alter start)
  | drop (start : Token) : IsRule (drop start)
  | commentOn (start : Token) : IsRule (commentOn start)
  | statement : IsRule statement

/-- the rounds of the loops of the grammar -/
inductive IsRound : ∀ {σ α : Type}, (σ → Reading (σ ⊕ α)) → Prop where
  /-- items of a list up to a closing parenthesis: names of columns, elements of an index, values of a type -/
  | item {α : Type} {item : Reading α} (rule : IsRule item) : IsRound (commaItem item)
  | dottedName (what : String) : IsRound (dottedName what)
  | listedName (what : String) : IsRound (listedName what)
  | groupToken : IsRound groupToken
  | expressionToken (stopAt : Token → Bool) : IsRound (expressionToken stopAt)
  | bracketToken : IsRound fun _ => bracketToken
  | remainingToken : IsRound remainingToken
  | constraintAttribute : IsRound fun _ => constraintAttribute
  | referenceEvent : IsRound referenceEvent
  | signedness : IsRound signedness
  | arrayBounds : IsRound arrayBounds
  | furtherClause : IsRound furtherClause
  | tableElement : IsRound tableElement
  | tableOption : IsRound tableOption
  | indexClause : IsRound indexClause
  | createModifier : IsRound createModifier
  | furtherAction : IsRound furtherAction

theorem IsRule.proceeds {α : Type} {rule : Reading α} (h : IsRule rule) : Proceeds rule := by
  cases h <;> infer_instance

instance (round : Nat × List Token) : Proceeds (groupToken round) := by unfold groupToken; infer_instance

instance (round : Nat × List Token) : Spends (·.isLeft = true) (groupToken round) := by
  unfold groupToken
  infer_instance

instance (stopAt : Token → Bool) (round : Nat × List Token) : Proceeds (expressionToken stopAt round) := by
  refine .andThen inferInstance fun next => ?_
  cases next <;> infer_instance

instance (stopAt : Token → Bool) (round : Nat × List Token) : Spends (·.isLeft = true) (expressionToken stopAt round) := by
  refine .behind inferInstance fun next => ?_
  cases next <;> infer_instance

instance : Proceeds bracketToken := by unfold bracketToken; infer_instance

instance : Spends (·.isLeft = true) bracketToken := by unfold bracketToken; infer_instance

instance (taken : List Token) : Proceeds (remainingToken taken) := by unfold remainingToken; infer_instance

instance (taken : List Token) : Spends (·.isLeft = true) (remainingToken taken) := by
  unfold remainingToken
  infer_instance

section
variable {σ α : Type} {step : σ → Reading (σ ⊕ α)}

theorem IsRound.proceeds (h : IsRound step) (s : σ) : Proceeds (step s) := by
  cases h with
  | item rule => exact rule.proceeds.commaItem s
  | _ => infer_instance

/-- a round after which the loop goes on takes a token -/
theorem IsRound.spends (h : IsRound step) (s : σ) : Spends (·.isLeft = true) (step s) := by
  cases h with
  | item rule => exact Spends.commaItem rule.proceeds s
  | _ => infer_instance

/-! ## Loops end -/

/-- The loop goes from a state and a cursor to the outcome, round after round; nothing else is looked at. -/
inductive Ends (step : σ → Reading (σ ⊕ α)) (scope : Scope) : σ → Cursor → Outcome α → Prop where
  | stop {s : σ} {c : Cursor} {why : Stop} {notes : List Finding} (round : step s scope c = .stop why notes) :
      Ends step scope s c (.stop why notes)
  | last {s : σ} {c next : Cursor} {v : α} (round : step s scope c = .ok (.inr v) next) : Ends step scope s c (.ok v next)
  | more {s s' : σ} {c next : Cursor} {o : Outcome α} (round : step s scope c = .ok (.inl s') next)
      (later : Ends step scope s' next o) : Ends step scope s c o

/-- a loop ends with the outcome of its rounds if each round after which it goes on takes a token -/
theorem ends_iterate (takes : ∀ s, Spends (·.isLeft = true) (step s)) (scope : Scope) (s : σ) (c : Cursor) :
    Ends step scope s c (iterate step s scope c) := by
  -- the induction is on the tokens left
  induction size : c.rest.length using Nat.strongRecOn generalizing s c with
  | ind n ih =>
    cases round : step s scope c with
    | stop why notes =>
      rw [iterate_stop round]
      exact .stop round
    | ok v next =>
      cases v with
      | inr v =>
        rw [iterate_done round]
        exact .last round
      | inl s' =>
        have fewer : next.rest.length < c.rest.length := (takes s).fewer round rfl
        rw [iterate_goes round fewer]
        exact .more round (ih next.rest.length (size ▸ fewer) s' next rfl)

end

end Reading

/-! ## Places -/

/-- the tokens that are left are those from a place on: not before `first`, and not behind the end -/
def Cursor.From (tokens : List Token) (first : Nat) (c : Cursor) : Prop :=
  ∃ place, first ≤ place ∧ place ≤ tokens.length ∧ c.rest = tokens.drop place

/-- the statement is refused, or the tokens that are left are those from a place on, not before `first` -/
def Outcome.Within {α : Type} (tokens : List Token) (first : Nat) : Outcome α → Prop
  | .ok _ next => next.From tokens first
  | .stop why _ => why.isRefusal = true

section
variable {α : Type} {tokens : List Token} {place : Nat} {notes : List Finding} {scope : Scope}

/-- tokens that end those from a place on are those from another place on -/
theorem Cursor.from_of_suffix {c : Cursor} (suffix : c.rest <:+ tokens.drop place) {first : Nat}
    (fewer : c.rest.length + first ≤ tokens.length) : c.From tokens first := by
  have whole : c.rest <:+ tokens := suffix.trans (List.drop_suffix place tokens)
  exact ⟨tokens.length - c.rest.length, by omega, Nat.sub_le .., List.suffix_iff_eq_drop.1 whole⟩

/-- a rule stays within the tokens -/
theorem Reading.Proceeds.within {rule : Reading α} (h : Proceeds rule) (there : place ≤ tokens.length) :
    (rule scope ⟨tokens.drop place, notes⟩).Within tokens place := by
  cases run : rule scope ⟨tokens.drop place, notes⟩ with
  | stop why notes => exact (h.proper scope _).refused why _ run
  | ok v next =>
    have suffix : next.rest <:+ tokens.drop place := Proceeds.suffix run
    have fewer := suffix.length_le
    rw [List.length_drop] at fewer
    exact Cursor.from_of_suffix suffix (by omega)

/-- a rule that takes a token leaves a later place -/
theorem Reading.Spends.later {P : α → Prop} {rule : Reading α} (h : Spends P rule) (proceeds : Proceeds rule)
    {v : α} {next : Cursor} (run : rule scope ⟨tokens.drop place, notes⟩ = .ok v next) (holds : P v) :
    next.From tokens (place + 1) := by
  have suffix : next.rest <:+ tokens.drop place := Proceeds.suffix run
  have fewer : next.rest.length < (tokens.drop place).length := h.fewer run holds
  rw [List.length_drop] at fewer
  exact Cursor.from_of_suffix suffix (by omega)

theorem Reading.Spends.within {rule : Reading α} (h : Spends (fun _ => True) rule) (proceeds : Proceeds rule) :
    (rule scope ⟨tokens.drop place, notes⟩).Within tokens (place + 1) := by
  cases run : rule scope ⟨tokens.drop place, notes⟩ with
  | stop why notes => exact (proceeds.proper scope _).refused why _ run
  | ok v next => exact h.later proceeds run trivial

end

/-! ## Progress -/

/-- reading makes progress, stays within the tokens and ends -/
structure Progress (scope : Scope) : Prop where
  /-- a statement in front of a token is refused, or takes it -/
  statement {tokens : List Token} {place : Nat} (notes : List Finding) (before : place < tokens.length) :
    (Reading.statement scope ⟨tokens.drop place, notes⟩).Within tokens (place + 1)
  /-- a rule refuses the statement, or leaves the cursor between its place and the end -/
  rule {α : Type} {rule : Reading α} (h : Reading.IsRule rule) {tokens : List Token} {place : Nat} (notes : List Finding)
    (there : place ≤ tokens.length) : (rule scope ⟨tokens.drop place, notes⟩).Within tokens place
  /-- so does a round of a loop -/
  round {σ α : Type} {step : σ → Reading (σ ⊕ α)} (h : Reading.IsRound step) (s : σ) {tokens : List Token} {place : Nat}
    (notes : List Finding) (there : place ≤ tokens.length) : (step s scope ⟨tokens.drop place, notes⟩).Within tokens place
  /-- a round after which the loop goes on has taken a token -/
  further {σ α : Type} {step : σ → Reading (σ ⊕ α)} (h : Reading.IsRound step) {s s' : σ} {tokens : List Token}
    {place : Nat} {notes : List Finding} {next : Cursor}
    (goes : step s scope ⟨tokens.drop place, notes⟩ = .ok (.inl s') next) : next.From tokens (place + 1)
  /-- a loop ends, with what its rounds come to -/
  loop {σ α : Type} {step : σ → Reading (σ ⊕ α)} (h : Reading.IsRound step) (s : σ) (c : Cursor) :
    Reading.Ends step scope s c (Reading.iterate step s scope c)
  /-- a group is a loop over its tokens -/
  group : Reading.group = (Reading.expectPunct "(" >>= fun _ => Reading.iterate Reading.groupToken (0, []))
  /-- the tokens of an expression are collected in a loop -/
  expression (stopAt : Token → Bool) (depth : Nat) :
    Reading.collect stopAt depth = Reading.iterate (Reading.expressionToken stopAt) (depth, [])
  /-- tokens up to a closing bracket are dropped in a loop -/
  bracket : Reading.skipBracket = Reading.iterate (fun _ => Reading.bracketToken) ()
  /-- tokens up to the end of a statement are taken in a loop -/
  remaining : Reading.restOfStatement = Reading.iterate Reading.remainingToken []
  /-- the loop over the statements of a segment ends -/
  segment (tokens : List Token) : ReadsTo scope tokens (readFrom scope tokens)

/-- Reading makes progress and stays within the tokens, so it ends: a statement is refused or takes a token, no rule
leaves the tokens, and every loop takes a token before it goes on. -/
theorem reading_progresses (scope : Scope) : Progress scope where
  statement _ _ := Reading.Spends.within inferInstance inferInstance
  rule h _ _ _ there := h.proceeds.within there
  round h s _ _ _ there := (h.proceeds s).within there
  further h _ _ _ _ _ _ goes := (h.spends _).later (h.proceeds _) goes rfl
  loop h s c := Reading.ends_iterate h.spends scope s c
  group := Reading.group_eq
  expression := Reading.collect_eq
  bracket := Reading.skipBracket_eq
  remaining := Reading.restOfStatement_eq
  segment := readsTo_readFrom scope

-- two words that are dropped together, as the last ones and in front of others
example : (parseScript .sqlite none "ALTER TABLE t WITH CHECK").findings.map (·.message) =
      ["Expected an ALTER TABLE action at end of statement"] ∧
    (parseScript .sqlite none "CREATE TABLE t (a INTEGER NOT DEFERRABLE)").statements.length = 1 := by
  decide +kernel

end SchemaApi
