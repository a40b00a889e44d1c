import SchemaApi.Check.Rule
import SchemaApi.Token.Phrase
import SchemaApi.Finding
/-!
CHECK conditions as validation rules.

A condition is a conjunction of terms, in any parentheses. A term compares a column with constants:
`column op constant` or the other way round, `BETWEEN`, `IN`, `= ANY (ARRAY[...])`, `IS NOT NULL`.
If every term is of such a form, the condition becomes the rules of its terms from left to right;
otherwise it becomes one verbatim rule that carries it as written, and never a part of it.
-/

namespace SchemaApi

open Text

/-- why no rules are made of a condition -/
inductive NoRules where
  /-- it is outside the supported forms -/
  | unsupported
  | refused (r : Refusal)
  deriving DecidableEq, Repr

/-- what a term says of a column -/
structure Term where
  kind : RuleKind
  column : String
  value : RuleValue := .none
  deriving DecidableEq, Repr

/-! ## Parentheses and conjunctions -/

/-- the tokens behind the parenthesis that closes the outermost of some open ones -/
def closeParens : Nat → List Token → Option (List Token)
  | _, [] => none
  | depth, t :: rest =>
    if t.isPunct "(" then closeParens (depth + 1) rest
    else if t.isPunct ")" then
      match depth with
      | 0 => some rest
      | outer + 1 => closeParens outer rest
    else closeParens depth rest

theorem closeParens_length {depth : Nat} {ts rest : List Token}
    (h : closeParens depth ts = some rest) : rest.length < ts.length := by
  induction ts generalizing depth with
  | nil => simp [closeParens] at h
  | cons t ts ih =>
    simp only [closeParens] at h
    split at h
    · exact Nat.lt_succ_of_lt (ih h)
    · split at h
      · split at h
        · simp_all
        · exact Nat.lt_succ_of_lt (ih h)
      · exact Nat.lt_succ_of_lt (ih h)

/-- the depth of parentheses behind a token -/
def depthAfter (depth : Int) (t : Token) : Int :=
  if t.isPunct "(" then depth + 1 else if t.isPunct ")" then depth - 1 else depth

/-- the greatest depth of parentheses -/
def nesting (ts : List Token) : Int :=
  (ts.foldl (fun (depth, deepest) t =>
    let depth := depthAfter depth t
    (depth, max deepest depth)) ((0, 0) : Int × Int)).2

/-- no rules are made of deeper conditions -/
def maxNesting : Int := 64

/-- the tokens without the parentheses around all of them; fails if the first one is never closed -/
def unwrap : List Token → Option (List Token)
  | [] => some []
  | t :: rest =>
    if t.isPunct "(" ∧ rest ≠ [] then
      match closeParens 0 rest with
      | none => none
      | some [] => unwrap rest.dropLast
      | some _ => some (t :: rest)
    else some (t :: rest)
termination_by ts => ts.length
decreasing_by simp only [List.length_dropLast, List.length_cons]; omega

/-- Cuts at the words AND outside all parentheses. The AND that belongs to a BETWEEN stays. -/
def splitConjuncts : Int → Bool → List Token → List (List Token)
  | _, _, [] => [[]]
  | depth, inBetween, t :: rest =>
    if depth = 0 ∧ t.isKeyword "AND" ∧ !inBetween then [] :: splitConjuncts depth false rest
    else
      let inBetween :=
        if depth = 0 ∧ t.isKeyword "BETWEEN" then true
        else if depth = 0 ∧ t.isKeyword "AND" then false
        else inBetween
      match splitConjuncts (depthAfter depth t) inBetween rest with
      | [] => [[t]]
      | part :: parts => (t :: part) :: parts

/-- The terms of a conjunction, whatever its parentheses; fails on an empty term. The fuel bounds
the depth of nested conjunctions. -/
def conjuncts : Nat → List Token → Option (List (List Token))
  | 0, _ => none
  | fuel + 1, ts =>
    match unwrap ts with
    | none => none
    | some ts =>
      match splitConjuncts 0 false ts with
      | [_] => some [ts]
      | parts =>
        if parts.any List.isEmpty then none
        else (parts.mapM (conjuncts fuel)).map List.flatten

/-! ## Constants and columns -/

/-- the number that a numeral spells -/
def readNumber (text : String) : Except NoRules Literal :=
  match text.toList with
  | '0' :: x :: digits =>
    if x = 'x' ∨ x = 'X' then
      .ok (.int (digits.foldl (fun n c => 16 * n + hexDigitValue c) 0 : Nat))
    else decimal ('0' :: x :: digits)
  | cs => decimal cs
where
  hexDigitValue (c : Char) : Nat :=
    if c.isDigit then c.toNat - 48 else if c.isLower then c.toNat - 87 else c.toNat - 55
  decimal (cs : List Char) : Except NoRules Literal :=
    if cs.any fun c => c = '.' || c = 'e' || c = 'E' then
      .ok (.float (Numeral.ofChars cs).toBinary64)
    else if maxDigits < cs.length then .error (.refused (.tooLong cs.length))
    else .ok (.int (decimalNumber cs))

/-- a number with its sign turned -/
def Literal.negated : Literal → Literal
  | .int n => .int (-n)
  | .float x => .float x.neg
  | v => v

/-- the tokens behind casts `::type` with optional arguments -/
def skipCasts (ts : List Token) : Option (List Token) :=
  match ts with
  | colons :: type :: rest =>
    if colons.isOperator "::" ∧ type.isWord then
      match rest with
      | [] => some []
      | t :: more =>
        if t.isPunct "(" then
          match h : closeParens 0 more with
          | none => none
          | some behind =>
            have := closeParens_length h
            skipCasts behind
        else skipCasts (t :: more)
    else some ts
  | _ => some ts
termination_by ts.length

/-- casts passed over, or no rules -/
def passCasts (ts : List Token) : Except NoRules (List Token) :=
  match skipCasts ts with
  | some rest => .ok rest
  | none => .error .unsupported

/-- a constant without parentheses, and the tokens behind it -/
def plainLiteral (t : Token) (rest : List Token) :
    Except NoRules (Literal × List Token) :=
  if t.kind == .number then do
    let v ← readNumber t.text
    return (v, ← passCasts rest)
  else if t.kind == .string then do
    return (.text t.value, ← passCasts rest)
  else if t.isKeyword "TRUE" || t.isKeyword "FALSE" then do
    return (.bool (t.value == "TRUE"), ← passCasts rest)
  else .error .unsupported

/-- a number behind its sign -/
def signedLiteral (negative : Bool) : List Token → Except NoRules (Literal × List Token)
  | [] => .error .unsupported
  | t :: rest =>
    if t.kind == .number then do
      let v ← readNumber t.text
      return (if negative then v.negated else v, ← passCasts rest)
    else .error .unsupported

/-- a constant, in any parentheses and with any casts, and the tokens behind it -/
def literal : List Token → Except NoRules (Literal × List Token)
  | [] => .error .unsupported
  | t :: rest =>
    if t.isPunct "(" then
      match literal rest with
      | .error e => .error e
      | .ok (_, []) => .error .unsupported
      | .ok (v, closing :: behind) =>
        if closing.isPunct ")" then (passCasts behind).map (v, ·) else .error .unsupported
    else if t.isOperator "-" || t.isOperator "+" then signedLiteral (t.value == "-") rest
    else plainLiteral t rest

/-- constants with commas between them, up to a closing mark; the fuel bounds their number -/
def literals (closing : String) : Nat → List Token →
    Except NoRules (List Literal × List Token)
  | 0, _ => .error .unsupported
  | fuel + 1, ts => do
    let (v, rest) ← literal ts
    match rest with
    | [] => throw .unsupported
    | t :: rest =>
      if t.isPunct "," then
        let (vs, rest) ← literals closing fuel rest
        return (v :: vs, rest)
      else if t.isPunct closing then return ([v], rest)
      else throw .unsupported

/-- constants between an opening and a closing mark -/
def literalList (opening closing : String) : List Token →
    Except NoRules (List Literal × List Token)
  | [] => .error .unsupported
  | t :: rest =>
    if t.isPunct opening then literals closing rest.length rest else .error .unsupported

/-- `ANY (ARRAY` begins here -/
def startsAnyArray : List Token → Bool
  | any :: paren :: array :: _ =>
    upper any.text == "ANY" && paren.isPunct "(" && upper array.text == "ARRAY"
  | _ => false

/-- the constants of `ANY (ARRAY[...])`, and the tokens behind it -/
def anyArray (ts : List Token) : Except NoRules (List Literal × List Token) := do
  let (vs, rest) ← literalList "[" "]" (ts.drop 3)
  match ← passCasts rest with
  | [] => throw .unsupported
  | t :: rest => if t.isPunct ")" then return (vs, rest) else throw .unsupported

/-- the listed column that a word names, and the tokens behind it; another name may stand in front
with a point between -/
def columnAt? (d : Dialect) (columns : List String) : List Token → Option (String × List Token)
  | [] => none
  | t :: rest =>
    if !t.isWord || t.text.toList.contains ' ' then none
    else
      let own := if t.kind == .identifier then t.value else d.normalize t.text false
      let (name, rest) :=
        match rest with
        | point :: next :: behind =>
          if point.isPunct "." ∧ next.kind == .identifier then (next.value, behind) else (own, rest)
        | _ => (own, rest)
      (columns.find? (d.sameName · name)).map (·, rest)

/-! ## Terms -/

/-- the kind of rule that `column op constant` makes -/
def comparison? (op : String) : Option RuleKind :=
  match op with
  | ">" => some .exclusiveMinimum
  | ">=" => some .minimum
  | "<" => some .exclusiveMaximum
  | "<=" => some .maximum
  | "=" => some .const
  | "<>" => some .notEqual
  | "!=" => some .notEqual
  | _ => none

/-- the kind of rule that `constant op column` makes -/
def swapped : RuleKind → RuleKind
  | .exclusiveMinimum => .exclusiveMaximum
  | .minimum => .maximum
  | .exclusiveMaximum => .exclusiveMinimum
  | .maximum => .minimum
  | kind => kind

/-- the comparison that an operator stands for -/
def operatorKind? (t : Token) : Option RuleKind :=
  if t.kind == .operator then comparison? t.value else none

/-- a result with nothing behind it -/
def whole {α : Type} (result : α × List Token) : Except NoRules α :=
  if result.2.isEmpty then .ok result.1 else .error .unsupported

/-- what stands behind a column and a comparison -/
def comparisonTerm (kind : RuleKind) (column : String) (rest : List Token) :
    Except NoRules (List Term) :=
  if kind == .const && startsAnyArray rest then do
    return [⟨.enum, column, .many (← whole (← anyArray rest))⟩]
  else do
    return [⟨kind, column, .one (← whole (← literal rest))⟩]

/-- what stands behind a column and BETWEEN -/
def betweenTerm (column : String) (rest : List Token) : Except NoRules (List Term) := do
  let (low, rest) ← literal rest
  match rest with
  | [] => throw .unsupported
  | t :: rest =>
    if t.isKeyword "AND" then
      let high ← whole (← literal rest)
      return [⟨.minimum, column, .one low⟩, ⟨.maximum, column, .one high⟩]
    else throw .unsupported

/-- a term that begins with a column -/
def columnTerm (column : String) : List Token → Except NoRules (List Term)
  | [] => .error .unsupported
  | t :: rest =>
    match operatorKind? t with
    | some kind => comparisonTerm kind column rest
    | none =>
      if t.isKeyword "BETWEEN" then betweenTerm column rest
      else if t.isKeyword "IN" then do
        return [⟨.enum, column, .many (← whole (← literalList "(" ")" rest))⟩]
      else if t.isKeyword "IS" then
        match rest with
        | [next] =>
          if next.isKeyword "NOT NULL" then .ok [⟨.notNull, column, .none⟩]
          else .error .unsupported
        | _ => .error .unsupported
      else .error .unsupported

/-- what a term says -/
def readTerm (d : Dialect) (columns : List String) (ts : List Token) :
    Except NoRules (List Term) :=
  match columnAt? d columns ts with
  | some (column, rest) => columnTerm column rest
  | none => do
    let (v, rest) ← literal ts
    match rest with
    | [] => throw .unsupported
    | t :: rest =>
      match operatorKind? t, columnAt? d columns rest with
      | some kind, some (column, []) => return [⟨swapped kind, column, .one v⟩]
      | _, _ => throw .unsupported

/-! ## Rules -/

/-- the rule of a term -/
def Term.rule (expression : String) (t : Term) : Except Refusal ValidationRule := do
  let value ← t.value.message
  return {
    kind := t.kind
    fields := [t.column]
    value := t.value
    expression := some expression
    message := t.column ++ " " ++ demand t.kind value }

/-- the rules of one term -/
def termRules (d : Dialect) (columns : List String) (expression : String) (ts : List Token) :
    Except NoRules (List ValidationRule) := do
  let terms ← readTerm d columns ts
  (terms.mapM (Term.rule expression)).mapError .refused

/-- the rules of a condition of which all is understood -/
def rulesOf (d : Dialect) (columns : List String) (expression : String) :
    Except NoRules (List ValidationRule) := do
  let stream := tokenize d expression.toList
  let ts := stream.toList
  match stream.error? with
  | some ⟨.noNumeral, _⟩ => throw (.refused .noNumeral)
  | some _ => throw .unsupported
  | none =>
    if ts.isEmpty || maxNesting < nesting ts then throw .unsupported
    match conjuncts (ts.length + 1) ts with
    | none => throw .unsupported
    | some parts => return (← parts.mapM (termRules d columns expression)).flatten

/-- the rules of a condition, and the warning that it is not understood -/
structure ConditionRules where
  rules : List ValidationRule
  warning : Option Finding := none
  deriving DecidableEq, Repr

/-- all of the condition is understood -/
def ConditionRules.understood (c : ConditionRules) : Bool := c.warning.isNone

/-- the one rule of a condition that is not understood -/
def verbatimRule (expression : String) (column : Option String) : ValidationRule :=
  { kind := .verbatim
    fields :=
      match column with
      | some c => if c = "" then [] else [c]
      | none => []
    expression := some expression
    message := s!"Must satisfy CHECK ({expression})"
    complete := false }

/-- the warning about a condition that is not understood -/
def verbatimFinding (expression : String) (table : Option String) : Finding :=
  let place :=
    match table with
    | some t => if t = "" then "" else s!" on '{t}'"
    | none => ""
  Finding.about .warning .inference "UNTRANSLATED_CHECK"
    (s!"CHECK ({expression})" ++ place ++ " could not be translated into validation rules")
    none none

/-- The validation rules of a condition over columns. `column` is the column that the condition was
written at. -/
def conditionRules (d : Dialect) (columns : List String) (expression : String)
    (column table : Option String) : Except Refusal ConditionRules :=
  match rulesOf d columns expression with
  | .ok rules => .ok { rules := rules }
  | .error (.refused r) => .error r
  | .error .unsupported =>
    .ok {
      rules := [verbatimRule expression column]
      warning := some (verbatimFinding expression table) }

end SchemaApi
