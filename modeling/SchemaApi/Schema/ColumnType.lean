import SchemaApi.Schema.Draft
import SchemaApi.Reading.Column
import SchemaApi.Text.Digit
/-!
From a declared type to its meaning.
-/

namespace SchemaApi

open Text

/-- A whole number as an argument of a type. Anything but digits is no number; digits that are not
decimal, and too many of them, are refused. -/
def wholeArgument (text : String) (allowZero : Bool) : Except Refusal (Option Nat) :=
  let digits := stripChars text.toList
  if digits.isEmpty || !digits.all isDigit then .ok none
  else if !digits.all isDecimal then .error (.notDecimal (String.ofList digits))
  else if maxDigits < digits.length then .error (.tooLong digits.length)
  else
    let n := decimalNumber digits
    .ok (if n = 0 ∧ !allowZero then none else some n)

/-- what a declared type comes to -/
structure TypeReading where
  type : SqlType
  /-- the database numbers the rows -/
  numbered : Bool := false
  /-- the type is in no table and is no declared enum type -/
  unknown : Bool := false

/-- the type of a column that is declared without one -/
def untyped : SqlType := { declared := "", base := "", meaning := .other }

/-- the rule of a type, the values it allows, and whether nothing is known about it -/
def ruleFor (d : Dialect) (enums : List (String × EnumType)) (t : TypeName) :
    TypeRule × List String × Bool :=
  match d.typeRule? t.base with
  | some rule => (rule, [], false)
  | none =>
    match t.identifier.bind fun name => enums.lookup (d.tableKey t.schema name) with
    | some enum => ({ meaning := .enum }, enum.values, false)
    | none =>
      if d.affinityTypes then (Dialect.affinityRule t.base, [], false) else (.other, [], true)

/-- the number that an argument of a type holds, if the type has that argument -/
def argumentAt (args : List String) (place : Nat) (allowZero : Bool) :
    Except Refusal (Option Nat) :=
  match args[place]? with
  | none => .ok none
  | some text => wholeArgument text allowZero

/-- the meaning of a declared type -/
def readType (d : Dialect) (enums : List (String × EnumType)) (t : TypeName) :
    Except Refusal TypeReading := do
  let (rule, values, unknown) := ruleFor d enums t
  let rule :=
    if d.tinyint1Boolean ∧ t.base = "TINYINT" ∧ t.args = ["1"] then TypeRule.boolean else rule
  let length ← if rule.arguments = .length then argumentAt t.args 0 false else pure none
  let precision ← if rule.arguments = .precision then argumentAt t.args 0 true else pure none
  let scale ← if rule.arguments = .precision then argumentAt t.args 1 true else pure none
  let type : SqlType :=
    { declared := if t.raw = "" then t.base else t.raw
      base := t.base
      meaning := rule.meaning
      format := rule.format
      length := length
      precision := precision
      scale := scale
      enumValues := if rule.arguments = .values then t.args else values
      isArray := t.isArray || rule.isArray
      unsigned := t.unsigned
      timezone := t.timezone.or rule.timezone }
  return ⟨type, rule.autoIncrement, unknown⟩

/-- the meaning of a type that may be missing -/
def readType? (d : Dialect) (enums : List (String × EnumType)) :
    Option TypeName → Except Refusal TypeReading
  | none => .ok { type := untyped }
  | some t => readType d enums t

/-- a declared column with its type read -/
def ColumnClause.toColumn (c : ColumnClause) (reading : TypeReading) : Column :=
  { name := c.name
    type := reading.type
    nullable := !c.notNull.getD false
    default := c.default
    autoIncrement := c.autoIncrement || reading.numbered
    generated := c.generated
    comment := c.comment }

namespace Workspace

/-- reports a type about which nothing is known -/
def reportType (w : Workspace) (t : Option TypeName) (reading : TypeReading) (place : String)
    (position : Position) (source : Option String) : Workspace :=
  if reading.unknown then
    let declared := (t.map fun t => if t.raw = "" then t.base else t.raw).getD ""
    w.report .warning "UNKNOWN_TYPE"
      s!"Unknown type '{declared}' for column '{place}'; mapped to 'other'" position source
  else w

end Workspace

end SchemaApi
