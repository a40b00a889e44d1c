import SchemaApi.Data.Value
import SchemaApi.Refusal
import SchemaApi.Text.Quoted
/-!
Validation rules: what the values of a row have to satisfy, and how that is said.
-/

namespace SchemaApi

open Text

/-- a constant of an expression -/
inductive Literal where
  | int (n : Int)
  | float (x : Binary64)
  | text (s : String)
  | bool (b : Bool)
  deriving DecidableEq, Repr

def Literal.toValue : Literal → Value
  | int n => .int n
  | float x => .float x
  | text s => .str s
  | bool b => .bool b

/-- the kinds of rules; a verbatim one carries a condition that is not understood -/
inductive RuleKind where
  | required | notNull | maxLength | enum | unique | minimum | maximum | exclusiveMinimum
  | exclusiveMaximum | const | notEqual | verbatim
  deriving DecidableEq, Repr

namespace RuleKind

def all : List RuleKind :=
  [required, notNull, maxLength, enum, unique, minimum, maximum, exclusiveMinimum,
    exclusiveMaximum, const, notEqual, verbatim]

def name : RuleKind → String
  | required => "required"
  | notNull => "not_null"
  | maxLength => "max_length"
  | enum => "enum"
  | unique => "unique"
  | minimum => "minimum"
  | maximum => "maximum"
  | exclusiveMinimum => "exclusive_minimum"
  | exclusiveMaximum => "exclusive_maximum"
  | const => "const"
  | notEqual => "not_equal"
  | verbatim => "opaque"

end RuleKind

/-- what a rule compares with -/
inductive RuleValue where
  | none
  | one (value : Literal)
  | many (values : List Literal)
  deriving DecidableEq, Repr

def RuleValue.toValue : RuleValue → Value
  | none => .null
  | one v => v.toValue
  | many vs => .list (vs.map Literal.toValue)

/-- a rule about the fields of a row -/
structure ValidationRule where
  kind : RuleKind
  fields : List String := []
  value : RuleValue := .none
  /-- the condition that the rule comes from, as written -/
  expression : Option String := .none
  message : String := ""
  /-- the rule says all that the condition says -/
  complete : Bool := true
  deriving DecidableEq, Repr

def ValidationRule.toValue (r : ValidationRule) : Value := .map [
  ("kind", .str r.kind.name), ("field_names", .ofStrings r.fields), ("value", r.value.toValue),
  ("expression", .ofString? r.expression), ("message", .str r.message),
  ("translated", .bool r.complete)]

/-! ### Messages -/

/-- a constant as messages show it; a number of too many digits cannot be written -/
def Literal.message : Literal → Except Refusal String
  | int n =>
    if maxDigits < (Nat.toDigits 10 n.natAbs).length then .error .unwritable else .ok (toString n)
  | float x => .ok (x.text .padded)
  | text s => .ok (quoted s)
  | bool b => .ok (if b then "true" else "false")

def RuleValue.message : RuleValue → Except Refusal String
  | none => .ok ""
  | one v => v.message
  | many vs => (vs.mapM Literal.message).map fun parts => "[" ++ ", ".intercalate parts ++ "]"

/-- what a comparison demands of a field -/
def demand (kind : RuleKind) (value : String) : String :=
  match kind with
  | .minimum => s!"must be greater than or equal to {value}"
  | .maximum => s!"must be less than or equal to {value}"
  | .exclusiveMinimum => s!"must be greater than {value}"
  | .exclusiveMaximum => s!"must be less than {value}"
  | .const => s!"must equal {value}"
  | .notEqual => s!"must not equal {value}"
  | .enum => s!"must be one of {value}"
  | _ => "must not be null"

end SchemaApi
