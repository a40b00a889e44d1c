/-!
Refusals: what ends an operation as a whole.

A record may demand of its fields that they are not empty, and a numeral may be unreadable. No
finding is made of that; the operation gives no result.
-/

namespace SchemaApi

/-- a demand of a record that a field does not meet -/
structure FieldFault where
  /-- the way to the field -/
  path : List String
  /-- the kind of demand -/
  kind : String
  /-- what the record says about it, where it has words of its own -/
  message : Option String := none
  deriving DecidableEq, Repr

/-- why an operation is refused -/
inductive Refusal where
  /-- a record of this title cannot be made -/
  | record (title : String) (faults : List FieldFault)
  /-- a numeral holds digits that are not decimal -/
  | notDecimal (numeral : String)
  /-- a numeral has too many digits -/
  | tooLong (digits : Nat)
  /-- a number has too many digits to be written -/
  | unwritable
  /-- a name means no field where it has to mean one -/
  | unknownField (name : String)
  /-- a text cannot be split into tokens, as a digit stands where no number can begin -/
  | noNumeral
  deriving DecidableEq, Repr

namespace Refusal

/-- a field that must not be empty is -/
def emptyField (title field : String) : Refusal :=
  .record title [⟨[field], "string_too_short", none⟩]

/-- a list that must not be empty is -/
def emptyList (title field : String) : Refusal :=
  .record title [⟨[field], "too_short", none⟩]

end Refusal

/-- the most digits a numeral may have -/
def maxDigits : Nat := 4300

end SchemaApi
