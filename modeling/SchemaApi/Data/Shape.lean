import SchemaApi.Data.Value
import SchemaApi.Refusal
import SchemaApi.Text.Blank
/-!
Shapes of data: what a record demands of its fields.

Checking data against a shape either gives the data in its final form, with defaults filled in and
numbers and truth values read from texts, or lists every demand that is not met.
-/

namespace SchemaApi

open Text

mutual

/-- what a value has to be -/
inductive Shape where
  | any
  | text (minLength : Nat)
  | int (least most : Option Int)
  | bool
  /-- one of the names -/
  | choice (names : List String)
  /-- this name alone -/
  | constant (name : String)
  /-- a text that names something, given by its proper name -/
  | named (read : String → Except String String)
  | optional (inner : Shape)
  | list (minLength : Nat) (item : Shape)
  /-- a demand with words of its own on a value of a shape -/
  | checked (inner : Shape) (demand : Value → Option String)
  | record (fields : List Field)
  /-- a record whose shape hangs on one of its fields -/
  | tagged (tag : String) (cases : List Field)

/-- a name and the shape of what it names; a field without default has to be there -/
inductive Field where
  | mk (name : String) (default : Option Value) (shape : Shape)

end

namespace Field

def name : Field → String
  | .mk n _ _ => n

/-- a field that has to be there -/
def required (name : String) (shape : Shape) : Field := .mk name none shape

/-- a field that is null when it is missing -/
def nullable (name : String) (shape : Shape) : Field := .mk name (some .null) (.optional shape)

end Field

/-! ### Reading numbers and truth values -/

/-- a blank around a numeral -/
def isMargin (c : Char) : Bool := isBlank c && !(28 ≤ c.toNat && c.toNat ≤ 31)

/-- a text without the blanks around it -/
def trimMargin (cs : List Char) : List Char :=
  ((cs.dropWhile isMargin).reverse.dropWhile isMargin).reverse

/-- digits with single underscores between them, taken without those -/
def groupedDigits? : List Char → Option (List Char)
  | [] => none
  | [c] => if c.isDigit then some [c] else none
  | c :: '_' :: rest => if c.isDigit then (groupedDigits? rest).map (c :: ·) else none
  | c :: rest => if c.isDigit then (groupedDigits? rest).map (c :: ·) else none

/-- a numeral without a point and the zeros behind it -/
def dropZeroFraction (cs : List Char) : List Char :=
  let whole := cs.takeWhile (· ≠ '.')
  if ((cs.drop whole.length).drop 1).all (· = '0') then whole else cs

/-- the whole number that a text spells -/
def readInt? (text : String) : Option Int :=
  let cs := dropZeroFraction (trimMargin text.toList)
  let toNat? (digits : List Char) : Option Nat :=
    (groupedDigits? digits).map fun ds => ds.foldl (fun n c => 10 * n + (c.toNat - 48)) 0
  match cs with
  | '-' :: digits => (toNat? digits).map fun n => -(n : Int)
  | '+' :: digits => (toNat? digits).map fun n => (n : Int)
  | digits => (toNat? digits).map fun n => (n : Int)

def trueWords : List String := ["1", "on", "t", "true", "y", "yes"]

def falseWords : List String := ["0", "off", "f", "false", "n", "no"]

/-- the truth value that a word stands for, in any case -/
def readBool? (text : String) : Option Bool :=
  let word := String.ofList (text.toList.map Char.toLower)
  if trueWords.contains word then some true
  else if falseWords.contains word then some false
  else none

/-! ### Checking -/

namespace Shape

/-- what a demand with words of its own says -/
def complaint {α : Type} (message : String) : Except (List FieldFault) α :=
  .error [⟨[], "value_error", some ("Value error, " ++ message)⟩]

/-- a demand that is not met at the value itself -/
def fault {α : Type} (kind : String) : Except (List FieldFault) α := .error [⟨[], kind, none⟩]

/-- the faults, seen from one level further out -/
def within (step : String) (faults : List FieldFault) : List FieldFault :=
  faults.map fun f => { f with path := step :: f.path }

/-- a number within its bounds -/
def bounded (least most : Option Int) (n : Int) : Except (List FieldFault) Value :=
  if least.any (n < ·) then fault "greater_than_equal"
  else if most.any (· < n) then fault "less_than_equal"
  else .ok (.int n)

/-- the whole number that a value stands for -/
def toInt : Value → Except (List FieldFault) Int
  | .int n => .ok n
  | .bool b => .ok (if b then 1 else 0)
  | .float (.infinite _) => fault "finite_number"
  | .float x =>
    match x.toInt? with
    | some n => .ok n
    | none => fault "int_from_float"
  | .str s =>
    match readInt? s with
    | some n => .ok n
    | none => fault "int_parsing"
  | _ => fault "int_type"

/-- the truth value that a value stands for -/
def toBool : Value → Except (List FieldFault) Bool
  | .bool b => .ok b
  | .int n => if n = 0 then .ok false else if n = 1 then .ok true else fault "bool_parsing"
  | .float x =>
    match x.toInt? with
    | some n => if n = 0 then .ok false else if n = 1 then .ok true else fault "bool_parsing"
    | none => fault "bool_type"
  | .str s =>
    match readBool? s with
    | some b => .ok b
    | none => fault "bool_parsing"
  | _ => fault "bool_type"

/-- the items, if every one of them is in order -/
def collectItems (results : List (Except (List FieldFault) Value)) :
    Except (List FieldFault) (List Value) :=
  let faults := (results.zipIdx.map fun (r, i) =>
    match r with
    | .ok _ => []
    | .error fs => within (toString i) fs).flatten
  if faults.isEmpty then .ok (results.filterMap fun | .ok v => some v | .error _ => none)
  else .error faults

/-- the entries that are no field of a record -/
def extraFaults (fields : List Field) (entries : List (String × Value)) : List FieldFault :=
  (entries.filter fun e => !fields.any fun f => f.name == e.1).map
    fun e => ⟨[e.1], "extra_forbidden", none⟩

mutual

/-- a value in the form that the shape asks for, or what is wrong with it -/
def check : Shape → Value → Except (List FieldFault) Value
  | .any, v => .ok v
  | .text minLength, .str s =>
    if s.length < minLength then fault "string_too_short" else .ok (.str s)
  | .text _, _ => fault "string_type"
  | .int least most, v =>
    match toInt v with
    | .ok n => bounded least most n
    | .error fs => .error fs
  | .bool, v => (toBool v).map .bool
  | .choice names, .str s => if names.contains s then .ok (.str s) else fault "enum"
  | .choice _, _ => fault "enum"
  | .constant name, v =>
    match v with
    | .str s => if s = name then .ok v else fault "literal_error"
    | _ => fault "literal_error"
  | .named read, .str s =>
    match read s with
    | .ok name => .ok (.str name)
    | .error message => complaint message
  | .named _, _ => fault "enum"
  | .optional _, .null => .ok .null
  | .optional inner, v => check inner v
  | .list minLength item, .list items =>
    match collectItems (items.map (check item)) with
    | .error fs => .error fs
    | .ok items => if items.length < minLength then fault "too_short" else .ok (.list items)
  | .list _ _, _ => fault "tuple_type"
  | .checked inner demand, v =>
    match check inner v with
    | .error fs => .error fs
    | .ok v =>
      match demand v with
      | none => .ok v
      | some message => complaint message
  | .record fields, .map entries =>
    let (faults, values) := checkFields fields entries
    match faults ++ extraFaults fields entries with
    | [] => .ok (.map values)
    | faults => .error faults
  | .record _, _ => fault "model_type"
  | .tagged tag cases, .map entries =>
    match entries.lookup tag with
    | none => fault "union_tag_not_found"
    | some (.str name) => checkCase cases name (.map entries)
    | some _ => fault "union_tag_invalid"
  | .tagged _ _, _ => fault "model_attributes_type"

/-- what is wrong with the fields of a record, and the fields in their order -/
def checkFields : List Field → List (String × Value) → List FieldFault × List (String × Value)
  | [], _ => ([], [])
  | .mk name default shape :: rest, entries =>
    let (faults, values) := checkFields rest entries
    match entries.lookup name with
    | some v =>
      match check shape v with
      | .ok v => (faults, (name, v) :: values)
      | .error fs => (within name fs ++ faults, values)
    | none =>
      match default with
      | some v => (faults, (name, v) :: values)
      | none => (⟨[name], "missing", none⟩ :: faults, values)

/-- a record of the case of a name -/
def checkCase : List Field → String → Value → Except (List FieldFault) Value
  | [], _, _ => fault "union_tag_invalid"
  | .mk name _ shape :: rest, wanted, v =>
    if name = wanted then (check shape v).mapError (within name) else checkCase rest wanted v

end

end Shape

/-- a record of a title, with the shape of its data -/
structure RecordShape where
  title : String
  shape : Shape

/-- the data of a record in its final form -/
def RecordShape.read (r : RecordShape) (v : Value) : Except Refusal Value :=
  (r.shape.check v).mapError (.record r.title)

end SchemaApi
