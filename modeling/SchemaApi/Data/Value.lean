import SchemaApi.Number.Binary64
/-!
Structured data: what configuration files hold and what documents are written from. The entries of
a map keep their order.
-/

namespace SchemaApi

inductive Value where
  | null
  | bool (b : Bool)
  | int (n : Int)
  | float (x : Binary64)
  | str (s : String)
  | list (items : List Value)
  | map (entries : List (String × Value))
  deriving Repr

namespace Value

/-- a text that may be missing -/
def ofString? : Option String → Value
  | some s => .str s
  | none => .null

def ofBool? : Option Bool → Value
  | some b => .bool b
  | none => .null

def ofNat (n : Nat) : Value := .int n

def ofNat? : Option Nat → Value
  | some n => .int n
  | none => .null

def ofStrings (texts : List String) : Value := .list (texts.map .str)

/-- the entry of a map under a name -/
def get? (name : String) : Value → Option Value
  | .map entries => entries.lookup name
  | _ => none

/-- the entry of a map under a name, null when there is none -/
def get (v : Value) (name : String) : Value := (v.get? name).getD .null

end Value

/-- Sets an entry of an ordered map: in place when the name is known, at the end otherwise. -/
def setEntry {α : Type} (entries : List (String × α)) (name : String) (value : α) :
    List (String × α) :=
  if entries.any (·.1 == name) then
    entries.map fun entry => if entry.1 == name then (name, value) else entry
  else entries ++ [(name, value)]

end SchemaApi
