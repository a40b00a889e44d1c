import SchemaApi.Proofs.Check.Grammar
/-!
The documented conditions.

Here the constants are as they are spelled, with numerals of any length, and no column, alias or type is one of the
words that conjunctions are cut at. `Documented` says which tokens spell which condition, and with which constants from
left to right.
-/

namespace SchemaApi

/-- the words that conjunctions are cut at, or may be -/
def Token.joins (t : Token) : Bool := t.isKeyword "AND" || t.isKeyword "BETWEEN"

/-! ## Constants -/

/-- a constant as it is spelled; a number with its numeral and what this means behind its sign -/
inductive Operand where
  | number (numeral : String) (value : Literal)
  | text (s : String)
  | bool (b : Bool)
  deriving DecidableEq, Repr

def Operand.value : Operand → Literal
  | number _ v => v
  | text s => .text s
  | bool b => .bool b

/-- casts to types that are not words of conjunctions -/
inductive TypeCasts : List Token → Prop where
  | none : TypeCasts []
  | plain {colons type : Token} {rest : List Token} (cast : colons.isOperator "::" = true)
      (word : type.isWord = true) (free : type.joins = false) (h : TypeCasts rest) :
      TypeCasts (colons :: type :: rest)
  | args {colons type paren : Token} {inside rest : List Token} (cast : colons.isOperator "::" = true)
      (word : type.isWord = true) (free : type.joins = false) (opens : paren.isPunct "(" = true)
      (closes : Closes 0 inside) (h : TypeCasts rest) : TypeCasts (colons :: type :: paren :: (inside ++ rest))

/-- the tokens spell a constant, in any parentheses and with any casts -/
inductive Spells : List Token → Operand → Prop where
  | number {t : Token} {casts : List Token} {v : Literal} (isNumber : t.kind = .number)
      (value : Means false t.text.toList v) (cast : TypeCasts casts) : Spells (t :: casts) (.number t.text v)
  | signed {sign t : Token} {casts : List Token} {negative : Bool} {v : Literal}
      (signs : sign.isOperator (if negative then "-" else "+") = true) (isNumber : t.kind = .number)
      (value : Means negative t.text.toList v) (cast : TypeCasts casts) : Spells (sign :: t :: casts) (.number t.text v)
  | text {t : Token} {casts : List Token} (isText : t.kind = .string) (cast : TypeCasts casts) :
      Spells (t :: casts) (.text t.value)
  | truth {t : Token} {casts : List Token} {b : Bool} (isTruth : t.isKeyword (if b then "TRUE" else "FALSE") = true)
      (cast : TypeCasts casts) : Spells (t :: casts) (.bool b)
  | paren {opening closing : Token} {inside casts : List Token} {o : Operand}
      (opens : opening.isPunct "(" = true) (h : Spells inside o) (closes : closing.isPunct ")" = true)
      (cast : TypeCasts casts) : Spells (opening :: (inside ++ closing :: casts)) o

/-- the tokens spell constants with commas between them -/
inductive SpellsList : List Token → List Operand → Prop where
  | one {ts : List Token} {o : Operand} (h : Spells ts o) : SpellsList ts [o]
  | more {ts rest : List Token} {comma : Token} {o : Operand} {os : List Operand} (h : Spells ts o)
      (between : comma.isPunct "," = true) (others : SpellsList rest os) : SpellsList (ts ++ comma :: rest) (o :: os)

/-! ## Terms and conditions -/

/-- a listed column is named by words that are not words of conjunctions -/
structure NamesColumn (d : Dialect) (columns : List String) (ts : List Token) (column : String) : Prop where
  named : ColumnName d columns ts column
  free : ∀ t ∈ ts, t.joins = false

/-- the documented terms -/
inductive DocumentedTerm (d : Dialect) (columns : List String) : List Token → List Operand → Condition → Prop where
  | columnFirst {name value : List Token} {t : Token} {column : String} {op : Comparison} {o : Operand}
      (named : NamesColumn d columns name column) (written : op.Written t) (spelled : Spells value o) :
      DocumentedTerm d columns (name ++ t :: value) [o] (.columnFirst column op o.value)
  | valueFirst {name value : List Token} {t : Token} {column : String} {op : Comparison} {o : Operand}
      (spelled : Spells value o) (written : op.Written t) (named : NamesColumn d columns name column) :
      DocumentedTerm d columns (value ++ t :: name) [o] (.valueFirst o.value op column)
  | between {name lower upper : List Token} {t conj : Token} {column : String} {low high : Operand}
      (named : NamesColumn d columns name column) (between : t.isKeyword "BETWEEN" = true)
      (spelled : Spells lower low) (and : conj.isKeyword "AND" = true) (spelled' : Spells upper high) :
      DocumentedTerm d columns (name ++ t :: (lower ++ conj :: upper)) [low, high]
        (.between column low.value high.value)
  | isIn {name inside : List Token} {t opening closing : Token} {column : String} {o : Operand}
      {os : List Operand} (named : NamesColumn d columns name column) (isIn : t.isKeyword "IN" = true)
      (opens : opening.isPunct "(" = true) (spelled : SpellsList inside (o :: os))
      (closes : closing.isPunct ")" = true) :
      DocumentedTerm d columns (name ++ t :: opening :: (inside ++ [closing])) (o :: os)
        (.isIn column o.value (os.map Operand.value))
  | equalsAny {name inside casts : List Token} {t any paren array opening closing last : Token}
      {column : String} {o : Operand} {os : List Operand} (named : NamesColumn d columns name column)
      (written : Comparison.equal.Written t) (isAny : Text.upper any.text = "ANY")
      (opensAny : paren.isPunct "(" = true) (isArray : Text.upper array.text = "ARRAY")
      (opens : opening.isPunct "[" = true) (spelled : SpellsList inside (o :: os))
      (closes : closing.isPunct "]" = true) (cast : TypeCasts casts) (closesAny : last.isPunct ")" = true) :
      DocumentedTerm d columns
        (name ++ t :: any :: paren :: array :: opening :: (inside ++ closing :: (casts ++ [last]))) (o :: os)
        (.equalsAny column o.value (os.map Operand.value))
  | isNotNull {name : List Token} {t next : Token} {column : String} (named : NamesColumn d columns name column)
      (is : t.isKeyword "IS" = true) (notNull : next.isKeyword "NOT NULL" = true) :
      DocumentedTerm d columns (name ++ [t, next]) [] (.isNotNull column)

/-- the documented conditions: conjunctions of terms, in any parentheses -/
inductive Documented (d : Dialect) (columns : List String) : List Token → List Operand → Condition → Prop where
  | term {ts : List Token} {os : List Operand} {c : Condition} (h : DocumentedTerm d columns ts os c) :
      Documented d columns ts os c
  | paren {opening closing : Token} {inside : List Token} {os : List Operand} {c : Condition}
      (opens : opening.isPunct "(" = true) (h : Documented d columns inside os c)
      (closes : closing.isPunct ")" = true) : Documented d columns (opening :: (inside ++ [closing])) os c
  | and {left right : List Token} {t : Token} {os os' : List Operand} {a b : Condition}
      (ha : Documented d columns left os a) (and : t.isKeyword "AND" = true)
      (hb : Documented d columns right os' b) : Documented d columns (left ++ t :: right) (os ++ os') (.and a b)

end SchemaApi
