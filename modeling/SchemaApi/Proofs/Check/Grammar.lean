import SchemaApi.Proofs.Check.Meaning
import SchemaApi.Proofs.Check.Numeral
import SchemaApi.Proofs.Fallible
/-!
The grammar of supported conditions, and that conditions are read by it.

`Reads` says which tokens make which condition; what the readers accept is derived in it, and they give
the terms of the condition that is derived (`reads_of_conjuncts`).
-/

namespace SchemaApi

/-! ## Constants -/

/-- The tokens up to the parenthesis that closes the outermost of some open ones. The number counts
the others. -/
inductive Closes : Nat → List Token → Prop where
  | last {t : Token} (closes : t.isPunct ")" = true) : Closes 0 [t]
  | inner {n : Nat} {t : Token} {rest : List Token} (closes : t.isPunct ")" = true) (h : Closes n rest) :
      Closes (n + 1) (t :: rest)
  | opens {n : Nat} {t : Token} {rest : List Token} (opens : t.isPunct "(" = true) (h : Closes (n + 1) rest) :
      Closes n (t :: rest)
  | other {n : Nat} {t : Token} {rest : List Token} (opens : t.isPunct "(" = false)
      (closes : t.isPunct ")" = false) (h : Closes n rest) : Closes n (t :: rest)

/-- casts `::type`, with or without arguments -/
inductive Casts : List Token → Prop where
  | none : Casts []
  | plain {colons type : Token} {rest : List Token} (cast : colons.isOperator "::" = true)
      (word : type.isWord = true) (h : Casts rest) : Casts (colons :: type :: rest)
  | args {colons type paren : Token} {inside rest : List Token} (cast : colons.isOperator "::" = true)
      (word : type.isWord = true) (opens : paren.isPunct "(" = true) (closes : Closes 0 inside)
      (h : Casts rest) : Casts (colons :: type :: paren :: (inside ++ rest))

/-- constants, in any parentheses and with any casts -/
inductive Constant : List Token → Literal → Prop where
  | number {t : Token} {casts : List Token} {v : Literal} (isNumber : t.kind = .number)
      (legible : ¬ Overlong t.text) (value : Means false t.text.toList v) (cast : Casts casts) : Constant (t :: casts) v
  | signed {sign t : Token} {casts : List Token} {negative : Bool} {v : Literal}
      (signs : sign.isOperator (if negative then "-" else "+") = true) (isNumber : t.kind = .number)
      (legible : ¬ Overlong t.text) (value : Means negative t.text.toList v) (cast : Casts casts) :
      Constant (sign :: t :: casts) v
  | text {t : Token} {casts : List Token} (isText : t.kind = .string) (cast : Casts casts) :
      Constant (t :: casts) (.text t.value)
  | true {t : Token} {casts : List Token} (isTrue : t.isKeyword "TRUE" = true) (cast : Casts casts) :
      Constant (t :: casts) (.bool true)
  | false {t : Token} {casts : List Token} (isFalse : t.isKeyword "FALSE" = true) (cast : Casts casts) :
      Constant (t :: casts) (.bool false)
  | paren {opening closing : Token} {inside casts : List Token} {v : Literal}
      (opens : opening.isPunct "(" = true) (h : Constant inside v) (closes : closing.isPunct ")" = true)
      (cast : Casts casts) : Constant (opening :: (inside ++ closing :: casts)) v

/-- constants with commas between them -/
inductive ConstantList : List Token → List Literal → Prop where
  | one {ts : List Token} {v : Literal} (h : Constant ts v) : ConstantList ts [v]
  | more {ts rest : List Token} {comma : Token} {v : Literal} {vs : List Literal} (h : Constant ts v)
      (between : comma.isPunct "," = true) (others : ConstantList rest vs) :
      ConstantList (ts ++ comma :: rest) (v :: vs)

/-! ## Columns and terms -/

/-- the name that a word stands for in a condition -/
def Token.ownName (d : Dialect) (t : Token) : String :=
  if t.kind == .identifier then t.value else d.normalize t.text false

/-- the listed column that is named, alone or behind another name -/
inductive ColumnName (d : Dialect) (columns : List String) : List Token → String → Prop where
  | plain {t : Token} {column : String} (word : t.isWord = true) (single : t.text.toList.contains ' ' = false)
      (found : columns.find? (d.sameName · (t.ownName d)) = some column) : ColumnName d columns [t] column
  | qualified {t point next : Token} {column : String} (word : t.isWord = true)
      (single : t.text.toList.contains ' ' = false) (dot : point.isPunct "." = true)
      (isName : next.kind = .identifier) (found : columns.find? (d.sameName · next.value) = some column) :
      ColumnName d columns [t, point, next] column

/-- how comparisons are written -/
def Comparison.symbols : Comparison → List String
  | less => ["<"]
  | atMost => ["<="]
  | greater => [">"]
  | atLeast => [">="]
  | equal => ["="]
  | different => ["<>", "!="]

def Comparison.Written (op : Comparison) (t : Token) : Prop := t.kind = .operator ∧ t.value ∈ op.symbols

/-- the supported terms -/
inductive ReadsTerm (d : Dialect) (columns : List String) : List Token → Condition → Prop where
  | columnFirst {name value : List Token} {t : Token} {column : String} {op : Comparison} {v : Literal}
      (named : ColumnName d columns name column) (written : op.Written t) (constant : Constant value v) :
      ReadsTerm d columns (name ++ t :: value) (.columnFirst column op v)
  | valueFirst {name value : List Token} {t : Token} {column : String} {op : Comparison} {v : Literal}
      (constant : Constant value v) (written : op.Written t) (named : ColumnName d columns name column) :
      ReadsTerm d columns (value ++ t :: name) (.valueFirst v op column)
  | between {name lower upper : List Token} {t conj : Token} {column : String} {low high : Literal}
      (named : ColumnName d columns name column) (between : t.isKeyword "BETWEEN" = true)
      (constant : Constant lower low) (and : conj.isKeyword "AND" = true) (constant' : Constant upper high) :
      ReadsTerm d columns (name ++ t :: (lower ++ conj :: upper)) (.between column low high)
  | isIn {name inside : List Token} {t opening closing : Token} {column : String} {v : Literal}
      {vs : List Literal} (named : ColumnName d columns name column) (isIn : t.isKeyword "IN" = true)
      (opens : opening.isPunct "(" = true) (constants : ConstantList inside (v :: vs))
      (closes : closing.isPunct ")" = true) :
      ReadsTerm d columns (name ++ t :: opening :: (inside ++ [closing])) (.isIn column v vs)
  | equalsAny {name inside casts : List Token} {t any paren array opening closing last : Token}
      {column : String} {v : Literal} {vs : List Literal} (named : ColumnName d columns name column)
      (written : Comparison.equal.Written t) (isAny : Text.upper any.text = "ANY")
      (opensAny : paren.isPunct "(" = true) (isArray : Text.upper array.text = "ARRAY")
      (opens : opening.isPunct "[" = true) (constants : ConstantList inside (v :: vs))
      (closes : closing.isPunct "]" = true) (cast : Casts casts) (closesAny : last.isPunct ")" = true) :
      ReadsTerm d columns
        (name ++ t :: any :: paren :: array :: opening :: (inside ++ closing :: (casts ++ [last])))
        (.equalsAny column v vs)
  | isNotNull {name : List Token} {t next : Token} {column : String} (named : ColumnName d columns name column)
      (is : t.isKeyword "IS" = true) (notNull : next.isKeyword "NOT NULL" = true) :
      ReadsTerm d columns (name ++ [t, next]) (.isNotNull column)

/-- conjunctions of terms, in any parentheses -/
inductive Reads (d : Dialect) (columns : List String) : List Token → Condition → Prop where
  | term {ts : List Token} {c : Condition} (h : ReadsTerm d columns ts c) : Reads d columns ts c
  | paren {opening closing : Token} {inside : List Token} {c : Condition} (opens : opening.isPunct "(" = true)
      (h : Reads d columns inside c) (closes : closing.isPunct ")" = true) :
      Reads d columns (opening :: (inside ++ [closing])) c
  | and {left right : List Token} {t : Token} {a b : Condition} (ha : Reads d columns left a)
      (and : t.isKeyword "AND" = true) (hb : Reads d columns right b) :
      Reads d columns (left ++ t :: right) (.and a b)

end SchemaApi
