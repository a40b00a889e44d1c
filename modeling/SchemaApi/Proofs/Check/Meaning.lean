import SchemaApi.Check.Condition
import Mathlib.Order.Lattice
/-!
What a condition means.

A row gives each column a value of an ordered domain, or none where the column is NULL. Of a row a
condition is true, false or unknown, and a comparison with NULL is unknown. A row passes a check unless
the condition is false, and this is what the terms of the condition demand of the row, one by one
(`Condition.truth_ne_fails_iff`).
-/

namespace SchemaApi

/-! ## Truth -/

inductive Truth where
  | holds | fails | unknown
  deriving DecidableEq, Repr

namespace Truth

def and : Truth → Truth → Truth
  | fails, _ => fails
  | _, fails => fails
  | holds, holds => holds
  | _, _ => unknown

def or : Truth → Truth → Truth
  | holds, _ => holds
  | _, holds => holds
  | fails, fails => fails
  | _, _ => unknown

def of (p : Prop) [Decidable p] : Truth := if p then holds else fails

theorem and_ne_fails_iff {a b : Truth} : a.and b ≠ fails ↔ a ≠ fails ∧ b ≠ fails := by
  cases a <;> cases b <;> simp [and]

theorem or_ne_fails_iff {a b : Truth} : a.or b ≠ fails ↔ a ≠ fails ∨ b ≠ fails := by
  cases a <;> cases b <;> simp [or]

theorem of_ne_fails_iff {p : Prop} [Decidable p] : of p ≠ fails ↔ p := by
  by_cases h : p <;> simp [of, h]

end Truth

/-! ## Conditions -/

inductive Comparison where
  | less | atMost | greater | atLeast | equal | different
  deriving DecidableEq, Repr

/-- the conditions that rules are made of -/
inductive Condition where
  | columnFirst (column : String) (op : Comparison) (value : Literal)
  | valueFirst (value : Literal) (op : Comparison) (column : String)
  | between (column : String) (low high : Literal)
  | isIn (column : String) (first : Literal) (others : List Literal)
  | equalsAny (column : String) (first : Literal) (others : List Literal)
  | isNotNull (column : String)
  | and (left right : Condition)
  deriving Repr

section
variable {Ω : Type} [LinearOrder Ω]

def Comparison.Relates : Comparison → Ω → Ω → Prop
  | less, a, b => a < b
  | atMost, a, b => a ≤ b
  | greater, a, b => b < a
  | atLeast, a, b => b ≤ a
  | equal, a, b => a = b
  | different, a, b => a ≠ b

instance (op : Comparison) (a b : Ω) : Decidable (op.Relates a b) :=
  match op with
  | .less => inferInstanceAs (Decidable (a < b))
  | .atMost => inferInstanceAs (Decidable (a ≤ b))
  | .greater => inferInstanceAs (Decidable (b < a))
  | .atLeast => inferInstanceAs (Decidable (b ≤ a))
  | .equal => inferInstanceAs (Decidable (a = b))
  | .different => inferInstanceAs (Decidable (a ≠ b))

/-- the truth of a relation between the value of a column and a constant -/
def compareColumn (row : String → Option Ω) (column : String) (p : Ω → Prop) [DecidablePred p] : Truth :=
  match row column with
  | none => .unknown
  | some x => .of (p x)

/-- the column equals one of the constants -/
def equalsOne (val : Literal → Ω) (row : String → Option Ω) (column : String) : List Literal → Truth
  | [] => .fails
  | v :: vs => (compareColumn row column (· = val v)).or (equalsOne val row column vs)

/-- the truth of a condition where constants have these values -/
def Condition.truth (val : Literal → Ω) (row : String → Option Ω) : Condition → Truth
  | columnFirst c op v => compareColumn row c (op.Relates · (val v))
  | valueFirst v op c => compareColumn row c (op.Relates (val v) ·)
  | between c low high => (compareColumn row c (val low ≤ ·)).and (compareColumn row c (· ≤ val high))
  | isIn c v vs => equalsOne val row c (v :: vs)
  | equalsAny c v vs => equalsOne val row c (v :: vs)
  | isNotNull c => .of (row c ≠ none)
  | and a b => (a.truth val row).and (b.truth val row)

/-! ## Rules -/

/-- a rule accepts the value of its field; NULL passes all rules but one -/
def RuleKind.Accepts (val : Literal → Ω) : RuleKind → RuleValue → Option Ω → Prop
  | notNull, .none, x => x ≠ none
  | minimum, .one v, x => ∀ y, x = some y → val v ≤ y
  | maximum, .one v, x => ∀ y, x = some y → y ≤ val v
  | exclusiveMinimum, .one v, x => ∀ y, x = some y → val v < y
  | exclusiveMaximum, .one v, x => ∀ y, x = some y → y < val v
  | const, .one v, x => ∀ y, x = some y → y = val v
  | notEqual, .one v, x => ∀ y, x = some y → y ≠ val v
  | enum, .many vs, x => ∀ y, x = some y → ∃ v ∈ vs, y = val v
  | _, _, _ => False

def Term.Holds (val : Literal → Ω) (row : String → Option Ω) (t : Term) : Prop :=
  t.kind.Accepts val t.value (row t.column)

/-- a rule about one field holds of a row -/
def ValidationRule.Holds (val : Literal → Ω) (row : String → Option Ω) (r : ValidationRule) : Prop :=
  ∃ column, r.fields = [column] ∧ r.kind.Accepts val r.value (row column)

end

/-! ## Terms of a condition -/

/-- the kind of rule that `column op constant` makes -/
def Comparison.kind : Comparison → RuleKind
  | less => .exclusiveMaximum
  | atMost => .maximum
  | greater => .exclusiveMinimum
  | atLeast => .minimum
  | equal => .const
  | different => .notEqual

/-- what a condition says, term by term -/
def Condition.terms : Condition → List Term
  | columnFirst c op v => [⟨op.kind, c, .one v⟩]
  | valueFirst v op c => [⟨swapped op.kind, c, .one v⟩]
  | between c low high => [⟨.minimum, c, .one low⟩, ⟨.maximum, c, .one high⟩]
  | isIn c v vs => [⟨.enum, c, .many (v :: vs)⟩]
  | equalsAny c v vs => [⟨.enum, c, .many (v :: vs)⟩]
  | isNotNull c => [⟨.notNull, c, .none⟩]
  | and a b => a.terms ++ b.terms

section
variable {Ω : Type} [LinearOrder Ω] {val : Literal → Ω} {row : String → Option Ω}

omit [LinearOrder Ω] in
theorem compareColumn_ne_fails_iff {column : String} {p : Ω → Prop} [DecidablePred p] :
    compareColumn row column p ≠ .fails ↔ ∀ x, row column = some x → p x := by
  unfold compareColumn
  cases row column with
  | none => simp
  | some x => simpa using Truth.of_ne_fails_iff

theorem equalsOne_ne_fails_iff {column : String} {v : Literal} {vs : List Literal} :
    equalsOne val row column (v :: vs) ≠ .fails ↔ ∀ x, row column = some x → ∃ w ∈ v :: vs, x = val w := by
  have base : ∀ vs, equalsOne val row column vs ≠ .fails ↔
      (vs ≠ [] ∧ row column = none) ∨ ∃ x, row column = some x ∧ ∃ w ∈ vs, x = val w := by
    intro vs
    induction vs with
    | nil => simp [equalsOne]
    | cons v vs ih =>
      rw [equalsOne, Truth.or_ne_fails_iff, compareColumn_ne_fails_iff, ih]
      cases row column with
      | none => simp
      | some x =>
        simp only [reduceCtorEq, and_false, false_or, Option.some.injEq, forall_eq', exists_eq_left',
          List.mem_cons, or_and_right, exists_or, exists_eq_left]
  rw [base]
  cases row column with
  | none => simp
  | some x =>
    simp only [reduceCtorEq, and_false, false_or, Option.some.injEq, forall_eq', exists_eq_left']

theorem columnFirst_ne_fails_iff {column : String} {op : Comparison} {v : Literal} :
    compareColumn row column (op.Relates · (val v)) ≠ .fails ↔ Term.Holds val row ⟨op.kind, column, .one v⟩ := by
  rw [compareColumn_ne_fails_iff]
  cases op <;> rfl

theorem valueFirst_ne_fails_iff {column : String} {op : Comparison} {v : Literal} :
    compareColumn row column (op.Relates (val v) ·) ≠ .fails ↔
      Term.Holds val row ⟨swapped op.kind, column, .one v⟩ := by
  rw [compareColumn_ne_fails_iff]
  cases op with
  | equal => exact forall₂_congr fun _ _ => eq_comm
  | different => exact forall₂_congr fun _ _ => ne_comm
  | _ => rfl

/-- a row passes a check exactly if each term of the condition holds of it -/
theorem Condition.truth_ne_fails_iff (c : Condition) :
    c.truth val row ≠ .fails ↔ ∀ t ∈ c.terms, t.Holds val row := by
  induction c with
  | columnFirst column op v => simpa [truth, terms] using columnFirst_ne_fails_iff
  | valueFirst v op column => simpa [truth, terms] using valueFirst_ne_fails_iff
  | between column low high =>
    rw [truth, Truth.and_ne_fails_iff, compareColumn_ne_fails_iff, compareColumn_ne_fails_iff]
    simp [terms, Term.Holds, RuleKind.Accepts]
  | isIn column v vs =>
    rw [truth, equalsOne_ne_fails_iff]
    simp [terms, Term.Holds, RuleKind.Accepts]
  | equalsAny column v vs =>
    rw [truth, equalsOne_ne_fails_iff]
    simp [terms, Term.Holds, RuleKind.Accepts]
  | isNotNull column =>
    rw [truth, Truth.of_ne_fails_iff]
    simp [terms, Term.Holds, RuleKind.Accepts]
  | and a b iha ihb =>
    rw [truth, Truth.and_ne_fails_iff, iha, ihb, terms]
    simp only [List.mem_append, or_imp, forall_and]

end

end SchemaApi
