import SchemaApi.Proofs.Check.Passing
/-!
How documented conditions are split.

The parentheses around a condition are taken off, but not those of a constant at its head or of the first of several
parts. What is left in the end are the terms of the condition from left to right (`conjuncts_of_documented`).
-/

namespace SchemaApi

/-! ## Tokens of the parts -/

section
variable {left right inside : List Token} {t opening closing : Token}

theorem asWritten_left (written : ∀ x ∈ left ++ t :: right, x.AsWritten) : ∀ x ∈ left, x.AsWritten :=
  (List.forall_mem_append.1 written).1

theorem asWritten_right (written : ∀ x ∈ left ++ t :: right, x.AsWritten) : ∀ x ∈ right, x.AsWritten :=
  (List.forall_mem_cons.1 (List.forall_mem_append.1 written).2).2

theorem asWritten_inside (written : ∀ x ∈ opening :: (inside ++ [closing]), x.AsWritten) :
    ∀ x ∈ inside, x.AsWritten :=
  (List.forall_mem_append.1 (List.forall_mem_cons.1 written).2).1

end

section
variable {d : Dialect} {columns : List String}

/-! ## Outer parentheses -/

theorem unwrap_of_not_opens {t : Token} {rest : List Token} (plain : t.isParen = false) :
    unwrap (t :: rest) = some (t :: rest) := by
  rw [Token.isParen, Bool.or_eq_false_iff] at plain
  rw [unwrap, if_neg (by simp [plain.1])]

section
variable {opening closing : Token} {inside : List Token} (opens : opening.isPunct "(" = true)
  (paired : ∀ {n rest}, Closes n rest → Closes n (inside ++ rest)) (closes : closing.isPunct ")" = true)

include opens paired closes

/-- parentheses around everything are taken off -/
theorem unwrap_parens : unwrap (opening :: (inside ++ [closing])) = unwrap inside := by
  have closed : closeParens 0 (inside ++ [closing]) = some [] :=
    closeParens_eq_some_iff.2 ⟨_, (List.append_nil _).symm, paired (.last closes)⟩
  rw [unwrap, if_pos ⟨opens, by simp⟩, closed]
  simp

/-- parentheses that are closed before the end stay -/
theorem unwrap_group {more : List Token} (filled : more ≠ []) :
    unwrap (opening :: (inside ++ closing :: more)) = some (opening :: (inside ++ closing :: more)) := by
  obtain ⟨next, others, rfl⟩ := List.exists_cons_of_ne_nil filled
  have closed : closeParens 0 (inside ++ closing :: next :: others) = some (next :: others) :=
    closeParens_eq_some_iff.2 ⟨inside ++ [closing], by simp, paired (.last closes)⟩
  rw [unwrap, if_pos ⟨opens, by simp⟩, closed]

end

theorem Spells.unwrap_append {ts more : List Token} {o : Operand} (h : Spells ts o) (filled : more ≠ []) :
    unwrap (ts ++ more) = some (ts ++ more) := by
  cases h with
  | number isNumber => exact unwrap_of_not_opens (isParen_of_kind (by simp [isNumber]))
  | signed signs => exact unwrap_of_not_opens (isParen_of_kind (by simp [kind_of_isOperator signs]))
  | text isText => exact unwrap_of_not_opens (isParen_of_kind (by simp [isText]))
  | truth isTruth => exact unwrap_of_not_opens (isParen_of_isKeyword isTruth)
  | @paren _ _ _ casts _ opens h closes =>
    have behind : casts ++ more ≠ [] := by simp [filled]
    have group := unwrap_group opens h.passed.paired closes behind
    simpa using group

theorem NamesColumn.unwrap_append {name more : List Token} {column : String}
    (h : NamesColumn d columns name column) : unwrap (name ++ more) = some (name ++ more) := by
  cases h.named with
  | plain word => exact unwrap_of_not_opens (isParen_of_isWord word)
  | qualified word => exact unwrap_of_not_opens (isParen_of_isWord word)

theorem DocumentedTerm.unwrap_append {ts more : List Token} {os : List Operand} {c : Condition}
    (h : DocumentedTerm d columns ts os c) : unwrap (ts ++ more) = some (ts ++ more) := by
  cases h with
  | valueFirst spelled =>
    rw [List.append_assoc]
    exact spelled.unwrap_append (by simp)
  | columnFirst named | between named | isIn named | equalsAny named | isNotNull named =>
    rw [List.append_assoc]
    exact named.unwrap_append

/-! ## Conjunctions -/

theorem Documented.paired {ts : List Token} {os : List Operand} {c : Condition} (h : Documented d columns ts os c)
    (written : ∀ t ∈ ts, t.AsWritten) {n : Nat} {rest : List Token} (closes : Closes n rest) :
    Closes n (ts ++ rest) := by
  induction h generalizing n rest with
  | term h => exact (h.kept written).paired closes
  | paren opens _ closes' ih =>
    exact (Passed.group opens (ih (asWritten_inside written) (.last closes'))).paired closes
  | and _ and _ iha ihb =>
    rw [List.append_assoc, List.cons_append]
    have plain := isParen_of_isKeyword and
    rw [Token.isParen, Bool.or_eq_false_iff] at plain
    refine iha (asWritten_left written) (.other plain.1 plain.2 ?_)
    exact ihb (asWritten_right written) closes

/-- one part of a conjunction: a term, or a condition in parentheses -/
inductive Factor (d : Dialect) (columns : List String) : List Token → List Operand → Condition → Prop where
  | term {ts : List Token} {os : List Operand} {c : Condition} (h : DocumentedTerm d columns ts os c) :
      Factor d columns ts os c
  | paren {opening closing : Token} {inside : List Token} {os : List Operand} {c : Condition}
      (opens : opening.isPunct "(" = true) (h : Documented d columns inside os c)
      (closes : closing.isPunct ")" = true) : Factor d columns (opening :: (inside ++ [closing])) os c

/-- the parts of a conjunction, and what they say together -/
inductive Factors (d : Dialect) (columns : List String) :
    List Token → List (List Token) → List Operand → List Term → Prop where
  | one {ts : List Token} {os : List Operand} {c : Condition} (h : Factor d columns ts os c) :
      Factors d columns ts [ts] os c.terms
  | more {ts rest : List Token} {t : Token} {parts : List (List Token)} {os os' : List Operand} {c : Condition}
      {terms : List Term} (h : Factor d columns ts os c) (and : t.isKeyword "AND" = true)
      (others : Factors d columns rest parts os' terms) :
      Factors d columns (ts ++ t :: rest) (ts :: parts) (os ++ os') (c.terms ++ terms)

theorem Factors.append {left right : List Token} {t : Token} {parts parts' : List (List Token)}
    {os os' : List Operand} {terms terms' : List Term} (h : Factors d columns left parts os terms)
    (and : t.isKeyword "AND" = true) (later : Factors d columns right parts' os' terms') :
    Factors d columns (left ++ t :: right) (parts ++ parts') (os ++ os') (terms ++ terms') := by
  induction h with
  | one h => exact .more h and later
  | more h and' _ ih =>
    simp only [List.append_assoc, List.cons_append]
    exact .more h and' ih

theorem factors_of_documented {ts : List Token} {os : List Operand} {c : Condition}
    (h : Documented d columns ts os c) : ∃ parts, Factors d columns ts parts os c.terms := by
  induction h with
  | term h => exact ⟨_, .one (.term h)⟩
  | paren opens h closes => exact ⟨_, .one (.paren opens h closes)⟩
  | and _ and _ iha ihb =>
    obtain ⟨parts, left⟩ := iha
    obtain ⟨parts', right⟩ := ihb
    exact ⟨parts ++ parts', left.append and right⟩

namespace Factor

variable {ts : List Token} {os : List Operand} {c : Condition}

theorem documented (h : Factor d columns ts os c) : Documented d columns ts os c := by
  cases h with
  | term h => exact .term h
  | paren opens h closes => exact .paren opens h closes

theorem ne_nil (h : Factor d columns ts os c) : ts ≠ [] := by
  cases h with
  | term h => cases h <;> simp
  | paren => exact List.cons_ne_nil _ _

theorem kept (h : Factor d columns ts os c) (written : ∀ t ∈ ts, t.AsWritten) : Kept ts := by
  cases h with
  | term h => exact h.kept written
  | paren opens h closes =>
    exact (Passed.group opens (h.paired (asWritten_inside written) (.last closes))).kept

theorem unwrap_append {more : List Token} (h : Factor d columns ts os c) (written : ∀ t ∈ ts, t.AsWritten)
    (filled : more ≠ []) : unwrap (ts ++ more) = some (ts ++ more) := by
  cases h with
  | term h => exact h.unwrap_append
  | paren opens h closes =>
    have group := unwrap_group opens (h.paired (asWritten_inside written)) closes filled
    simpa using group

end Factor

namespace Factors

variable {ts : List Token} {parts : List (List Token)} {os : List Operand} {terms : List Term}

theorem split (h : Factors d columns ts parts os terms) (written : ∀ t ∈ ts, t.AsWritten) :
    splitConjuncts 0 false ts = parts := by
  induction h with
  | one h =>
    have whole := (h.kept written).uncut []
    simpa [splitConjuncts] using whole
  | more h and _ ih =>
    have first := (h.kept (asWritten_left written)).uncut
    have later := ih (asWritten_right written)
    rw [first, splitConjuncts_and and, later, List.modifyHead_cons, List.append_nil]

theorem filled (h : Factors d columns ts parts os terms) : parts.any List.isEmpty = false := by
  induction h with
  | one h => simp [h.ne_nil]
  | more h _ _ ih => rw [List.any_cons, ih, List.isEmpty_eq_false_iff.2 h.ne_nil]; rfl

theorem length_le (h : Factors d columns ts parts os terms) : ∀ part ∈ parts, part.length ≤ ts.length := by
  induction h with
  | one h => simp
  | more h _ _ ih =>
    rw [List.forall_mem_cons]
    refine ⟨by simp, fun part hp => ?_⟩
    have := ih part hp
    simp only [List.length_append, List.length_cons]
    omega

end Factors

/-- terms as they are split off, and what they say together -/
inductive DocumentedParts (d : Dialect) (columns : List String) :
    List (List Token) → List Operand → List Term → Prop where
  | nil : DocumentedParts d columns [] [] []
  | cons {ts : List Token} {parts : List (List Token)} {os os' : List Operand} {c : Condition} {terms : List Term}
      (h : DocumentedTerm d columns ts os c) (written : ∀ t ∈ ts, t.AsWritten)
      (others : DocumentedParts d columns parts os' terms) :
      DocumentedParts d columns (ts :: parts) (os ++ os') (c.terms ++ terms)

theorem DocumentedParts.append {parts parts' : List (List Token)} {os os' : List Operand}
    {terms terms' : List Term} (h : DocumentedParts d columns parts os terms)
    (later : DocumentedParts d columns parts' os' terms') :
    DocumentedParts d columns (parts ++ parts') (os ++ os') (terms ++ terms') := by
  induction h with
  | nil => exact later
  | cons h written _ ih =>
    simp only [List.append_assoc, List.cons_append]
    exact .cons h written ih

theorem conjuncts_parens {fuel : Nat} {opening closing : Token} {inside : List Token}
    (opens : opening.isPunct "(" = true) (paired : ∀ {n rest}, Closes n rest → Closes n (inside ++ rest))
    (closes : closing.isPunct ")" = true) :
    conjuncts fuel (opening :: (inside ++ [closing])) = conjuncts fuel inside := by
  cases fuel with
  | zero => rfl
  | succ fuel => rw [conjuncts, conjuncts, unwrap_parens opens paired closes]

/-- the parts of a conjunction are split further if each of them is -/
theorem Factors.conjuncts {ts : List Token} {parts : List (List Token)} {os : List Operand} {terms : List Term}
    {fuel : Nat} (h : Factors d columns ts parts os terms) (written : ∀ t ∈ ts, t.AsWritten)
    (each : ∀ part ∈ parts, ∀ os c, Documented d columns part os c → (∀ t ∈ part, t.AsWritten) →
      ∃ own, conjuncts fuel part = some own ∧ DocumentedParts d columns own os c.terms) :
    ∃ nested, parts.mapM (conjuncts fuel) = some nested ∧ DocumentedParts d columns nested.flatten os terms := by
  induction h with
  | one h =>
    obtain ⟨own, split, said⟩ := each _ List.mem_cons_self _ _ h.documented written
    exact ⟨[own], by simp [split], by simpa using said⟩
  | more h _ _ ih =>
    rw [List.forall_mem_cons] at each
    obtain ⟨own, split, said⟩ := each.1 _ _ h.documented (asWritten_left written)
    obtain ⟨nested, later, saidLater⟩ := ih (asWritten_right written) each.2
    refine ⟨own :: nested, by simp [split, later], ?_⟩
    rw [List.flatten_cons]
    exact said.append saidLater

/-- a documented condition is split into its terms from left to right -/
theorem conjuncts_of_documented {ts : List Token} {os : List Operand} {c : Condition} {fuel : Nat}
    (h : Documented d columns ts os c) (written : ∀ t ∈ ts, t.AsWritten) (enough : ts.length < fuel) :
    ∃ parts, conjuncts fuel ts = some parts ∧ DocumentedParts d columns parts os c.terms := by
  induction size : ts.length using Nat.strong_induction_on generalizing ts os c fuel with
  | _ size ih =>
    subst size
    obtain ⟨parts, factors⟩ := factors_of_documented h
    generalize c.terms = terms at factors ⊢
    clear h
    obtain ⟨fuel, rfl⟩ : ∃ n, fuel = n + 1 := ⟨fuel - 1, by omega⟩
    cases factors with
    | one h =>
      cases h with
      | term h =>
        have whole : unwrap (ts ++ []) = some (ts ++ []) := h.unwrap_append
        have uncut := (h.kept written).uncut []
        rw [List.append_nil] at whole uncut
        refine ⟨[ts], ?_, by simpa using DocumentedParts.cons h written .nil⟩
        rw [conjuncts, whole]
        simp [uncut, splitConjuncts]
      | @paren opening closing inside _ _ opens h closes =>
        have inner := asWritten_inside written
        have shorter : inside.length < (opening :: (inside ++ [closing])).length := by
          simp only [List.length_cons, List.length_append]
          omega
        rw [conjuncts_parens opens (h.paired inner) closes]
        exact ih inside.length shorter h inner (Nat.lt_trans shorter enough) rfl
    | @more first rest t parts os os' c terms h and others =>
      have split := (Factors.more h and others).split written
      have filled := (Factors.more h and others).filled
      have whole := h.unwrap_append (asWritten_left written) (List.cons_ne_nil t rest)
      have shorter : ∀ part ∈ first :: parts, part.length < (first ++ t :: rest).length := by
        rw [List.forall_mem_cons]
        refine ⟨by simp, fun part hp => ?_⟩
        have := others.length_le part hp
        simp only [List.length_append, List.length_cons]
        omega
      have short : ∀ part ∈ first :: parts, part.length < fuel :=
        fun part hp => Nat.lt_of_lt_of_le (shorter part hp) (Nat.le_of_lt_succ enough)
      obtain ⟨nested, run, said⟩ := (Factors.more h and others).conjuncts written
        fun part hp os c documented inner => ih part.length (shorter part hp) documented inner (short part hp) rfl
      refine ⟨nested.flatten, ?_, said⟩
      obtain ⟨second, later, rfl⟩ : ∃ second later, parts = second :: later := by
        cases others <;> exact ⟨_, _, rfl⟩
      simp only [conjuncts, whole, split, filled, run, Bool.false_eq_true, if_false, Option.map_some]

end

end SchemaApi
