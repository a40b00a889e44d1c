import SchemaApi.Proofs.Check.Splitting
import SchemaApi.Proofs.Check.Translation
import SchemaApi.Proofs.Text.Capitals
import SchemaApi.Proofs.Token.Piece
/-!
Documented conditions are translated.

A term whose numerals can be read is read as what it spells; the only term that is not is one with a numeral of too
many digits. So a condition of the documented forms has an answer exactly if its constants have not too many digits,
and every answer on it is the rules of its terms from left to right (`conditionRules_documented`).
-/

namespace SchemaApi

/-! ## Constants -/

/-- the numeral has not too many digits to be read -/
def Operand.Legible : Operand → Prop
  | number numeral _ => ¬ Overlong numeral
  | _ => True

/-- the constant has not too many digits, neither to be read nor to be written -/
structure Operand.Fits (o : Operand) : Prop where
  legible : o.Legible
  writable : ¬ o.value.Unwritable

theorem TypeCasts.casts {ts : List Token} (h : TypeCasts ts) : Casts ts := by
  induction h with
  | none => exact .none
  | plain cast word _ _ ih => exact .plain cast word ih
  | args cast word _ opens closes _ ih => exact .args cast word opens closes ih

theorem Spells.constant {ts : List Token} {o : Operand} (h : Spells ts o) (legible : o.Legible) :
    Constant ts o.value := by
  induction h with
  | number isNumber value cast => exact .number isNumber legible value cast.casts
  | signed signs isNumber value cast => exact .signed signs isNumber legible value cast.casts
  | text isText cast => exact .text isText cast.casts
  | @truth _ _ b isTruth cast =>
    cases b with
    | true => exact .true isTruth cast.casts
    | false => exact .false isTruth cast.casts
  | paren opens _ closes cast ih => exact .paren opens (ih legible) closes cast.casts

theorem Spells.beginsOverlong {ts : List Token} {o : Operand} (h : Spells ts o) (illegible : ¬ o.Legible)
    (rest : List Token) : ∃ n, BeginsOverlong (ts ++ rest) n := by
  induction h generalizing rest with
  | number isNumber => exact ⟨_, .number isNumber (not_not.1 illegible)⟩
  | @signed _ _ _ negative _ signs isNumber =>
    refine ⟨_, .signed ?_ isNumber (not_not.1 illegible)⟩
    cases negative with
    | true => rw [Bool.or_eq_true]; exact Or.inl signs
    | false => rw [Bool.or_eq_true]; exact Or.inr signs
  | text | truth => exact absurd trivial illegible
  | paren opens _ _ _ ih =>
    rw [List.cons_append, List.append_assoc]
    obtain ⟨n, begins⟩ := ih illegible _
    exact ⟨n, .paren opens begins⟩

theorem SpellsList.constantList {ts : List Token} {os : List Operand} (h : SpellsList ts os)
    (legible : ∀ o ∈ os, o.Legible) : ConstantList ts (os.map Operand.value) := by
  induction h with
  | one h => exact .one (h.constant (legible _ List.mem_cons_self))
  | more h between _ ih =>
    rw [List.forall_mem_cons] at legible
    exact .more (h.constant legible.1) between (ih legible.2)

theorem SpellsList.listsOverlong {ts : List Token} {os : List Operand} (h : SpellsList ts os)
    (illegible : ¬ ∀ o ∈ os, o.Legible) (rest : List Token) : ∃ n, ListsOverlong (ts ++ rest) n := by
  induction h with
  | one h =>
    obtain ⟨n, begins⟩ := h.beginsOverlong (by simpa using illegible) rest
    exact ⟨n, .here begins⟩
  | @more ts more comma o os h between _ ih =>
    rw [List.append_assoc]
    by_cases first : o.Legible
    · obtain ⟨n, later⟩ := ih fun all => illegible (List.forall_mem_cons.2 ⟨first, all⟩)
      exact ⟨n, .later (h.constant first) between later⟩
    · obtain ⟨n, begins⟩ := h.beginsOverlong first (comma :: more ++ rest)
      exact ⟨n, .here begins⟩

theorem literal_whole {ts : List Token} {v : Literal} (h : Constant ts v) : literal ts = .ok (v, []) := by
  have nothing : Stops [] := fun _ ht => by simp at ht
  have whole := literal_append h nothing
  rwa [List.append_nil] at whole

/-- constants are read up to the mark that closes them -/
theorem literals_append {closing : String} {fuel : Nat} {ts rest : List Token} {last : Token} {vs : List Literal}
    (h : ConstantList ts vs) (closes : last.isPunct closing = true) (other : closing ≠ "(" ∧ closing ≠ ",")
    (enough : ts.length < fuel) : literals closing fuel (ts ++ last :: rest) = .ok (vs, rest) := by
  induction h generalizing fuel with
  | one h =>
    obtain ⟨fuel, rfl⟩ : ∃ n, fuel = n + 1 := ⟨fuel - 1, by omega⟩
    have notComma : last.isPunct "," = false := by
      simp only [Token.isPunct, Bool.and_eq_true, beq_iff_eq] at closes
      simp [Token.isPunct, closes.2, other.2]
    rw [literals, bind_eq_ok_iff]
    exact ⟨_, literal_append h (stops_punct closes other.1), by simp [notComma, closes, pure_eq_ok_iff]⟩
  | more h between _ ih =>
    obtain ⟨fuel, rfl⟩ : ∃ n, fuel = n + 1 := ⟨fuel - 1, by omega⟩
    have later := @ih fuel (by simp only [List.length_append, List.length_cons] at enough; omega)
    rw [List.append_assoc, List.cons_append, literals, bind_eq_ok_iff]
    refine ⟨_, literal_append h (stops_punct between (by decide)), ?_⟩
    simp only [between, if_true, bind_eq_ok_iff]
    exact ⟨_, later, rfl⟩

theorem literalList_append {opening closing : String} {first last : Token} {ts rest : List Token} {vs : List Literal}
    (opens : first.isPunct opening = true) (h : ConstantList ts vs) (closes : last.isPunct closing = true)
    (other : closing ≠ "(" ∧ closing ≠ ",") :
    literalList opening closing (first :: (ts ++ last :: rest)) = .ok (vs, rest) := by
  rw [literalList, if_pos opens]
  exact literals_append h closes other (by simp)

/-! ## Terms -/

/-- no constant begins like a list of constants -/
theorem Spells.not_startsAnyArray {ts : List Token} {o : Operand} (h : Spells ts o) (written : ∀ t ∈ ts, t.AsWritten) :
    startsAnyArray ts = false := by
  have behind : ∀ {t : Token} {casts : List Token}, TypeCasts casts → startsAnyArray (t :: casts) = false := by
    intro t casts cast
    cases cast with
    | none => rfl
    | plain cast | args cast => simp [startsAnyArray, Token.isPunct, kind_of_isOperator cast]
  cases h with
  | number _ _ cast | text _ cast | truth _ cast => exact behind cast
  | signed _ isNumber _ cast =>
    cases cast <;> simp [startsAnyArray, Token.isPunct, isNumber]
  | @paren opening _ _ _ _ opens =>
    have notAny : Text.upper opening.text ≠ "ANY" := by
      intro isAny
      have plain := ((written opening List.mem_cons_self).plain isAny (by decide)).1
      rw [Token.isParen, opens] at plain
      contradiction
    unfold startsAnyArray
    split
    · rename_i e
      rw [List.cons.injEq] at e
      simp [← e.1, notAny]
    · rfl

/-- no listed column is named like a truth value, in capitals or in small letters -/
def TruthFree (columns : List String) : Prop := ∀ name ∈ columns, Text.upper name ≠ "TRUE" ∧ Text.upper name ≠ "FALSE"

instance (columns : List String) : Decidable (TruthFree columns) := inferInstanceAs (Decidable (∀ _ ∈ _, _))

section
variable {d : Dialect} {columns : List String}

/-- the words of truth values name no column -/
theorem find?_truth {t : Token} {b : Bool} (written : t.AsWritten) (free : TruthFree columns)
    (isTruth : t.isKeyword (if b then "TRUE" else "FALSE") = true) :
    columns.find? (d.sameName · (d.normalize t.text false)) = none := by
  have spelled : Text.upper t.text = if b then "TRUE" else "FALSE" := by
    simp only [Token.isKeyword, Bool.and_eq_true, beq_iff_eq] at isTruth
    rcases written.keyword isTruth.1 with same | phrase
    · rw [← same, isTruth.2]
    · rw [Token.isPhrase, isTruth.2] at phrase
      cases b <;> simp at phrase
  refine List.find?_eq_none.2 fun name hn same => ?_
  cases b with
  | true => exact (free name hn).1 (Text.upper_of_sameName ⟨by simp [Text.SteadyLetter], by decide⟩ same spelled)
  | false => exact (free name hn).2 (Text.upper_of_sameName ⟨by simp [Text.SteadyLetter], by decide⟩ same spelled)

/-- a constant names no column -/
theorem Spells.columnAt?_eq_none {value rest : List Token} {o : Operand} {t : Token} (h : Spells value o)
    (written : ∀ t ∈ value, t.AsWritten) (free : TruthFree columns) (noPoint : t.isPunct "." = false) :
    columnAt? d columns (value ++ t :: rest) = none := by
  cases h with
  | number isNumber | text isText => simp [columnAt?, Token.isWord, *]
  | signed signs => simp [columnAt?, Token.isWord, kind_of_isOperator signs]
  | paren opens =>
    simp only [Token.isPunct, Bool.and_eq_true, beq_iff_eq] at opens
    simp [columnAt?, Token.isWord, opens.1]
  | @truth word casts b isTruth cast =>
    have none := @find?_truth d columns _ _ (written word List.mem_cons_self) free isTruth
    have next : ∃ next others, casts ++ t :: rest = next :: others ∧ next.isPunct "." = false := by
      cases cast with
      | none => exact ⟨t, rest, rfl, noPoint⟩
      | plain cast | args cast => exact ⟨_, _, rfl, by simp [Token.isPunct, kind_of_isOperator cast]⟩
    obtain ⟨next, others, behind, noPoint⟩ := next
    have isKeyword : word.kind = .keyword := by
      simp only [Token.isKeyword, Bool.and_eq_true, beq_iff_eq] at isTruth
      exact isTruth.1
    rw [List.cons_append, behind]
    simp only [columnAt?, isKeyword]
    cases others <;> simp [noPoint, none]

theorem columnAt?_whole {name : List Token} {column : String} (named : ColumnName d columns name column) :
    columnAt? d columns name = some (column, []) := by
  cases named with
  | @plain word _ isWord single found =>
    have ownName : (if word.kind == .identifier then word.value else d.normalize word.text false) =
      word.ownName d := rfl
    simp only [columnAt?, isWord, single, ownName]
    simp [found]
  | qualified isWord single dot isName found =>
    simp only [columnAt?, isWord, single, dot, isName]
    simp [found]

theorem readTerm_append {name rest : List Token} {t : Token} {column : String}
    (named : ColumnName d columns name column) (noPoint : t.isPunct "." = false) :
    readTerm d columns (name ++ t :: rest) = columnTerm column (t :: rest) := by
  rw [readTerm, columnAt?_append named noPoint]

theorem not_cast_of_written {op : Comparison} {t : Token} (h : op.Written t) : t.isOperator "::" = false := by
  obtain ⟨-, symbol⟩ := h
  have differs : "::" ∉ op.symbols := by cases op <;> decide
  simp only [Token.isOperator, Bool.and_eq_false_iff, beq_eq_false_iff_ne]
  exact Or.inr fun e => differs (e ▸ symbol)

/-- a term whose numerals can be read is read as what it spells -/
theorem DocumentedTerm.readTerm {ts : List Token} {os : List Operand} {c : Condition}
    (h : DocumentedTerm d columns ts os c) (written : ∀ t ∈ ts, t.AsWritten) (free : TruthFree columns)
    (legible : ∀ o ∈ os, o.Legible) : readTerm d columns ts = .ok c.terms := by
  cases h with
  | @columnFirst name value t column op o named isOp spelled =>
    have value := literal_whole (spelled.constant (legible o List.mem_cons_self))
    have noList := spelled.not_startsAnyArray (asWritten_right written)
    rw [readTerm_append named.named (no_point_of_written isOp)]
    simp [columnTerm, operatorKind?_of_written isOp, comparisonTerm, noList, value, whole, Condition.terms,
      bind, Except.bind, pure, Except.pure]
  | @valueFirst name value t column op o spelled isOp named =>
    have none : columnAt? d columns (value ++ t :: name) = none :=
      spelled.columnAt?_eq_none (asWritten_left written) free (no_point_of_written isOp)
    have stops : Stops (t :: name) := stops_cons (not_cast_of_written isOp) (by simp [Token.isPunct, isOp.1])
    have value := literal_append (spelled.constant (legible o List.mem_cons_self)) stops
    rw [SchemaApi.readTerm, none]
    simp [value, operatorKind?_of_written isOp, columnAt?_whole named.named, Condition.terms, bind, Except.bind,
      pure, Except.pure]
  | @between name lower upper t conj column low high named between spelled and spelled' =>
    have lower : literal (lower ++ conj :: upper) = .ok (low.value, conj :: upper) :=
      literal_append (spelled.constant (legible low (by simp))) (stops_keyword and)
    have upper := literal_whole (spelled'.constant (legible high (by simp)))
    rw [readTerm_append named.named (no_point_of_keyword between)]
    simp [columnTerm, operatorKind?_of_keyword between, between, betweenTerm, lower, and, upper, whole,
      Condition.terms, bind, Except.bind, pure, Except.pure]
  | @isIn name inside t opening closing column o os named isIn opens spelled closes =>
    have noBetween := isKeyword_other isIn (show "BETWEEN" ≠ "IN" by decide)
    have list : literalList "(" ")" (opening :: (inside ++ [closing])) = .ok ((o :: os).map Operand.value, []) :=
      literalList_append opens (spelled.constantList legible) closes (by decide)
    rw [readTerm_append named.named (no_point_of_keyword isIn)]
    simp [columnTerm, operatorKind?_of_keyword isIn, noBetween, isIn, list, whole, Condition.terms, bind, Except.bind,
      pure, Except.pure]
  | @equalsAny name inside casts t any paren array opening closing last column o os named isOp isAny opensAny isArray
      opens spelled closes cast closesAny =>
    have begins : startsAnyArray (any :: paren :: array :: opening :: (inside ++ closing :: (casts ++ [last]))) =
        true := by
      simp [startsAnyArray, isAny, opensAny, isArray]
    have list : literalList "[" "]" (opening :: (inside ++ closing :: (casts ++ [last]))) =
        .ok ((o :: os).map Operand.value, casts ++ [last]) :=
      literalList_append opens (spelled.constantList legible) closes (by decide)
    have casted : passCasts (casts ++ [last]) = .ok [last] :=
      passCasts_append cast.casts (stops_punct closesAny (by decide))
    rw [readTerm_append named.named (no_point_of_written isOp)]
    simp [columnTerm, operatorKind?_of_written isOp, comparisonTerm, Comparison.kind, begins, anyArray, list, casted,
      closesAny, whole, Condition.terms, bind, Except.bind, pure, Except.pure]
  | isNotNull named is notNull =>
    have noBetween := isKeyword_other is (show "BETWEEN" ≠ "IS" by decide)
    have noIn := isKeyword_other is (show "IN" ≠ "IS" by decide)
    rw [readTerm_append named.named (no_point_of_keyword is)]
    simp [columnTerm, operatorKind?_of_keyword is, noBetween, noIn, is, notNull, Condition.terms]

/-- a term with another numeral is not read -/
theorem DocumentedTerm.meetsOverlong {ts : List Token} {os : List Operand} {c : Condition}
    (h : DocumentedTerm d columns ts os c) (written : ∀ t ∈ ts, t.AsWritten)
    (illegible : ¬ ∀ o ∈ os, o.Legible) : ∃ n, MeetsOverlong d columns ts n := by
  cases h with
  | columnFirst named isOp spelled =>
    obtain ⟨n, begins⟩ := spelled.beginsOverlong (by simpa using illegible) []
    rw [List.append_nil] at begins
    have noList := spelled.not_startsAnyArray (asWritten_right written)
    exact ⟨n, .operand named.named isOp (fun _ => noList) begins⟩
  | @valueFirst name _ t _ _ _ spelled =>
    obtain ⟨n, begins⟩ := spelled.beginsOverlong (by simpa using illegible) (t :: name)
    exact ⟨n, .first begins⟩
  | @between name lower upper t conj column low high named between spelled and spelled' =>
    by_cases first : low.Legible
    · have second : ¬ high.Legible := fun second => illegible (by simp [first, second])
      obtain ⟨n, begins⟩ := spelled'.beginsOverlong second []
      rw [List.append_nil] at begins
      exact ⟨n, .upper named.named between (spelled.constant first) and begins⟩
    · obtain ⟨n, begins⟩ := spelled.beginsOverlong first (conj :: upper)
      exact ⟨n, .lower named.named between begins⟩
  | isIn named isIn opens spelled =>
    obtain ⟨n, lists⟩ := spelled.listsOverlong illegible _
    exact ⟨n, .member named.named isIn opens lists⟩
  | equalsAny named isOp isAny opensAny isArray opens spelled =>
    obtain ⟨n, lists⟩ := spelled.listsOverlong illegible _
    exact ⟨n, .element named.named isOp isAny opensAny isArray opens lists⟩
  | isNotNull => simp at illegible

/-! ## Rules -/

variable {expression : String}

/-- a term says nothing of other constants than those it is spelled with -/
theorem DocumentedTerm.constants {ts : List Token} {os : List Operand} {c : Condition}
    (h : DocumentedTerm d columns ts os c) : c.terms.flatMap (·.value.constants) = os.map Operand.value := by
  cases h <;> simp [Condition.terms, RuleValue.constants]

theorem DocumentedTerm.termRules {ts : List Token} {os : List Operand} {c : Condition}
    (h : DocumentedTerm d columns ts os c) (expression : String) (written : ∀ t ∈ ts, t.AsWritten)
    (free : TruthFree columns) (fits : ∀ o ∈ os, o.Fits) : ∃ rules, termRules d columns expression ts = .ok rules ∧
      c.terms.mapM (Term.rule expression) = .ok rules := by
  have read := h.readTerm written free fun o ho => (fits o ho).legible
  cases made : c.terms.mapM (Term.rule expression) with
  | ok rules => exact ⟨rules, by rw [SchemaApi.termRules, read]; simp [made, bind, Except.bind, Except.mapError], rfl⟩
  | error r =>
    obtain ⟨before, t, after, terms, -, failed⟩ := mapM_eq_error_iff.1 made
    obtain ⟨⟨v, hv, long⟩, -⟩ := Term.rule_eq_error_iff.1 failed
    have mem : v ∈ os.map Operand.value := by
      rw [← h.constants]
      exact List.mem_flatMap.2 ⟨t, by simp [terms], hv⟩
    obtain ⟨o, ho, rfl⟩ := List.mem_map.1 mem
    exact absurd long (fits o ho).writable

theorem DocumentedTerm.oversized {ts : List Token} {os : List Operand} {c : Condition}
    (h : DocumentedTerm d columns ts os c) (written : ∀ t ∈ ts, t.AsWritten) (free : TruthFree columns)
    (misfit : ¬ ∀ o ∈ os, o.Fits) : ∃ r, Oversized d columns ts r := by
  by_cases legible : ∀ o ∈ os, o.Legible
  · obtain ⟨o, ho, long⟩ : ∃ o ∈ os, o.value.Unwritable := by
      by_contra none
      exact misfit fun o ho => ⟨legible o ho, fun long => none ⟨o, ho, long⟩⟩
    have mem : o.value ∈ c.terms.flatMap (·.value.constants) := by
      rw [h.constants]
      exact List.mem_map_of_mem ho
    obtain ⟨t, ht, hv⟩ := List.mem_flatMap.1 mem
    exact ⟨_, .constant (h.readTerm written free legible) ht hv long⟩
  · obtain ⟨n, meets⟩ := h.meetsOverlong written legible
    exact ⟨_, .numeral meets⟩

theorem DocumentedParts.termRules {parts : List (List Token)} {os : List Operand} {terms : List Term}
    (h : DocumentedParts d columns parts os terms) (expression : String) (free : TruthFree columns)
    (fits : ∀ o ∈ os, o.Fits) :
    ∃ own, parts.mapM (SchemaApi.termRules d columns expression) = .ok own ∧
      terms.mapM (Term.rule expression) = .ok own.flatten := by
  induction h with
  | nil => exact ⟨[], rfl, rfl⟩
  | cons h written _ ih =>
    rw [List.forall_mem_append] at fits
    obtain ⟨rules, made, said⟩ := h.termRules expression written free fits.1
    obtain ⟨own, later, saidLater⟩ := ih fits.2
    refine ⟨rules :: own, ?_, ?_⟩
    · simp [List.mapM_cons, made, later, bind, Except.bind, pure, Except.pure]
    · simp [List.mapM_append, said, saidLater, bind, Except.bind, pure, Except.pure]

theorem DocumentedParts.refused {parts : List (List Token)} {os : List Operand} {terms : List Term}
    (h : DocumentedParts d columns parts os terms) (expression : String) (free : TruthFree columns)
    (misfit : ¬ ∀ o ∈ os, o.Fits) :
    ∃ r, parts.mapM (SchemaApi.termRules d columns expression) = .error (.refused r) := by
  induction h with
  | nil => exact absurd (fun _ ho => absurd ho List.not_mem_nil) misfit
  | @cons ts _ os _ _ _ h written _ ih =>
    rw [List.forall_mem_append] at misfit
    simp only [List.mapM_cons, bind_eq_error_iff]
    by_cases fits : ∀ o ∈ os, o.Fits
    · obtain ⟨rules, made, -⟩ := h.termRules expression written free fits
      obtain ⟨r, later⟩ := ih fun all => misfit ⟨fits, all⟩
      exact ⟨r, Or.inr ⟨rules, made, Or.inl later⟩⟩
    · obtain ⟨r, long⟩ := h.oversized written free fits
      exact ⟨r, Or.inl (termRules_eq_refused_iff.2 long)⟩

/-- the rules of a condition whose conjuncts are known -/
theorem rulesOf_of_conjuncts {ts : List Token} {parts : List (List Token)}
    (complete : (tokenize d expression.toList).error? = none) (tokens : (tokenize d expression.toList).toList = ts)
    (filled : ts ≠ []) (shallow : nesting ts ≤ maxNesting) (split : conjuncts (ts.length + 1) ts = some parts) :
    rulesOf d columns expression = (parts.mapM (termRules d columns expression)).map List.flatten := by
  have inside : (ts.isEmpty || decide (maxNesting < nesting ts)) = false := by
    rw [Bool.or_eq_false_iff, List.isEmpty_eq_false_iff, decide_eq_false_iff_not]
    exact ⟨filled, Int.not_lt.2 shallow⟩
  simp only [rulesOf, complete, tokens, inside, split]
  cases parts.mapM (termRules d columns expression) <;> rfl

theorem Documented.ne_nil {ts : List Token} {os : List Operand} {c : Condition} (h : Documented d columns ts os c) :
    ts ≠ [] := by
  cases h with
  | term h => exact (Factor.term h).ne_nil
  | paren => exact List.cons_ne_nil _ _
  | and => simp

section
variable {column table : Option String} {os : List Operand} {c : Condition}
  (complete : (tokenize d expression.toList).error? = none)
  (documented : Documented d columns (tokenize d expression.toList).toList os c)
  (shallow : nesting (tokenize d expression.toList).toList ≤ maxNesting)

include complete documented shallow

/-- the terms of a documented condition are what its rules are made of, one behind the other -/
theorem rulesOf_documented : ∃ parts, DocumentedParts d columns parts os c.terms ∧
    rulesOf d columns expression = (parts.mapM (termRules d columns expression)).map List.flatten := by
  obtain ⟨parts, split, said⟩ := conjuncts_of_documented documented
    (fun t ht => asWritten_of_mem_tokenize complete ht) (Nat.lt_succ_self _)
  exact ⟨parts, said, rulesOf_of_conjuncts complete rfl documented.ne_nil shallow split⟩

variable (free : TruthFree columns)

include free

theorem conditionRules_of_fits (fits : ∀ o ∈ os, o.Fits) :
    ∃ answer, conditionRules d columns expression column table = .ok answer ∧ answer.understood = true ∧
      c.terms.mapM (Term.rule expression) = .ok answer.rules := by
  obtain ⟨parts, said, rules⟩ := rulesOf_documented complete documented shallow
  obtain ⟨own, made, all⟩ := said.termRules expression free fits
  exact ⟨{ rules := own.flatten }, by rw [conditionRules, rules, made]; rfl, rfl, all⟩

theorem conditionRules_of_misfit (misfit : ¬ ∀ o ∈ os, o.Fits) :
    ∃ r, conditionRules d columns expression column table = .error r := by
  obtain ⟨parts, said, rules⟩ := rulesOf_documented complete documented shallow
  obtain ⟨r, refused⟩ := said.refused expression free misfit
  exact ⟨r, by rw [conditionRules, rules, refused]; rfl⟩

/-- A condition of the documented forms, not nested too deeply, over columns that no truth value is named like, has an
answer exactly if its constants have not too many digits. Every answer on it is the rules of its terms from left to
right. -/
theorem conditionRules_documented :
    ((∃ answer, conditionRules d columns expression column table = .ok answer) ↔ ∀ o ∈ os, o.Fits) ∧
      ∀ answer, conditionRules d columns expression column table = .ok answer →
        answer.understood = true ∧ c.terms.mapM (Term.rule expression) = .ok answer.rules := by
  by_cases fits : ∀ o ∈ os, o.Fits
  · obtain ⟨own, answered, translated⟩ := conditionRules_of_fits complete documented shallow free fits
    refine ⟨iff_of_true ⟨_, answered⟩ fits, fun answer given => ?_⟩
    obtain rfl := Except.ok.inj (answered.symm.trans given)
    exact translated
  · obtain ⟨r, unanswered⟩ := conditionRules_of_misfit complete documented shallow free fits
    rw [unanswered]
    refine ⟨iff_of_false ?_ fits, fun answer given => by contradiction⟩
    rintro ⟨answer, given⟩
    contradiction

end

end

/-! ## Two conditions -/

/-- a token of the first line that stands for its characters -/
def Token.inLine (kind : TokenKind) (text : String) (offset : Nat) : Token :=
  ⟨kind, text, text, ⟨1, offset + 1, offset⟩, false⟩

theorem fits_of_small {numeral : String} {n : Int} (short : numeral.toList.length ≤ maxDigits)
    (small : (Nat.toDigits 10 n.natAbs).length ≤ maxDigits) : (Operand.number numeral (.int n)).Fits where
  legible long := Nat.not_lt.2 short long.tooLong
  writable := Nat.not_lt.2 small


/-- the two words AND, parentheses around a term, and a constant in front -/
theorem conditionRules_documented_between : ∃ answer,
    conditionRules .postgresql ["a", "b"] "(a BETWEEN 1 AND 5) AND TRUE = b" none none = .ok answer ∧
      answer.understood = true ∧ answer.rules.map (fun r => (r.kind, r.fields, r.value)) =
        [(.minimum, ["a"], .one (.int 1)), (.maximum, ["a"], .one (.int 5)), (.const, ["b"], .one (.bool true))] := by
  have complete : (tokenize .postgresql "(a BETWEEN 1 AND 5) AND TRUE = b".toList).error? = none := by decide +kernel
  have tokens : (tokenize .postgresql "(a BETWEEN 1 AND 5) AND TRUE = b".toList).toList =
      [.inLine .punctuation "(" 0, .inLine .identifier "a" 1, .inLine .keyword "BETWEEN" 3, .inLine .number "1" 11,
        .inLine .keyword "AND" 13, .inLine .number "5" 17, .inLine .punctuation ")" 18, .inLine .keyword "AND" 20,
        .inLine .keyword "TRUE" 24, .inLine .operator "=" 29, .inLine .identifier "b" 31] := by decide +kernel
  have a : NamesColumn .postgresql ["a", "b"] [.inLine .identifier "a" 1] "a" :=
    ⟨.plain rfl rfl (by decide +kernel), by decide⟩
  have b : NamesColumn .postgresql ["a", "b"] [.inLine .identifier "b" 31] "b" :=
    ⟨.plain rfl rfl (by decide +kernel), by decide⟩
  have one : Spells [.inLine .number "1" 11] (.number "1" (.int 1)) :=
    .number rfl (means_digits false (by simp [Token.inLine])) .none
  have five : Spells [.inLine .number "5" 17] (.number "5" (.int 5)) :=
    .number rfl (means_digits false (by simp [Token.inLine])) .none
  have truth : Spells [.inLine .keyword "TRUE" 24] (.bool true) := .truth rfl .none
  have interval : Documented .postgresql ["a", "b"] ([.inLine .identifier "a" 1] ++ .inLine .keyword "BETWEEN" 3 ::
      ([.inLine .number "1" 11] ++ .inLine .keyword "AND" 13 :: [.inLine .number "5" 17])) _ _ :=
    .term (.between a rfl one rfl five)
  have equal : Documented .postgresql ["a", "b"] ([.inLine .keyword "TRUE" 24] ++ .inLine .operator "=" 29 ::
      [.inLine .identifier "b" 31]) _ (.valueFirst _ .equal _) :=
    .term (.valueFirst truth ⟨rfl, by decide⟩ b)
  have documented : Documented .postgresql ["a", "b"]
      (tokenize .postgresql "(a BETWEEN 1 AND 5) AND TRUE = b".toList).toList
      ([.number "1" (.int 1), .number "5" (.int 5)] ++ [.bool true])
      (.and (.between "a" (.int 1) (.int 5)) (.valueFirst (.bool true) .equal "b")) := by
    rw [tokens]
    exact .and (.paren rfl interval rfl) rfl equal
  have fits : ∀ o ∈ [Operand.number "1" (.int 1), .number "5" (.int 5)] ++ [.bool true], o.Fits := by
    simp only [List.cons_append, List.nil_append, List.forall_mem_cons]
    have oneFits := @fits_of_small "1" 1 (by decide) (by decide)
    have fiveFits := @fits_of_small "5" 5 (by decide) (by decide)
    exact ⟨oneFits, fiveFits, ⟨trivial, id⟩, fun _ none => absurd none List.not_mem_nil⟩
  have answers := @conditionRules_documented .postgresql ["a", "b"] "(a BETWEEN 1 AND 5) AND TRUE = b" none none _ _
    complete documented (by rw [tokens]; decide) (by decide)
  obtain ⟨answer, given⟩ := answers.1.2 fits
  obtain ⟨understood, translated⟩ := answers.2 answer given
  have made := congrArg (Except.map (List.map fun r => (r.kind, r.fields, r.value))) translated
  refine ⟨answer, given, understood, Except.ok.inj (made.symm.trans ?_)⟩
  decide +kernel

/-! ## A bound of too many digits -/

/-- a column has to be greater than a numeral of so many ones -/
def aboveOnes (n : Nat) : List Char := "QTY > ".toList ++ ones n

/-- the tokens of that condition -/
def aboveOnesTokens (n : Nat) : List Token :=
  [⟨.identifier, "QTY", "qty", .start, false⟩, .inLine .operator ">" 4, .inLine .number (String.ofList (ones n)) 6]

theorem tokenize_aboveOnes (n : Nat) :
    tokenize .postgresql (aboveOnes (n + 1)) = .ofList (aboveOnesTokens (n + 1)) := by
  have name : IsLexeme .postgresql "QTY".toList .identifier "qty" false (' ' :: '>' :: ' ' :: ones (n + 1)) := by
    have isName : wordLexeme .postgresql "QTY" = (.identifier, "qty") := by decide +kernel
    have letters : "QTY".toList ⊆ capitals := by decide
    have word := @isLexeme_word .postgresql (' ' :: '>' :: ' ' :: ones (n + 1)) "QTY" letters (by decide) (by
      intro x hx
      obtain rfl := Option.some.inj hx
      decide)
    rwa [isName] at word
  have above : IsLexeme .postgresql ['>'] .operator ">" false (' ' :: ones (n + 1)) := ⟨_, _, rfl, rfl⟩
  have numeral : IsLexeme .postgresql (ones (n + 1)) .number (String.ofList (ones (n + 1))) false [] := by
    refine isLexeme_numeral (by simp [ones]) (fun x hx => ?_) (by simp)
    rw [(List.mem_replicate.1 hx).2]
    decide
  have raw : scan .postgresql (aboveOnes (n + 1)) = .ofList (aboveOnesTokens (n + 1)) := by
    have first := scanFrom_of_isLexeme name .start
    have second := scanFrom_of_isLexeme above ⟨1, 5, 4⟩
    have third := scanFrom_of_isLexeme numeral ⟨1, 7, 6⟩
    rw [List.append_nil] at third
    have text : aboveOnes (n + 1) = "QTY".toList ++ (' ' :: '>' :: ' ' :: ones (n + 1)) := rfl
    have behindName : (Position.start.after "QTY".toList).advance ' ' = ⟨1, 5, 4⟩ := by decide
    have behindSign : (Position.after ⟨1, 5, 4⟩ ['>']).advance ' ' = ⟨1, 7, 6⟩ := by decide
    rw [List.singleton_append] at second
    rw [scan, text, first, scanFrom_blank, behindName, second, scanFrom_blank, behindSign, third]
    rfl
  have alone : phrasesAt .postgresql ⟨.identifier, "QTY", "qty", .start, false⟩ = [] := by decide +kernel
  rw [tokenize, merge, raw]
  simp only [aboveOnesTokens, TokenStream.ofList, mergeFrom, alone]
  rfl

theorem documented_aboveOnes (n : Nat) : Documented .postgresql ["qty"] (aboveOnesTokens n)
    [.number (String.ofList (ones n)) (.int (positional 10 decimalDigit (ones n)))]
    (.columnFirst "qty" .greater (.int (positional 10 decimalDigit (ones n)))) := by
  have name : NamesColumn .postgresql ["qty"] [⟨.identifier, "QTY", "qty", .start, false⟩] "qty" :=
    ⟨.plain rfl rfl (by decide +kernel), by decide⟩
  have value : Means false (String.ofList (ones n)).toList (.int (positional 10 decimalDigit (ones n))) := by
    rw [String.toList_ofList]
    refine means_digits false fun c hc => ?_
    rw [(List.mem_replicate.1 hc).2]
    rfl
  exact .term (.columnFirst name ⟨rfl, by decide⟩ (.number rfl value .none))

/-- a condition of the documented forms that has no answer -/
def Unanswered (d : Dialect) (columns : List String) (text : List Char) : Prop :=
  (tokenize d text).error? = none ∧ (∃ os c, Documented d columns (tokenize d text).toList os c) ∧
    nesting (tokenize d text).toList ≤ maxNesting ∧ TruthFree columns ∧
    ¬ ∃ answer, conditionRules d columns (String.ofList text) none none = .ok answer

theorem unanswered_aboveOnes {n : Nat} (long : maxDigits < n + 1) :
    Unanswered .postgresql ["qty"] (aboveOnes (n + 1)) := by
  have tokens := tokenize_aboveOnes n
  have complete : (tokenize .postgresql (aboveOnes (n + 1))).error? = none := by rw [tokens]; rfl
  have documented := documented_aboveOnes (n + 1)
  rw [← TokenStream.toList_ofList (aboveOnesTokens (n + 1)), ← tokens] at documented
  have shallow : nesting (tokenize .postgresql (aboveOnes (n + 1))).toList ≤ maxNesting := by
    rw [tokens]
    simp [TokenStream.toList_ofList, aboveOnesTokens, nesting, depthAfter, Token.isPunct, Token.inLine, maxNesting]
  have free : TruthFree ["qty"] := by decide
  refine ⟨complete, ⟨_, _, documented⟩, shallow, free, ?_⟩
  have misfit : ¬ ∀ o ∈ [Operand.number (String.ofList (ones (n + 1)))
      (.int (positional 10 decimalDigit (ones (n + 1))))], o.Fits := fun fits =>
    (fits _ List.mem_cons_self).legible (overlong_ones long)
  have text : (String.ofList (aboveOnes (n + 1))).toList = aboveOnes (n + 1) := String.toList_ofList
  rw [← text] at complete documented shallow
  obtain ⟨r, refused⟩ := @conditionRules_of_misfit _ _ _ none none _ _ complete documented shallow free misfit
  rw [refused]
  rintro ⟨answer, given⟩
  cases given

/-- there is no answer on a bound of 4301 digits -/
theorem unanswered_bound : Unanswered .postgresql ["qty"] (aboveOnes 4301) :=
  unanswered_aboveOnes (Nat.lt_succ_self maxDigits)

end SchemaApi
