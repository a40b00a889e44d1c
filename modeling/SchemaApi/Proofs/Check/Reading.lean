import SchemaApi.Proofs.Check.Grammar
/-!
What is read of a condition is derived in the grammar.
-/

namespace SchemaApi

/-! ## Parentheses and casts -/

theorem closeParens_eq_some_iff {n : Nat} {ts rest : List Token} :
    closeParens n ts = some rest ↔ ∃ used, ts = used ++ rest ∧ Closes n used := by
  constructor
  · intro h
    induction ts generalizing n with
    | nil => simp [closeParens] at h
    | cons t ts ih =>
      simp only [closeParens] at h
      split_ifs at h with opens closes
      · obtain ⟨used, rfl, inside⟩ := ih h
        exact ⟨t :: used, rfl, .opens opens inside⟩
      · cases n with
        | zero => exact ⟨[t], by rw [← Option.some.inj h]; rfl, .last closes⟩
        | succ n =>
          obtain ⟨used, rfl, inside⟩ := ih h
          exact ⟨t :: used, rfl, .inner closes inside⟩
      · obtain ⟨used, rfl, inside⟩ := ih h
        exact ⟨t :: used, rfl, .other (by simpa using opens) (by simpa using closes) inside⟩
  · rintro ⟨used, rfl, inside⟩
    have apart : ∀ t : Token, t.isPunct ")" = true → t.isPunct "(" = false := by
      intro t closes
      simp only [Token.isPunct, Bool.and_eq_true, beq_iff_eq] at closes
      simp [Token.isPunct, closes.2]
    induction inside with
    | last closes => simp [closeParens, apart _ closes, closes]
    | inner closes _ ih => simp [closeParens, apart _ closes, closes, ih]
    | opens opens _ ih => simp [closeParens, opens, ih]
    | other opens closes _ ih => simp [closeParens, opens, closes, ih]

theorem Closes.eq_append {n : Nat} {ts : List Token} (h : Closes n ts) :
    ∃ inside closing, ts = inside ++ [closing] ∧ closing.isPunct ")" = true := by
  induction h with
  | @last t closes => exact ⟨[], t, rfl, closes⟩
  | inner _ _ ih | opens _ _ ih | other _ _ _ ih =>
    obtain ⟨inside, closing, rfl, closes⟩ := ih
    exact ⟨_ :: inside, closing, rfl, closes⟩

theorem casts_of_skipCasts {ts rest : List Token} (h : skipCasts ts = some rest) :
    ∃ used, ts = used ++ rest ∧ Casts used := by
  fun_induction skipCasts ts with
  | case1 colons type cast =>
    obtain rfl := Option.some.inj h
    exact ⟨[colons, type], rfl, .plain cast.1 cast.2 .none⟩
  | case2 => simp at h
  | case3 colons type cast t more opens behind closed _ ih =>
    obtain ⟨inside, rfl, closes⟩ := closeParens_eq_some_iff.1 closed
    obtain ⟨used, rfl, casts⟩ := ih h
    exact ⟨colons :: type :: t :: (inside ++ used), by simp, .args cast.1 cast.2 opens closes casts⟩
  | case4 colons type cast t more opens ih =>
    obtain ⟨used, e, casts⟩ := ih h
    exact ⟨colons :: type :: used, by rw [e]; rfl, .plain cast.1 cast.2 casts⟩
  | case5 => exact ⟨[], Option.some.inj h, .none⟩
  | case6 => exact ⟨[], Option.some.inj h, .none⟩

theorem passCasts_eq_ok_iff {ts rest : List Token} : passCasts ts = .ok rest ↔ skipCasts ts = some rest := by
  unfold passCasts
  split <;> simp_all

/-! ## Constants -/

theorem constant_of_plainLiteral {t : Token} {ts rest : List Token} {v : Literal}
    (h : plainLiteral t ts = .ok (v, rest)) : ∃ used, t :: ts = used ++ rest ∧ Constant used v := by
  unfold plainLiteral at h
  split_ifs at h with number text truth
  · simp only [bind_eq_ok_iff, pure_eq_ok_iff, passCasts_eq_ok_iff] at h
    obtain ⟨v, read, rest, skipped, e⟩ := h
    obtain ⟨rfl, rfl⟩ := Prod.mk.inj e
    obtain ⟨casts, rfl, cast⟩ := casts_of_skipCasts skipped
    obtain ⟨value, legible⟩ := readNumber_eq_ok_iff.1 read
    exact ⟨t :: casts, rfl, .number (by simpa using number) legible value cast⟩
  · simp only [bind_eq_ok_iff, pure_eq_ok_iff, passCasts_eq_ok_iff] at h
    obtain ⟨rest, skipped, e⟩ := h
    obtain ⟨rfl, rfl⟩ := Prod.mk.inj e
    obtain ⟨casts, rfl, cast⟩ := casts_of_skipCasts skipped
    exact ⟨t :: casts, rfl, .text (by simpa using text) cast⟩
  · simp only [bind_eq_ok_iff, pure_eq_ok_iff, passCasts_eq_ok_iff] at h
    obtain ⟨rest, skipped, e⟩ := h
    obtain ⟨rfl, rfl⟩ := Prod.mk.inj e
    obtain ⟨casts, rfl, cast⟩ := casts_of_skipCasts skipped
    refine ⟨t :: casts, rfl, ?_⟩
    rw [Bool.or_eq_true] at truth
    rcases truth with isTrue | isFalse
    · have value : t.value = "TRUE" := by
        simp only [Token.isKeyword, Bool.and_eq_true, beq_iff_eq] at isTrue
        exact isTrue.2
      rw [value]; exact .true isTrue cast
    · have value : t.value = "FALSE" := by
        simp only [Token.isKeyword, Bool.and_eq_true, beq_iff_eq] at isFalse
        exact isFalse.2
      rw [value]; exact .false isFalse cast

theorem constant_of_signedLiteral {sign : Token} {ts rest : List Token} {v : Literal}
    (signs : (sign.isOperator "-" || sign.isOperator "+") = true)
    (h : signedLiteral (sign.value == "-") ts = .ok (v, rest)) :
    ∃ used, sign :: ts = used ++ rest ∧ Constant used v := by
  cases ts with
  | nil => simp [signedLiteral] at h
  | cons t ts =>
    by_cases isNumber : t.kind = .number
    · simp only [signedLiteral, isNumber, beq_self_eq_true, if_true, bind_eq_ok_iff, pure_eq_ok_iff,
        passCasts_eq_ok_iff] at h
      obtain ⟨v, read, rest, skipped, e⟩ := h
      obtain ⟨rfl, rfl⟩ := Prod.mk.inj e
      obtain ⟨casts, rfl, cast⟩ := casts_of_skipCasts skipped
      have legible := (readNumber_eq_ok_iff.1 read).2
      refine ⟨sign :: t :: casts, rfl, .signed ?_ isNumber legible ((means_iff_read legible).2 ⟨v, read, rfl⟩) cast⟩
      simp only [Token.isOperator, Bool.or_eq_true, Bool.and_eq_true, beq_iff_eq] at signs ⊢
      rcases signs with ⟨isOperator, minus⟩ | ⟨isOperator, plus⟩
      · simp [isOperator, minus]
      · simp [isOperator, plus]
    · simp [signedLiteral, isNumber] at h

theorem constant_of_literal {ts rest : List Token} {v : Literal} (h : literal ts = .ok (v, rest)) :
    ∃ used, ts = used ++ rest ∧ Constant used v := by
  fun_induction literal ts generalizing v rest with
  | case1 => simp at h
  | case2 => simp at h
  | case3 => simp at h
  | case4 t ts opens v' closing behind inside closes ih =>
    obtain ⟨rest', skipped, e⟩ := map_eq_ok_iff.1 h
    obtain ⟨rfl, rfl⟩ := Prod.mk.inj e
    obtain ⟨used, rfl, constant⟩ := ih inside
    obtain ⟨casts, rfl, cast⟩ := casts_of_skipCasts (passCasts_eq_ok_iff.1 skipped)
    exact ⟨t :: (used ++ closing :: casts), by simp, .paren opens constant closes cast⟩
  | case5 => simp at h
  | case6 t ts _ signs => exact constant_of_signedLiteral signs h
  | case7 t ts => exact constant_of_plainLiteral h

theorem constantList_of_literals {closing : String} {fuel : Nat} {ts rest : List Token} {vs : List Literal}
    (h : literals closing fuel ts = .ok (vs, rest)) : ∃ used last v others,
      ts = used ++ last :: rest ∧ last.isPunct closing = true ∧ vs = v :: others ∧ ConstantList used vs := by
  induction fuel generalizing ts vs with
  | zero => simp [literals] at h
  | succ fuel ih =>
    simp only [literals, bind_eq_ok_iff] at h
    obtain ⟨⟨v, behind⟩, read, h⟩ := h
    obtain ⟨used, rfl, constant⟩ := constant_of_literal read
    cases behind with
    | nil => simp [throw_eq_ok_iff] at h
    | cons t more =>
      simp only at h
      split_ifs at h with comma closes
      · simp only [bind_eq_ok_iff, pure_eq_ok_iff] at h
        obtain ⟨⟨vs', behind⟩, read, e⟩ := h
        obtain ⟨rfl, rfl⟩ := Prod.mk.inj e
        obtain ⟨used', last, v', others, rfl, closes, rfl, list⟩ := ih read
        exact ⟨used ++ t :: used', last, v, _, by simp, closes, rfl, .more constant comma list⟩
      · obtain ⟨rfl, rfl⟩ := Prod.mk.inj (pure_eq_ok_iff.1 h)
        exact ⟨used, t, v, [], rfl, closes, rfl, .one constant⟩

theorem constantList_of_literalList {opening closing : String} {ts rest : List Token} {vs : List Literal}
    (h : literalList opening closing ts = .ok (vs, rest)) : ∃ first used last v others,
      ts = first :: (used ++ last :: rest) ∧ first.isPunct opening = true ∧ last.isPunct closing = true ∧
        vs = v :: others ∧ ConstantList used vs := by
  cases ts with
  | nil => simp [literalList] at h
  | cons t ts =>
    simp only [literalList] at h
    split_ifs at h with opens
    obtain ⟨used, last, v, others, rfl, closes, e, list⟩ := constantList_of_literals h
    exact ⟨t, used, last, v, others, rfl, opens, closes, e, list⟩

/-! ## Terms -/

section
variable {d : Dialect} {columns : List String}

theorem columnName_of_columnAt? {ts rest : List Token} {column : String}
    (h : columnAt? d columns ts = some (column, rest)) :
    ∃ used, ts = used ++ rest ∧ ColumnName d columns used column := by
  cases ts with
  | nil => simp [columnAt?] at h
  | cons t ts =>
    have ownName : (if t.kind == .identifier then t.value else d.normalize t.text false) = t.ownName d := rfl
    simp only [columnAt?, ownName] at h
    split_ifs at h with noWord
    · rw [Bool.or_eq_true, not_or, Bool.not_eq_true, Bool.not_eq_true, Bool.not_eq_false'] at noWord
      obtain ⟨word, single⟩ := noWord
      have own : (columns.find? (d.sameName · (t.ownName d))).map (·, ts) = some (column, rest) →
          ∃ used, t :: ts = used ++ rest ∧ ColumnName d columns used column := by
        intro h
        obtain ⟨c, found, e⟩ := Option.map_eq_some_iff.1 h
        obtain ⟨rfl, rfl⟩ := Prod.mk.inj e
        exact ⟨[t], rfl, .plain word single found⟩
      split at h
      · rename_i point next behind
        split_ifs at h with qualified
        · obtain ⟨c, found, e⟩ := Option.map_eq_some_iff.1 h
          obtain ⟨rfl, rfl⟩ := Prod.mk.inj e
          exact ⟨[t, point, next], rfl, .qualified word single qualified.1 (by simpa using qualified.2) found⟩
        · exact own h
      · exact own h

theorem written_of_operatorKind? {t : Token} {kind : RuleKind} (h : operatorKind? t = some kind) :
    ∃ op : Comparison, op.kind = kind ∧ op.Written t := by
  unfold operatorKind? at h
  split_ifs at h with isOperator
  have isOperator : t.kind = .operator := by simpa using isOperator
  unfold comparison? at h
  split at h
  all_goals first
    | exact ⟨.greater, Option.some.inj h, isOperator, by simp [Comparison.symbols, *]⟩
    | exact ⟨.atLeast, Option.some.inj h, isOperator, by simp [Comparison.symbols, *]⟩
    | exact ⟨.less, Option.some.inj h, isOperator, by simp [Comparison.symbols, *]⟩
    | exact ⟨.atMost, Option.some.inj h, isOperator, by simp [Comparison.symbols, *]⟩
    | exact ⟨.equal, Option.some.inj h, isOperator, by simp [Comparison.symbols, *]⟩
    | exact ⟨.different, Option.some.inj h, isOperator, by simp [Comparison.symbols, *]⟩
    | simp at h

theorem whole_eq_ok_iff {α : Type} {result : α × List Token} {a : α} :
    whole result = .ok a ↔ result = (a, []) := by
  obtain ⟨b, rest⟩ := result
  unfold whole
  cases rest <;> simp

theorem equalsAny_of_anyArray {ts rest : List Token} {vs : List Literal} (begins : startsAnyArray ts = true)
    (h : anyArray ts = .ok (vs, rest)) : ∃ any paren array opening inside closing casts last v others,
      ts = any :: paren :: array :: opening :: (inside ++ closing :: (casts ++ last :: rest)) ∧
      Text.upper any.text = "ANY" ∧ paren.isPunct "(" = true ∧ Text.upper array.text = "ARRAY" ∧
      opening.isPunct "[" = true ∧ closing.isPunct "]" = true ∧ Casts casts ∧ last.isPunct ")" = true ∧
      vs = v :: others ∧ ConstantList inside vs := by
  unfold startsAnyArray at begins
  split at begins
  · rename_i any paren array behind
    simp only [Bool.and_eq_true, beq_iff_eq] at begins
    obtain ⟨⟨isAny, opensAny⟩, isArray⟩ := begins
    simp only [anyArray, List.drop_succ_cons, List.drop_zero, bind_eq_ok_iff, passCasts_eq_ok_iff] at h
    obtain ⟨⟨vs', more⟩, read, casted, skipped, h⟩ := h
    obtain ⟨opening, inside, closing, v, others, rfl, opens, closes, e, list⟩ := constantList_of_literalList read
    obtain ⟨casts, rfl, cast⟩ := casts_of_skipCasts skipped
    cases casted with
    | nil => simp [throw_eq_ok_iff] at h
    | cons last casted =>
      simp only at h
      split_ifs at h with closesAny
      · obtain ⟨rfl, rfl⟩ := Prod.mk.inj (pure_eq_ok_iff.1 h)
        exact ⟨any, paren, array, opening, inside, closing, casts, last, v, others, rfl, isAny, opensAny,
          isArray, opens, closes, cast, closesAny, e, list⟩
  · contradiction

theorem readsTerm_of_comparisonTerm {name rest : List Token} {t : Token} {column : String} {op : Comparison}
    {terms : List Term} (named : ColumnName d columns name column) (written : op.Written t)
    (h : comparisonTerm op.kind column rest = .ok terms) :
    ∃ c, ReadsTerm d columns (name ++ t :: rest) c ∧ c.terms = terms := by
  unfold comparisonTerm at h
  split_ifs at h with any
  · simp only [bind_eq_ok_iff, pure_eq_ok_iff, whole_eq_ok_iff] at h
    obtain ⟨_, read, vs, rfl, rfl⟩ := h
    rw [Bool.and_eq_true, beq_iff_eq] at any
    obtain ⟨any, paren, array, opening, inside, closing, casts, last, v, others, rfl, isAny, opensAny,
      isArray, opens, closes, cast, closesAny, rfl, list⟩ := equalsAny_of_anyArray any.2 read
    have isEqual : op = .equal := by
      cases op <;> simp_all [Comparison.kind]
    rw [isEqual] at written
    exact ⟨_, .equalsAny named written isAny opensAny isArray opens list closes cast closesAny, rfl⟩
  · simp only [bind_eq_ok_iff, pure_eq_ok_iff, whole_eq_ok_iff] at h
    obtain ⟨_, read, v, rfl, rfl⟩ := h
    obtain ⟨used, rfl, constant⟩ := constant_of_literal read
    rw [List.append_nil]
    exact ⟨_, .columnFirst named written constant, rfl⟩

theorem readsTerm_of_betweenTerm {name rest : List Token} {t : Token} {column : String} {terms : List Term}
    (named : ColumnName d columns name column) (between : t.isKeyword "BETWEEN" = true)
    (h : betweenTerm column rest = .ok terms) :
    ∃ c, ReadsTerm d columns (name ++ t :: rest) c ∧ c.terms = terms := by
  simp only [betweenTerm, bind_eq_ok_iff] at h
  obtain ⟨⟨low, behind⟩, readLow, h⟩ := h
  obtain ⟨lower, rfl, constantLow⟩ := constant_of_literal readLow
  cases behind with
  | nil => simp [throw_eq_ok_iff] at h
  | cons conj behind =>
    simp only at h
    split_ifs at h with and
    simp only [bind_eq_ok_iff, pure_eq_ok_iff, whole_eq_ok_iff] at h
    obtain ⟨_, readHigh, high, rfl, rfl⟩ := h
    obtain ⟨upper, rfl, constantHigh⟩ := constant_of_literal readHigh
    rw [List.append_nil]
    exact ⟨_, .between named between constantLow and constantHigh, rfl⟩

/-- what stands behind a column makes a term -/
theorem readsTerm_of_columnTerm {name rest : List Token} {column : String} {terms : List Term}
    (named : ColumnName d columns name column) (h : columnTerm column rest = .ok terms) :
    ∃ c, ReadsTerm d columns (name ++ rest) c ∧ c.terms = terms := by
  cases rest with
  | nil => simp [columnTerm] at h
  | cons t rest =>
    simp only [columnTerm] at h
    cases isOperator : operatorKind? t with
    | some kind =>
      obtain ⟨op, rfl, written⟩ := written_of_operatorKind? isOperator
      simp only [isOperator] at h
      exact readsTerm_of_comparisonTerm named written h
    | none =>
      simp only [isOperator] at h
      split_ifs at h with between isIn is
      · exact readsTerm_of_betweenTerm named between h
      · simp only [bind_eq_ok_iff, pure_eq_ok_iff, whole_eq_ok_iff] at h
        obtain ⟨_, read, vs, rfl, rfl⟩ := h
        obtain ⟨opening, inside, closing, v, others, rfl, opens, closes, rfl, list⟩ :=
          constantList_of_literalList read
        exact ⟨_, .isIn named isIn opens list closes, rfl⟩
      · split at h
        · rename_i next
          split_ifs at h with notNull
          rw [← Except.ok.inj h]
          exact ⟨_, .isNotNull named is notNull, rfl⟩
        · simp at h

theorem readsTerm_of_readTerm {ts : List Token} {terms : List Term} (h : readTerm d columns ts = .ok terms) :
    ∃ c, ReadsTerm d columns ts c ∧ c.terms = terms := by
  unfold readTerm at h
  split at h
  · rename_i column rest found
    obtain ⟨name, rfl, named⟩ := columnName_of_columnAt? found
    exact readsTerm_of_columnTerm named h
  · simp only [bind_eq_ok_iff] at h
    obtain ⟨⟨v, behind⟩, read, h⟩ := h
    obtain ⟨value, rfl, constant⟩ := constant_of_literal read
    cases behind with
    | nil => simp [throw_eq_ok_iff] at h
    | cons t rest =>
      simp only at h
      split at h
      · rename_i kind column isOperator found
        obtain ⟨op, rfl, written⟩ := written_of_operatorKind? isOperator
        obtain ⟨name, rfl, named⟩ := columnName_of_columnAt? found
        rw [← pure_eq_ok_iff.1 h, List.append_nil]
        exact ⟨_, .valueFirst constant written named, rfl⟩
      · simp [throw_eq_ok_iff] at h

/-! ## Conjunctions -/

/-- parts with the word AND between them -/
inductive Joined : List Token → List (List Token) → Prop where
  | one (ts : List Token) : Joined ts [ts]
  | more {part rest : List Token} {t : Token} {parts : List (List Token)} (and : t.isKeyword "AND" = true)
      (h : Joined rest parts) : Joined (part ++ t :: rest) (part :: parts)

theorem joined_splitConjuncts (depth : Int) (inBetween : Bool) (ts : List Token) :
    Joined ts (splitConjuncts depth inBetween ts) := by
  induction ts generalizing depth inBetween with
  | nil => exact .one []
  | cons t ts ih =>
    simp only [splitConjuncts]
    split_ifs with cut
    · exact @Joined.more [] _ _ _ cut.2.1 (ih depth false)
    all_goals
      split
      · rename_i nothing
        have later := ih (depthAfter depth t) _ |> (nothing ▸ ·)
        cases later
      · rename_i part parts split
        have later := ih (depthAfter depth t) _ |> (split ▸ ·)
        cases later with
        | one => exact .one _
        | more and h => exact @Joined.more (t :: _) _ _ _ and h

theorem reads_of_unwrap {ts inside : List Token} {c : Condition} (h : unwrap ts = some inside)
    (reads : Reads d columns inside c) : Reads d columns ts c := by
  fun_induction unwrap ts with
  | case1 => rwa [← Option.some.inj h] at reads
  | case2 => simp at h
  | case3 t rest opens closed ih =>
    obtain ⟨used, e, closes⟩ := closeParens_eq_some_iff.1 closed
    obtain ⟨init, closing, rfl, isClosing⟩ := closes.eq_append
    rw [List.append_nil] at e
    rw [e, List.dropLast_concat] at ih h
    rw [e]; exact .paren opens.1 (ih h) isClosing
  | case4 => rwa [← Option.some.inj h] at reads
  | case5 => rwa [← Option.some.inj h] at reads

/-- parts that are read make a condition of their terms -/
theorem reads_of_joined {ts : List Token} {parts : List (List Token)} {terms : List Token → List Term}
    (joined : Joined ts parts) (each : ∀ part ∈ parts, ∃ c, Reads d columns part c ∧ c.terms = terms part) :
    ∃ c, Reads d columns ts c ∧ c.terms = parts.flatMap terms := by
  induction joined with
  | one ts =>
    obtain ⟨c, reads, same⟩ := each ts List.mem_cons_self
    exact ⟨c, reads, by simpa using same⟩
  | more and _ ih =>
    obtain ⟨a, readsA, sameA⟩ := each _ List.mem_cons_self
    obtain ⟨b, readsB, sameB⟩ := ih fun part hp => each part (List.mem_cons_of_mem _ hp)
    exact ⟨.and a b, .and readsA and readsB, by rw [Condition.terms, sameA, sameB, List.flatMap_cons]⟩

/-- a conjunction whose terms are read is a condition of their terms -/
theorem reads_of_conjuncts {fuel : Nat} {ts : List Token} {parts : List (List Token)}
    {terms : List Token → List Term} (split : conjuncts fuel ts = some parts)
    (each : ∀ part ∈ parts, ∃ c, ReadsTerm d columns part c ∧ c.terms = terms part) :
    ∃ c, Reads d columns ts c ∧ c.terms = parts.flatMap terms := by
  induction fuel generalizing ts parts with
  | zero => simp [conjuncts] at split
  | succ fuel ih =>
    rw [conjuncts] at split
    cases unwrapped : unwrap ts with
    | none => simp [unwrapped] at split
    | some inside =>
      have joined := joined_splitConjuncts 0 false inside
      simp only [unwrapped] at split
      split at split
      · obtain rfl := Option.some.inj split
        obtain ⟨c, reads, same⟩ := each inside List.mem_cons_self
        exact ⟨c, reads_of_unwrap unwrapped (.term reads), by simpa using same⟩
      · split_ifs at split
        obtain ⟨nested, run, rfl⟩ := Option.map_eq_some_iff.1 split
        have found := map_eq_of_mapM_eq_some run
        -- what each part gives, all of which is read
        have all : nested = (splitConjuncts 0 false inside).map fun p => (conjuncts fuel p).getD [] := by
          have values := congrArg (List.map (·.getD [])) found
          simpa [List.map_map, Function.comp_def] using values.symm
        have partsRead : ∀ part ∈ splitConjuncts 0 false inside, ∃ c, Reads d columns part c ∧
            c.terms = ((conjuncts fuel part).getD []).flatMap terms := by
          intro part hp
          obtain ⟨own, hown, e⟩ := List.mem_map.1 (found ▸ List.mem_map_of_mem hp)
          rw [← e]
          exact ih e.symm fun p hp => each p (List.mem_flatten.2 ⟨own, hown, hp⟩)
        obtain ⟨c, reads, same⟩ := reads_of_joined joined partsRead
        refine ⟨c, reads_of_unwrap unwrapped reads, same.trans ?_⟩
        rw [all, ← List.flatMap_def, List.flatMap_assoc]

end

end SchemaApi
