import SchemaApi.Proofs.Check.Reading
/-!
Conditions with numbers of too many digits.

No answer is given on a condition if a numeral has more digits than can be read, at a place where a term
expects a constant (`Expects`), or if a constant that was read cannot be written into a message. The
numerals elsewhere do not count, and neither do those behind the first term that is not understood.
-/

namespace SchemaApi

/-! ## Constants in front of other tokens -/

/-- no cast goes on here -/
def Stops (ts : List Token) : Prop :=
  ∀ t ∈ ts.head?, t.isOperator "::" = false ∧ t.isPunct "(" = false

theorem stops_cons {t : Token} {ts : List Token} (notCast : t.isOperator "::" = false)
    (notOpen : t.isPunct "(" = false) : Stops (t :: ts) := by
  intro t' ht
  rw [List.head?_cons, Option.mem_def, Option.some.injEq] at ht
  rw [← ht]; exact ⟨notCast, notOpen⟩

theorem stops_punct {t : Token} {ts : List Token} {mark : String} (h : t.isPunct mark = true)
    (notOpen : mark ≠ "(") : Stops (t :: ts) := by
  simp only [Token.isPunct, Bool.and_eq_true, beq_iff_eq] at h
  exact stops_cons (by simp [Token.isOperator, h.1]) (by simp [Token.isPunct, h.2, notOpen])

theorem stops_keyword {t : Token} {ts : List Token} {word : String} (h : t.isKeyword word = true) :
    Stops (t :: ts) := by
  simp only [Token.isKeyword, Bool.and_eq_true, beq_iff_eq] at h
  exact stops_cons (by simp [Token.isOperator, h.1]) (by simp [Token.isPunct, h.1])

theorem skipCasts_append {casts rest : List Token} (h : Casts casts) (stops : Stops rest) :
    skipCasts (casts ++ rest) = some rest := by
  have plain : ∀ ts, Stops ts → skipCasts ts = some ts := by
    intro ts stops
    unfold skipCasts
    split
    · rename_i colons type behind
      have noCast := (stops colons rfl).1
      simp [noCast]
    · rfl
  induction h with
  | none => exact plain rest stops
  | @plain colons type more cast word h ih =>
    rw [List.cons_append, List.cons_append]
    unfold skipCasts
    rw [if_pos ⟨cast, word⟩]
    cases behind : more ++ rest with
    | nil =>
      rw [(List.append_eq_nil_iff.1 behind).2]
    | cons t ts =>
      have notOpen : t.isPunct "(" = false := by
        cases h with
        | none =>
          rw [List.nil_append] at behind
          exact (stops t (by rw [behind]; rfl)).2
        | plain cast' _ _ | args cast' _ _ _ _ =>
          rw [List.cons_append, List.cons.injEq] at behind
          simp only [Token.isOperator, Bool.and_eq_true, beq_iff_eq] at cast'
          rw [← behind.1]; simp [Token.isPunct, cast'.1]
      simp only [notOpen, Bool.false_eq_true, if_false]
      rw [← behind]; exact ih
  | @args colons type paren inside more cast word opens closes h ih =>
    have closed : closeParens 0 (inside ++ (more ++ rest)) = some (more ++ rest) :=
      closeParens_eq_some_iff.2 ⟨inside, rfl, closes⟩
    simp only [List.cons_append, List.append_assoc]
    unfold skipCasts
    rw [if_pos ⟨cast, word⟩]
    simp only [opens, if_true]
    split
    · rename_i none
      rw [closed] at none; contradiction
    · rename_i behind found
      rw [closed] at found
      rw [← Option.some.inj found]; exact ih

theorem passCasts_append {casts rest : List Token} (h : Casts casts) (stops : Stops rest) :
    passCasts (casts ++ rest) = .ok rest :=
  passCasts_eq_ok_iff.2 (skipCasts_append h stops)

theorem literal_append {ts rest : List Token} {v : Literal} (h : Constant ts v) (stops : Stops rest) :
    literal (ts ++ rest) = .ok (v, rest) := by
  induction h generalizing rest with
  | number isNumber legible value cast =>
    have read := readNumber_eq_ok_iff.2 ⟨value, legible⟩
    simp [literal, plainLiteral, Token.isPunct, Token.isOperator, isNumber, read, passCasts_append cast stops,
      bind, Except.bind, pure, Except.pure]
  | @signed _ _ _ negative _ signs isNumber legible value cast =>
    obtain ⟨n, read, rfl⟩ := (means_iff_read legible).1 value
    simp only [Token.isOperator, Bool.and_eq_true, beq_iff_eq] at signs
    cases negative <;>
      simp [literal, signedLiteral, Token.isPunct, Token.isOperator, signs.1, signs.2, isNumber, read,
        passCasts_append cast stops, bind, Except.bind, pure, Except.pure]
  | text isText cast =>
    simp [literal, plainLiteral, Token.isPunct, Token.isOperator, isText, passCasts_append cast stops,
      bind, Except.bind, pure, Except.pure]
  | true isTrue cast =>
    simp only [Token.isKeyword, Bool.and_eq_true, beq_iff_eq] at isTrue
    simp [literal, plainLiteral, Token.isPunct, Token.isOperator, Token.isKeyword, isTrue.1, isTrue.2,
      passCasts_append cast stops, bind, Except.bind, pure, Except.pure]
  | false isFalse cast =>
    simp only [Token.isKeyword, Bool.and_eq_true, beq_iff_eq] at isFalse
    simp [literal, plainLiteral, Token.isPunct, Token.isOperator, Token.isKeyword, isFalse.1, isFalse.2,
      passCasts_append cast stops, bind, Except.bind, pure, Except.pure]
  | @paren opening closing inside casts v opens h closes cast ih =>
    have inner : literal (inside ++ closing :: (casts ++ rest)) = .ok (v, closing :: (casts ++ rest)) :=
      ih (stops_punct closes (by decide))
    simp only [List.cons_append, List.append_assoc]
    rw [literal, if_pos opens, inner]
    simp [closes, passCasts_append cast stops, Except.map]

/-! ## Overlong numerals -/

/-- a constant begins here whose numeral has so many digits that it cannot be read -/
inductive BeginsOverlong : List Token → Nat → Prop where
  | number {t : Token} {rest : List Token} (isNumber : t.kind = .number) (long : Overlong t.text) :
      BeginsOverlong (t :: rest) t.text.toList.length
  | signed {sign t : Token} {rest : List Token}
      (signs : (sign.isOperator "-" || sign.isOperator "+") = true) (isNumber : t.kind = .number)
      (long : Overlong t.text) : BeginsOverlong (sign :: t :: rest) t.text.toList.length
  | paren {t : Token} {rest : List Token} {n : Nat} (opens : t.isPunct "(" = true)
      (h : BeginsOverlong rest n) : BeginsOverlong (t :: rest) n

/-- a list of constants begins here, and a numeral in it cannot be read -/
inductive ListsOverlong : List Token → Nat → Prop where
  | here {ts : List Token} {n : Nat} (h : BeginsOverlong ts n) : ListsOverlong ts n
  | later {ts rest : List Token} {comma : Token} {v : Literal} {n : Nat} (constant : Constant ts v)
      (between : comma.isPunct "," = true) (h : ListsOverlong rest n) : ListsOverlong (ts ++ comma :: rest) n

theorem passCasts_ne_refused {ts : List Token} {r : Refusal} : passCasts ts ≠ .error (.refused r) := by
  unfold passCasts
  split <;> simp

theorem plainLiteral_eq_refused_iff {t : Token} {rest : List Token} {r : Refusal} :
    plainLiteral t rest = .error (.refused r) ↔
      t.kind = .number ∧ Overlong t.text ∧ r = .tooLong t.text.toList.length := by
  unfold plainLiteral
  split_ifs with number text truth
  · have isNumber : t.kind = .number := by simpa using number
    simp only [bind_eq_error_iff, readNumber_eq_error_iff, passCasts_ne_refused, pure_eq_error_iff, and_false,
      exists_false, or_false, NoRules.refused.injEq, isNumber, true_and]
  all_goals
    have isNumber : t.kind ≠ .number := by simpa using number
    simp [fmap_eq_error_iff, passCasts_ne_refused, isNumber]

theorem signedLiteral_eq_refused_iff {negative : Bool} {ts : List Token} {r : Refusal} :
    signedLiteral negative ts = .error (.refused r) ↔ ∃ t rest, ts = t :: rest ∧
      t.kind = .number ∧ Overlong t.text ∧ r = .tooLong t.text.toList.length := by
  cases ts with
  | nil => simp [signedLiteral]
  | cons t rest =>
    by_cases isNumber : t.kind = .number
    · simp [signedLiteral, isNumber, bind_eq_error_iff, readNumber_eq_error_iff, fmap_eq_error_iff,
        passCasts_ne_refused]
    · simp [signedLiteral, isNumber]

theorem literal_eq_refused_iff {ts : List Token} {r : Refusal} :
    literal ts = .error (.refused r) ↔ ∃ n, BeginsOverlong ts n ∧ r = .tooLong n := by
  constructor
  · intro h
    fun_induction literal ts with
    | case1 => simp at h
    | case2 t rest opens e inside ih =>
      obtain ⟨n, long, rfl⟩ := ih (inside.trans h)
      exact ⟨n, .paren opens long, rfl⟩
    | case3 => simp at h
    | case4 => exact absurd (map_eq_error_iff.1 h) passCasts_ne_refused
    | case5 => simp at h
    | case6 sign ts _ signs =>
      obtain ⟨t, rest, rfl, isNumber, long, rfl⟩ := signedLiteral_eq_refused_iff.1 h
      exact ⟨_, .signed signs isNumber long, rfl⟩
    | case7 t ts =>
      obtain ⟨isNumber, long, rfl⟩ := plainLiteral_eq_refused_iff.1 h
      exact ⟨_, .number isNumber long, rfl⟩
  · rintro ⟨n, long, rfl⟩
    induction long with
    | @number t rest isNumber long =>
      have noParen : t.isPunct "(" = false := by simp [Token.isPunct, isNumber]
      have noSign : (t.isOperator "-" || t.isOperator "+") = false := by simp [Token.isOperator, isNumber]
      simp only [literal, noParen, noSign, Bool.false_eq_true, if_false]
      exact plainLiteral_eq_refused_iff.2 ⟨isNumber, long, rfl⟩
    | @signed sign t rest signs isNumber long =>
      have noParen : sign.isPunct "(" = false := by
        simp only [Token.isOperator, Bool.or_eq_true, Bool.and_eq_true, beq_iff_eq] at signs
        rcases signs with signs | signs <;> simp [Token.isPunct, signs.1]
      rw [literal]
      simp only [noParen, signs, Bool.false_eq_true, if_false, if_true]
      exact signedLiteral_eq_refused_iff.2 ⟨t, rest, rfl, isNumber, long, rfl⟩
    | paren opens _ ih => rw [literal, if_pos opens, ih]

theorem ListsOverlong.length_pos {ts : List Token} {n : Nat} (h : ListsOverlong ts n) : 0 < ts.length := by
  cases h with
  | here h => cases h <;> exact Nat.succ_pos _
  | later => exact List.length_pos_iff.2 (by simp)

theorem literals_eq_refused_iff {closing : String} {fuel : Nat} {ts : List Token} {r : Refusal}
    (enough : ts.length ≤ fuel) :
    literals closing fuel ts = .error (.refused r) ↔ ∃ n, ListsOverlong ts n ∧ r = .tooLong n := by
  induction fuel generalizing ts with
  | zero =>
    rw [List.length_eq_zero_iff.1 (Nat.le_zero.1 enough)]
    constructor
    · intro h; simp [literals] at h
    · rintro ⟨n, long, -⟩; exact absurd long.length_pos (by simp)
  | succ fuel ih =>
    simp only [literals, bind_eq_error_iff]
    constructor
    · rintro (h | ⟨⟨v, behind⟩, read, h⟩)
      · obtain ⟨n, long, rfl⟩ := literal_eq_refused_iff.1 h
        exact ⟨n, .here long, rfl⟩
      · obtain ⟨used, rfl, constant⟩ := constant_of_literal read
        cases behind with
        | nil => simp [throw_eq_error_iff] at h
        | cons t more =>
          simp only at h
          split_ifs at h with comma last
          · simp only [bind_eq_error_iff, pure_eq_error_iff, and_false, exists_false, or_false] at h
            obtain ⟨n, long, rfl⟩ := (ih (by simp at enough; omega)).1 h
            exact ⟨n, .later constant comma long, rfl⟩
          · simp [pure_eq_error_iff] at h
          · simp [throw_eq_error_iff] at h
    · rintro ⟨n, long, rfl⟩
      cases long with
      | here h => exact Or.inl (literal_eq_refused_iff.2 ⟨n, h, rfl⟩)
      | @later used more comma v _ constant between h =>
        refine Or.inr ⟨_, literal_append constant (stops_punct between (by decide)), ?_⟩
        simp only [between, if_true, bind_eq_error_iff]
        exact Or.inl ((ih (by simp at enough; omega)).2 ⟨n, h, rfl⟩)

theorem literalList_eq_refused_iff {opening closing : String} {ts : List Token} {r : Refusal} :
    literalList opening closing ts = .error (.refused r) ↔
      ∃ t rest n, ts = t :: rest ∧ t.isPunct opening = true ∧ ListsOverlong rest n ∧ r = .tooLong n := by
  cases ts with
  | nil => simp [literalList]
  | cons t rest =>
    simp only [literalList]
    split_ifs with opens
    · rw [literals_eq_refused_iff (Nat.le_refl _)]
      simp [opens]
    · simp [opens]

/-! ## Terms -/

/-- a term that is supported so far goes on with a numeral that cannot be read -/
inductive MeetsOverlong (d : Dialect) (columns : List String) : List Token → Nat → Prop where
  | first {ts : List Token} {n : Nat} (h : BeginsOverlong ts n) : MeetsOverlong d columns ts n
  | operand {name rest : List Token} {t : Token} {column : String} {op : Comparison} {n : Nat}
      (named : ColumnName d columns name column) (written : op.Written t)
      (single : op = .equal → startsAnyArray rest = false) (h : BeginsOverlong rest n) :
      MeetsOverlong d columns (name ++ t :: rest) n
  | lower {name rest : List Token} {t : Token} {column : String} {n : Nat}
      (named : ColumnName d columns name column) (between : t.isKeyword "BETWEEN" = true)
      (h : BeginsOverlong rest n) : MeetsOverlong d columns (name ++ t :: rest) n
  | upper {name lower rest : List Token} {t conj : Token} {column : String} {low : Literal} {n : Nat}
      (named : ColumnName d columns name column) (between : t.isKeyword "BETWEEN" = true)
      (constant : Constant lower low) (and : conj.isKeyword "AND" = true) (h : BeginsOverlong rest n) :
      MeetsOverlong d columns (name ++ t :: (lower ++ conj :: rest)) n
  | member {name rest : List Token} {t opening : Token} {column : String} {n : Nat}
      (named : ColumnName d columns name column) (isIn : t.isKeyword "IN" = true)
      (opens : opening.isPunct "(" = true) (h : ListsOverlong rest n) :
      MeetsOverlong d columns (name ++ t :: opening :: rest) n
  | element {name rest : List Token} {t any paren array opening : Token} {column : String} {n : Nat}
      (named : ColumnName d columns name column) (written : Comparison.equal.Written t)
      (isAny : Text.upper any.text = "ANY") (opensAny : paren.isPunct "(" = true)
      (isArray : Text.upper array.text = "ARRAY") (opens : opening.isPunct "[" = true)
      (h : ListsOverlong rest n) :
      MeetsOverlong d columns (name ++ t :: any :: paren :: array :: opening :: rest) n

theorem operatorKind?_of_written {op : Comparison} {t : Token} (h : op.Written t) :
    operatorKind? t = some op.kind := by
  obtain ⟨isOperator, symbol⟩ := h
  rw [operatorKind?, if_pos (by simpa using isOperator)]
  cases op <;> simp only [Comparison.symbols, List.mem_cons, List.not_mem_nil, or_false] at symbol
  all_goals first
    | rw [symbol]; rfl
    | rcases symbol with symbol | symbol <;> rw [symbol] <;> rfl

theorem kind_eq_const_iff {op : Comparison} : op.kind = .const ↔ op = .equal := by
  cases op <;> simp [Comparison.kind]

theorem anyArray_eq_refused_iff {ts : List Token} {r : Refusal} (begins : startsAnyArray ts = true) :
    anyArray ts = .error (.refused r) ↔ ∃ any paren array opening rest n,
      ts = any :: paren :: array :: opening :: rest ∧ Text.upper any.text = "ANY" ∧ paren.isPunct "(" = true ∧
      Text.upper array.text = "ARRAY" ∧ opening.isPunct "[" = true ∧ ListsOverlong rest n ∧ r = .tooLong n := by
  unfold startsAnyArray at begins
  split at begins
  · rename_i any paren array behind
    simp only [Bool.and_eq_true, beq_iff_eq] at begins
    obtain ⟨⟨isAny, opensAny⟩, isArray⟩ := begins
    simp only [anyArray, List.drop_succ_cons, List.drop_zero, bind_eq_error_iff]
    constructor
    · rintro (h | ⟨⟨vs, more⟩, -, h | ⟨casted, -, h⟩⟩)
      · obtain ⟨opening, rest, n, rfl, opens, long, rfl⟩ := literalList_eq_refused_iff.1 h
        exact ⟨any, paren, array, opening, rest, n, rfl, isAny, opensAny, isArray, opens, long, rfl⟩
      · exact absurd h passCasts_ne_refused
      · cases casted with
        | nil => simp [throw_eq_error_iff] at h
        | cons t casted =>
          simp only at h
          split_ifs at h <;> simp [throw_eq_error_iff, pure_eq_error_iff] at h
    · rintro ⟨any', paren', array', opening, rest, n, e, -, -, -, opens, long, rfl⟩
      simp only [List.cons.injEq] at e
      rw [e.2.2.2]
      exact Or.inl (literalList_eq_refused_iff.2 ⟨opening, rest, n, rfl, opens, long, rfl⟩)
  · contradiction

theorem whole_ne_refused {α : Type} {result : α × List Token} {r : Refusal} :
    whole result ≠ .error (.refused r) := by
  unfold whole
  split_ifs <;> simp

section
variable {d : Dialect} {columns : List String}

theorem columnAt?_append {name rest : List Token} {t : Token} {column : String}
    (named : ColumnName d columns name column) (noPoint : t.isPunct "." = false) :
    columnAt? d columns (name ++ t :: rest) = some (column, t :: rest) := by
  cases named with
  | @plain word _ isWord single found =>
    have ownName : (if word.kind == .identifier then word.value else d.normalize word.text false) =
      word.ownName d := rfl
    simp only [List.singleton_append, columnAt?, isWord, single, ownName]
    cases rest <;> simp [noPoint, found]
  | qualified isWord single dot isName found =>
    have noBlank := single
    simp only [List.contains_eq_mem, decide_eq_false_iff_not] at noBlank
    simp [columnAt?, isWord, noBlank, dot, isName, found]

theorem columnAt?_eq_none {ts : List Token} {n : Nat} (h : BeginsOverlong ts n) :
    columnAt? d columns ts = none := by
  cases h with
  | number isNumber => simp [columnAt?, Token.isWord, isNumber]
  | signed signs =>
    simp only [Token.isOperator, Bool.or_eq_true, Bool.and_eq_true, beq_iff_eq] at signs
    rcases signs with signs | signs <;> simp [columnAt?, Token.isWord, signs.1]
  | paren opens =>
    simp only [Token.isPunct, Bool.and_eq_true, beq_iff_eq] at opens
    simp [columnAt?, Token.isWord, opens.1]

theorem meetsOverlong_of_comparisonTerm {name rest : List Token} {t : Token} {column : String} {op : Comparison}
    {r : Refusal} (named : ColumnName d columns name column) (written : op.Written t)
    (h : comparisonTerm op.kind column rest = .error (.refused r)) :
    ∃ n, MeetsOverlong d columns (name ++ t :: rest) n ∧ r = .tooLong n := by
  unfold comparisonTerm at h
  split_ifs at h with any
  · simp only [bind_eq_error_iff, whole_ne_refused, pure_eq_error_iff, and_false, exists_false, or_false] at h
    rw [Bool.and_eq_true, beq_iff_eq, kind_eq_const_iff] at any
    obtain ⟨any, paren, array, opening, more, n, rfl, isAny, opensAny, isArray, opens, long, rfl⟩ :=
      (anyArray_eq_refused_iff any.2).1 h
    rw [any.1] at written
    exact ⟨n, .element named written isAny opensAny isArray opens long, rfl⟩
  · simp only [bind_eq_error_iff, whole_ne_refused, pure_eq_error_iff, and_false, exists_false, or_false] at h
    obtain ⟨n, long, rfl⟩ := literal_eq_refused_iff.1 h
    refine ⟨n, .operand named written (fun equal => ?_) long, rfl⟩
    rw [equal] at any
    simpa [Comparison.kind] using any

theorem meetsOverlong_of_betweenTerm {name rest : List Token} {t : Token} {column : String} {r : Refusal}
    (named : ColumnName d columns name column) (between : t.isKeyword "BETWEEN" = true)
    (h : betweenTerm column rest = .error (.refused r)) :
    ∃ n, MeetsOverlong d columns (name ++ t :: rest) n ∧ r = .tooLong n := by
  simp only [betweenTerm, bind_eq_error_iff] at h
  rcases h with h | ⟨⟨low, behind⟩, readLow, h⟩
  · obtain ⟨n, long, rfl⟩ := literal_eq_refused_iff.1 h
    exact ⟨n, .lower named between long, rfl⟩
  · obtain ⟨lower, rfl, constant⟩ := constant_of_literal readLow
    cases behind with
    | nil => simp [throw_eq_error_iff] at h
    | cons conj behind =>
      simp only at h
      split_ifs at h with and
      · simp only [bind_eq_error_iff, whole_ne_refused, pure_eq_error_iff, and_false, exists_false, or_false] at h
        obtain ⟨n, long, rfl⟩ := literal_eq_refused_iff.1 h
        exact ⟨n, .upper named between constant and long, rfl⟩
      · simp [throw_eq_error_iff] at h

theorem meetsOverlong_of_columnTerm {name rest : List Token} {column : String} {r : Refusal}
    (named : ColumnName d columns name column) (h : columnTerm column rest = .error (.refused r)) :
    ∃ n, MeetsOverlong d columns (name ++ rest) n ∧ r = .tooLong n := by
  cases rest with
  | nil => simp [columnTerm] at h
  | cons t rest =>
    simp only [columnTerm] at h
    cases isOperator : operatorKind? t with
    | some kind =>
      obtain ⟨op, rfl, written⟩ := written_of_operatorKind? isOperator
      simp only [isOperator] at h
      exact meetsOverlong_of_comparisonTerm named written h
    | none =>
      simp only [isOperator] at h
      split_ifs at h with between isIn is
      · exact meetsOverlong_of_betweenTerm named between h
      · simp only [bind_eq_error_iff, whole_ne_refused, pure_eq_error_iff, and_false, exists_false, or_false] at h
        obtain ⟨opening, more, n, rfl, opens, long, rfl⟩ := literalList_eq_refused_iff.1 h
        exact ⟨n, .member named isIn opens long, rfl⟩
      · split at h
        · split_ifs at h
          simp at h
        · simp at h
      · simp at h

theorem columnTerm_of_operand {column : String} {rest : List Token} {t : Token} {op : Comparison} {n : Nat}
    (written : op.Written t) (single : op = .equal → startsAnyArray rest = false) (h : BeginsOverlong rest n) :
    columnTerm column (t :: rest) = .error (.refused (.tooLong n)) := by
  have noList : ¬ (op.kind == .const && startsAnyArray rest) = true := by
    rw [Bool.and_eq_true, beq_iff_eq, kind_eq_const_iff]
    rintro ⟨equal, begins⟩
    rw [single equal] at begins
    contradiction
  simp only [columnTerm, operatorKind?_of_written written, comparisonTerm, if_neg noList, bind_eq_error_iff]
  exact Or.inl (literal_eq_refused_iff.2 ⟨n, h, rfl⟩)

theorem operatorKind?_of_keyword {t : Token} {word : String} (h : t.isKeyword word = true) :
    operatorKind? t = none := by
  simp only [Token.isKeyword, Bool.and_eq_true, beq_iff_eq] at h
  simp [operatorKind?, h.1]

theorem no_point_of_keyword {t : Token} {word : String} (h : t.isKeyword word = true) :
    t.isPunct "." = false := by
  simp only [Token.isKeyword, Bool.and_eq_true, beq_iff_eq] at h
  simp [Token.isPunct, h.1]

theorem no_point_of_written {t : Token} {op : Comparison} (h : op.Written t) : t.isPunct "." = false := by
  simp [Token.isPunct, h.1]

/-- what is refused behind the name of a column is refused with it -/
theorem readTerm_of_columnTerm {name rest : List Token} {t : Token} {column : String} {r : Refusal}
    (named : ColumnName d columns name column) (noPoint : t.isPunct "." = false)
    (h : columnTerm column (t :: rest) = .error (.refused r)) :
    readTerm d columns (name ++ t :: rest) = .error (.refused r) := by
  rw [readTerm, columnAt?_append named noPoint]; exact h

theorem meetsOverlong_of_readTerm {ts : List Token} {r : Refusal}
    (h : readTerm d columns ts = .error (.refused r)) : ∃ n, MeetsOverlong d columns ts n ∧ r = .tooLong n := by
  unfold readTerm at h
  split at h
  · rename_i column rest found
    obtain ⟨name, rfl, named⟩ := columnName_of_columnAt? found
    exact meetsOverlong_of_columnTerm named h
  · simp only [bind_eq_error_iff] at h
    rcases h with h | ⟨⟨v, behind⟩, -, h⟩
    · obtain ⟨n, long, rfl⟩ := literal_eq_refused_iff.1 h
      exact ⟨n, .first long, rfl⟩
    · cases behind with
      | nil => simp [throw_eq_error_iff] at h
      | cons t rest =>
        simp only at h
        split at h
        · simp [pure_eq_error_iff] at h
        · simp [throw_eq_error_iff] at h

theorem readTerm_of_meetsOverlong {ts : List Token} {n : Nat} (h : MeetsOverlong d columns ts n) :
    readTerm d columns ts = .error (.refused (.tooLong n)) := by
  cases h with
  | first h =>
    rw [readTerm, columnAt?_eq_none h]
    exact bind_eq_error_iff.2 (Or.inl (literal_eq_refused_iff.2 ⟨n, h, rfl⟩))
  | operand named written single h =>
    exact readTerm_of_columnTerm named (no_point_of_written written) (columnTerm_of_operand written single h)
  | lower named between h =>
    refine readTerm_of_columnTerm named (no_point_of_keyword between) ?_
    simp only [columnTerm, operatorKind?_of_keyword between, between, if_true, betweenTerm, bind_eq_error_iff]
    exact Or.inl (literal_eq_refused_iff.2 ⟨n, h, rfl⟩)
  | upper named between constant and h =>
    refine readTerm_of_columnTerm named (no_point_of_keyword between) ?_
    simp only [columnTerm, operatorKind?_of_keyword between, between, if_true, betweenTerm, bind_eq_error_iff]
    refine Or.inr ⟨_, literal_append constant (stops_keyword and), ?_⟩
    simp only [and, if_true, bind_eq_error_iff]
    exact Or.inl (literal_eq_refused_iff.2 ⟨n, h, rfl⟩)
  | @member name rest t opening column _ named isIn opens h =>
    refine readTerm_of_columnTerm named (no_point_of_keyword isIn) ?_
    have noBetween : t.isKeyword "BETWEEN" = false := by
      simp only [Token.isKeyword, Bool.and_eq_true, beq_iff_eq] at isIn
      simp [Token.isKeyword, isIn.2]
    simp only [columnTerm, operatorKind?_of_keyword isIn, isIn, noBetween, Bool.false_eq_true, if_false, if_true,
      bind_eq_error_iff]
    exact Or.inl (literalList_eq_refused_iff.2 ⟨_, _, n, rfl, opens, h, rfl⟩)
  | @element name rest t any paren array opening column _ named written isAny opensAny isArray opens h =>
    refine readTerm_of_columnTerm named (no_point_of_written written) ?_
    have begins : startsAnyArray (any :: paren :: array :: opening :: rest) = true := by
      simp [startsAnyArray, isAny, opensAny, isArray]
    simp only [columnTerm, operatorKind?_of_written written, comparisonTerm, Comparison.kind, beq_self_eq_true,
      begins, Bool.and_self, if_true, bind_eq_error_iff]
    exact Or.inl ((anyArray_eq_refused_iff begins).2
      ⟨any, paren, array, opening, rest, n, rfl, isAny, opensAny, isArray, opens, h, rfl⟩)

/-- a term is refused exactly if it meets a numeral that cannot be read -/
theorem readTerm_eq_refused_iff {ts : List Token} {r : Refusal} :
    readTerm d columns ts = .error (.refused r) ↔ ∃ n, MeetsOverlong d columns ts n ∧ r = .tooLong n := by
  constructor
  · exact meetsOverlong_of_readTerm
  · rintro ⟨n, long, rfl⟩
    exact readTerm_of_meetsOverlong long

end

end SchemaApi
