import SchemaApi.Proofs.Check.Documented
import SchemaApi.Proofs.Check.Reading
import SchemaApi.Proofs.Token.AsWritten
/-!
Documented terms are not cut.

Conjunctions are cut by counting parentheses and by remembering that a BETWEEN was met. Constants, casts and names are
passed over: behind them both are what they were before, and no cut is made among them (`Passed`). So a term is kept in
one part, that of a BETWEEN because its AND comes behind that word (`DocumentedTerm.kept`).
-/

namespace SchemaApi

/-! ## One token -/

section
variable {depth : Int} {inBetween : Bool} {t : Token} {rest : List Token}

theorem isKeyword_other {word other : String} (h : t.isKeyword word = true) (differs : other ≠ word) :
    t.isKeyword other = false := by
  simp only [Token.isKeyword, Bool.and_eq_true, beq_iff_eq] at h
  simp [Token.isKeyword, h.2, differs.symm]

theorem splitConjuncts_ne_nil (depth : Int) (inBetween : Bool) (ts : List Token) :
    splitConjuncts depth inBetween ts ≠ [] := by
  have joined := joined_splitConjuncts depth inBetween ts
  intro none
  rw [none] at joined
  cases joined

/-- where no cut is made, a token belongs to the part that goes on -/
theorem splitConjuncts_cons (uncut : ¬ (depth = 0 ∧ t.isKeyword "AND" = true ∧ inBetween = false)) :
    splitConjuncts depth inBetween (t :: rest) =
      (splitConjuncts (depthAfter depth t) (if depth = 0 ∧ t.isKeyword "BETWEEN" then true
        else if depth = 0 ∧ t.isKeyword "AND" then false else inBetween) rest).modifyHead (t :: ·) := by
  rw [splitConjuncts, if_neg (by simpa using uncut)]
  simp only
  split
  · rename_i none
    exact absurd none (splitConjuncts_ne_nil _ _ _)
  · rename_i split
    rw [split]; rfl

theorem splitConjuncts_inside (inside : depth ≠ 0) : splitConjuncts depth inBetween (t :: rest) =
    (splitConjuncts (depthAfter depth t) inBetween rest).modifyHead (t :: ·) := by
  rw [splitConjuncts_cons (fun cut => inside cut.1), if_neg (fun h => inside h.1), if_neg (fun h => inside h.1)]

theorem splitConjuncts_free (free : t.joins = false) : splitConjuncts depth inBetween (t :: rest) =
    (splitConjuncts (depthAfter depth t) inBetween rest).modifyHead (t :: ·) := by
  rw [Token.joins, Bool.or_eq_false_iff] at free
  rw [splitConjuncts_cons (by simp [free.1]), if_neg (by simp [free.2]), if_neg (by simp [free.1])]

theorem splitConjuncts_between (between : t.isKeyword "BETWEEN" = true) : splitConjuncts 0 inBetween (t :: rest) =
    (splitConjuncts 0 true rest).modifyHead (t :: ·) := by
  have level : depthAfter 0 t = 0 := by
    simp only [Token.isKeyword, Bool.and_eq_true, beq_iff_eq] at between
    simp [depthAfter, Token.isPunct, between.1]
  have noAnd := isKeyword_other between (show "AND" ≠ "BETWEEN" by decide)
  rw [splitConjuncts_cons (by simp [noAnd]), if_pos ⟨rfl, between⟩, level]

/-- the AND of a BETWEEN stays -/
theorem splitConjuncts_and_between (and : t.isKeyword "AND" = true) : splitConjuncts 0 true (t :: rest) =
    (splitConjuncts 0 false rest).modifyHead (t :: ·) := by
  have level : depthAfter 0 t = 0 := by
    simp only [Token.isKeyword, Bool.and_eq_true, beq_iff_eq] at and
    simp [depthAfter, Token.isPunct, and.1]
  have noBetween := isKeyword_other and (show "BETWEEN" ≠ "AND" by decide)
  rw [splitConjuncts_cons (by simp), if_neg (by simp [noBetween]), if_pos ⟨rfl, and⟩, level]

/-- any other AND makes a cut -/
theorem splitConjuncts_and (and : t.isKeyword "AND" = true) :
    splitConjuncts 0 false (t :: rest) = [] :: splitConjuncts 0 false rest := by
  simp [splitConjuncts, and]

end

/-! ## Passing over -/

def Token.isParen (t : Token) : Bool := t.isPunct "(" || t.isPunct ")"

theorem depthAfter_of_opens {depth : Int} {t : Token} (opens : t.isPunct "(" = true) :
    depthAfter depth t = depth + 1 :=
  if_pos opens

theorem depthAfter_of_closes {depth : Int} {t : Token} (closes : t.isPunct ")" = true) :
    depthAfter depth t = depth - 1 := by
  have notOpens : t.isPunct "(" = false := by
    simp only [Token.isPunct, Bool.and_eq_true, beq_iff_eq] at closes
    simp [Token.isPunct, closes.2]
  simp [depthAfter, notOpens, closes]

theorem depthAfter_of_not_paren {depth : Int} {t : Token} (plain : t.isParen = false) : depthAfter depth t = depth := by
  rw [Token.isParen, Bool.or_eq_false_iff] at plain
  simp [depthAfter, plain.1, plain.2]

theorem Closes.append {m n : Nat} {ts us : List Token} (h : Closes m ts) (rest : Closes n us) :
    Closes (m + 1 + n) (ts ++ us) := by
  induction h with
  | last closes =>
    rw [Nat.zero_add, Nat.add_comm]
    exact .inner closes rest
  | @inner m _ _ closes _ ih =>
    rw [show m + 1 + 1 + n = m + 1 + n + 1 by omega]
    exact .inner closes ih
  | @opens m _ _ opens _ ih =>
    rw [show m + 1 + 1 + n = m + 1 + n + 1 by omega] at ih
    exact .opens opens ih
  | other opens closes _ ih => exact .other opens closes ih

/-- what is behind a parenthesis up to the closing one is not cut -/
theorem splitConjuncts_closes {n : Nat} {inside : List Token} (h : Closes n inside) {depth : Int} (level : 0 ≤ depth)
    (inBetween : Bool) (rest : List Token) : splitConjuncts (depth + 1 + n) inBetween (inside ++ rest) =
      (splitConjuncts depth inBetween rest).modifyHead (inside ++ ·) := by
  induction h with
  | last closes =>
    rw [List.cons_append, splitConjuncts_inside (by omega), depthAfter_of_closes closes]
    simp
  | @inner n _ _ closes _ ih =>
    rw [List.cons_append, splitConjuncts_inside (by omega), depthAfter_of_closes closes,
      show depth + 1 + (n + 1 : Nat) - 1 = depth + 1 + n by omega, ih, List.modifyHead_modifyHead]
    rfl
  | @opens n _ _ opens _ ih =>
    rw [List.cons_append, splitConjuncts_inside (by omega), depthAfter_of_opens opens,
      show depth + 1 + n + 1 = depth + 1 + (n + 1 : Nat) by omega, ih, List.modifyHead_modifyHead]
    rfl
  | other opens closes _ ih =>
    rw [List.cons_append, splitConjuncts_inside (by omega),
      depthAfter_of_not_paren (by rw [Token.isParen, opens, closes]; rfl), ih, List.modifyHead_modifyHead]
    rfl

/-- the tokens are passed over: their parentheses are in pairs, and no cut is made or prepared among them -/
structure Passed (ts : List Token) : Prop where
  paired : ∀ {n rest}, Closes n rest → Closes n (ts ++ rest)
  uncut : ∀ {depth : Int}, 0 ≤ depth → ∀ (inBetween : Bool) (rest : List Token),
    splitConjuncts depth inBetween (ts ++ rest) = (splitConjuncts depth inBetween rest).modifyHead (ts ++ ·)

namespace Passed

variable {ts us : List Token}

theorem nil : Passed [] where
  paired h := h
  uncut _ _ _ := (congrFun List.modifyHead_id _).symm

theorem append (h : Passed ts) (rest : Passed us) : Passed (ts ++ us) where
  paired closes := by
    rw [List.append_assoc]
    exact h.paired (rest.paired closes)
  uncut level inBetween more := by
    rw [List.append_assoc, h.uncut level, rest.uncut level, List.modifyHead_modifyHead]
    simp [Function.comp_def]

theorem single {t : Token} (plain : t.isParen = false) (free : t.joins = false) : Passed [t] where
  paired closes := by
    rw [Token.isParen, Bool.or_eq_false_iff] at plain
    exact .other plain.1 plain.2 closes
  uncut _ inBetween rest := by
    rw [List.singleton_append, splitConjuncts_free free, depthAfter_of_not_paren plain]
    rfl

theorem cons {t : Token} (plain : t.isParen = false) (free : t.joins = false) (h : Passed ts) : Passed (t :: ts) :=
  (single plain free).append h

/-- whatever stands between parentheses is passed over with them -/
theorem group {opening : Token} {inside : List Token} (opens : opening.isPunct "(" = true) (closes : Closes 0 inside) :
    Passed (opening :: inside) where
  paired {n rest} more := by
    have all := closes.append more
    rw [show 0 + 1 + n = n + 1 by omega] at all
    exact .opens opens all
  uncut {depth} level inBetween rest := by
    have free : opening.joins = false := by
      simp only [Token.isPunct, Bool.and_eq_true, beq_iff_eq] at opens
      simp [Token.joins, Token.isKeyword, opens.1]
    have inner := splitConjuncts_closes closes level inBetween rest
    rw [Int.natCast_zero, Int.add_zero] at inner
    rw [List.cons_append, splitConjuncts_free free, depthAfter_of_opens opens, inner, List.modifyHead_modifyHead]
    rfl

end Passed

/-! ## Constants and names -/

section
variable {t : Token}

theorem isParen_of_kind (kind : t.kind ≠ .punctuation) : t.isParen = false := by
  simp [Token.isParen, Token.isPunct, kind]

theorem isParen_of_isPunct {mark : String} (h : t.isPunct mark = true) (plain : mark ≠ "(" ∧ mark ≠ ")") :
    t.isParen = false := by
  simp only [Token.isPunct, Bool.and_eq_true, beq_iff_eq] at h
  simp [Token.isParen, Token.isPunct, h.2, plain]

theorem joins_of_kind (kind : t.kind ≠ .keyword) : t.joins = false := by
  simp [Token.joins, Token.isKeyword, kind]

theorem joins_of_isPunct {mark : String} (h : t.isPunct mark = true) : t.joins = false := by
  simp only [Token.isPunct, Bool.and_eq_true, beq_iff_eq] at h
  exact joins_of_kind (by simp [h.1])

theorem joins_of_isKeyword {word : String} (h : t.isKeyword word = true) (free : word ≠ "AND" ∧ word ≠ "BETWEEN") :
    t.joins = false := by
  rw [Token.joins, isKeyword_other h free.1.symm, isKeyword_other h free.2.symm]
  rfl

theorem isParen_of_isKeyword {word : String} (h : t.isKeyword word = true) : t.isParen = false := by
  simp only [Token.isKeyword, Bool.and_eq_true, beq_iff_eq] at h
  exact isParen_of_kind (by simp [h.1])

theorem isParen_of_isWord (word : t.isWord = true) : t.isParen = false := by
  refine isParen_of_kind fun isMark => ?_
  simp [Token.isWord, isMark] at word

/-- operators, numbers and texts are passed over -/
theorem Passed.plain {ts : List Token} (kind : t.kind ≠ .punctuation ∧ t.kind ≠ .keyword) (h : Passed ts) :
    Passed (t :: ts) :=
  .cons (isParen_of_kind kind.1) (joins_of_kind kind.2) h

theorem Passed.keyword {word : String} {ts : List Token} (isKeyword : t.isKeyword word = true)
    (free : word ≠ "AND" ∧ word ≠ "BETWEEN") (h : Passed ts) : Passed (t :: ts) :=
  .cons (isParen_of_isKeyword isKeyword) (joins_of_isKeyword isKeyword free) h

theorem Passed.mark {mark : String} {ts : List Token} (isMark : t.isPunct mark = true)
    (plain : mark ≠ "(" ∧ mark ≠ ")") (h : Passed ts) : Passed (t :: ts) :=
  .cons (isParen_of_isPunct isMark plain) (joins_of_isPunct isMark) h

end

theorem kind_of_isOperator {t : Token} {op : String} (h : t.isOperator op = true) : t.kind = .operator := by
  simp only [Token.isOperator, Bool.and_eq_true, beq_iff_eq] at h
  exact h.1

theorem Passed.parens {opening closing : Token} {inside : List Token} (opens : opening.isPunct "(" = true)
    (h : Passed inside) (closes : closing.isPunct ")" = true) : Passed (opening :: (inside ++ [closing])) :=
  .group opens (h.paired (.last closes))

theorem TypeCasts.passed {casts : List Token} (h : TypeCasts casts) : Passed casts := by
  induction h with
  | none => exact .nil
  | plain cast word free _ ih =>
    exact .plain (by simp [kind_of_isOperator cast]) (.cons (isParen_of_isWord word) free ih)
  | @args _ _ paren inside rest cast word free opens closes _ ih =>
    have group : Passed (paren :: inside ++ rest) := (Passed.group opens closes).append ih
    exact .plain (by simp [kind_of_isOperator cast]) (.cons (isParen_of_isWord word) free group)

theorem Spells.passed {ts : List Token} {o : Operand} (h : Spells ts o) : Passed ts := by
  induction h with
  | number isNumber _ cast => exact .plain (by simp [isNumber]) cast.passed
  | signed signs isNumber _ cast =>
    exact .plain (by simp [kind_of_isOperator signs]) (.plain (by simp [isNumber]) cast.passed)
  | text isText cast => exact .plain (by simp [isText]) cast.passed
  | @truth _ _ b isTruth cast => exact .keyword isTruth (by cases b <;> decide) cast.passed
  | @paren opening closing inside casts _ opens _ closes cast ih =>
    have both := (Passed.parens opens ih closes).append cast.passed
    simpa using both

theorem SpellsList.passed {ts : List Token} {os : List Operand} (h : SpellsList ts os) : Passed ts := by
  induction h with
  | one h => exact h.passed
  | more h between _ ih => exact h.passed.append (.mark between (by decide) ih)

section
variable {d : Dialect} {columns : List String}

theorem passed_of_words {ts : List Token} (words : ∀ t ∈ ts, t.isParen = false ∧ t.joins = false) : Passed ts := by
  induction ts with
  | nil => exact .nil
  | cons t ts ih =>
    rw [List.forall_mem_cons] at words
    exact .cons words.1.1 words.1.2 (ih words.2)

theorem NamesColumn.passed {ts : List Token} {column : String} (h : NamesColumn d columns ts column) : Passed ts := by
  refine passed_of_words fun t ht => ⟨?_, h.free t ht⟩
  cases h.named with
  | plain word =>
    rw [List.mem_singleton.1 ht]
    exact isParen_of_isWord word
  | qualified word _ dot isName =>
    simp only [List.mem_cons, List.not_mem_nil, or_false] at ht
    rcases ht with rfl | rfl | rfl
    · exact isParen_of_isWord word
    · exact isParen_of_isPunct dot (by decide)
    · exact isParen_of_kind (by simp [isName])

/-! ## Terms -/

/-- the tokens are one part of a conjunction: their parentheses are in pairs, and no cut is made among them -/
structure Kept (ts : List Token) : Prop where
  paired : ∀ {n rest}, Closes n rest → Closes n (ts ++ rest)
  uncut : ∀ rest, splitConjuncts 0 false (ts ++ rest) = (splitConjuncts 0 false rest).modifyHead (ts ++ ·)

theorem Passed.kept {ts : List Token} (h : Passed ts) : Kept ts := ⟨h.paired, h.uncut (Int.le_refl 0) false⟩

/-- the AND of a BETWEEN makes no cut if there is none before it -/
theorem kept_between {name lower upper : List Token} {t conj : Token} (hn : Passed name)
    (between : t.isKeyword "BETWEEN" = true) (hl : Passed lower) (and : conj.isKeyword "AND" = true)
    (hu : Passed upper) : Kept (name ++ t :: (lower ++ conj :: upper)) where
  paired {n rest} closes := by
    have word : ∀ {t : Token} {w : String} {ts}, t.isKeyword w = true → Closes n ts → Closes n (t :: ts) := by
      intro t w ts isKeyword h
      have plain := isParen_of_isKeyword isKeyword
      rw [Token.isParen, Bool.or_eq_false_iff] at plain
      exact .other plain.1 plain.2 h
    have behind := hn.paired (word between (hl.paired (word and (hu.paired closes))))
    simpa using behind
  uncut rest := by
    have level : (0 : Int) ≤ 0 := Int.le_refl 0
    simp only [List.append_assoc, List.cons_append]
    rw [hn.uncut level, splitConjuncts_between between, hl.uncut level, splitConjuncts_and_between and,
      hu.uncut level]
    simp [List.modifyHead_modifyHead, Function.comp_def]

/-- a token that is written like a word of its own is no parenthesis and no word of conjunctions -/
theorem Token.AsWritten.plain {t : Token} {word : String} (written : t.AsWritten) (spelled : Text.upper t.text = word)
    (other : word ∉ ["(", ")", "AND", "BETWEEN"]) : t.isParen = false ∧ t.joins = false := by
  simp only [List.mem_cons, List.not_mem_nil, or_false, not_or] at other
  have mark : ∀ m : String, Text.upper m = m → word ≠ m → t.isPunct m = false := by
    intro m upper differs
    by_contra isMark
    simp only [Token.isPunct, Bool.not_eq_false, Bool.and_eq_true, beq_iff_eq] at isMark
    rw [← written.mark isMark.1, isMark.2, upper] at spelled
    exact differs spelled.symm
  have keyword : ∀ w : String, w.toList.contains ' ' = false → word ≠ w → t.isKeyword w = false := by
    intro w single differs
    by_contra isWord
    simp only [Token.isKeyword, Bool.not_eq_false, Bool.and_eq_true, beq_iff_eq] at isWord
    rcases written.keyword isWord.1 with same | phrase
    · rw [isWord.2, spelled] at same
      exact differs same.symm
    · rw [Token.isPhrase, isWord.2, single, Bool.and_false] at phrase
      contradiction
  rw [Token.isParen, Token.joins, mark "(" (by decide) other.1, mark ")" (by decide) other.2.1,
    keyword "AND" (by decide) other.2.2.1, keyword "BETWEEN" (by decide) other.2.2.2]
  exact ⟨rfl, rfl⟩

theorem DocumentedTerm.kept {ts : List Token} {os : List Operand} {c : Condition}
    (h : DocumentedTerm d columns ts os c) (written : ∀ t ∈ ts, t.AsWritten) : Kept ts := by
  cases h with
  | columnFirst named op spelled => exact (named.passed.append (.plain (by simp [op.1]) spelled.passed)).kept
  | valueFirst spelled op named => exact (spelled.passed.append (.plain (by simp [op.1]) named.passed)).kept
  | between named between spelled and spelled' =>
    exact kept_between named.passed between spelled.passed and spelled'.passed
  | isIn named isIn opens spelled closes =>
    exact (named.passed.append (.keyword isIn (by decide) (.parens opens spelled.passed closes))).kept
  | @equalsAny name inside casts t any paren array opening closing last _ _ _ named op isAny opensAny isArray opens
      spelled closes cast closesAny =>
    have anyPlain := (written any (by simp)).plain isAny (by decide)
    have arrayPlain := (written array (by simp)).plain isArray (by decide)
    have inner : Passed (inside ++ closing :: casts) := spelled.passed.append (.mark closes (by decide) cast.passed)
    have list : Passed (array :: opening :: (inside ++ closing :: casts)) :=
      .cons arrayPlain.1 arrayPlain.2 (.mark opens (by decide) inner)
    have all : Passed (t :: any :: paren :: (array :: opening :: (inside ++ closing :: casts) ++ [last])) :=
      .plain (by simp [op.1]) (.cons anyPlain.1 anyPlain.2 (.parens opensAny list closesAny))
    simpa using (named.passed.append all).kept
  | isNotNull named is notNull =>
    exact (named.passed.append (.keyword is (by decide) (.keyword notNull (by decide) .nil))).kept

end

end SchemaApi
