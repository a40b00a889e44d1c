import SchemaApi.Proofs.Check.Oversized
import SchemaApi.Proofs.Token.Lexer
import Mathlib.Data.Nat.Basic
/-!
Rules say what their condition says.

A condition is understood as a whole or not at all: either its tokens are derived in the grammar, and a
row passes the condition exactly if every rule holds of it, or there is one verbatim rule and a warning.
That there is an answer at all fails in one way only, by a number of too many digits
(`OversizedCondition`).
-/

namespace SchemaApi

/-! ## Numbers that cannot be written -/

/-- a whole number of more digits than can be written -/
def Literal.Unwritable : Literal → Prop
  | int n => maxDigits < (Nat.toDigits 10 n.natAbs).length
  | _ => False

theorem Literal.message_eq_error_iff {v : Literal} {r : Refusal} :
    v.message = .error r ↔ v.Unwritable ∧ r = .unwritable := by
  cases v with
  | int n =>
    simp only [message, Unwritable]
    split_ifs with long
    · simp [long, eq_comm]
    · simp [long]
  | _ => simp [message, Unwritable]

/-- the constants that a rule compares with -/
def RuleValue.constants : RuleValue → List Literal
  | none => []
  | one v => [v]
  | many vs => vs

theorem RuleValue.message_eq_error_iff {value : RuleValue} {r : Refusal} :
    value.message = .error r ↔ (∃ v ∈ value.constants, v.Unwritable) ∧ r = .unwritable := by
  cases value with
  | none => simp [message, constants]
  | one v => simpa [message, constants] using Literal.message_eq_error_iff
  | many vs =>
    have unique : ∀ v r', Literal.message v = .error r' → r' = .unwritable :=
      fun v r' h => (Literal.message_eq_error_iff.1 h).2
    simp only [message, constants, map_eq_error_iff]
    constructor
    · intro h
      obtain ⟨_, v, _, rfl, -, failed⟩ := mapM_eq_error_iff.1 h
      obtain ⟨long, rfl⟩ := Literal.message_eq_error_iff.1 failed
      exact ⟨⟨v, by simp, long⟩, rfl⟩
    · rintro ⟨⟨v, hv, long⟩, rfl⟩
      exact (mapM_eq_error_iff_of_unique unique).2 ⟨v, hv, Literal.message_eq_error_iff.2 ⟨long, rfl⟩⟩

theorem Term.rule_eq_error_iff {expression : String} {t : Term} {r : Refusal} :
    t.rule expression = .error r ↔ (∃ v ∈ t.value.constants, v.Unwritable) ∧ r = .unwritable := by
  simp only [rule, bind_eq_error_iff, pure_eq_error_iff, and_false, exists_false, or_false,
    RuleValue.message_eq_error_iff]

/-- why there is no answer on a term -/
inductive Oversized (d : Dialect) (columns : List String) : List Token → Refusal → Prop where
  | numeral {ts : List Token} {n : Nat} (h : MeetsOverlong d columns ts n) : Oversized d columns ts (.tooLong n)
  | constant {ts : List Token} {terms : List Term} {t : Term} {v : Literal}
      (read : readTerm d columns ts = .ok terms) (ht : t ∈ terms) (hv : v ∈ t.value.constants)
      (h : v.Unwritable) : Oversized d columns ts .unwritable

section
variable {d : Dialect} {columns : List String} {expression : String}

theorem termRules_eq_refused_iff {ts : List Token} {r : Refusal} :
    termRules d columns expression ts = .error (.refused r) ↔ Oversized d columns ts r := by
  have unique : ∀ (t : Term) r', t.rule expression = .error r' → r' = .unwritable :=
    fun t r' h => (Term.rule_eq_error_iff.1 h).2
  simp only [termRules, bind_eq_error_iff, readTerm_eq_refused_iff, mapError_eq_error_iff, NoRules.refused.injEq]
  constructor
  · rintro (⟨n, long, rfl⟩ | ⟨terms, read, r', failed, rfl⟩)
    · exact .numeral long
    · obtain ⟨_, t, _, rfl, -, h⟩ := mapM_eq_error_iff.1 failed
      obtain ⟨⟨v, hv, long⟩, rfl⟩ := Term.rule_eq_error_iff.1 h
      exact .constant read (by simp) hv long
  · intro h
    cases h with
    | numeral h => exact Or.inl ⟨_, h, rfl⟩
    | constant read ht hv h =>
      refine Or.inr ⟨_, read, _, (mapM_eq_error_iff_of_unique unique).2 ⟨_, ht, ?_⟩, rfl⟩
      exact Term.rule_eq_error_iff.2 ⟨⟨_, hv, h⟩, rfl⟩

/-- there is no answer on a condition: up to some term all is understood, and there is none on that term -/
def OversizedCondition (d : Dialect) (columns : List String) (expression : String) : Prop :=
  let stream := tokenize d expression.toList
  stream.error? = none ∧ stream.toList ≠ [] ∧ nesting stream.toList ≤ maxNesting ∧
    ∃ before part after r, conjuncts (stream.toList.length + 1) stream.toList = some (before ++ part :: after) ∧
      (∀ p ∈ before, ∃ rules, termRules d columns expression p = .ok rules) ∧ Oversized d columns part r

/-! ## Rules of a condition -/

theorem Term.holds_of_rule {t : Term} {r : ValidationRule} (h : t.rule expression = .ok r) {Ω : Type}
    [LinearOrder Ω] (val : Literal → Ω) (row : String → Option Ω) : r.Holds val row ↔ t.Holds val row := by
  simp only [rule, bind_eq_ok_iff, pure_eq_ok_iff] at h
  obtain ⟨_, -, rfl⟩ := h
  simp [ValidationRule.Holds, Term.Holds]

/-- the rules of a term hold of the rows of which its parts hold -/
theorem holds_of_termRules {ts : List Token} {rules : List ValidationRule}
    (h : termRules d columns expression ts = .ok rules) : ∃ terms, readTerm d columns ts = .ok terms ∧
      ∀ {Ω : Type} [LinearOrder Ω] (val : Literal → Ω) (row : String → Option Ω),
        (∀ r ∈ rules, r.Holds val row) ↔ ∀ t ∈ terms, t.Holds val row := by
  simp only [termRules, bind_eq_ok_iff, mapError_eq_ok_iff] at h
  obtain ⟨terms, read, made⟩ := h
  refine ⟨terms, read, fun val row => ?_⟩
  have pairs := forall₂_of_mapM_eq_ok made
  clear made read
  induction pairs with
  | nil => simp
  | cons first _ ih =>
    rw [List.forall_mem_cons, List.forall_mem_cons]
    exact and_congr (Term.holds_of_rule first val row) ih

/-- the terms that are read of a conjunct -/
def termsOf (d : Dialect) (columns : List String) (ts : List Token) : List Term :=
  (readTerm d columns ts).toOption.getD []

theorem termsOf_eq {ts : List Token} {terms : List Term} (read : readTerm d columns ts = .ok terms) :
    termsOf d columns ts = terms := by
  rw [termsOf, read]; rfl

/-- the rules of all conjuncts hold of the rows of which their terms hold -/
theorem holds_of_parts {parts : List (List Token)} {rules : List (List ValidationRule)}
    (made : parts.mapM (termRules d columns expression) = .ok rules) {Ω : Type} [LinearOrder Ω]
    (val : Literal → Ω) (row : String → Option Ω) :
    (∀ r ∈ rules.flatten, r.Holds val row) ↔ ∀ t ∈ parts.flatMap (termsOf d columns), t.Holds val row := by
  have pairs := forall₂_of_mapM_eq_ok made
  clear made
  induction pairs with
  | nil => simp
  | cons first _ ih =>
    obtain ⟨terms, read, same⟩ := holds_of_termRules first
    rw [List.flatten_cons, List.flatMap_cons, List.forall_mem_append, List.forall_mem_append, termsOf_eq read]
    exact and_congr (same val row) ih

/-- a condition has rules if it is split into tokens and conjuncts, and each conjunct has rules -/
theorem rulesOf_eq_ok {rules : List ValidationRule} (h : rulesOf d columns expression = .ok rules) :
    ∃ parts own, conjuncts ((tokenize d expression.toList).toList.length + 1)
        (tokenize d expression.toList).toList = some parts ∧
      parts.mapM (termRules d columns expression) = .ok own ∧ rules = own.flatten := by
  simp only [rulesOf] at h
  split at h
  · simp [throw_eq_ok_iff] at h
  · simp [throw_eq_ok_iff] at h
  · split_ifs at h
    · simp [bind_eq_ok_iff, throw_eq_ok_iff] at h
    · split at h
      · simp [throw_eq_ok_iff] at h
      · rename_i parts split
        simp only [bind_eq_ok_iff, pure_eq_ok_iff] at h
        obtain ⟨own, made, rfl⟩ := h
        exact ⟨parts, own, split, made, rfl⟩

theorem sound_of_rulesOf {rules : List ValidationRule} (h : rulesOf d columns expression = .ok rules) :
    ∃ c, Reads d columns (tokenize d expression.toList).toList c ∧
      ∀ (Ω : Type) [LinearOrder Ω] (val : Literal → Ω) (row : String → Option Ω),
        c.truth val row ≠ .fails ↔ ∀ r ∈ rules, r.Holds val row := by
  obtain ⟨parts, own, split, made, rfl⟩ := rulesOf_eq_ok h
  have each : ∀ part ∈ parts, ∃ c, ReadsTerm d columns part c ∧ c.terms = termsOf d columns part := by
    intro part hp
    obtain ⟨rules, -, first⟩ := exists_of_mem_forall₂ (forall₂_of_mapM_eq_ok made).flip hp
    obtain ⟨terms, read, -⟩ := holds_of_termRules first
    rw [termsOf_eq read]; exact readsTerm_of_readTerm read
  obtain ⟨c, reads, same⟩ := reads_of_conjuncts split each
  refine ⟨c, reads, fun Ω _ val row => ?_⟩
  rw [c.truth_ne_fails_iff, same, holds_of_parts made]

/-- the tokenizer comes to an end, or to a fault that it reports -/
def Tokenizes (d : Dialect) (expression : String) : Prop :=
  ∀ place, (tokenize d expression.toList).error? ≠ some ⟨.noNumeral, place⟩

theorem rulesOf_refused_iff (tokenizes : Tokenizes d expression) :
    (∃ r, rulesOf d columns expression = .error (.refused r)) ↔ OversizedCondition d columns expression := by
  simp only [rulesOf, OversizedCondition]
  split
  · rename_i place fault
    exact absurd fault (tokenizes place)
  · rename_i fault _ broken
    simp [throw_eq_error_iff, broken]
  · rename_i complete
    split_ifs with outside
    · rw [Bool.or_eq_true, List.isEmpty_iff, decide_eq_true_iff] at outside
      simp only [bind_eq_error_iff, throw_eq_error_iff, reduceCtorEq, throw_eq_ok_iff, false_and, exists_false,
        or_self, complete, true_and, false_iff, not_and]
      intro filled shallow
      exact absurd shallow (by rcases outside with empty | deep; exacts [absurd empty filled, by omega])
    · rw [Bool.or_eq_true, not_or, List.isEmpty_iff, decide_eq_true_iff, Int.not_lt] at outside
      simp only [complete, true_and, ne_eq, outside.1, not_false_eq_true, outside.2]
      split
      · rename_i unsplit
        simp [throw_eq_error_iff, unsplit]
      · rename_i parts split
        simp only [bind_eq_error_iff, pure_eq_error_iff, and_false, exists_false, or_false, mapM_eq_error_iff,
          termRules_eq_refused_iff, split, Option.some.injEq]
        constructor
        · rintro ⟨r, before, part, after, rfl, fine, long⟩
          exact ⟨before, part, after, r, rfl, fine, long⟩
        · rintro ⟨before, part, after, r, rfl, fine, long⟩
          exact ⟨r, before, part, after, rfl, fine, long⟩

/-- Unless numbers have too many digits, a condition is understood as a whole or not at all. If it is
understood, its tokens are a conjunction of supported terms, and a row passes the condition exactly if every
rule holds of it; if not, there is one rule that carries it as written, and a warning. -/
theorem conditionRules_iff_not_oversized {column table : Option String} (tokenizes : Tokenizes d expression) :
    (∃ answer, conditionRules d columns expression column table = .ok answer ∧
      (answer.understood = true → ∃ c, Reads d columns (tokenize d expression.toList).toList c ∧
        ∀ (Ω : Type) [LinearOrder Ω] (val : Literal → Ω) (row : String → Option Ω),
          c.truth val row ≠ .fails ↔ ∀ r ∈ answer.rules, r.Holds val row) ∧
      (answer.understood = false → answer.rules = [verbatimRule expression column] ∧
        answer.warning = some (verbatimFinding expression table))) ↔
    ¬ OversizedCondition d columns expression := by
  rw [← rulesOf_refused_iff tokenizes]
  constructor
  · rintro ⟨answer, given, -⟩ ⟨r, refused⟩
    rw [conditionRules, refused] at given
    contradiction
  · intro fine
    cases made : rulesOf d columns expression with
    | ok rules =>
      refine ⟨{ rules := rules }, by rw [conditionRules, made], fun _ => sound_of_rulesOf made, fun unclear => ?_⟩
      simp [ConditionRules.understood] at unclear
    | error e =>
      cases e with
      | refused r => exact absurd ⟨r, made⟩ fine
      | unsupported =>
        refine ⟨_, by rw [conditionRules, made], fun clear => ?_, fun _ => ⟨rfl, rfl⟩⟩
        simp [ConditionRules.understood] at clear

end

theorem no_answer_of_oversized {d : Dialect} {columns : List String} {expression : String}
    {column table : Option String} (tokenizes : Tokenizes d expression)
    (oversized : OversizedCondition d columns expression) :
    ¬ ∃ answer, conditionRules d columns expression column table = .ok answer := by
  rintro ⟨answer, given⟩
  obtain ⟨r, refused⟩ := (rulesOf_refused_iff tokenizes).2 oversized
  rw [conditionRules, refused] at given
  contradiction

theorem conditionRules_interval : ∃ answer,
    conditionRules .postgresql ["a"] "a >= 1 AND (5 > a)" none none = .ok answer ∧ answer.rules.length = 2 ∧
      ∃ c, Reads .postgresql ["a"] (tokenize .postgresql "a >= 1 AND (5 > a)".toList).toList c ∧
        ∀ (val : Literal → Nat) (row : String → Option Nat),
          c.truth val row ≠ .fails ↔ ∀ r ∈ answer.rules, r.Holds val row := by
  have tokenizes : Tokenizes .postgresql "a >= 1 AND (5 > a)" := by
    have complete : (tokenize .postgresql "a >= 1 AND (5 > a)".toList).error? = none := by decide +kernel
    intro place
    rw [complete]; exact nofun
  have answered : (conditionRules .postgresql ["a"] "a >= 1 AND (5 > a)" none none).toOption.map
      (fun answer => (answer.understood, answer.rules.length)) = some (true, 2) := by decide +kernel
  obtain ⟨answer, given, shape⟩ := Option.map_eq_some_iff.1 answered
  obtain ⟨understood, two⟩ := Prod.mk.inj shape
  have given := toOption_eq_some_iff.1 given
  have fine : ¬ OversizedCondition .postgresql ["a"] "a >= 1 AND (5 > a)" :=
    fun oversized => no_answer_of_oversized tokenizes oversized ⟨answer, given⟩
  obtain ⟨answer', given', sound, -⟩ :=
    (@conditionRules_iff_not_oversized _ ["a"] _ none none tokenizes).2 fine
  obtain rfl : answer = answer' := Except.ok.inj (given.symm.trans given')
  obtain ⟨c, reads, same⟩ := sound understood
  exact ⟨answer, given, two, c, reads, same Nat⟩

/-! ## A numeral of too many digits -/

/-- a numeral of so many ones -/
def ones (n : Nat) : List Char := List.replicate n '1'

theorem numberPiece_ones (n : Nat) : numberPiece (ones (n + 1)) =
    .lexeme .number (String.ofList (ones (n + 1))) false (n + 1) := by
  have whole : runLength Text.isDecimal (ones (n + 1)) = n + 1 := by
    simp [runLength, ones, show Text.isDecimal '1' = true by decide]
  have behind : (ones (n + 1)).drop (n + 1) = [] := by simp [ones]
  have noHex : hexLength (ones (n + 1)) = 0 := rfl
  have size : numeralLength (ones (n + 1)) = n + 1 := by
    simp [numeralLength, noHex, decimalLength, whole, behind, fractionLength, exponentLength]
  rw [numberPiece, size]
  simp [ones]

/-- the token of such a numeral -/
def onesToken (n : Nat) : Token := ⟨.number, String.ofList (ones n), String.ofList (ones n), .start, false⟩

theorem tokenize_ones (n : Nat) :
    tokenize .postgresql (ones (n + 1)) = .token (onesToken (n + 1)) .done := by
  have piece : pieceAt .postgresql '1' (ones n) =
      .lexeme .number (String.ofList (ones (n + 1))) false (n + 1) := numberPiece_ones n
  have size : (ones n).length = n := List.length_replicate
  have raw : scan .postgresql (ones (n + 1)) = .token (onesToken (n + 1)) .done := by
    rw [scan, show ones (n + 1) = '1' :: ones n from rfl, scanFrom, piece]
    simp only [Nat.add_sub_cancel]
    have passed := @scanFrom_whole .postgresql (ones n) (Position.start.advance '1')
    rw [size] at passed
    rw [passed]
    simp [onesToken, ones, List.replicate_succ]
  rw [tokenize, merge, raw]
  rfl

theorem overlong_ones {n : Nat} (long : maxDigits < n) : Overlong (String.ofList (ones n)) := by
  have digits : ∀ c ∈ ones n, c = '1' := fun c hc => (List.mem_replicate.1 hc).2
  constructor
  · intro x rest e
    rw [String.toList_ofList] at e
    exact absurd (digits '0' (by rw [e]; exact List.mem_cons_self)) (by decide)
  · intro c hc
    rw [String.toList_ofList] at hc
    rw [digits c hc]; decide
  · rwa [String.toList_ofList, ones, List.length_replicate]

theorem oversized_ones {n : Nat} (long : maxDigits < n + 1) (columns : List String) :
    Tokenizes .postgresql (String.ofList (ones (n + 1))) ∧
      OversizedCondition .postgresql columns (String.ofList (ones (n + 1))) := by
  have tokens : tokenize .postgresql (String.ofList (ones (n + 1))).toList =
      .token (onesToken (n + 1)) .done := by
    rw [String.toList_ofList]; exact tokenize_ones n
  refine ⟨fun place => ?_, ?_⟩
  · rw [tokens]; simp [TokenStream.error?]
  · simp only [OversizedCondition, tokens, TokenStream.error?, TokenStream.toList, true_and]
    have flat : nesting [onesToken (n + 1)] ≤ maxNesting := by
      simp [nesting, depthAfter, Token.isPunct, onesToken, maxNesting]
    have whole : conjuncts 2 [onesToken (n + 1)] = some [[onesToken (n + 1)]] := by
      simp [conjuncts, unwrap, splitConjuncts, Token.isKeyword, onesToken]
    have begins : BeginsOverlong [onesToken (n + 1)] _ := .number rfl (overlong_ones long)
    exact ⟨by simp, flat, [], [onesToken (n + 1)], [], _, whole, by simp, .numeral (.first begins)⟩

/-- a numeral of 4301 digits is no condition, but there is no answer on it -/
theorem no_answer_on_ones : Tokenizes .postgresql (String.ofList (ones 4301)) ∧
    ¬ ∃ answer, conditionRules .postgresql ["a"] (String.ofList (ones 4301)) none none = .ok answer :=
  have oversized := oversized_ones (Nat.lt_succ_self maxDigits) ["a"]
  ⟨oversized.1, no_answer_of_oversized oversized.1 oversized.2⟩

end SchemaApi
