import SchemaApi.Proofs.Token.Lossless
import Mathlib.Data.Bool.AllAny
/-!
Text that is written to be read back.

A delimited text is written with its closing delimiter doubled, a word in capitals, a number in decimal digits.
Each of them, and each mark, is one lexeme that ends where it was written to end, if the character behind it does
not go on with it.
-/

namespace SchemaApi

open Text

section
variable {d : Dialect} {c : Char} {cs rest : List Char}

/-- the text is one lexeme, with the rest behind it -/
def IsLexeme (d : Dialect) (text : List Char) (kind : TokenKind) (value : String) (isQuoted : Bool)
    (rest : List Char) : Prop :=
  ∃ c cs, text = c :: cs ∧ pieceAt d c (cs ++ rest) = .lexeme kind value isQuoted text.length

/-- the scanner takes a lexeme at once -/
theorem scanFrom_of_isLexeme {text : List Char} {kind : TokenKind} {value : String} {q : Bool}
    (h : IsLexeme d text kind value q rest) (p : Position) : scanFrom d 0 p (text ++ rest) =
      .token ⟨kind, String.ofList text, value, p, q⟩ (scanFrom d 0 (p.after text) rest) := by
  obtain ⟨c, cs, rfl, here⟩ := h
  have fits : (c :: cs).length ≤ (c :: cs ++ rest).length := by
    rw [List.length_append]
    omega
  have taken := @scanFrom_taken d c (cs ++ rest) (c :: cs).length p (Nat.succ_pos _) fits
  rw [← List.cons_append, List.take_left, List.drop_left] at taken
  have text : (c :: (cs ++ rest)).take (c :: cs).length = c :: cs := List.take_left
  rw [List.cons_append, scanFrom, here]
  simp only [taken, text]

theorem scanFrom_blank (p : Position) : scanFrom d 0 p (' ' :: rest) = scanFrom d 0 (p.advance ' ') rest := by
  have blank : pieceAt d ' ' rest = .trivia 1 := rfl
  rw [scanFrom, blank]

/-! ## Delimited texts -/

/-- a text as it is written between delimiters: the closing one is doubled, and a backslash that would escape -/
def guarded (closing : Char) (escapes : Bool) (text : List Char) : List Char :=
  text.flatMap fun c => if c = closing ∨ (escapes = true ∧ c = '\\') then [c, c] else [c]

/-- what is read between delimiters is what was written -/
theorem delimited_guarded {closing : Char} {escapes : Bool} (plain : closing ≠ '\\')
    (ends : rest.head? ≠ some closing) (text : List Char) :
    delimited closing escapes (guarded closing escapes text ++ closing :: rest) =
      some (text, (guarded closing escapes text).length + 1) := by
  have unescaped : ¬ (escapes = true ∧ closing = '\\') := fun h => plain h.2
  induction text with
  | nil =>
    cases rest with
    | nil => simp [guarded, delimited]
    | cons x rest =>
      have single : x ≠ closing := fun same => ends (by rw [same]; rfl)
      simp [guarded, delimited, unescaped, single]
  | cons c text ih =>
    rw [guarded, List.flatMap_cons, ← guarded]
    by_cases escaped : escapes = true ∧ c = '\\'
    · have same : unescape '\\' = '\\' := rfl
      obtain ⟨rfl, rfl⟩ := escaped
      simp [delimited, ih, same]
    by_cases closes : c = closing
    · simp [closes, unescaped, delimited, ih]
    · -- a plain character is read with the one behind it in sight, if only the closing delimiter
      obtain ⟨x, more, next⟩ : ∃ x more, guarded closing escapes text ++ closing :: rest = x :: more :=
        List.exists_cons_of_ne_nil (by simp)
      rw [next] at ih
      simp [escaped, closes, next, delimited, ih]

theorem lookup_of_mem_identifierQuotes {quotes : Char × Char} (legal : quotes ∈ d.identifierQuotes) :
    d.identifierQuotes.lookup quotes.1 = some quotes.2 := by
  have all : ∀ quotes ∈ d.identifierQuotes, d.identifierQuotes.lookup quotes.1 = some quotes.2 := by
    cases d <;> decide
  exact all quotes legal

theorem not_trivia_of_mem_identifierQuotes {quotes : Char × Char} (legal : quotes ∈ d.identifierQuotes) :
    triviaPiece? d quotes.1 rest = none := by
  have all : ∀ quotes ∈ d.identifierQuotes,
      isBlank quotes.1 = false ∧ quotes.1 ≠ '-' ∧ quotes.1 ≠ '#' ∧ quotes.1 ≠ '/' := by
    cases d <;> decide
  obtain ⟨visible, dash, hash, slash⟩ := all quotes legal
  simp [triviaPiece?, visible, dash, hash, slash]

/-- a delimited identifier is one lexeme, whatever its name -/
theorem isLexeme_name {quotes : Char × Char} (legal : quotes ∈ d.identifierQuotes)
    (ends : rest.head? ≠ some quotes.2) (text : String) :
    IsLexeme d (quotes.1 :: (guarded quotes.2 false text.toList ++ [quotes.2])) .identifier text true rest := by
  have found := lookup_of_mem_identifierQuotes legal
  have inner := @delimited_guarded rest quotes.2 false (plain_identifierQuotes found).1 ends text.toList
  refine ⟨_, _, rfl, ?_⟩
  rw [pieceAt, not_trivia_of_mem_identifierQuotes legal, Option.getD_none, List.append_assoc, List.singleton_append]
  simp only [lexemePiece, found, identifierPiece, inner, String.ofList_toList, List.length_cons, List.length_append,
    List.length_nil, Nat.add_comm 1]

/-- a string is one lexeme, whatever it says -/
theorem isLexeme_string {quote : Char} (legal : quote ∈ d.stringQuotes) (ends : rest.head? ≠ some quote)
    (text : String) :
    IsLexeme d (quote :: (guarded quote d.backslashEscapes text.toList ++ [quote])) .string text false rest := by
  have all : ∀ quote ∈ d.stringQuotes, isBlank quote = false ∧ quote ≠ '-' ∧ quote ≠ '#' ∧ quote ≠ '/' ∧
      d.identifierQuotes.lookup quote = none := by
    cases d <;> exact List.all_iff_forall_prop.1 (by decide)
  obtain ⟨visible, dash, hash, slash, unnamed⟩ := all quote legal
  have noTrivia : ∀ more, triviaPiece? d quote more = none := by
    intro more
    simp [triviaPiece?, visible, dash, hash, slash]
  have quotes : d.stringQuotes.contains quote = true := List.contains_iff_mem.2 legal
  have inner := @delimited_guarded rest quote d.backslashEscapes (plain_stringQuotes quotes).1 ends text.toList
  refine ⟨_, _, rfl, ?_⟩
  rw [pieceAt, noTrivia, Option.getD_none, List.append_assoc, List.singleton_append]
  simp only [lexemePiece, unnamed, quotes, if_true, stringPiece, inner, String.ofList_toList, Nat.zero_add,
    List.length_cons, List.length_append, List.length_nil, Nat.add_comm 1]

/-- a text in single quotes is one lexeme -/
theorem isLexeme_literal (ends : rest.head? ≠ some '\'') (text : String) :
    IsLexeme d ('\'' :: (guarded '\'' d.backslashEscapes text.toList ++ ['\''])) .string text false rest :=
  isLexeme_string (by cases d <;> decide) ends text

/-! ## Words -/

/-- the letters that fixed words are written in -/
def capitals : List Char := "ABCDEFGHIJKLMNOPQRSTUVWXYZ".toList

theorem isWordChar_of_mem_capitals (h : c ∈ capitals) : isWordChar c = true := by
  have all : ∀ c ∈ capitals, isWordChar c = true := List.all_iff_forall_prop.1 (by decide)
  exact all c h

/-- a run of one class ends where the class does -/
theorem runLength_of_all {p : Char → Bool} (all : ∀ x ∈ cs, p x = true) (ends : ∀ x, rest.head? = some x → p x = false) :
    runLength p (cs ++ rest) = cs.length := by
  have stop : rest.takeWhile p = [] := by
    cases rest with
    | nil => rfl
    | cons x rest => simp [ends x rfl]
  rw [runLength, List.takeWhile_append_of_pos all, stop, List.append_nil]

/-- a letter of a fixed word begins neither trivia nor a delimited text nor a number -/
theorem pieceAt_of_mem_capitals (h : c ∈ capitals) : pieceAt d c rest = wordPiece d c rest := by
  have all : ∀ c ∈ capitals, isBlank c = false ∧ c ≠ '-' ∧ c ≠ '#' ∧ c ≠ '/' ∧ c ≠ '.' ∧ c ≠ '$' ∧
      isDigit c = false ∧ isLetter c = true ∧ d.identifierQuotes.lookup c = none ∧
        d.stringQuotes.contains c = false := by
    cases d <;> exact List.all_iff_forall_prop.1 (by decide)
  obtain ⟨visible, dash, hash, slash, point, dollar, digit, letter, unnamed, unquoted⟩ := all c h
  have noTrivia : triviaPiece? d c rest = none := by simp [triviaPiece?, visible, dash, hash, slash]
  rw [pieceAt, noTrivia, Option.getD_none]
  simp only [lexemePiece, unnamed, unquoted, Bool.false_eq_true, if_false, dollar, false_and, startsNumber, digit,
    point, decide_false, Bool.false_and, Bool.or_false, letter, Bool.true_or, if_true]

/-- what a word in capitals is read as -/
def wordLexeme (d : Dialect) (word : String) : TokenKind × String :=
  if d.isKeyword word then (.keyword, upper word) else (.identifier, d.normalize word false)

/-- a word of several capitals is one lexeme -/
theorem isLexeme_word {word : String} (capital : ∀ x ∈ word.toList, x ∈ capitals) (long : 2 ≤ word.length)
    (ends : ∀ x, rest.head? = some x → isWordChar x = false ∧ x ≠ '$') :
    IsLexeme d word.toList (wordLexeme d word).1 (wordLexeme d word).2 false rest := by
  obtain ⟨c, cs, text⟩ : ∃ c cs, word.toList = c :: cs :=
    List.exists_cons_of_ne_nil fun empty => by rw [← String.length_toList, empty] at long; contradiction
  have whole : String.ofList (c :: cs) = word := by rw [← text, String.ofList_toList]
  rw [text] at capital ⊢
  have run : runLength (fun c => isWordChar c || c = '$') (cs ++ rest) = cs.length := by
    refine runLength_of_all (fun x hx => ?_) (fun x hx => ?_)
    · simp [isWordChar_of_mem_capitals (capital x (List.mem_cons_of_mem c hx))]
    · simp [ends x hx]
  have size : 1 + cs.length = (c :: cs).length := by rw [List.length_cons, Nat.add_comm]
  have taken : (c :: (cs ++ rest)).take (c :: cs).length = c :: cs := by
    rw [← List.cons_append, List.take_left]
  have several : (c :: cs).length ≠ 1 := by
    rw [← text, String.length_toList]
    omega
  refine ⟨c, cs, rfl, ?_⟩
  rw [pieceAt_of_mem_capitals (capital c List.mem_cons_self)]
  simp only [wordPiece, run, size, taken, several, false_and, and_false, if_false, wordLexeme, whole]
  split_ifs <;> rfl

/-! ## Numbers -/

/-- the characters that would go on with a number -/
def GoesOnNumber (x : Char) : Prop := isDecimal x = true ∨ x ∈ ['.', 'e', 'E', 'x', 'X']

theorem isDecimal_of_isDigit (digit : c.isDigit = true) : isDecimal c = true := by
  have code : 48 ≤ c.toNat ∧ c.toNat ≤ 57 := Char.isDigit_iff_toNat.1 digit
  rw [isDecimal, if_pos (by omega)]
  exact digit

/-- a decimal digit is none of the characters that other lexemes begin with -/
theorem pieceAt_of_isDigit (digit : c.isDigit = true) : pieceAt d c rest = numberPiece (c :: rest) := by
  have code : 48 ≤ c.toNat ∧ c.toNat ≤ 57 := Char.isDigit_iff_toNat.1 digit
  have other : ∀ x : Char, x.isDigit = false → c ≠ x := by
    intro x plain same
    rw [same, plain] at digit
    contradiction
  have visible : isBlank c = false := by
    rw [isBlank, if_pos (by omega)]
    have blank := other ' ' (by decide)
    simp only [Bool.or_eq_false_iff, beq_eq_false_iff_ne, Bool.and_eq_false_iff, decide_eq_false_iff_not]
    exact ⟨⟨blank, by omega⟩, by omega⟩
  have unnamed : d.identifierQuotes.lookup c = none := by
    have quotes : ∀ pair ∈ d.identifierQuotes, pair.1.isDigit = false := by cases d <;> decide
    exact List.lookup_eq_none_iff.2 fun pair hp => bne_iff_ne.2 (other pair.1 (quotes pair hp))
  have unquoted : d.stringQuotes.contains c = false := by
    have quotes : ∀ x ∈ d.stringQuotes, x.isDigit = false := by
      cases d <;> exact List.all_iff_forall_prop.1 (by decide)
    rw [← Bool.not_eq_true, List.contains_iff_mem]
    exact fun h => other c (quotes c h) rfl
  have starts : startsNumber c rest = true := by
    simp [startsNumber, isDigit, isDecimal_of_isDigit digit]
  have noTrivia : triviaPiece? d c rest = none := by
    simp [triviaPiece?, visible, other '-' (by decide), other '#' (by decide), other '/' (by decide)]
  rw [pieceAt, noTrivia, Option.getD_none]
  simp only [lexemePiece, unnamed, unquoted, Bool.false_eq_true, if_false, other '$' (by decide), false_and, starts,
    if_true]

/-- a run of digits with nothing behind it that goes on with a number is a numeral -/
theorem numeralLength_digits (filled : cs ≠ []) (digits : ∀ x ∈ cs, x.isDigit = true)
    (ends : ∀ x, rest.head? = some x → ¬ GoesOnNumber x) : numeralLength (cs ++ rest) = cs.length := by
  have size : cs.length ≠ 0 := fun empty => filled (List.length_eq_zero_iff.1 empty)
  have run : runLength isDecimal (cs ++ rest) = cs.length :=
    runLength_of_all (fun x hx => isDecimal_of_isDigit (digits x hx)) fun x hx => by
      simpa using fun h => ends x hx (Or.inl h)
  have noFraction : fractionLength rest = 0 := by
    unfold fractionLength
    split
    · exact absurd (Or.inr (by decide)) (ends '.' rfl)
    · rfl
  have noExponent : exponentLength rest = 0 := by
    unfold exponentLength
    split
    · next e sign more =>
      have letter : ¬ (e = 'e' ∨ e = 'E') := by
        rintro (rfl | rfl)
        · exact ends 'e' rfl (Or.inr (by decide))
        · exact ends 'E' rfl (Or.inr (by decide))
      exact if_neg letter
    · rfl
  have noHex : hexLength (cs ++ rest) = 0 := by
    -- the second character is a digit, or stands behind the only one
    have second : ∀ x more, cs ++ rest = '0' :: x :: more → ¬ (x = 'x' ∨ x = 'X') := by
      rintro x more split (rfl | rfl)
      all_goals
        match cs, filled with
        | [c], _ =>
          obtain ⟨-, rfl⟩ := List.cons.inj split
          exact ends _ rfl (Or.inr (by decide))
        | c :: c' :: cs, _ =>
          obtain ⟨-, behind⟩ := List.cons.inj split
          obtain ⟨rfl, -⟩ := List.cons.inj behind
          have digit := digits _ (List.mem_cons_of_mem c List.mem_cons_self)
          contradiction
    unfold hexLength
    split
    · next x more split => exact if_neg (second x more split)
    · rfl
  rw [numeralLength, if_pos noHex, decimalLength]
  simp only [run, List.drop_left, noFraction, noExponent, size, false_and, if_false, Nat.add_zero]

/-- a number in decimal digits is one lexeme -/
theorem isLexeme_numeral (filled : cs ≠ []) (digits : ∀ x ∈ cs, x.isDigit = true)
    (ends : ∀ x, rest.head? = some x → ¬ GoesOnNumber x) :
    IsLexeme d cs .number (String.ofList cs) false rest := by
  have size := numeralLength_digits filled digits ends
  obtain ⟨c, cs, rfl⟩ := List.exists_cons_of_ne_nil filled
  refine ⟨c, cs, rfl, ?_⟩
  have some : (c :: cs).length ≠ 0 := Nat.succ_ne_zero cs.length
  rw [pieceAt_of_isDigit (digits c List.mem_cons_self), numberPiece, ← List.cons_append, size]
  simp only [some, if_false, List.take_left]

/-! ## Marks -/

/-- a parenthesis, a comma or a point is a lexeme of its own; a point not if a digit follows -/
theorem isLexeme_mark (mark : c ∈ ['(', ')', ',', '.'])
    (ends : c = '.' → ∀ x, rest.head? = some x → isDigit x = false) :
    IsLexeme d [c] .punctuation (String.singleton c) false rest := by
  have all : ∀ c ∈ ['(', ')', ',', '.'], isBlank c = false ∧ c ≠ '-' ∧ c ≠ '#' ∧ c ≠ '/' ∧ c ≠ '$' ∧ c ≠ '_' ∧
      isDigit c = false ∧ isLetter c = false ∧ d.identifierQuotes.lookup c = none ∧
        d.stringQuotes.contains c = false ∧ punctuation.contains c = true ∧
          ∀ op ∈ operators, op.toList.head? ≠ some c := by
    cases d <;> exact List.all_iff_forall_prop.1 (by decide)
  obtain ⟨visible, dash, hash, slash, dollar, underscore, digit, letter, unnamed, unquoted, mark', leading⟩ := all c mark
  have noTrivia : triviaPiece? d c rest = none := by simp [triviaPiece?, visible, dash, hash, slash]
  have noNumber : startsNumber c rest = false := by
    rw [startsNumber, digit, Bool.false_or, Bool.and_eq_false_iff]
    by_cases point : c = '.'
    · right
      cases rest with
      | nil => rfl
      | cons x rest => exact ends point x rfl
    · exact Or.inl (decide_eq_false point)
  have noOperator : operators.find? (fun op => op.toList.isPrefixOf (c :: rest)) = none := by
    rw [List.find?_eq_none]
    intro op listed start
    have sizes : ∀ op ∈ operators, op.toList ≠ [] := by decide
    obtain ⟨x, more, text⟩ := List.exists_cons_of_ne_nil (sizes op listed)
    rw [text, List.isPrefixOf, Bool.and_eq_true, beq_iff_eq] at start
    exact leading op listed (by rw [text, ← start.1]; rfl)
  refine ⟨c, [], rfl, ?_⟩
  rw [pieceAt, List.nil_append, noTrivia, Option.getD_none]
  simp only [lexemePiece, unnamed, unquoted, Bool.false_eq_true, if_false, dollar, false_and, noNumber, letter,
    underscore, decide_false, Bool.or_false, symbolPiece, noOperator, mark', if_true, List.length_singleton]

end

end SchemaApi
