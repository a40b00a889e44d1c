import SchemaApi.Proofs.Text.LetterCase
import SchemaApi.Proofs.Token.Lossless
import SchemaApi.Proofs.Token.Piece
/-!
What a lexeme depends on.

A piece of a script is settled by its own characters and by those right behind it, and of the latter neither the case
of letters matters nor how far the script goes on. So a script that is cut off behind a piece, or goes on in other
letter case, has the same piece there.
-/

namespace SchemaApi

open Text

/-- the second text is a beginning of the first, up to the case of letters -/
inductive Begins : List Char → List Char → Prop where
  | nil (cs : List Char) : Begins cs []
  | cons {c c' : Char} {cs cs' : List Char} (same : SameLetter c c') (rest : Begins cs cs') : Begins (c :: cs) (c' :: cs')

namespace Begins

variable {cs cs' more more' : List Char}

theorem of_sameLetters (h : SameLetters cs cs') (rest : Begins more more') : Begins (cs ++ more) (cs' ++ more') := by
  induction h with
  | nil => exact rest
  | cons same _ ih => exact .cons same ih

theorem append (cs : List Char) (rest : Begins more more') : Begins (cs ++ more) (cs ++ more') :=
  of_sameLetters (.refl cs) rest

theorem length_le (h : Begins cs cs') : cs'.length ≤ cs.length := by
  induction h with
  | nil => exact Nat.zero_le _
  | cons _ _ ih => exact Nat.succ_le_succ ih

theorem drop (h : Begins cs cs') (n : Nat) : Begins (cs.drop n) (cs'.drop n) := by
  induction h generalizing n with
  | nil => rw [List.drop_nil]; exact .nil _
  | cons same rest ih =>
    cases n with
    | zero => exact .cons same rest
    | succ n => exact ih n

/-- a mark at the head of the shorter text stands at the head of the longer one -/
theorem head?_eq (h : Begins cs cs') {x : Char} (plain : isLetter x = false) (mark : cs'.head? = some x) :
    cs.head? = some x := by
  cases h with
  | nil => contradiction
  | cons same _ =>
    rw [List.head?_cons, Option.some.injEq] at mark ⊢
    exact (same.eq_iff plain).1 mark

/-- a mark at the head of the longer text stands at the head of the shorter one, if that is not at its end -/
theorem head?_eq_of_pos (h : Begins cs cs') {x : Char} (plain : isLetter x = false) (filled : 0 < cs'.length)
    (mark : cs.head? = some x) : cs'.head? = some x := by
  cases h with
  | nil => contradiction
  | cons same _ =>
    rw [List.head?_cons, Option.some.injEq] at mark ⊢
    exact (same.eq_iff plain).2 mark

end Begins

section
variable {cs cs' : List Char} (h : Begins cs cs')

include h

/-! ## Runs and occurrences -/

/-- a run goes as far as in the longer text, or to the end -/
theorem runLength_begins {p : Char → Bool} (blind : ∀ c c', SameLetter c c' → p c' = p c) :
    runLength p cs' = min (runLength p cs) cs'.length := by
  induction h with
  | nil => simp [runLength]
  | @cons c c' cs cs' same rest ih =>
    simp only [runLength, List.takeWhile_cons, blind c c' same] at ih ⊢
    cases p c with
    | true => simp [ih]
    | false => simp

theorem isPrefixOf_of_begins {part : List Char} (plain : ∀ x ∈ part, isLetter x = false)
    (here : part.isPrefixOf cs' = true) : part.isPrefixOf cs = true := by
  induction h generalizing part with
  | nil =>
    cases part with
    | nil => rfl
    | cons _ _ => contradiction
  | cons same _ ih =>
    cases part with
    | nil => rfl
    | cons x part =>
      rw [List.isPrefixOf, Bool.and_eq_true, beq_iff_eq] at here ⊢
      have first := (same.eq_iff (plain x List.mem_cons_self)).1 here.1.symm
      exact ⟨first.symm, ih (fun y hy => plain y (List.mem_cons_of_mem x hy)) here.2⟩

theorem isPrefixOf_begins {part : List Char} (plain : ∀ x ∈ part, isLetter x = false) (fits : part.length ≤ cs'.length) :
    part.isPrefixOf cs' = part.isPrefixOf cs := by
  induction h generalizing part with
  | nil =>
    obtain rfl := List.length_eq_zero_iff.1 (Nat.le_zero.1 fits)
    cases ‹List Char› <;> rfl
  | @cons c c' cs cs' same _ ih =>
    cases part with
    | nil => rfl
    | cons x part =>
      have first : (x == c') = (x == c) := by
        rw [Bool.eq_iff_iff, beq_iff_eq, beq_iff_eq, eq_comm, same.eq_iff (plain x List.mem_cons_self), eq_comm]
      have rest := ih (fun y hy => plain y (List.mem_cons_of_mem x hy)) (Nat.le_of_succ_le_succ fits)
      rw [List.isPrefixOf, List.isPrefixOf, first, rest]

theorem findFirst?_begins {part : List Char} (plain : ∀ x ∈ part, isLetter x = false) (filled : part ≠ []) {n : Nat}
    (found : findFirst? part cs = some n) (fits : n + part.length ≤ cs'.length) : findFirst? part cs' = some n := by
  induction h generalizing n with
  | nil =>
    have := List.length_pos_iff.2 filled
    rw [List.length_nil] at fits
    omega
  | @cons c c' cs cs' same rest ih =>
    have here := isPrefixOf_begins (.cons same rest) plain (by omega)
    rw [findFirst?] at found ⊢
    rw [here]
    split_ifs at found ⊢ with first
    · exact found
    · obtain ⟨m, later, rfl⟩ := Option.map_eq_some_iff.1 found
      rw [ih later (by rw [List.length_cons] at fits; omega)]
      rfl

end

theorem take_eq_of_le {m n : Nat} {cs cs' : List Char} (own : cs'.take n = cs.take n) (shorter : m ≤ n) :
    cs'.take m = cs.take m := by
  have part := congrArg (List.take m) own
  rwa [List.take_take, List.take_take, Nat.min_eq_left shorter] at part

theorem isPrefixOf_of_take {part : List Char} {n : Nat} {cs cs' : List Char} (own : cs'.take n = cs.take n)
    (fits : part.length ≤ n) : part.isPrefixOf cs' = part.isPrefixOf cs := by
  rw [Bool.eq_iff_iff, List.isPrefixOf_iff_prefix, List.isPrefixOf_iff_prefix, List.prefix_iff_eq_take,
    take_eq_of_le own fits, ← List.prefix_iff_eq_take]

/-- where a text first occurs is settled by what stands before it and by itself -/
theorem findFirst?_of_take {part : List Char} (filled : part ≠ []) {n : Nat} {cs cs' : List Char}
    (found : findFirst? part cs = some n) (own : cs'.take (n + part.length) = cs.take (n + part.length)) :
    findFirst? part cs' = some n := by
  have long := List.length_pos_iff.2 filled
  induction cs generalizing n cs' with
  | nil => simp [findFirst?, filled] at found
  | cons c cs ih =>
    have here := @isPrefixOf_of_take part _ _ _ own (by omega)
    obtain ⟨m, size⟩ : ∃ m, n + part.length = m + 1 := ⟨n + part.length - 1, by omega⟩
    cases cs' with
    | nil =>
      rw [size] at own
      contradiction
    | cons c' cs' =>
      rw [findFirst?] at found ⊢
      rw [here]
      split_ifs at found ⊢
      · exact found
      · obtain ⟨before, later, rfl⟩ := Option.map_eq_some_iff.1 found
        obtain rfl : m = before + part.length := by omega
        rw [size, List.take_succ_cons, List.take_succ_cons, List.cons.injEq] at own
        rw [ih later own.2]
        rfl

/-! ## Delimited texts -/

theorem delimited_pos {closing : Char} {escapes : Bool} {cs : List Char} {r : List Char × Nat}
    (h : delimited closing escapes cs = some r) : 0 < r.2 := by
  fun_induction delimited closing escapes cs generalizing r with
  | case1 => contradiction
  | case2 => rw [← Option.some.inj h]; exact Nat.one_pos
  | case3 => contradiction
  | case6 => rw [← Option.some.inj h]; exact Nat.one_pos
  | case4 | case5 | case7 =>
    obtain ⟨_, _, rfl⟩ := Option.map_eq_some_iff.1 h
    exact Nat.succ_pos _

/-- a text that has the first character in common -/
theorem Begins.own_cons {c : Char} {cs cs' : List Char} {n : Nat} (h : Begins (c :: cs) cs')
    (own : cs'.take (n + 1) = (c :: cs).take (n + 1)) :
    ∃ left, cs' = c :: left ∧ Begins cs left ∧ left.take n = cs.take n := by
  cases h with
  | nil => contradiction
  | cons same rest =>
    rw [List.take_succ_cons, List.take_succ_cons, List.cons.injEq] at own
    obtain ⟨rfl, own⟩ := own
    exact ⟨_, rfl, rest, own⟩

theorem delimited_begins {closing : Char} {escapes : Bool} (plain : isLetter closing = false)
    {cs cs' : List Char} (h : Begins cs cs') {r : List Char × Nat} (found : delimited closing escapes cs = some r)
    (own : cs'.take r.2 = cs.take r.2) : delimited closing escapes cs' = some r := by
  fun_induction delimited closing escapes cs generalizing cs' r with
  | case1 => contradiction
  | case2 =>
    obtain rfl := Option.some.inj found
    obtain ⟨left, rfl, rest, -⟩ := h.own_cons own
    cases rest
    rw [delimited, if_pos rfl]
  | case3 => contradiction
  | case4 c d left escaped ih =>
    obtain ⟨inner, later, rfl⟩ := Option.map_eq_some_iff.1 found
    obtain ⟨left, rfl, rest, own⟩ := h.own_cons own
    obtain ⟨left, rfl, rest, own⟩ := rest.own_cons own
    rw [delimited, if_pos escaped, ih rest later own]
    rfl
  | case5 left notEscaped ih =>
    obtain ⟨inner, later, rfl⟩ := Option.map_eq_some_iff.1 found
    obtain ⟨left, rfl, rest, own⟩ := h.own_cons own
    obtain ⟨left, rfl, rest, own⟩ := rest.own_cons own
    rw [delimited, if_neg notEscaped, if_pos rfl, if_pos rfl, ih rest later own]
    rfl
  | case6 d left single notEscaped =>
    obtain rfl := Option.some.inj found
    obtain ⟨left, rfl, rest, -⟩ := h.own_cons own
    cases rest with
    | nil => rw [delimited, if_pos rfl]
    | cons same _ => rw [delimited, if_neg notEscaped, if_pos rfl, if_neg (mt (same.eq_iff plain).1 single)]
  | case7 c d left notEscaped goesOn ih =>
    obtain ⟨inner, later, rfl⟩ := Option.map_eq_some_iff.1 found
    obtain ⟨left, rfl, rest, own⟩ := h.own_cons own
    -- what follows takes a character at least, so that the next one is there, too
    obtain ⟨n, size⟩ : ∃ n, inner.2 = n + 1 := ⟨inner.2 - 1, by have := delimited_pos later; omega⟩
    have next := rest
    obtain ⟨left, rfl, -, -⟩ := next.own_cons (n := n) (size ▸ own)
    rw [delimited, if_neg notEscaped, if_neg goesOn, ih rest later own]
    rfl

section
variable {d : Dialect} {cs cs' : List Char} (h : Begins cs cs')

include h

theorem stringPiece_begins {lead : Nat} {quote : Char} {escapes : Bool} (plain : isLetter quote = false)
    (closed : ∀ what, stringPiece lead quote escapes cs ≠ .fault what)
    (own : cs'.take ((stringPiece lead quote escapes cs).size - (lead + 1)) =
      cs.take ((stringPiece lead quote escapes cs).size - (lead + 1))) :
    stringPiece lead quote escapes cs' = stringPiece lead quote escapes cs := by
  cases inner : delimited quote escapes cs with
  | none => simp [stringPiece, inner] at closed
  | some r =>
    simp only [stringPiece, inner, Piece.size, Nat.add_sub_cancel_left] at own
    simp only [stringPiece, inner, delimited_begins plain h inner own]

theorem identifierPiece_begins {opening closing : Char} (plain : isLetter closing = false)
    (closed : ∀ what, identifierPiece opening closing cs ≠ .fault what)
    (own : cs'.take ((identifierPiece opening closing cs).size - 1) =
      cs.take ((identifierPiece opening closing cs).size - 1)) :
    identifierPiece opening closing cs' = identifierPiece opening closing cs := by
  cases inner : delimited closing false cs with
  | none => simp [identifierPiece, inner] at closed
  | some r =>
    simp only [identifierPiece, inner, Piece.size, Nat.add_sub_cancel_left] at own
    simp only [identifierPiece, inner, delimited_begins plain h inner own]

/-! ## Texts between dollar marks -/

/-- behind a run stands a mark in the shorter text, too, unless that ends with the run -/
theorem mark_behind_run {p : Char → Bool} (blind : ∀ c c', SameLetter c c' → p c' = p c) {x : Char}
    (plain : isLetter x = false) : (cs'.drop (runLength p cs')).head? = some x ↔
      (cs.drop (runLength p cs)).head? = some x ∧ runLength p cs < cs'.length := by
  have run := runLength_begins h blind
  by_cases fits : runLength p cs < cs'.length
  · have behind := h.drop (runLength p cs)
    rw [run, Nat.min_eq_left (Nat.le_of_lt fits)]
    refine ⟨fun mark => ⟨behind.head?_eq plain mark, fits⟩, fun mark => behind.head?_eq_of_pos plain ?_ mark.1⟩
    rw [List.length_drop]
    omega
  · rw [run, Nat.min_eq_right (by omega), List.drop_length]
    simp [fits]

theorem dollarTag?_begins {n : Nat} : dollarTag? cs' = some n ↔ dollarTag? cs = some n ∧ n < cs'.length := by
  cases h with
  | nil => simp [dollarTag?]
  | @cons c c' cs cs' same rest =>
    have run := runLength_begins rest (p := isWordChar) fun _ _ => SameLetter.isWordChar
    have closes := mark_behind_run rest (p := isWordChar) (fun _ _ => SameLetter.isWordChar)
      (show isLetter '$' = false by decide)
    simp only [dollarTag?, same.eq_iff (show isLetter '$' = false by decide), same.isWordStart, Nat.add_sub_cancel_left,
      List.length_cons]
    by_cases dollar : c = '$'
    · simp only [if_pos dollar, Option.some.injEq]
      omega
    by_cases word : isWordStart c = true
    · simp only [if_neg dollar, if_pos word, closes]
      by_cases mark : (cs.drop (runLength isWordChar cs)).head? = some '$'
      · by_cases fits : runLength isWordChar cs < cs'.length
        · rw [if_pos ⟨mark, fits⟩, if_pos mark, run, Nat.min_eq_left (Nat.le_of_lt fits), Option.some.injEq]
          omega
        · rw [if_neg (fun both => fits both.2), if_pos mark, Option.some.injEq]
          simp only [reduceCtorEq, false_iff]
          omega
      · rw [if_neg (fun both => mark both.1), if_neg mark]
        simp
    · simp only [if_neg dollar, if_neg word]
      simp

theorem dollarPiece_begins (closed : ∀ what, dollarPiece cs ≠ .fault what)
    (own : cs'.take ((dollarPiece cs).size - 1) = cs.take ((dollarPiece cs).size - 1)) :
    dollarPiece cs' = dollarPiece cs := by
  cases tagged : dollarTag? cs with
  | none =>
    have none' : dollarTag? cs' = none := Option.eq_none_iff_forall_ne_some.2 fun n tagged' => by
      rw [((dollarTag?_begins h).1 tagged').1] at tagged
      contradiction
    rw [dollarPiece, dollarPiece, tagged, none']
  | some n =>
    cases found : findFirst? ('$' :: cs.take (n + 1)) (cs.drop (n + 1)) with
    | none => simp [dollarPiece, tagged, found] at closed
    | some size =>
      have fits := add_length_le_of_findFirst? found (List.cons_ne_nil _ _)
      have inside := dollarTag?_le tagged
      simp only [dollarPiece, tagged, found, Piece.size] at own
      simp only [List.length_cons, List.length_take, List.length_drop] at fits
      have tag : cs'.take (n + 1) = cs.take (n + 1) := take_eq_of_le own (by omega)
      have body : (cs'.drop (n + 1)).take (size + (n + 2)) = (cs.drop (n + 1)).take (size + (n + 2)) := by
        have rest := congrArg (List.drop (n + 1)) own
        rwa [List.drop_take, List.drop_take, show 2 * (n + 2) + size - 1 - (n + 1) = size + (n + 2) by omega] at rest
      have tagged' : dollarTag? cs' = some n := by
        have filled := congrArg List.length tag
        rw [List.length_take, List.length_take] at filled
        exact (dollarTag?_begins h).2 ⟨tagged, by omega⟩
      have width : ('$' :: cs.take (n + 1)).length = n + 2 := by
        rw [List.length_cons, List.length_take]
        omega
      have found' : findFirst? ('$' :: cs.take (n + 1)) (cs'.drop (n + 1)) = some size :=
        findFirst?_of_take (List.cons_ne_nil _ _) found (by rw [width]; exact body)
      have value : (cs'.drop (n + 1)).take size = (cs.drop (n + 1)).take size := take_eq_of_le body (by omega)
      simp only [dollarPiece, tagged, tagged', found, found', tag, value]

end

/-! ## Numerals -/

section
variable {cs cs' : List Char}

theorem exponentLength_ne_one : exponentLength cs ≠ 1 := by
  rcases cs with - | ⟨e, - | ⟨sign, left⟩⟩
  · simp [exponentLength]
  · simp [exponentLength]
  · simp only [exponentLength]
    split_ifs <;> omega

theorem exponentLength_begins (h : Begins cs cs') (fits : exponentLength cs ≤ cs'.length) :
    exponentLength cs' = exponentLength cs := by
  have notOne := @exponentLength_ne_one cs
  cases h with
  | nil => exact (Nat.le_zero.1 fits).symm
  | cons letter rest =>
    cases rest with
    | nil =>
      have none : ∀ e, exponentLength [e] = 0 := fun _ => rfl
      rw [List.length_singleton] at fits
      rw [none]
      omega
    | cons mark rest =>
      have isExponent := letter.blind (fun c => decide (c = 'e' ∨ c = 'E')) (by decide)
      have plus := mark.eq_iff (show isLetter '+' = false by decide)
      have minus := mark.eq_iff (show isLetter '-' = false by decide)
      have digits := runLength_begins rest (p := isDecimal) fun _ _ => SameLetter.isDecimal
      have all := runLength_begins (.cons mark rest) (p := isDecimal) fun _ _ => SameLetter.isDecimal
      simp only [decide_eq_decide] at isExponent
      simp only [exponentLength, isExponent, plus, minus, digits, all, List.length_cons] at fits ⊢
      split_ifs at fits ⊢ <;> omega

theorem fractionLength_cons (c : Char) (left : List Char) :
    fractionLength (c :: left) = if c = '.' then 1 + runLength isDecimal left else 0 := by
  split_ifs with point
  · rw [point, fractionLength]
  · simp [fractionLength, point]

theorem fractionLength_begins (h : Begins cs cs') : fractionLength cs' = min (fractionLength cs) cs'.length := by
  cases h with
  | nil => simp [fractionLength]
  | @cons c c' cs cs' same rest =>
    have digits := runLength_begins rest (p := isDecimal) fun _ _ => SameLetter.isDecimal
    simp only [fractionLength_cons, same.eq_iff (show isLetter '.' = false by decide), digits, List.length_cons]
    split_ifs <;> omega

theorem hexLength_cons (zero x : Char) (left : List Char) : hexLength (zero :: x :: left) =
    if zero = '0' ∧ (x = 'x' ∨ x = 'X') ∧ runLength isHexDigit left ≠ 0 then 2 + runLength isHexDigit left else 0 := by
  by_cases start : zero = '0'
  · simp only [start, hexLength, true_and]
    split_ifs <;> simp_all
  · simp [hexLength, start]

theorem hexLength_singleton (c : Char) : hexLength [c] = 0 := by
  by_cases zero : c = '0' <;> simp [hexLength, zero]

/-- a numeral of this kind has the two characters that mark it, and a digit -/
theorem hexLength_cases (zero x : Char) (left : List Char) :
    hexLength (zero :: x :: left) = 0 ∨ 3 ≤ hexLength (zero :: x :: left) := by
  rw [hexLength_cons]
  split_ifs with marked
  · right
    omega
  · exact Or.inl rfl

theorem hexLength_begins (h : Begins cs cs') (fits : hexLength cs ≤ cs'.length) : hexLength cs' = hexLength cs := by
  cases h with
  | nil => exact (Nat.le_zero.1 fits).symm
  | @cons c c' cs cs' start rest =>
    cases rest with
    | nil =>
      cases cs with
      | nil => rw [hexLength_singleton, hexLength_singleton]
      | cons x left =>
        have short := hexLength_cases c x left
        rw [List.length_singleton] at fits
        rw [hexLength_singleton]
        omega
    | @cons x x' left left' mark rest =>
      have digits := runLength_begins rest (p := isHexDigit) fun _ _ => SameLetter.isHexDigit
      have isMark := mark.blind (fun c => decide (c = 'x' ∨ c = 'X')) (by decide)
      have fewer := Nat.min_le_left (runLength isHexDigit left) left'.length
      simp only [decide_eq_decide] at isMark
      simp only [hexLength_cons, start.eq_iff (show isLetter '0' = false by decide), isMark, digits,
        List.length_cons] at fits ⊢
      by_cases marked : c = '0' ∧ (x = 'x' ∨ x = 'X')
      · simp only [marked, true_and] at fits ⊢
        split_ifs at fits ⊢ <;> omega
      · rw [if_neg fun all => marked ⟨all.1, all.2.1⟩, if_neg fun all => marked ⟨all.1, all.2.1⟩]

theorem decimalLength_begins (h : Begins cs cs') (fits : decimalLength cs ≤ cs'.length) :
    decimalLength cs' = decimalLength cs := by
  have whole := runLength_begins h (p := isDecimal) fun _ _ => SameLetter.isDecimal
  have fraction := fractionLength_begins (h.drop (runLength isDecimal cs))
  rw [List.length_drop] at fraction
  by_cases none : runLength isDecimal cs = 0 ∧ fractionLength (cs.drop (runLength isDecimal cs)) ≤ 1
  · obtain ⟨noWhole, noFraction⟩ := none
    rw [noWhole, List.drop_zero] at fraction noFraction
    rw [noWhole, Nat.zero_min] at whole
    simp only [decimalLength, whole, noWhole, List.drop_zero, fraction]
    rw [if_pos ⟨trivial, by omega⟩, if_pos ⟨trivial, noFraction⟩]
  · have size : decimalLength cs = runLength isDecimal cs + fractionLength (cs.drop (runLength isDecimal cs)) +
        exponentLength (cs.drop (runLength isDecimal cs + fractionLength (cs.drop (runLength isDecimal cs)))) := by
      simp only [decimalLength, if_neg none]
    rw [size] at fits
    rw [Nat.min_eq_left (by omega)] at whole
    rw [Nat.min_eq_left (by omega)] at fraction
    have exponent := exponentLength_begins
      (h.drop (runLength isDecimal cs + fractionLength (cs.drop (runLength isDecimal cs))))
      (by rw [List.length_drop]; omega)
    simp only [decimalLength, whole, fraction, exponent]

theorem numeralLength_begins (h : Begins cs cs') (fits : numeralLength cs ≤ cs'.length) :
    numeralLength cs' = numeralLength cs := by
  rw [numeralLength] at fits
  split_ifs at fits with plain
  · have same := hexLength_begins h (by omega)
    rw [numeralLength, numeralLength, same, if_pos plain, if_pos plain, decimalLength_begins h fits]
  · rw [numeralLength, numeralLength, hexLength_begins h fits, if_neg plain, if_neg plain]

theorem numberPiece_begins (h : Begins cs cs') (closed : ∀ what, numberPiece cs ≠ .fault what)
    (fits : (numberPiece cs).size ≤ cs'.length)
    (own : cs'.take (numberPiece cs).size = cs.take (numberPiece cs).size) : numberPiece cs' = numberPiece cs := by
  by_cases none : numeralLength cs = 0
  · exact absurd (by rw [numberPiece, if_pos none]) (closed .noNumeral)
  · have size : (numberPiece cs).size = numeralLength cs := by rw [numberPiece, if_neg none, Piece.size]
    rw [size] at fits own
    have same := numeralLength_begins h fits
    rw [numberPiece, numberPiece, same, own, if_neg none]

/-- a point alone is no numeral -/
theorem numeralLength_point_ne_one : numeralLength ('.' :: cs) ≠ 1 := by
  have noHex : hexLength ('.' :: cs) = 0 := by simp [hexLength]
  have noDigit : runLength isDecimal ('.' :: cs) = 0 := rfl
  rw [numeralLength, if_pos noHex]
  simp only [decimalLength, noDigit, List.drop_zero, Nat.zero_add, true_and]
  split_ifs <;> omega

theorem numberPiece_point_size (closed : ∀ what, numberPiece ('.' :: cs) ≠ .fault what) :
    1 < (numberPiece ('.' :: cs)).size := by
  by_cases none : numeralLength ('.' :: cs) = 0
  · exact absurd (by rw [numberPiece, if_pos none]) (closed .noNumeral)
  · have size : (numberPiece ('.' :: cs)).size = numeralLength ('.' :: cs) := by rw [numberPiece, if_neg none, Piece.size]
    have notOne := @numeralLength_point_ne_one cs
    omega

end

/-! ## Words and symbols -/

/-- a word that may be written in other letter case without standing for anything else -/
def Piece.folds (d : Dialect) : Piece → Bool
  | lexeme kind _ isQuoted _ => d.foldsUnquoted && (kind == .keyword || kind == .identifier) && !isQuoted
  | _ => false

/-- the second text has the characters of the piece at the head of the first, or the letters of a word that folds -/
def Piece.Kept (d : Dialect) (piece : Piece) (cs cs' : List Char) : Prop :=
  cs'.take piece.size = cs.take piece.size ∨ piece.folds d = true

theorem Piece.Kept.own {d : Dialect} {piece : Piece} {cs cs' : List Char} (h : piece.Kept d cs cs')
    (plain : piece.folds d = false) : cs'.take piece.size = cs.take piece.size :=
  h.resolve_right (by rw [plain]; exact Bool.false_ne_true)

theorem Piece.Kept.behind {d : Dialect} {piece : Piece} {c c' : Char} {cs cs' : List Char}
    (h : piece.Kept d (c :: cs) (c' :: cs')) (plain : piece.folds d = false) :
    cs'.take (piece.size - 1) = cs.take (piece.size - 1) := by
  have own := congrArg (List.drop 1) (h.own plain)
  rwa [List.drop_take, List.drop_take] at own

section
variable {d : Dialect}

theorem stringPiece_folds (lead : Nat) (quote : Char) (escapes : Bool) (cs : List Char) :
    (stringPiece lead quote escapes cs).folds d = false := by
  unfold stringPiece
  split <;> simp [Piece.folds]

theorem identifierPiece_folds (opening closing : Char) (cs : List Char) :
    (identifierPiece opening closing cs).folds d = false := by
  unfold identifierPiece
  split <;> simp [Piece.folds]

theorem dollarPiece_folds (cs : List Char) : (dollarPiece cs).folds d = false := by
  unfold dollarPiece
  split
  · simp [Piece.folds]
  · dsimp only
    split <;> simp [Piece.folds]

theorem numberPiece_folds (cs : List Char) : (numberPiece cs).folds d = false := by
  rw [numberPiece]
  split_ifs <;> simp [Piece.folds]

theorem isLetter_identifierQuotes {opening closing : Char} (h : d.identifierQuotes.lookup opening = some closing) :
    isLetter opening = false ∧ isLetter closing = false := by
  have quotes : ∀ pair ∈ d.identifierQuotes, isLetter pair.1 = false ∧ isLetter pair.2 = false := by cases d <;> decide
  obtain ⟨before, after, list, -⟩ := List.lookup_eq_some_iff.1 h
  exact quotes (opening, closing) (by rw [list]; simp)

theorem isLetter_stringQuotes {quote : Char} (h : d.stringQuotes.contains quote = true) : isLetter quote = false := by
  have quotes : ∀ c ∈ d.stringQuotes, isLetter c = false := by
    cases d <;> exact List.all_iff_forall_prop.1 (by decide)
  exact quotes quote (List.contains_iff_mem.1 h)

end

/-- the characters of a word behind its first -/
def wordRun (cs : List Char) : Nat := runLength (fun c => isWordChar c || c = '$') cs

/-- a letter, and behind it a text that it belongs to -/
def MarksString (c : Char) (cs : List Char) : Prop := isStringMark c = true ∧ 1 + wordRun cs = 1 ∧ cs.head? = some '\''

section
variable {d : Dialect} {c c' : Char} {cs cs' : List Char}

theorem wordPiece_marked (marked : MarksString c cs) :
    wordPiece d c cs = stringPiece 1 '\'' (c.toUpper = 'E' || d.backslashEscapes) (cs.drop 1) := by
  rw [MarksString, wordRun] at marked
  simp only [wordPiece, if_pos marked]

theorem wordPiece_plain (plain : ¬ MarksString c cs) :
    wordPiece d c cs = .lexeme (wordLexeme d (String.ofList ((c :: cs).take (1 + wordRun cs)))).1
      (wordLexeme d (String.ofList ((c :: cs).take (1 + wordRun cs)))).2 false (1 + wordRun cs) := by
  have here : wordPiece d c cs =
      if d.isKeyword (String.ofList ((c :: cs).take (1 + wordRun cs))) = true then
        .lexeme .keyword (upper (String.ofList ((c :: cs).take (1 + wordRun cs)))) false (1 + wordRun cs)
      else .lexeme .identifier (d.normalize (String.ofList ((c :: cs).take (1 + wordRun cs))) false) false
        (1 + wordRun cs) := if_neg plain
  rw [here]
  generalize String.ofList ((c :: cs).take (1 + wordRun cs)) = word
  by_cases reserved : d.isKeyword word = true
  · rw [wordLexeme, if_pos reserved, if_pos reserved]
  · rw [wordLexeme, if_neg reserved, if_neg reserved]

theorem wordLexeme_same {word word' : String} (folds : d.foldsUnquoted = true)
    (letters : SameLetters word.toList word'.toList) : wordLexeme d word' = wordLexeme d word := by
  simp only [wordLexeme, Dialect.isKeyword, Dialect.normalize, folds, upper_same letters, lower_same letters]
  rfl

theorem stringPiece_cases (lead : Nat) (quote : Char) (escapes : Bool) (cs : List Char) :
    (∃ value n, stringPiece lead quote escapes cs = .lexeme .string value false (lead + 1 + n)) ∨
      ∃ what, stringPiece lead quote escapes cs = .fault what := by
  cases inner : delimited quote escapes cs with
  | none => exact Or.inr ⟨_, by rw [stringPiece, inner]⟩
  | some r => exact Or.inl ⟨_, r.2, by rw [stringPiece, inner]⟩

theorem Begins.sameLetters_take (h : Begins cs cs') {n : Nat} (fits : n ≤ cs'.length) :
    SameLetters (cs.take n) (cs'.take n) := by
  induction h generalizing n with
  | nil =>
    obtain rfl := Nat.le_zero.1 fits
    rw [List.take_zero, List.take_zero]
    exact .nil
  | cons same _ ih =>
    cases n with
    | zero => exact .nil
    | succ n => exact .cons same (ih (Nat.le_of_succ_le_succ fits))

section
variable (same : SameLetter c c') (h : Begins cs cs')

include same h

theorem wordPiece_begins_of_marked (marked : MarksString c cs) (closed : ∀ what, wordPiece d c cs ≠ .fault what)
    (kept : (wordPiece d c cs).Kept d (c :: cs) (c' :: cs')) : wordPiece d c' cs' = wordPiece d c cs := by
  rw [wordPiece_marked marked] at closed kept ⊢
  have own := kept.own (stringPiece_folds ..)
  rcases stringPiece_cases 1 '\'' (c.toUpper = 'E' || d.backslashEscapes) (cs.drop 1) with
    ⟨value, n, piece⟩ | ⟨what, piece⟩
  · obtain ⟨mark, short, opens⟩ := marked
    obtain ⟨left, rfl⟩ := List.head?_eq_some_iff.1 opens
    rw [piece, Piece.size, Nat.add_right_comm] at own
    obtain ⟨_, first, -, own⟩ := (Begins.cons same h).own_cons own
    obtain ⟨rfl, rfl⟩ := List.cons.inj first
    rw [Nat.add_comm] at own
    obtain ⟨left', rfl, rest, own⟩ := h.own_cons own
    have marked' : MarksString c' ('\'' :: left') := ⟨mark, rfl, rfl⟩
    rw [wordPiece_marked marked']
    refine stringPiece_begins rest (by decide) closed ?_
    rw [List.drop_one, List.tail_cons] at piece
    rw [piece, Piece.size, Nat.add_sub_cancel_left]
    exact own
  · exact absurd piece (closed what)

theorem wordPiece_begins_of_plain (plain : ¬ MarksString c cs) (fits : (wordPiece d c cs).size ≤ (c' :: cs').length)
    (kept : (wordPiece d c cs).Kept d (c :: cs) (c' :: cs')) : wordPiece d c' cs' = wordPiece d c cs := by
  have marks : isStringMark c' = isStringMark c := same.blind isStringMark (by decide)
  have run : wordRun cs' = min (wordRun cs) cs'.length :=
    runLength_begins h fun _ _ same => same.blind (fun c => isWordChar c || c = '$') (by decide)
  rw [wordPiece_plain plain] at fits kept ⊢
  rw [Piece.size, List.length_cons] at fits
  rw [Nat.min_eq_left (by omega)] at run
  have plain' : ¬ MarksString c' cs' := by
    rintro ⟨mark, short, opens⟩
    exact plain ⟨marks ▸ mark, run ▸ short, h.head?_eq (by decide) opens⟩
  have lexeme : wordLexeme d (String.ofList ((c' :: cs').take (1 + wordRun cs))) =
      wordLexeme d (String.ofList ((c :: cs).take (1 + wordRun cs))) := by
    rcases kept with own | folds
    · rw [show (c' :: cs').take (1 + wordRun cs) = (c :: cs).take (1 + wordRun cs) from own]
    · have letters := (Begins.cons same h).sameLetters_take (n := 1 + wordRun cs) (by rw [List.length_cons]; omega)
      simp only [Piece.folds, Bool.and_eq_true] at folds
      exact wordLexeme_same folds.1.1 (by rwa [String.toList_ofList, String.toList_ofList])
  rw [wordPiece_plain plain', run, lexeme]

theorem wordPiece_begins (closed : ∀ what, wordPiece d c cs ≠ .fault what)
    (fits : (wordPiece d c cs).size ≤ (c' :: cs').length) (kept : (wordPiece d c cs).Kept d (c :: cs) (c' :: cs')) :
    wordPiece d c' cs' = wordPiece d c cs := by
  by_cases marked : MarksString c cs
  · exact wordPiece_begins_of_marked same h marked closed kept
  · exact wordPiece_begins_of_plain same h marked fits kept

theorem symbolPiece_begins (plain : isLetter c = false) (fits : (symbolPiece c cs).size ≤ (c' :: cs').length) :
    symbolPiece c' cs' = symbolPiece c cs := by
  obtain rfl := same.eq plain
  have listed : ∀ op ∈ operators, op.toList.all (isLetter · = false) = true := by decide
  have marks : ∀ op ∈ operators, ∀ x ∈ op.toList, isLetter x = false := fun op mem =>
    List.all_iff_forall_prop.1 (listed op mem)
  have longer : ∀ op ∈ operators, op.toList.isPrefixOf (c' :: cs') = true → op.toList.isPrefixOf (c' :: cs) = true :=
    fun op listed => isPrefixOf_of_begins (.cons same h) (marks op listed)
  cases found : operators.find? fun op => op.toList.isPrefixOf (c' :: cs) with
  | none =>
    have none' : (operators.find? fun op => op.toList.isPrefixOf (c' :: cs')) = none :=
      List.find?_eq_none.2 fun op listed here => List.find?_eq_none.1 found op listed (longer op listed here)
    rw [symbolPiece, symbolPiece, found, none']
  | some op =>
    obtain ⟨here, before, behind, list, tried⟩ := List.find?_eq_some_iff_append.1 found
    have listed : op ∈ operators := List.mem_of_find?_eq_some found
    have size : (symbolPiece c' cs).size = op.toList.length := by
      rw [symbolPiece, found, Piece.size, String.length_toList]
    have found' : (operators.find? fun op => op.toList.isPrefixOf (c' :: cs')) = some op := by
      refine List.find?_eq_some_iff_append.2 ⟨?_, before, behind, list, fun op' first => ?_⟩
      · rwa [isPrefixOf_begins (.cons same h) (marks op listed) (size ▸ fits)]
      · have other := tried op' first
        rw [Bool.not_eq_true', Bool.eq_false_iff] at other ⊢
        exact mt (longer op' (by rw [list]; exact List.mem_append_left _ first)) other
    rw [symbolPiece, symbolPiece, found, found']

/-- a point begins a number in the shorter text if the digit behind it is there -/
theorem startsNumber_begins (inside : c = '.' → startsNumber c cs = true → cs' ≠ []) :
    startsNumber c' cs' = startsNumber c cs := by
  have point : c' = '.' ↔ c = '.' := same.eq_iff (by decide)
  simp only [startsNumber, same.isDigit, point] at inside ⊢
  cases h with
  | nil =>
    by_cases here : c = '.'
    · simp only [here, decide_true, Bool.true_and, not_true_eq_false, ne_eq, imp_false, Bool.or_eq_true, not_or,
        Bool.not_eq_true, true_imp_iff] at inside ⊢
      simp [inside.2]
    · simp [here]
  | cons digit _ => simp only [List.head?_cons, Option.map_some, digit.isDigit]

theorem lexemePiece_begins (closed : ∀ what, lexemePiece d c cs ≠ .fault what)
    (fits : (lexemePiece d c cs).size ≤ (c' :: cs').length)
    (kept : (lexemePiece d c cs).Kept d (c :: cs) (c' :: cs')) : lexemePiece d c' cs' = lexemePiece d c cs := by
  have names : d.identifierQuotes.lookup c' = d.identifierQuotes.lookup c :=
    same.blind (d.identifierQuotes.lookup ·) (by cases d <;> decide)
  have texts : d.stringQuotes.contains c' = d.stringQuotes.contains c :=
    same.blind (d.stringQuotes.contains ·) (by cases d <;> decide)
  have dollar : c' = '$' ↔ c = '$' := same.eq_iff (by decide)
  have start : (isLetter c' || decide (c' = '_')) = (isLetter c || decide (c = '_')) :=
    same.blind (fun c => isLetter c || decide (c = '_')) (by decide)
  cases quotes : d.identifierQuotes.lookup c with
  | some closing =>
    simp only [lexemePiece, names, quotes] at closed kept ⊢
    obtain ⟨opening, closing⟩ := isLetter_identifierQuotes quotes
    obtain rfl := same.eq opening
    exact identifierPiece_begins h closing closed (kept.behind (identifierPiece_folds ..))
  | none =>
    simp only [lexemePiece, quotes] at closed fits kept
    simp only [lexemePiece, names, quotes, texts, dollar]
    split_ifs at closed fits kept with text marked number word
    · have plain := isLetter_stringQuotes text
      obtain rfl := same.eq plain
      rw [if_pos text, if_pos text]
      exact stringPiece_begins h plain closed (kept.behind (stringPiece_folds ..))
    · rw [if_neg text, if_neg text, if_pos marked, if_pos marked]
      exact dollarPiece_begins h closed (kept.behind (dollarPiece_folds ..))
    · have number' : startsNumber c' cs' = true := by
        rw [startsNumber_begins same h, number]
        rintro rfl _ rfl
        exact Nat.not_lt_of_le fits (numberPiece_point_size closed)
      rw [if_neg text, if_neg text, if_neg marked, if_neg marked, if_pos number, if_pos number']
      exact numberPiece_begins (.cons same h) closed fits (kept.own (numberPiece_folds _))
    all_goals
      have number' : ¬ startsNumber c' cs' = true := by
        rwa [startsNumber_begins same h fun _ starts => absurd starts number]
      rw [if_neg text, if_neg text, if_neg marked, if_neg marked, if_neg number, if_neg number', start]
    · rw [if_pos word, if_pos word]
      exact wordPiece_begins same h closed fits kept
    · rw [if_neg word, if_neg word]
      rw [Bool.or_eq_true, not_or, Bool.not_eq_true] at word
      exact symbolPiece_begins same h word.1 fits

end

/-! ## White space and comments -/

theorem lineLength_begins (h : Begins cs cs') : lineLength cs' = min (lineLength cs) cs'.length := by
  induction h with
  | nil => simp [lineLength]
  | @cons c c' cs cs' same _ ih =>
    simp only [lineLength, same.eq_iff (show isLetter '\n' = false by decide), List.length_cons, ih]
    split_ifs <;> omega

theorem triviaPiece?_ne_lexeme (c : Char) (cs : List Char) (kind : TokenKind) (value : String) (q : Bool) (n : Nat) :
    triviaPiece? d c cs ≠ some (.lexeme kind value q n) := by
  rw [triviaPiece?]
  split_ifs
  · simp
  · simp
  · split <;> simp
  · simp

section
variable (same : SameLetter c c') (h : Begins cs cs')

include same h

theorem triviaPiece?_begins {n : Nat} (found : triviaPiece? d c cs = some (.trivia n))
    (fits : n ≤ (c' :: cs').length) : triviaPiece? d c' cs' = some (.trivia n) := by
  have dash : c' = '-' ↔ c = '-' := same.eq_iff (by decide)
  have hash : c' = '#' ↔ c = '#' := same.eq_iff (by decide)
  have slash : c' = '/' ↔ c = '/' := same.eq_iff (by decide)
  simp only [triviaPiece?, same.isBlank, dash, hash, slash] at found ⊢
  split_ifs at found with blank line block
  · rw [if_pos blank, found]
  · have size : lineLength (c :: cs) = n := Piece.trivia.inj (Option.some.inj found)
    have line' : (c = '-' ∧ cs'.head? = some '-') ∨ (c = '#' ∧ d.hashComments = true) := by
      refine line.imp_left fun marks => ⟨marks.1, h.head?_eq_of_pos (by decide) ?_ marks.2⟩
      -- the comment has both marks, so the shorter text goes on behind the first
      obtain ⟨first, next⟩ := marks
      obtain ⟨left, rfl⟩ := List.head?_eq_some_iff.1 next
      simp only [lineLength, first, show ('-' = '\n') = False by decide, if_false] at size
      rw [List.length_cons] at fits
      omega
    have size' := lineLength_begins (.cons same h)
    rw [size, Nat.min_eq_left fits] at size'
    rw [if_neg blank, if_pos line', size']
  · cases closes : findFirst? ['*', '/'] (cs.drop 1) with
    | none => simp only [closes, Option.some.injEq, reduceCtorEq] at found
    | some size =>
      simp only [closes, Option.some.injEq, Piece.trivia.injEq] at found
      rw [List.length_cons] at fits
      have line' : ¬ ((c = '-' ∧ cs'.head? = some '-') ∨ (c = '#' ∧ d.hashComments = true)) :=
        mt (Or.imp_left (And.imp_right (h.head?_eq (by decide)))) line
      have block' : c = '/' ∧ cs'.head? = some '*' :=
        ⟨block.1, h.head?_eq_of_pos (by decide) (by omega) block.2⟩
      have closes' : findFirst? ['*', '/'] (cs'.drop 1) = some size := by
        refine findFirst?_begins (h.drop 1) (List.all_iff_forall_prop.1 (by decide)) (List.cons_ne_nil _ _) closes ?_
        simp only [List.length_drop, List.length_cons, List.length_nil]
        omega
      simp only [if_neg blank, if_neg line', if_pos block', closes', found]

theorem triviaPiece?_begins_none (lexeme : triviaPiece? d c cs = none) : triviaPiece? d c' cs' = none := by
  have dash : c' = '-' ↔ c = '-' := same.eq_iff (by decide)
  have hash : c' = '#' ↔ c = '#' := same.eq_iff (by decide)
  have slash : c' = '/' ↔ c = '/' := same.eq_iff (by decide)
  simp only [triviaPiece?, same.isBlank, dash, hash, slash] at lexeme ⊢
  split_ifs at lexeme with blank line block
  · split at lexeme <;> contradiction
  · rw [if_neg blank, if_neg (mt (Or.imp_left (And.imp_right (h.head?_eq (by decide)))) line),
      if_neg (mt (And.imp_right (h.head?_eq (by decide))) block)]

end

/-- A piece is the same in a text that has its characters and, as far as it goes on behind them, goes on with the same
letters. A word that folds may be written in other letters itself. -/
theorem pieceAt_begins (h : Begins (c :: cs) (c' :: cs')) (closed : ∀ what, pieceAt d c cs ≠ .fault what)
    (fits : (pieceAt d c cs).size ≤ (c' :: cs').length)
    (kept : (∃ n, pieceAt d c cs = .trivia n) ∨ (pieceAt d c cs).Kept d (c :: cs) (c' :: cs')) :
    pieceAt d c' cs' = pieceAt d c cs := by
  cases h with
  | cons same rest =>
    cases blank : triviaPiece? d c cs with
    | none =>
      have here : pieceAt d c cs = lexemePiece d c cs := by rw [pieceAt, blank, Option.getD_none]
      have filled := @lexemePiece_filled d c cs
      rw [here] at closed fits kept ⊢
      rw [pieceAt, triviaPiece?_begins_none same rest blank, Option.getD_none]
      refine lexemePiece_begins same rest closed fits (kept.resolve_left ?_)
      rintro ⟨n, trivia⟩
      rw [trivia] at filled
      exact filled
    | some piece =>
      have here : pieceAt d c cs = piece := by rw [pieceAt, blank, Option.getD_some]
      rw [here] at closed fits ⊢
      cases piece with
      | trivia n => rw [pieceAt, triviaPiece?_begins same rest blank fits, Option.getD_some]
      | lexeme kind value q n => exact absurd blank (triviaPiece?_ne_lexeme c cs kind value q n)
      | fault what => exact absurd rfl (closed what)

end

end SchemaApi
