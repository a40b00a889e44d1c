import SchemaApi.Proofs.Token.Shift
import Mathlib.Data.List.Find
import Mathlib.Tactic.SplitIfs
/-!
Pieces of a text before a line end.

What stands at the head of a text is the same when a line end and more text follow, unless the text breaks
off in it. Only a comment up to the end of its line takes one character more, the line end itself.
-/

namespace SchemaApi

open Text

/-! ## Runs and prefixes -/

theorem runLength_le (p : Char → Bool) (cs : List Char) : runLength p cs ≤ cs.length :=
  (List.takeWhile_prefix p).length_le

section
variable {d : Dialect} {cs rest : List Char}

theorem runLength_append {p : Char → Bool} (h : p '\n' = false) :
    runLength p (cs ++ '\n' :: rest) = runLength p cs := by
  induction cs with
  | nil => simp [runLength, h]
  | cons c cs ih =>
    cases hc : p c with
    | false => simp [runLength, hc]
    | true =>
      simp only [runLength] at ih
      simp [runLength, hc, ih]

theorem head?_append {x : Char} (h : x ≠ '\n') : (cs ++ '\n' :: rest).head? = some x ↔ cs.head? = some x := by
  cases cs with
  | nil => simp [h.symm]
  | cons c cs => rfl

theorem length_pos_of_head? {x : Char} (h : cs.head? = some x) : 0 < cs.length :=
  List.length_pos_iff.2 fun empty => by rw [empty] at h; contradiction

theorem isPrefixOf_append {part : List Char} (h : '\n' ∉ part) :
    part.isPrefixOf (cs ++ '\n' :: rest) = part.isPrefixOf cs := by
  induction part generalizing cs with
  | nil => simp
  | cons x part ih =>
    have inside : '\n' ∉ part := fun hp => h (List.mem_cons_of_mem _ hp)
    have first : x ≠ '\n' := fun e => h (e ▸ List.mem_cons_self)
    cases cs with
    | nil => simp [List.isPrefixOf, first]
    | cons c cs => simp [List.isPrefixOf, ih inside]

theorem findFirst?_append {part : List Char} {n : Nat} (found : findFirst? part cs = some n)
    (behind : List Char) (filled : part ≠ []) : findFirst? part (cs ++ behind) = some n := by
  induction cs generalizing n with
  | nil => simp [findFirst?, filled] at found
  | cons c cs ih =>
    simp only [findFirst?] at found
    rw [List.cons_append, findFirst?]
    split_ifs at found with here
    · have longer := List.isPrefixOf_iff_prefix.2
        ((List.isPrefixOf_iff_prefix.1 here).trans (List.prefix_append (c :: cs) behind))
      rw [List.cons_append] at longer
      rw [if_pos longer]
      exact found
    · obtain ⟨m, hm, rfl⟩ := Option.map_eq_some_iff.1 found
      -- the occurrence lies in the text, so none can begin before it and reach over the end
      have fits := add_length_le_of_findFirst? hm filled
      have short : part.length ≤ (c :: cs).length := by rw [List.length_cons]; omega
      have later : ¬ part.isPrefixOf (c :: (cs ++ behind)) = true := by
        intro across
        refine here (List.isPrefixOf_iff_prefix.2 ?_)
        exact List.prefix_of_prefix_length_le (List.isPrefixOf_iff_prefix.1 across)
          (List.prefix_append (c :: cs) behind) short
      rw [if_neg later, ih hm]
      rfl

/-! ## Delimited texts -/

theorem delimited_append {closing : Char} {escapes : Bool} {r : List Char × Nat} (plain : closing ≠ '\\')
    (inLine : closing ≠ '\n') (h : delimited closing escapes cs = some r) :
    delimited closing escapes (cs ++ '\n' :: rest) = some r := by
  fun_induction delimited closing escapes cs generalizing r with
  | case1 => contradiction
  | case2 =>
    rw [List.singleton_append, delimited, if_neg (fun h => plain h.2), if_pos rfl, if_neg inLine.symm]
    exact h
  | case3 => contradiction
  | case4 c d left escaped ih =>
    obtain ⟨_, inner, rfl⟩ := Option.map_eq_some_iff.1 h
    rw [List.cons_append, List.cons_append, delimited, if_pos escaped, ih inner]
    rfl
  | case5 left notEscaped ih =>
    obtain ⟨_, inner, rfl⟩ := Option.map_eq_some_iff.1 h
    rw [List.cons_append, List.cons_append, delimited, if_neg notEscaped, if_pos rfl, if_pos rfl, ih inner]
    rfl
  | case6 d left single notEscaped =>
    rw [List.cons_append, List.cons_append, delimited, if_neg notEscaped, if_pos rfl, if_neg single]
    exact h
  | case7 c d left notEscaped goesOn ih =>
    obtain ⟨_, inner, rfl⟩ := Option.map_eq_some_iff.1 h
    have inner := ih inner
    rw [List.cons_append] at inner
    rw [List.cons_append, List.cons_append, delimited, if_neg notEscaped, if_neg goesOn, inner]
    rfl

theorem delimited_le {closing : Char} {escapes : Bool} {r : List Char × Nat}
    (h : delimited closing escapes cs = some r) : r.2 ≤ cs.length := by
  fun_induction delimited closing escapes cs generalizing r with
  | case1 => contradiction
  | case2 => obtain rfl := Option.some.inj h; exact Nat.le_refl 1
  | case3 => contradiction
  | case4 c d left _ ih =>
    obtain ⟨_, inner, rfl⟩ := Option.map_eq_some_iff.1 h
    exact Nat.add_le_add_right (ih inner) 2
  | case5 left _ ih =>
    obtain ⟨_, inner, rfl⟩ := Option.map_eq_some_iff.1 h
    exact Nat.add_le_add_right (ih inner) 2
  | case6 d left =>
    obtain rfl := Option.some.inj h
    exact Nat.le_add_left 1 (left.length + 1)
  | case7 c d left _ _ ih =>
    obtain ⟨_, inner, rfl⟩ := Option.map_eq_some_iff.1 h
    exact Nat.add_le_add_right (ih inner) 1

/-! ## Pieces -/

/-- how many characters a piece takes -/
def Piece.size : Piece → Nat
  | trivia size => size
  | lexeme _ _ _ size => size
  | fault _ => 0

theorem stringPiece_append {lead : Nat} {quote : Char} {escapes : Bool} (plain : quote ≠ '\\')
    (inLine : quote ≠ '\n') (closed : ∀ what, stringPiece lead quote escapes cs ≠ .fault what) :
    stringPiece lead quote escapes (cs ++ '\n' :: rest) = stringPiece lead quote escapes cs := by
  cases inner : delimited quote escapes cs with
  | none =>
    have broken : stringPiece lead quote escapes cs = .fault (.unterminated .string (String.singleton quote)) := by
      rw [stringPiece, inner]
    exact absurd broken (closed _)
  | some r => rw [stringPiece, stringPiece, inner, delimited_append plain inLine inner]

theorem stringPiece_le {lead : Nat} {quote : Char} {escapes : Bool} :
    (stringPiece lead quote escapes cs).size ≤ lead + 1 + cs.length := by
  cases inner : delimited quote escapes cs with
  | none => simp [stringPiece, inner, Piece.size]
  | some r =>
    have fits := delimited_le inner
    simp only [stringPiece, inner, Piece.size]
    omega

theorem identifierPiece_append {opening closing : Char} (plain : closing ≠ '\\') (inLine : closing ≠ '\n')
    (closed : ∀ what, identifierPiece opening closing cs ≠ .fault what) :
    identifierPiece opening closing (cs ++ '\n' :: rest) = identifierPiece opening closing cs := by
  cases inner : delimited closing false cs with
  | none =>
    have broken : identifierPiece opening closing cs =
        .fault (.unterminated .quotedIdentifier (String.singleton opening)) := by
      rw [identifierPiece, inner]
    exact absurd broken (closed _)
  | some r => rw [identifierPiece, identifierPiece, inner, delimited_append plain inLine inner]

theorem identifierPiece_le {opening closing : Char} :
    (identifierPiece opening closing cs).size ≤ 1 + cs.length := by
  cases inner : delimited closing false cs with
  | none => simp [identifierPiece, inner, Piece.size]
  | some r =>
    have fits := delimited_le inner
    simp only [identifierPiece, inner, Piece.size]
    omega

theorem dollarTag?_le {n : Nat} (h : dollarTag? cs = some n) : n < cs.length := by
  cases cs with
  | nil => simp [dollarTag?] at h
  | cons c cs =>
    simp only [dollarTag?] at h
    split_ifs at h with _ _ closes
    · obtain rfl := Option.some.inj h
      exact Nat.succ_pos _
    · obtain rfl := Option.some.inj h
      have filled := length_pos_of_head? closes
      rw [List.length_drop] at filled
      rw [List.length_cons]
      omega

theorem dollarTag?_append : dollarTag? (cs ++ '\n' :: rest) = dollarTag? cs := by
  cases cs with
  | nil =>
    have noWord : isWordStart '\n' = false := by decide
    simp [dollarTag?, noWord]
  | cons c cs =>
    have word : runLength isWordChar (cs ++ '\n' :: rest) = runLength isWordChar cs := runLength_append (by decide)
    have inside : 1 + runLength isWordChar cs - 1 ≤ cs.length := by
      have := runLength_le isWordChar cs
      omega
    simp only [List.cons_append, dollarTag?, word, List.drop_append_of_le_length inside,
      head?_append (show '$' ≠ '\n' by decide)]

theorem dollarPiece_append (closed : ∀ what, dollarPiece cs ≠ .fault what) :
    dollarPiece (cs ++ '\n' :: rest) = dollarPiece cs := by
  cases tagged : dollarTag? cs with
  | none => rw [dollarPiece, dollarPiece, dollarTag?_append, tagged]
  | some n =>
    have inside : n + 1 ≤ cs.length := dollarTag?_le tagged
    cases found : findFirst? ('$' :: cs.take (n + 1)) (cs.drop (n + 1)) with
    | none =>
      have broken : dollarPiece cs =
          .fault (.unterminated .dollarString (String.ofList ('$' :: cs.take (n + 1)))) := by
        simp only [dollarPiece, tagged, found]
      exact absurd broken (closed _)
    | some size =>
      have fits := add_length_le_of_findFirst? found (List.cons_ne_nil _ _)
      have within : size ≤ (cs.drop (n + 1)).length := by omega
      simp only [dollarPiece, dollarTag?_append, tagged, List.take_append_of_le_length inside,
        List.drop_append_of_le_length inside, found, List.take_append_of_le_length within,
        findFirst?_append found _ (List.cons_ne_nil _ _)]

theorem dollarPiece_le : (dollarPiece cs).size ≤ 1 + cs.length := by
  cases tagged : dollarTag? cs with
  | none => simp [dollarPiece, tagged, Piece.size]
  | some n =>
    have inside := dollarTag?_le tagged
    cases found : findFirst? ('$' :: cs.take (n + 1)) (cs.drop (n + 1)) with
    | none => simp [dollarPiece, tagged, found, Piece.size]
    | some size =>
      have fits := add_length_le_of_findFirst? found (List.cons_ne_nil _ _)
      simp only [List.length_cons, List.length_take, List.length_drop] at fits
      simp only [dollarPiece, tagged, found, Piece.size]
      omega

/-! ## Numerals -/

theorem exponentLength_append : exponentLength (cs ++ '\n' :: rest) = exponentLength cs := by
  have noDigit : runLength isDecimal ('\n' :: rest) = 0 := rfl
  rcases cs with - | ⟨e, - | ⟨sign, left⟩⟩
  · cases rest <;> simp [exponentLength]
  · simp [exponentLength, noDigit]
  · have same : runLength isDecimal (left ++ '\n' :: rest) = runLength isDecimal left := runLength_append rfl
    have signed : runLength isDecimal (sign :: left ++ '\n' :: rest) = runLength isDecimal (sign :: left) :=
      runLength_append rfl
    rw [List.cons_append] at signed
    simp only [List.cons_append, exponentLength, same, signed]

theorem exponentLength_le : exponentLength cs ≤ cs.length := by
  rcases cs with - | ⟨e, - | ⟨sign, left⟩⟩
  · exact Nat.le_refl 0
  · exact Nat.zero_le 1
  · have digits := runLength_le isDecimal left
    have all := runLength_le isDecimal (sign :: left)
    simp only [exponentLength, List.length_cons] at all ⊢
    split_ifs <;> omega

theorem fractionLength_append : fractionLength (cs ++ '\n' :: rest) = fractionLength cs := by
  cases cs with
  | nil => simp [fractionLength]
  | cons c left =>
    have same : runLength isDecimal (left ++ '\n' :: rest) = runLength isDecimal left := runLength_append rfl
    by_cases point : c = '.'
    · subst point
      simp [fractionLength, same]
    · simp [fractionLength, point]

theorem fractionLength_le : fractionLength cs ≤ cs.length := by
  cases cs with
  | nil => exact Nat.le_refl 0
  | cons c left =>
    have digits := runLength_le isDecimal left
    by_cases point : c = '.'
    · subst point
      simp only [fractionLength, List.length_cons]
      omega
    · simp [fractionLength, point]

theorem hexLength_append : hexLength (cs ++ '\n' :: rest) = hexLength cs := by
  rcases cs with - | ⟨zero, - | ⟨x, left⟩⟩
  · simp [hexLength]
  · by_cases h : zero = '0'
    · subst h; simp [hexLength]
    · simp [hexLength, h]
  · have same : runLength isHexDigit (left ++ '\n' :: rest) = runLength isHexDigit left := runLength_append rfl
    by_cases h : zero = '0'
    · subst h; simp [hexLength, same]
    · simp [hexLength, h]

theorem hexLength_le : hexLength cs ≤ cs.length := by
  rcases cs with - | ⟨zero, - | ⟨x, left⟩⟩
  · exact Nat.le_refl 0
  · simp [hexLength]
  · have digits := runLength_le isHexDigit left
    by_cases h : zero = '0'
    · subst h
      simp only [hexLength, List.length_cons]
      split_ifs <;> omega
    · simp [hexLength, h]

theorem decimalLength_append : decimalLength (cs ++ '\n' :: rest) = decimalLength cs := by
  have whole : runLength isDecimal (cs ++ '\n' :: rest) = runLength isDecimal cs := runLength_append rfl
  have inside := runLength_le isDecimal cs
  have fraction := @fractionLength_le (cs.drop (runLength isDecimal cs))
  rw [List.length_drop] at fraction
  simp only [decimalLength, whole, List.drop_append_of_le_length inside, fractionLength_append]
  rw [List.drop_append_of_le_length (by omega), exponentLength_append]

theorem decimalLength_le : decimalLength cs ≤ cs.length := by
  have whole := runLength_le isDecimal cs
  have fraction := @fractionLength_le (cs.drop (runLength isDecimal cs))
  have exponent := @exponentLength_le
    (cs.drop (runLength isDecimal cs + fractionLength (cs.drop (runLength isDecimal cs))))
  rw [List.length_drop] at fraction exponent
  simp only [decimalLength]
  split_ifs
  · exact Nat.zero_le _
  · omega

theorem numeralLength_append : numeralLength (cs ++ '\n' :: rest) = numeralLength cs := by
  rw [numeralLength, numeralLength, hexLength_append, decimalLength_append]

theorem numeralLength_le : numeralLength cs ≤ cs.length := by
  rw [numeralLength]
  split_ifs
  · exact decimalLength_le
  · exact hexLength_le

theorem numberPiece_append : numberPiece (cs ++ '\n' :: rest) = numberPiece cs := by
  rw [numberPiece, numberPiece, numeralLength_append, List.take_append_of_le_length numeralLength_le]

theorem numberPiece_le : (numberPiece cs).size ≤ cs.length := by
  rw [numberPiece]
  split_ifs
  · exact Nat.zero_le _
  · exact numeralLength_le

/-! ## Words, symbols and comments -/

theorem plain_stringQuotes {c : Char} (h : d.stringQuotes.contains c = true) : c ≠ '\\' ∧ c ≠ '\n' := by
  have quotes : d.stringQuotes.all (fun c => c ≠ '\\' ∧ c ≠ '\n') = true := by cases d <;> rfl
  exact of_decide_eq_true (List.all_eq_true.1 quotes c (List.contains_iff_mem.1 h))

theorem plain_identifierQuotes {c closing : Char} (h : d.identifierQuotes.lookup c = some closing) :
    closing ≠ '\\' ∧ closing ≠ '\n' := by
  have quotes : ∀ pair ∈ d.identifierQuotes, pair.2 ≠ '\\' ∧ pair.2 ≠ '\n' := by cases d <;> decide
  obtain ⟨before, after, list, -⟩ := List.lookup_eq_some_iff.1 h
  exact quotes (c, closing) (by rw [list]; simp)

theorem wordPiece_append {c : Char} (closed : ∀ what, wordPiece d c cs ≠ .fault what) :
    wordPiece d c (cs ++ '\n' :: rest) = wordPiece d c cs := by
  have run : runLength (fun c => isWordChar c || c = '$') (cs ++ '\n' :: rest) =
      runLength (fun c => isWordChar c || c = '$') cs := runLength_append (by decide)
  have inside := runLength_le (fun c => isWordChar c || c = '$') cs
  have word : (c :: (cs ++ '\n' :: rest)).take (1 + runLength (fun c => isWordChar c || c = '$') cs) =
      (c :: cs).take (1 + runLength (fun c => isWordChar c || c = '$') cs) := by
    rw [← List.cons_append, List.take_append_of_le_length]
    rw [List.length_cons]; omega
  have quote : '\'' ≠ '\n' := by decide
  simp only [wordPiece, run, word, head?_append quote] at closed ⊢
  split_ifs at closed ⊢ with marked
  · obtain ⟨-, -, opens⟩ := marked
    have filled := length_pos_of_head? opens
    rw [List.drop_append_of_le_length filled]
    exact stringPiece_append (by decide) quote closed
  · rfl
  · rfl

theorem wordPiece_le {c : Char} : (wordPiece d c cs).size ≤ 1 + cs.length := by
  have inside := runLength_le (fun c => isWordChar c || c = '$') cs
  simp only [wordPiece]
  split_ifs with marked
  · have fits := @stringPiece_le (cs.drop 1) 1 '\'' (c.toUpper = 'E' || d.backslashEscapes)
    have filled := length_pos_of_head? marked.2.2
    rw [List.length_drop] at fits
    omega
  · simp only [Piece.size]; omega
  · simp only [Piece.size]; omega

theorem symbolPiece_append {c : Char} : symbolPiece c (cs ++ '\n' :: rest) = symbolPiece c cs := by
  have inLine : ∀ op ∈ operators, '\n' ∉ op.toList := by decide
  have same : operators.find? (fun op => op.toList.isPrefixOf (c :: (cs ++ '\n' :: rest))) =
      operators.find? fun op => op.toList.isPrefixOf (c :: cs) := by
    refine List.find?_congr fun op hop => ?_
    rw [← List.cons_append, isPrefixOf_append (inLine op hop)]
  rw [symbolPiece, symbolPiece, same]

theorem symbolPiece_le {c : Char} : (symbolPiece c cs).size ≤ 1 + cs.length := by
  cases found : operators.find? fun op => op.toList.isPrefixOf (c :: cs) with
  | none => simp [symbolPiece, found, Piece.size]
  | some op =>
    have here : op.toList.isPrefixOf (c :: cs) = true := @List.find?_some _ _ op _ found
    have fits := (List.isPrefixOf_iff_prefix.1 here).length_le
    rw [String.length_toList, List.length_cons] at fits
    simp only [symbolPiece, found, Piece.size]
    omega

theorem startsNumber_append {c : Char} : startsNumber c (cs ++ '\n' :: rest) = startsNumber c cs := by
  cases cs with
  | nil => simp [startsNumber, show isDigit '\n' = false by decide]
  | cons _ _ => rfl

theorem lexemePiece_append {c : Char} (closed : ∀ what, lexemePiece d c cs ≠ .fault what) :
    lexemePiece d c (cs ++ '\n' :: rest) = lexemePiece d c cs := by
  cases quotes : d.identifierQuotes.lookup c with
  | some closing =>
    simp only [lexemePiece, quotes] at closed ⊢
    obtain ⟨plain, inLine⟩ := plain_identifierQuotes quotes
    exact identifierPiece_append plain inLine closed
  | none =>
    simp only [lexemePiece, quotes, startsNumber_append] at closed ⊢
    split_ifs at closed ⊢ with string _ _ _
    · obtain ⟨plain, inLine⟩ := plain_stringQuotes string
      exact stringPiece_append plain inLine closed
    · exact dollarPiece_append closed
    · exact @numberPiece_append (c :: cs) rest
    · exact wordPiece_append closed
    · exact symbolPiece_append

theorem lexemePiece_le {c : Char} : (lexemePiece d c cs).size ≤ 1 + cs.length := by
  cases quotes : d.identifierQuotes.lookup c with
  | some closing =>
    simp only [lexemePiece, quotes]
    exact identifierPiece_le
  | none =>
    simp only [lexemePiece, quotes]
    split_ifs
    · simpa using @stringPiece_le cs 0 c d.backslashEscapes
    · exact dollarPiece_le
    · simpa [Nat.add_comm] using @numberPiece_le (c :: cs)
    · exact wordPiece_le
    · exact symbolPiece_le

theorem lineLength_append :
    lineLength (cs ++ '\n' :: rest) = lineLength cs ∨
      lineLength cs = cs.length ∧ lineLength (cs ++ '\n' :: rest) = cs.length + 1 := by
  induction cs with
  | nil => exact Or.inr ⟨rfl, by simp [lineLength]⟩
  | cons c cs ih =>
    by_cases ends : c = '\n'
    · exact Or.inl (by simp [lineLength, ends])
    · simp only [List.cons_append, lineLength, if_neg ends, List.length_cons]
      rcases ih with same | ⟨whole, longer⟩
      · exact Or.inl (by rw [same])
      · exact Or.inr ⟨by omega, by omega⟩

theorem lineLength_le : lineLength cs ≤ cs.length := by
  induction cs with
  | nil => exact Nat.le_refl 0
  | cons c cs ih =>
    simp only [lineLength, List.length_cons]
    split_ifs <;> omega

/-- only a comment reaches to a line end behind a text, and takes it too -/
theorem triviaPiece?_append {c : Char} (closed : ∀ what, triviaPiece? d c cs ≠ some (.fault what)) :
    triviaPiece? d c (cs ++ '\n' :: rest) = triviaPiece? d c cs ∨
      triviaPiece? d c cs = some (.trivia (cs.length + 1)) ∧
        triviaPiece? d c (cs ++ '\n' :: rest) = some (.trivia (cs.length + 2)) := by
  have dash : '-' ≠ '\n' := by decide
  have star : '*' ≠ '\n' := by decide
  simp only [triviaPiece?, head?_append dash, head?_append star] at closed ⊢
  split_ifs at closed ⊢ with _ _ opens
  · exact Or.inl rfl
  · have line := @lineLength_append (c :: cs) rest
    rw [List.cons_append] at line
    rcases line with same | ⟨whole, longer⟩
    · exact Or.inl (by rw [same])
    · exact Or.inr ⟨by rw [whole, List.length_cons], by rw [longer, List.length_cons]⟩
  · have filled := length_pos_of_head? opens.2
    rw [List.drop_append_of_le_length filled]
    cases found : findFirst? ['*', '/'] (cs.drop 1) with
    | none => exact absurd (by simp only [found]) (closed (.unterminated .blockComment "/*"))
    | some size =>
      have same := findFirst?_append found ('\n' :: rest) (List.cons_ne_nil _ _)
      exact Or.inl (by rw [same])
  · exact Or.inl rfl

theorem triviaPiece?_le {c : Char} {piece : Piece} (h : triviaPiece? d c cs = some piece) :
    piece.size ≤ cs.length + 1 := by
  simp only [triviaPiece?] at h
  split_ifs at h with _ _ opens
  · obtain rfl := Option.some.inj h
    exact Nat.le_add_left 1 _
  · obtain rfl := Option.some.inj h
    exact @lineLength_le (c :: cs)
  · cases found : findFirst? ['*', '/'] (cs.drop 1) with
    | none =>
      simp only [found, Option.some.injEq] at h
      subst h
      exact Nat.zero_le _
    | some size =>
      have fits := add_length_le_of_findFirst? found (List.cons_ne_nil _ _)
      have filled := length_pos_of_head? opens.2
      simp only [found, Option.some.injEq] at h
      subst h
      simp only [List.length_drop, List.length_cons, List.length_nil] at fits
      simp only [Piece.size]
      omega

theorem pieceAt_append {c : Char} (closed : ∀ what, pieceAt d c cs ≠ .fault what) :
    pieceAt d c (cs ++ '\n' :: rest) = pieceAt d c cs ∨
      pieceAt d c cs = .trivia (cs.length + 1) ∧
        pieceAt d c (cs ++ '\n' :: rest) = .trivia (cs.length + 2) := by
  cases blank : triviaPiece? d c cs with
  | none =>
    have same := @triviaPiece?_append d cs rest c (by simp [blank])
    simp only [blank, reduceCtorEq, false_and, or_false] at same
    simp only [pieceAt, blank, same, Option.getD_none] at closed ⊢
    exact Or.inl (lexemePiece_append closed)
  | some piece =>
    simp only [pieceAt, blank, Option.getD_some] at closed ⊢
    have same := @triviaPiece?_append d cs rest c (by simpa [blank] using closed)
    rw [blank] at same
    rcases same with same | ⟨whole, longer⟩
    · exact Or.inl (by rw [same]; rfl)
    · exact Or.inr ⟨Option.some.inj whole, by rw [longer]; rfl⟩

theorem pieceAt_le {c : Char} : (pieceAt d c cs).size ≤ cs.length + 1 := by
  cases blank : triviaPiece? d c cs with
  | none =>
    rw [pieceAt, blank, Option.getD_none, Nat.add_comm]
    exact lexemePiece_le
  | some piece =>
    rw [pieceAt, blank, Option.getD_some]
    exact triviaPiece?_le blank

/-! ## Scanning -/

/-- characters that belong to the piece before are passed over -/
theorem scanFrom_skip (n : Nat) (p : Position) (more : List Char) :
    scanFrom d (cs.length + n) p (cs ++ more) = scanFrom d n (p.after cs) more := by
  induction cs generalizing p with
  | nil => rw [List.length_nil, Nat.zero_add]; rfl
  | cons c cs ih =>
    rw [List.length_cons, Nat.add_right_comm]
    exact ih (p.advance c)

theorem scanFrom_whole (p : Position) : scanFrom d cs.length p cs = .done := by
  have passed := @scanFrom_skip d cs 0 p []
  rw [Nat.add_zero, List.append_nil] at passed
  rw [passed]
  rfl

theorem scanFrom_newline (p : Position) : scanFrom d 0 p ('\n' :: rest) = scanFrom d 0 (p.advance '\n') rest := by
  have blank : pieceAt d '\n' rest = .trivia 1 := rfl
  rw [scanFrom, blank]

/-- a text that scans to its end is followed, behind a line end, by what its continuation scans to -/
theorem scanFrom_append {skip : Nat} {p : Position} (fits : skip ≤ cs.length)
    (complete : (scanFrom d skip p cs).error? = none) :
    scanFrom d skip p (cs ++ '\n' :: rest) =
      (scanFrom d skip p cs).append (scanFrom d 0 (p.after (cs ++ ['\n'])) rest) := by
  induction cs generalizing skip p with
  | nil =>
    obtain rfl : skip = 0 := Nat.le_zero.1 fits
    exact scanFrom_newline p
  | cons c cs ih =>
    cases skip with
    | succ skip => exact ih (Nat.le_of_succ_le_succ fits) complete
    | zero =>
      have size := @pieceAt_le d cs c
      have closed : ∀ what, pieceAt d c cs ≠ .fault what := by
        intro what broken
        rw [scanFrom, broken] at complete
        contradiction
      rcases @pieceAt_append d cs rest c closed with same | ⟨whole, longer⟩
      · rw [List.cons_append, scanFrom, scanFrom, same]
        cases piece : pieceAt d c cs with
        | fault what => exact absurd piece (closed what)
        | trivia n =>
          rw [piece] at size
          rw [scanFrom, piece] at complete
          exact ih (Nat.sub_le_of_le_add size) complete
        | lexeme kind value isQuoted n =>
          rw [piece] at size
          rw [scanFrom, piece] at complete
          simp only [Piece.size] at size
          have text : (c :: (cs ++ '\n' :: rest)).take n = (c :: cs).take n :=
            @List.take_append_of_le_length _ (c :: cs) ('\n' :: rest) n size
          simp only [TokenStream.append, text]
          rw [ih (Nat.sub_le_of_le_add size) complete]
          rfl
      · -- a comment without a line end of its own: it takes the rest of the text, and the line end behind
        rw [List.cons_append, scanFrom, scanFrom, longer, whole]
        have passed : scanFrom d (cs.length + 2 - 1) (p.advance c) (cs ++ '\n' :: rest) =
            scanFrom d 1 ((p.advance c).after cs) ('\n' :: rest) := scanFrom_skip 1 (p.advance c) ('\n' :: rest)
        have empty : scanFrom d (cs.length + 1 - 1) (p.advance c) cs = .done := scanFrom_whole (p.advance c)
        simp only [passed, empty, TokenStream.append]
        rw [Position.after_append p (c :: cs)]
        rfl

theorem scanFrom_shift (s : Shift) (skip : Nat) (p : Position) :
    scanFrom d skip (p.shift s) cs = (scanFrom d skip p cs).shift s := by
  induction cs generalizing skip p with
  | nil => rfl
  | cons c cs ih =>
    cases skip with
    | succ skip =>
      rw [scanFrom, scanFrom, Position.advance_shift]
      exact ih skip (p.advance c)
    | zero =>
      rw [scanFrom, scanFrom, Position.advance_shift]
      cases pieceAt d c cs with
      | fault what => rfl
      | trivia n => exact ih (n - 1) (p.advance c)
      | lexeme kind value isQuoted n =>
        simp only [TokenStream.shift, ih]
        rfl

/-- tokens lie inside the text that they come from -/
theorem stop_le_of_mem_scanFrom {skip : Nat} {p : Position} {t : Token}
    (h : t ∈ (scanFrom d skip p cs).toList) : t.stop ≤ p.offset + cs.length := by
  induction cs generalizing skip p with
  | nil => simp [scanFrom, TokenStream.toList] at h
  | cons c cs ih =>
    have later : ∀ n, t ∈ (scanFrom d n (p.advance c) cs).toList → t.stop ≤ p.offset + (c :: cs).length := by
      intro n ht
      have := ih ht
      rw [Position.advance_offset] at this
      rw [List.length_cons]
      omega
    cases skip with
    | succ skip => exact later skip h
    | zero =>
      rw [scanFrom] at h
      cases piece : pieceAt d c cs with
      | fault what => simp [piece, TokenStream.toList] at h
      | trivia n =>
        rw [piece] at h
        exact later (n - 1) h
      | lexeme kind value isQuoted n =>
        rw [piece] at h
        rcases List.mem_cons.1 h with rfl | h
        · simp only [Token.stop, String.length_ofList, List.length_take]
          omega
        · exact later (n - 1) h

end

end SchemaApi
