import SchemaApi.Check.Condition
import SchemaApi.Proofs.Number.Nearest
import Mathlib.Data.List.TakeWhile
import Mathlib.Data.Nat.Digits.Defs
/-!
What a numeral means.

The digits of a numeral have values by their places. Behind `0x` they are those of base 16. Else the base is ten, and a
numeral without a point and without an exponent part is a whole number; with either of them it spells a rational, and
means the number that is nearest to it. A sign in front turns this round (`Means`). Each numeral means one thing
(`exists_means`, `Means.unique`), and this is what is read, unless a whole number has too many digits
(`readNumber_eq_ok_iff`).
-/

namespace SchemaApi

open Binary64 (Nearest)

/-! ## Meaning -/

/-- the value of digits by their places, the last of them counting once -/
def positional (base : ℕ) (digit : Char → ℕ) (digits : List Char) : ℕ := Nat.ofDigits base (digits.reverse.map digit)

def decimalDigit (c : Char) : ℕ := (Text.decimalValue? c).getD 0

def hexDigit (c : Char) : ℕ :=
  if c.isDigit then c.toNat - '0'.toNat else if c.isLower then 10 + c.toNat - 'a'.toNat else 10 + c.toNat - 'A'.toNat

/-- the letter of an exponent part -/
def IsExponentLetter (c : Char) : Prop := c = 'e' ∨ c = 'E'

/-- neither a point nor the letter of an exponent part is among the characters -/
def Unmarked (cs : List Char) : Prop := ∀ c ∈ cs, c ≠ '.' ∧ c ≠ 'e' ∧ c ≠ 'E'

/-- an exponent part and its value; there may be none -/
inductive ExponentPart : List Char → ℤ → Prop where
  | none : ExponentPart [] 0
  | minus {c : Char} {digits : List Char} (letter : IsExponentLetter c) :
      ExponentPart (c :: '-' :: digits) (-positional 10 decimalDigit digits)
  | plus {c : Char} {digits : List Char} (letter : IsExponentLetter c) :
      ExponentPart (c :: '+' :: digits) (positional 10 decimalDigit digits)
  | plain {c : Char} {digits : List Char} (letter : IsExponentLetter c)
      (unsigned : ∀ x ∈ digits.head?, x ≠ '-' ∧ x ≠ '+') : ExponentPart (c :: digits) (positional 10 decimalDigit digits)

/-- the rational that a numeral with a point or an exponent part spells -/
inductive SpellsRational : List Char → ℚ → Prop where
  | pointless {whole part : List Char} {e : ℤ} (plain : Unmarked whole) (exponent : ExponentPart part e)
      (given : part ≠ []) :
      SpellsRational (whole ++ part) (positional 10 decimalDigit whole * 10 ^ e)
  | pointed {whole fraction part : List Char} {e : ℤ} (plain : Unmarked whole)
      (plain' : ∀ c ∈ fraction, ¬ IsExponentLetter c) (exponent : ExponentPart part e) :
      SpellsRational (whole ++ '.' :: (fraction ++ part))
        ((positional 10 decimalDigit whole + positional 10 decimalDigit fraction / 10 ^ fraction.length) * 10 ^ e)

/-- the numeral begins like one of base 16 -/
def BeginsHex (cs : List Char) : Prop := ∃ x digits, cs = '0' :: x :: digits ∧ (x = 'x' ∨ x = 'X')

/-- the number with a sign -/
def withSign (negative : Bool) (n : ℕ) : ℤ := if negative then -n else n

/-- what a numeral means behind a sign -/
inductive Means (negative : Bool) : List Char → Literal → Prop where
  | hex {x : Char} {digits : List Char} (isX : x = 'x' ∨ x = 'X') :
      Means negative ('0' :: x :: digits) (.int (withSign negative (positional 16 hexDigit digits)))
  | whole {digits : List Char} (decimal : ¬ BeginsHex digits) (plain : Unmarked digits) :
      Means negative digits (.int (withSign negative (positional 10 decimalDigit digits)))
  | rational {cs : List Char} {q : ℚ} {x : Binary64} (decimal : ¬ BeginsHex cs) (spells : SpellsRational cs q)
      (nearest : Nearest negative q x) : Means negative cs (.float x)

/-- digits alone are a whole number -/
theorem means_digits (negative : Bool) {digits : List Char} (plain : ∀ c ∈ digits, c.isDigit = true) :
    Means negative digits (.int (withSign negative (positional 10 decimalDigit digits))) := by
  refine .whole ?_ fun c hc => ?_
  · rintro ⟨x, rest, rfl, isX⟩
    have isDigit : x.isDigit = true := plain x (by simp)
    rcases isX with rfl | rfl <;> contradiction
  · have isDigit := plain c hc
    refine ⟨?_, ?_, ?_⟩ <;> rintro rfl <;> contradiction

/-! ## Digits -/

theorem foldl_eq_positional (base : ℕ) (digit : Char → ℕ) (digits : List Char) :
    digits.foldl (fun n c => base * n + digit c) 0 = positional base digit digits := by
  induction digits using List.reverseRecOn with
  | nil => rfl
  | append_singleton digits c ih =>
    rw [List.foldl_append, ih, positional, positional, List.reverse_append, List.map_append]
    simp [Nat.ofDigits_cons, add_comm]

theorem decimalNumber_eq (digits : List Char) : Text.decimalNumber digits = positional 10 decimalDigit digits :=
  foldl_eq_positional 10 decimalDigit digits

theorem hexDigitValue_eq (c : Char) : readNumber.hexDigitValue c = hexDigit c := by
  simp only [readNumber.hexDigitValue, hexDigit]
  split_ifs
  · rfl
  · exact (Nat.add_sub_add_left 10 c.toNat 87).symm
  · exact (Nat.add_sub_add_left 10 c.toNat 55).symm

theorem positional_append (digits digits' : List Char) : positional 10 decimalDigit (digits ++ digits') =
    positional 10 decimalDigit digits * 10 ^ digits'.length + positional 10 decimalDigit digits' := by
  rw [positional, List.reverse_append, List.map_append, Nat.ofDigits_append, List.length_map, List.length_reverse]
  exact (add_comm ..).trans (congrArg (· + _) (mul_comm ..))

/-! ## Numerals cut at their marks -/

theorem takeWhile_dropWhile_append {p : Char → Bool} {front rest : List Char} (own : ∀ c ∈ front, p c = true)
    (stop : ∀ c ∈ rest.head?, p c = false) :
    (front ++ rest).takeWhile p = front ∧ (front ++ rest).dropWhile p = rest := by
  rw [List.takeWhile_append_of_pos own, List.dropWhile_append_of_pos own]
  cases rest with
  | nil => simp
  | cons c rest => simp [stop c rfl]

theorem isExponentLetter_iff {c : Char} : (decide (c = 'e') || decide (c = 'E')) = true ↔ IsExponentLetter c := by
  simp [IsExponentLetter]

/-- the rational that the parts of a numeral spell -/
def Numeral.rational (n : Numeral) : ℚ :=
  positional 10 decimalDigit (n.whole ++ n.fraction) * 10 ^ (n.exponent - n.fraction.length)

theorem Numeral.nearest_toBinary64 (n : Numeral) : Nearest false n.rational n.toBinary64 := by
  rw [toBinary64, rational, decimalNumber_eq]
  exact Binary64.nearest_ofDecimal false _ _

section
variable {cs whole fraction part : List Char} {e : ℤ} {q : ℚ}

theorem ExponentPart.eq (h : ExponentPart part e) : e = Numeral.exponentOf part := by
  cases h with
  | none => rfl
  | minus | plus => rw [Numeral.exponentOf, decimalNumber_eq]
  | @plain c digits _ unsigned =>
    cases digits with
    | nil => rfl
    | cons x digits =>
      obtain ⟨noMinus, noPlus⟩ := unsigned x rfl
      rw [← decimalNumber_eq]
      simp [Numeral.exponentOf, noMinus, noPlus]

theorem ExponentPart.head (h : ExponentPart part e) : ∀ c ∈ part.head?, IsExponentLetter c := by
  cases h with
  | none => exact fun _ none => by simp at none
  | minus letter | plus letter | plain letter =>
    intro c first
    rwa [← Option.some.inj first]

theorem exists_exponentPart (letter : ∀ c ∈ part.head?, IsExponentLetter c) : ∃ e, ExponentPart part e := by
  cases part with
  | nil => exact ⟨0, .none⟩
  | cons c digits =>
    replace letter := letter c rfl
    by_cases minus : digits.head? = some '-'
    · obtain ⟨digits, rfl⟩ := List.head?_eq_some_iff.1 minus
      exact ⟨_, .minus letter⟩
    by_cases plus : digits.head? = some '+'
    · obtain ⟨digits, rfl⟩ := List.head?_eq_some_iff.1 plus
      exact ⟨_, .plus letter⟩
    refine ⟨_, .plain letter fun x first => ⟨?_, ?_⟩⟩
    · rintro rfl; exact minus first
    · rintro rfl; exact plus first

/-- the exponent part begins at the first letter of one -/
theorem ofChars_append {mantissa : List Char} (plain : ∀ c ∈ mantissa, ¬ IsExponentLetter c)
    (letter : ∀ c ∈ part.head?, IsExponentLetter c) : Numeral.ofChars (mantissa ++ part) =
      ⟨mantissa.takeWhile (· ≠ '.'), (mantissa.dropWhile (· ≠ '.')).drop 1, Numeral.exponentOf part⟩ := by
  have cut := @takeWhile_dropWhile_append (fun c => !(decide (c = 'e') || decide (c = 'E'))) mantissa part
    (fun c hc => by rw [Bool.not_eq_true', ← Bool.not_eq_true, isExponentLetter_iff]; exact plain c hc)
    (fun c hc => by rw [Bool.not_eq_false', isExponentLetter_iff]; exact letter c hc)
  simp only [Numeral.ofChars]
  rw [cut.1, cut.2]

theorem Unmarked.noLetter (plain : Unmarked whole) : ∀ c ∈ whole, ¬ IsExponentLetter c :=
  fun c hc => not_or.2 (plain c hc).2

theorem ofChars_pointless (plain : Unmarked whole) (letter : ∀ c ∈ part.head?, IsExponentLetter c) :
    Numeral.ofChars (whole ++ part) = ⟨whole, [], Numeral.exponentOf part⟩ := by
  have cut := @takeWhile_dropWhile_append (· ≠ '.') whole [] (fun c hc => by simpa using (plain c hc).1) (by simp)
  rw [List.append_nil] at cut
  rw [ofChars_append plain.noLetter letter, cut.1, cut.2, List.drop_nil]

theorem ofChars_pointed (plain : Unmarked whole) (plain' : ∀ c ∈ fraction, ¬ IsExponentLetter c)
    (letter : ∀ c ∈ part.head?, IsExponentLetter c) :
    Numeral.ofChars (whole ++ '.' :: (fraction ++ part)) = ⟨whole, fraction, Numeral.exponentOf part⟩ := by
  have noLetter : ∀ c ∈ whole ++ '.' :: fraction, ¬ IsExponentLetter c := by
    simp only [List.forall_mem_append, List.forall_mem_cons]
    exact ⟨plain.noLetter, by simp [IsExponentLetter], plain'⟩
  have cut := @takeWhile_dropWhile_append (· ≠ '.') whole ('.' :: fraction)
    (fun c hc => by simpa using (plain c hc).1) (by simp)
  rw [← List.cons_append, ← List.append_assoc, ofChars_append noLetter letter, cut.1, cut.2, List.drop_one,
    List.tail_cons]

theorem SpellsRational.eq (h : SpellsRational cs q) : q = (Numeral.ofChars cs).rational := by
  cases h with
  | pointless plain exponent =>
    rw [ofChars_pointless plain exponent.head, Numeral.rational, ← exponent.eq]
    simp
  | @pointed whole fraction part e plain plain' exponent =>
    rw [ofChars_pointed plain plain' exponent.head, Numeral.rational, ← exponent.eq]
    simp only [positional_append]
    rw [zpow_sub₀ (by norm_num), zpow_natCast]
    push_cast
    field_simp

theorem SpellsRational.marked (h : SpellsRational cs q) : ¬ Unmarked cs := by
  intro plain
  cases h with
  | @pointless whole part e _ exponent given =>
    obtain ⟨c, digits, rfl⟩ := List.exists_cons_of_ne_nil given
    exact plain.noLetter c (by simp) (exponent.head c rfl)
  | pointed => exact (plain '.' (by simp)).1 rfl

theorem exists_spellsRational (marked : ¬ Unmarked cs) : ∃ q, SpellsRational cs q := by
  let p (c : Char) : Bool := !(decide (c = 'e') || decide (c = 'E'))
  obtain ⟨mantissa, part, rfl, plain, letter⟩ : ∃ mantissa part, cs = mantissa ++ part ∧
      (∀ c ∈ mantissa, ¬ IsExponentLetter c) ∧ ∀ c ∈ part.head?, IsExponentLetter c := by
    refine ⟨cs.takeWhile p, cs.dropWhile p, List.takeWhile_append_dropWhile.symm, fun c hc => ?_, fun c hc => ?_⟩
    · have own := List.mem_takeWhile_imp hc
      rwa [Bool.not_eq_true', ← Bool.not_eq_true, isExponentLetter_iff] at own
    · have stop := List.head?_dropWhile_not p cs
      rw [hc] at stop
      rwa [← isExponentLetter_iff, ← Bool.not_eq_false']
  obtain ⟨e, exponent⟩ := exists_exponentPart letter
  by_cases point : '.' ∈ mantissa
  · obtain ⟨whole, fraction, rfl, noPoint⟩ := List.eq_append_cons_of_mem point
    rw [List.forall_mem_append, List.forall_mem_cons] at plain
    rw [List.append_assoc, List.cons_append]
    exact ⟨_, .pointed (fun c hc => ⟨ne_of_mem_of_not_mem hc noPoint, not_or.1 (plain.1 c hc)⟩) plain.2.2 exponent⟩
  · have unmarked : Unmarked mantissa := fun c hc => ⟨ne_of_mem_of_not_mem hc point, not_or.1 (plain c hc)⟩
    refine ⟨_, .pointless unmarked exponent ?_⟩
    rintro rfl
    exact marked (by rwa [List.append_nil])

end

/-! ## What a numeral means -/

section
variable {negative : Bool} {cs : List Char} {text : String} {v v' : Literal}

theorem beginsHex_cons {x : Char} {digits : List Char} (isX : x = 'x' ∨ x = 'X') : BeginsHex ('0' :: x :: digits) :=
  ⟨x, digits, rfl, isX⟩

/-- a numeral means one thing -/
theorem Means.unique (h : Means negative cs v) (h' : Means negative cs v') : v = v' := by
  cases h with
  | hex isX =>
    cases h' with
    | hex => rfl
    | whole decimal | rational decimal => exact absurd (beginsHex_cons isX) decimal
  | whole decimal plain =>
    cases h' with
    | hex isX => exact absurd (beginsHex_cons isX) decimal
    | whole => rfl
    | rational _ spells => exact absurd plain spells.marked
  | rational decimal spells nearest =>
    cases h' with
    | hex isX => exact absurd (beginsHex_cons isX) decimal
    | whole _ plain => exact absurd plain spells.marked
    | rational _ spells' nearest' =>
      rw [spells.eq] at nearest
      rw [spells'.eq] at nearest'
      rw [nearest.unique nearest']

theorem Means.negated (h : Means false cs v) : Means true cs v.negated := by
  cases h with
  | hex isX => exact .hex isX
  | whole decimal plain => exact .whole decimal plain
  | rational decimal spells nearest => exact .rational decimal spells nearest.negated

/-- a whole number in decimal digits, of more digits than can be read -/
structure Overlong (text : String) : Prop where
  notHex : ∀ x digits, text.toList = '0' :: x :: digits → x ≠ 'x' ∧ x ≠ 'X'
  isWhole : ∀ c ∈ text.toList, c ≠ '.' ∧ c ≠ 'e' ∧ c ≠ 'E'
  tooLong : maxDigits < text.toList.length

theorem decimal_eq_error_iff {cs : List Char} {e : NoRules} : readNumber.decimal cs = .error e ↔
    (∀ c ∈ cs, c ≠ '.' ∧ c ≠ 'e' ∧ c ≠ 'E') ∧ maxDigits < cs.length ∧ e = .refused (.tooLong cs.length) := by
  unfold readNumber.decimal
  split_ifs with float long
  · simp only [false_iff]
    rintro ⟨whole, -⟩
    obtain ⟨c, hc, marked⟩ := List.any_eq_true.1 float
    have := whole c hc
    simp_all
  · have whole : ∀ c ∈ cs, c ≠ '.' ∧ c ≠ 'e' ∧ c ≠ 'E' := by
      intro c hc
      have := List.any_eq_false.1 (Bool.not_eq_true _ ▸ float) c hc
      simp_all
    simp only [Except.error.injEq, long, true_and]
    exact ⟨fun h => ⟨whole, h.symm⟩, fun h => h.2.symm⟩
  · simp [long]

theorem readNumber_eq_error_iff {text : String} {e : NoRules} :
    readNumber text = .error e ↔ Overlong text ∧ e = .refused (.tooLong text.toList.length) := by
  have decimal : (∀ x digits, text.toList = '0' :: x :: digits → x ≠ 'x' ∧ x ≠ 'X') →
      (readNumber.decimal text.toList = .error e ↔
        Overlong text ∧ e = .refused (.tooLong text.toList.length)) := by
    intro notHex
    rw [decimal_eq_error_iff]
    exact ⟨fun ⟨whole, long, e⟩ => ⟨⟨notHex, whole, long⟩, e⟩, fun ⟨long, e⟩ => ⟨long.isWhole, long.tooLong, e⟩⟩
  unfold readNumber
  split
  · rename_i x digits chars
    split_ifs with hex
    · simp only [false_iff]
      rintro ⟨long, -⟩
      have := long.notHex x digits chars
      exact hex.elim this.1 this.2
    · rw [← chars]
      refine decimal fun x' digits' chars' => ?_
      rw [chars, List.cons.injEq, List.cons.injEq] at chars'
      rw [← chars'.2.1]
      exact not_or.1 hex
  · rename_i other
    exact decimal fun x digits chars => (other x digits chars).elim

theorem unmarked_iff : Unmarked cs ↔ (cs.any fun c => c = '.' || c = 'e' || c = 'E') = false := by
  simp [Unmarked, and_assoc]

theorem means_of_decimal (decimal : ¬ BeginsHex cs) (read : readNumber.decimal cs = .ok v) : Means false cs v := by
  unfold readNumber.decimal at read
  split_ifs at read with marked
  · obtain rfl := Except.ok.inj read
    obtain ⟨q, spells⟩ := @exists_spellsRational cs (by rw [unmarked_iff, marked]; simp)
    exact .rational decimal spells (spells.eq ▸ Numeral.nearest_toBinary64 _)
  · obtain rfl := Except.ok.inj read
    rw [decimalNumber_eq]
    exact .whole decimal (unmarked_iff.2 (Bool.eq_false_of_not_eq_true marked))

theorem means_of_readNumber (read : readNumber text = .ok v) : Means false text.toList v := by
  unfold readNumber at read
  split at read
  · rename_i x digits chars
    rw [chars]
    split_ifs at read with isX
    · obtain rfl := Except.ok.inj read
      simp only [hexDigitValue_eq, foldl_eq_positional]
      exact .hex isX
    · refine means_of_decimal ?_ read
      rintro ⟨y, digits', same, isY⟩
      rw [List.cons.injEq, List.cons.injEq] at same
      exact isX (same.2.1 ▸ isY)
  · rename_i other
    refine means_of_decimal ?_ read
    rintro ⟨x, digits, chars, -⟩
    exact other x digits chars

/-- what is read of a numeral that has not too many digits is what it means -/
theorem means_iff_read (legible : ¬ Overlong text) : Means negative text.toList v ↔
    ∃ n, readNumber text = .ok n ∧ v = if negative then n.negated else n := by
  obtain ⟨n, read⟩ : ∃ n, readNumber text = .ok n := by
    cases read : readNumber text with
    | ok n => exact ⟨n, rfl⟩
    | error e => exact absurd (readNumber_eq_error_iff.1 read).1 legible
  have means : Means negative text.toList (if negative then n.negated else n) := by
    cases negative with
    | true => exact (means_of_readNumber read).negated
    | false => exact means_of_readNumber read
  constructor
  · exact fun h => ⟨n, read, h.unique means⟩
  · rintro ⟨n', read', rfl⟩
    obtain rfl := Except.ok.inj (read.symm.trans read')
    exact means

theorem readNumber_eq_ok_iff : readNumber text = .ok v ↔ Means false text.toList v ∧ ¬ Overlong text := by
  by_cases long : Overlong text
  · have refused := readNumber_eq_error_iff.2 ⟨long, rfl⟩
    simp [refused, long]
  · simp [means_iff_read long, long]

/-- also a numeral of too many digits means something -/
theorem exists_means (text : String) : ∃ v, Means negative text.toList v := by
  by_cases long : Overlong text
  · exact ⟨_, .whole (fun ⟨x, digits, chars, isX⟩ => isX.elim (long.notHex x digits chars).1
      (long.notHex x digits chars).2) long.isWhole⟩
  · cases read : readNumber text with
    | ok n => exact ⟨_, (means_iff_read long).2 ⟨n, read, rfl⟩⟩
    | error e => exact absurd (readNumber_eq_error_iff.1 read).1 long

end

end SchemaApi
