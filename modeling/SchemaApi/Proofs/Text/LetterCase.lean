import SchemaApi.Dialect.Keyword
import SchemaApi.Text.Word
import Mathlib.Data.List.Forall2
/-!
Letters in capitals and in small letters.

Two characters are the same letter if they differ at most in the case of an ASCII letter. No class of characters that
scripts are read by tells the two apart, and texts that differ only so have the same upper and the same lower case.
-/

namespace SchemaApi.Text

/-- the characters differ at most in the case of an ASCII letter -/
def SameLetter (c c' : Char) : Prop := c'.toLower = c.toLower

instance (c c' : Char) : Decidable (SameLetter c c') := inferInstanceAs (Decidable (_ = _))

theorem toLower_of_large {c : Char} (large : ¬ c.toNat < 128) : c.toLower = c := by
  have notCapital : ¬ (c.val ≥ 'A'.val ∧ c.val ≤ 'Z'.val) :=
    fun capital => large (Nat.lt_of_le_of_lt capital.2 (by decide))
  unfold Char.toLower
  exact dif_neg notCapital

/-- a character has another lower case only if it is one of the 26 capitals -/
theorem toLower_cases (c : Char) :
    c.toLower = c ∨ ∃ n, n < 26 ∧ c = Char.ofNat (n + 65) ∧ c.toLower = Char.ofNat (n + 97) := by
  by_cases ascii : c.toNat < 128
  · have all : ∀ n < 128, (Char.ofNat n).toLower = Char.ofNat n ∨ ∃ m, m < 26 ∧ Char.ofNat n = Char.ofNat (m + 65) ∧
        (Char.ofNat n).toLower = Char.ofNat (m + 97) := by decide
    have here := all c.toNat ascii
    rwa [Char.ofNat_toNat] at here
  · exact Or.inl (toLower_of_large ascii)

namespace SameLetter

variable {c c' : Char}

theorem refl (c : Char) : SameLetter c c := Eq.refl _

/-- what is the same for capitals and small letters is the same for characters that are the same letter -/
theorem blind {α : Type} (p : Char → α) (same : ∀ n < 26, p (Char.ofNat (n + 97)) = p (Char.ofNat (n + 65)))
    (h : SameLetter c c') : p c' = p c := by
  have lower : ∀ c : Char, p c.toLower = p c := by
    intro c
    rcases toLower_cases c with small | ⟨n, bound, capital, small⟩
    · rw [small]
    · rw [small, capital, same n bound]
  rw [← lower c', h, lower c]

theorem isLetter (h : SameLetter c c') : isLetter c' = isLetter c := h.blind Text.isLetter (by decide)

/-- only letters have a case -/
theorem eq (h : SameLetter c c') (plain : Text.isLetter c = false) : c' = c := by
  have small : ∀ c : Char, Text.isLetter c = false → c.toLower = c := by
    intro c plain
    rcases toLower_cases c with small | ⟨n, bound, capital, -⟩
    · exact small
    · have letters : ∀ n < 26, Text.isLetter (Char.ofNat (n + 65)) = true := by decide
      rw [capital, letters n bound] at plain
      contradiction
  rw [← small c plain, ← h, small c' (h.isLetter.trans plain)]

theorem eq_iff (h : SameLetter c c') {x : Char} (plain : Text.isLetter x = false) : c' = x ↔ c = x := by
  constructor
  · rintro rfl
    exact (h.eq (h.isLetter.symm.trans plain)).symm
  · rintro rfl
    exact h.eq plain

theorem isAscii (h : SameLetter c c') : c'.toNat < 128 ↔ c.toNat < 128 := by
  have same := h.blind (fun c => decide (c.toNat < 128)) (by decide)
  exact decide_eq_decide.1 same

theorem isBlank (h : SameLetter c c') : isBlank c' = isBlank c := h.blind Text.isBlank (by decide)

theorem isDecimal (h : SameLetter c c') : isDecimal c' = isDecimal c := h.blind Text.isDecimal (by decide)

theorem isDigit (h : SameLetter c c') : isDigit c' = isDigit c := h.blind Text.isDigit (by decide)

theorem isHexDigit (h : SameLetter c c') : isHexDigit c' = isHexDigit c := h.blind Text.isHexDigit (by decide)

theorem isWordChar (h : SameLetter c c') : isWordChar c' = isWordChar c := h.blind Text.isWordChar (by decide)

theorem isWordStart (h : SameLetter c c') : isWordStart c' = isWordStart c := h.blind Text.isWordStart (by decide)

theorem toUpper (h : SameLetter c c') : c'.toUpper = c.toUpper := h.blind Char.toUpper (by decide)

theorem upperChar (h : SameLetter c c') : upperChar c' = upperChar c := h.blind Text.upperChar (by decide)

theorem isCased (h : SameLetter c c') : isCased c' = isCased c := h.blind Text.isCased (by decide +kernel)

theorem isCaseIgnorable (h : SameLetter c c') : isCaseIgnorable c' = isCaseIgnorable c :=
  h.blind Text.isCaseIgnorable (by decide +kernel)

end SameLetter

/-! ## Texts -/

/-- the texts differ at most in the case of ASCII letters -/
def SameLetters (text text' : List Char) : Prop := List.Forall₂ SameLetter text text'

instance (text text' : List Char) : Decidable (SameLetters text text') :=
  inferInstanceAs (Decidable (List.Forall₂ SameLetter text text'))

namespace SameLetters

variable {text text' more more' : List Char}

theorem refl (text : List Char) : SameLetters text text := List.forall₂_same.2 fun c _ => .refl c

theorem append (h : SameLetters text text') (rest : SameLetters more more') :
    SameLetters (text ++ more) (text' ++ more') :=
  List.rel_append h rest

theorem reverse (h : SameLetters text text') : SameLetters text.reverse text'.reverse := List.rel_reverse h

theorem flatMap_upperChar (h : SameLetters text text') : text'.flatMap upperChar = text.flatMap upperChar := by
  induction h with
  | nil => rfl
  | cons first _ ih => rw [List.flatMap_cons, List.flatMap_cons, first.upperChar, ih]

theorem meetsCased (h : SameLetters text text') : meetsCased text' = meetsCased text := by
  induction h with
  | nil => rfl
  | cons first _ ih =>
    simp only [Text.meetsCased, List.dropWhile_cons, first.isCaseIgnorable] at ih ⊢
    split
    · exact ih
    · simp only [List.head?_cons, Option.map_some, first.isCased]

theorem lowerChar {c c' : Char} (before : SameLetters more more') (h : SameLetter c c')
    (behind : SameLetters text text') : lowerChar more' c' text' = lowerChar more c text := by
  by_cases ascii : c.toNat < 128
  · rw [Text.lowerChar, Text.lowerChar, if_pos ascii, if_pos (h.isAscii.2 ascii), h]
  · obtain rfl : c' = c := by
      rw [← toLower_of_large ascii, ← h, toLower_of_large (mt h.isAscii.1 ascii)]
    simp only [Text.lowerChar, before.meetsCased, behind.meetsCased]

theorem lowerFrom (before : SameLetters more more') (h : SameLetters text text') :
    lowerFrom more' text' = lowerFrom more text := by
  induction h generalizing more more' with
  | nil => rfl
  | cons first rest ih => 
    rw [Text.lowerFrom, Text.lowerFrom, lowerChar before first rest, ih (.cons first before)]

end SameLetters

section
variable {text text' : String} (h : SameLetters text.toList text'.toList)

include h

theorem upper_same : upper text' = upper text := by rw [upper, upper, h.flatMap_upperChar]

theorem lower_same : lower text' = lower text := by rw [lower, lower, SameLetters.lowerFrom .nil h]

end

end SchemaApi.Text
