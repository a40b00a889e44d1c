import SchemaApi.Text.CodeRange
/-!
White space, and cutting it off the ends of a text.
-/

namespace SchemaApi.Text

/-- white space outside ASCII -/
def blankRanges : List CodeRange := [
  (0x85, 0x85), (0xA0, 0xA0), (0x1680, 0x1680), (0x2000, 0x200A), (0x2028, 0x2029),
  (0x202F, 0x202F), (0x205F, 0x205F), (0x3000, 0x3000)]

/-- white space, the four ASCII separator controls included -/
def isBlank (c : Char) : Bool :=
  if c.toNat < 128 then
    c == ' ' || (9 ≤ c.toNat && c.toNat ≤ 13) || (28 ≤ c.toNat && c.toNat ≤ 31)
  else
    inRanges blankRanges c.toNat

/-- the characters between the outermost ones that are not blank -/
def stripChars (cs : List Char) : List Char :=
  ((cs.dropWhile isBlank).reverse.dropWhile isBlank).reverse

/-- the text without white space at its ends -/
def strip (text : String) : String := String.ofList (stripChars text.toList)

/-- every ordinary white-space character is blank -/
theorem isBlank_of_isWhitespace {c : Char} (h : c.isWhitespace = true) : isBlank c = true := by
  simp only [Char.isWhitespace, Bool.or_eq_true, decide_eq_true_eq] at h
  rcases h with ((h | h) | h) | h <;> subst h <;> decide

end SchemaApi.Text
