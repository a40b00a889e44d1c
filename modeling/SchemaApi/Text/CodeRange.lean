/-!
Sets of code points, given as lists of inclusive ranges.

The classes of characters that scripts are read by are those of the Unicode standard. Each class has
its ASCII part spelled out, so that a reader of ASCII scripts never consults a table, and a list of
ranges for the rest.
-/

namespace SchemaApi.Text

/-- first and last code point of a range -/
abbrev CodeRange := Nat × Nat

/-- the code point lies in one of the ranges -/
def inRanges (ranges : List CodeRange) (code : Nat) : Bool :=
  ranges.any fun range => range.1 ≤ code && code ≤ range.2

theorem inRanges_iff {ranges : List CodeRange} {code : Nat} :
    inRanges ranges code = true ↔ ∃ range ∈ ranges, range.1 ≤ code ∧ code ≤ range.2 := by
  simp [inRanges]

end SchemaApi.Text
