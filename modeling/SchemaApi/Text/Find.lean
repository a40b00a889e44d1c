/-!
Where one text first occurs inside another.
-/

namespace SchemaApi.Text

/-- how many characters stand before the first occurrence of `part` -/
def findFirst? (part : List Char) : List Char → Option Nat
  | [] => if part.isEmpty then some 0 else none
  | c :: rest =>
    if part.isPrefixOf (c :: rest) then some 0 else (findFirst? part rest).map (· + 1)

/-- one text occurs inside another -/
def occursIn (part whole : String) : Bool := (findFirst? part.toList whole.toList).isSome

theorem isPrefixOf_drop_of_findFirst? {part text : List Char} {n : Nat}
    (h : findFirst? part text = some n) : part.isPrefixOf (text.drop n) = true := by
  induction text generalizing n with
  | nil =>
    simp only [findFirst?] at h
    split at h <;> simp_all
  | cons c rest ih =>
    simp only [findFirst?] at h
    split at h
    · next found => obtain rfl := Option.some.inj h; exact found
    · obtain ⟨m, hm, rfl⟩ := Option.map_eq_some_iff.1 h
      exact ih hm

theorem add_length_le_of_findFirst? {part text : List Char} {n : Nat}
    (h : findFirst? part text = some n) (short : part ≠ []) : n + part.length ≤ text.length := by
  have found := List.isPrefixOf_iff_prefix.1 (isPrefixOf_drop_of_findFirst? h)
  have := found.length_le
  have := List.length_pos_iff.2 short
  simp only [List.length_drop] at *
  omega

end SchemaApi.Text
