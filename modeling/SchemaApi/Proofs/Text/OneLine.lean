import SchemaApi.Proofs.Text.LetterCase
/-!
Texts on one line.

A text without a line feed stays on one line when it is put together with others, and when it is put into lower case:
no character but the line feed has it for its lower case.
-/

namespace SchemaApi.Text

/-- what stands in lists put together stands in one of them, or between them -/
theorem mem_intercalate {α : Type} {x : α} {separator : List α} {lists : List (List α)}
    (h : x ∈ separator.intercalate lists) : x ∈ separator ∨ ∃ l ∈ lists, x ∈ l := by
  induction lists with
  | nil => exact absurd h List.not_mem_nil
  | cons first rest ih =>
    have later : x ∈ separator.intercalate rest → x ∈ separator ∨ ∃ l ∈ first :: rest, x ∈ l := fun h =>
      (ih h).imp_right fun ⟨l, hl, hx⟩ => ⟨l, List.mem_cons_of_mem first hl, hx⟩
    cases rest with
    | nil => exact Or.inr ⟨first, List.mem_cons_self, by simpa using h⟩
    | cons next rest =>
      rw [List.intercalate_cons_cons, List.mem_append, List.mem_append] at h
      rcases h with (inFirst | between) | h
      · exact Or.inr ⟨first, List.mem_cons_self, inFirst⟩
      · exact Or.inl between
      · exact later h

/-- a text without a line feed -/
def OneLine (text : String) : Prop := '\n' ∉ text.toList

instance (text : String) : Decidable (OneLine text) := inferInstanceAs (Decidable (¬ _))

namespace OneLine

theorem append {a b : String} (ha : OneLine a) (hb : OneLine b) : OneLine (a ++ b) := by
  rw [OneLine, String.toList_append, List.mem_append]
  exact not_or.2 ⟨ha, hb⟩

theorem intercalate {separator : String} {texts : List String} (hs : OneLine separator)
    (each : ∀ text ∈ texts, OneLine text) : OneLine (separator.intercalate texts) := by
  rw [OneLine, String.toList_intercalate]
  intro h
  rcases mem_intercalate h with between | ⟨_, hl, inside⟩
  · exact hs between
  · obtain ⟨text, ht, rfl⟩ := List.mem_map.1 hl
    exact each text ht inside

end OneLine

/-! ## Lower case -/

theorem ofNat_ne_lineFeed {n : Nat} (large : 97 ≤ n) : Char.ofNat n ≠ '\n' := by
  intro e
  by_cases valid : n.isValidChar
  · rw [Char.ofNat, dif_pos valid] at e
    have code : n = 10 := congrArg Char.toNat e
    omega
  · rw [Char.ofNat, dif_neg valid] at e
    exact absurd e (by decide)

theorem applyRuns_lowerRuns_ge {n : Nat} (large : 97 ≤ n) : 97 ≤ applyRuns lowerRuns n := by
  have images : ∀ run ∈ lowerRuns, 97 ≤ run.2.2.2 := by decide +kernel
  unfold applyRuns
  split
  · rename_i found
    exact Nat.le_add_right_of_le (images _ (List.mem_of_find?_eq_some found))
  · exact large

theorem lineFeed_mem_lowerChar {before : List Char} {c : Char} {after : List Char} :
    '\n' ∈ lowerChar before c after ↔ c = '\n' := by
  unfold lowerChar
  split_ifs with ascii
  · rw [List.mem_singleton]
    rcases toLower_cases c with small | ⟨n, bound, capital, small⟩
    · rw [small, eq_comm]
    · have letters : ∀ n < 26, '\n' ≠ Char.ofNat (n + 97) ∧ Char.ofNat (n + 65) ≠ '\n' := by decide
      rw [small, capital]
      exact iff_of_false (letters n bound).1 (letters n bound).2
  -- all other characters are far behind the line feed, and so are their images
  all_goals refine iff_of_false (fun h => ?_) fun e => ascii (by rw [e]; decide)
  · exact absurd h (by decide)
  · exact absurd h (by decide)
  · exact absurd h (by decide)
  · exact ofNat_ne_lineFeed (applyRuns_lowerRuns_ge (by omega)) (List.mem_singleton.1 h).symm

theorem lineFeed_mem_lowerFrom {before text : List Char} : '\n' ∈ lowerFrom before text ↔ '\n' ∈ text := by
  induction text generalizing before with
  | nil => rfl
  | cons c rest ih => rw [lowerFrom, List.mem_append, lineFeed_mem_lowerChar, ih, List.mem_cons, eq_comm]

theorem oneLine_lower {text : String} : OneLine (lower text) ↔ OneLine text := by
  rw [OneLine, lower, String.toList_ofList, lineFeed_mem_lowerFrom, OneLine]

end SchemaApi.Text
