import SchemaApi.Api.Naming
import SchemaApi.Proofs.Naming.Kebab
import Mathlib.Data.List.Perm.Subperm
import Mathlib.Data.List.Nodup
/-!
Names of resources are told apart by their path segments.

A number behind a name, with a low line between, is a word of its own. So the candidates `name`, `name_2`,
`name_3`, … have different segments, and among one more of them than there are taken segments one is free:
`freeName` finds it. Tables with different references thus have names with different segments, and each name
leads back to its table.
-/

namespace SchemaApi

/-! ## Words -/

namespace Naming

theorem words_repr (k : Nat) : words (toString k) = [toString k] := by
  have filled : (toString k).toList ≠ [] := by
    rw [Nat.toString_eq_repr, Nat.toList_repr]
    exact Nat.toDigits_ne_nil
  have digits : ∀ c ∈ (toString k).toList, c.isDigit = true := by
    intro c hc
    rw [Nat.toString_eq_repr, Nat.toList_repr] at hc
    exact Nat.isDigit_of_mem_toDigits (by omega) (by omega) hc
  have number : IsWord (toString k).toList := ⟨filled, Or.inr digits⟩
  rw [words, wordsFrom_of_isWord number, List.map_singleton, number.map_toLower, String.ofList_toList]

/-- a number behind a name is its last word -/
theorem words_numbered (name : String) (k : Nat) : words s!"{name}_{k}" = words name ++ [toString k] := by
  have chars : (s!"{name}_{k}").toList = name.toList ++ '_' :: (toString k).toList := by
    simp only [String.toList_append, List.append_assoc]
    rfl
  rw [← words_repr, words, chars, wordsFrom_append_stop rfl (Nat.zero_le _), List.map_append]
  rfl

theorem kebab_numbered (name : String) (k : Nat) :
    kebab s!"{name}_{k}" = if words name = [] then toString k else kebab name ++ "-" ++ toString k := by
  rw [kebab, words_numbered]
  split_ifs with none
  · rw [none, List.nil_append, String.intercalate_singleton]
  · rw [String.intercalate_append_of_ne_nil none (List.cons_ne_nil _ _), String.intercalate_singleton]
    rfl

theorem kebab_ne_empty {name : String} (some : words name ≠ []) : kebab name ≠ "" :=
  mt (kebab_eq_empty_iff name).1 some

end Naming

namespace Api

open Naming

/-! ## Free names -/

/-- the names that are tried one after the other -/
def candidate (name : String) : Nat → String
  | 0 => name
  | k + 1 => s!"{name}_{k + 2}"

theorem segment_candidate_succ (name : String) (k : Nat) : segment (candidate name (k + 1)) =
    if words name = [] then toString (k + 2) else kebab name ++ "-" ++ toString (k + 2) := by
  have filled : kebab (candidate name (k + 1)) ≠ "" :=
    kebab_ne_empty (by rw [candidate, words_numbered]; simp)
  rw [segment, if_neg filled, candidate, kebab_numbered]

/-- the candidates have different segments -/
theorem segment_candidate_injective (name : String) : Function.Injective fun k => segment (candidate name k) := by
  have first : ∀ k, segment (candidate name 0) ≠ segment (candidate name (k + 1)) := by
    intro k same
    rw [segment_candidate_succ, candidate, segment] at same
    by_cases none : words name = []
    · have empty : kebab name = "" := by rw [kebab, none, String.intercalate_nil]
      rw [if_pos empty, if_pos none] at same
      rw [same, words_repr] at none
      exact List.cons_ne_nil _ _ none
    · rw [if_neg (kebab_ne_empty none), if_neg none] at same
      have size := congrArg String.length same
      simp only [String.length_append] at size
      have : ("-" : String).length = 1 := rfl
      omega
  intro i j same
  cases i with
  | zero =>
    cases j with
    | zero => rfl
    | succ j => exact absurd same (first j)
  | succ i =>
    cases j with
    | zero => exact absurd same.symm (first i)
    | succ j =>
      simp only [segment_candidate_succ] at same
      have digits : toString (i + 2) = toString (j + 2) := by
        split_ifs at same
        · exact same
        · exact String.append_right_inj _ |>.1 same
      have values := congrArg (fun s => Nat.ofDigitChars 10 s.toList 0) digits
      simp only [Nat.toString_eq_repr, Nat.toList_repr, Nat.ofDigitChars_ten_toDigits] at values
      omega

/-- what is found is one of the candidates, and free if one of those that are tried is -/
theorem firstFree_eq_candidate (taken : String → Bool) (name : String) (fuel k : Nat) :
    ∃ j, firstFree taken name fuel (k + 2) (candidate name k) = candidate name j ∧
      (taken (candidate name j) = false ∨ ∀ i < fuel, taken (candidate name (k + i)) = true) := by
  induction fuel generalizing k with
  | zero => exact ⟨k, rfl, Or.inr fun i hi => absurd hi (Nat.not_lt_zero i)⟩
  | succ fuel ih =>
    rw [firstFree]
    split_ifs with used
    · obtain ⟨j, found, free | all⟩ := ih (k + 1)
      · exact ⟨j, found, Or.inl free⟩
      · refine ⟨j, found, Or.inr fun i hi => ?_⟩
        cases i with
        | zero => exact used
        | succ i =>
          have := all i (Nat.lt_of_succ_lt_succ hi)
          rwa [Nat.add_assoc, Nat.add_comm 1 i] at this
    · exact ⟨k, rfl, Or.inl (by simpa using used)⟩

theorem freeName_eq_candidate (taken : String → Bool) (count : Nat) (name : String) :
    ∃ j, freeName taken count name = candidate name j ∧
      (taken (candidate name j) = false ∨ ∀ i ≤ count, taken (candidate name i) = true) := by
  obtain ⟨j, found, free | all⟩ := firstFree_eq_candidate taken name (count + 1) 0
  · exact ⟨j, found, Or.inl free⟩
  · refine ⟨j, found, Or.inr fun i hi => ?_⟩
    have := all i (Nat.lt_succ_of_le hi)
    rwa [Nat.zero_add] at this

/-- among so many candidates there is one that is not taken, by whatever tells them apart -/
theorem freeName_not_mem {tag : String → String} {name : String}
    (apart : Function.Injective fun k => tag (candidate name k)) (used : List String) :
    tag (freeName (fun n => used.contains (tag n)) used.length name) ∉ used := by
  obtain ⟨j, found, free | all⟩ := freeName_eq_candidate (fun n => used.contains (tag n)) used.length name
  · rw [found]
    simpa using free
  · have distinct : ((List.range (used.length + 1)).map fun i => tag (candidate name i)).Nodup :=
      List.nodup_range.map apart
    have inside : ((List.range (used.length + 1)).map fun i => tag (candidate name i)) ⊆ used := by
      intro s hs
      obtain ⟨i, hi, rfl⟩ := List.mem_map.1 hs
      have := all i (Nat.le_of_lt_succ (List.mem_range.1 hi))
      simpa using this
    have size := (List.subperm_of_subset distinct inside).length_le
    rw [List.length_map, List.length_range] at size
    omega

/-- among so many candidates there is one whose segment is not taken -/
theorem segment_freeName_not_mem (used : List String) (name : String) :
    segment (freeName (fun n => used.contains (segment n)) used.length name) ∉ used :=
  freeName_not_mem (segment_candidate_injective name) used

/-! ## Names of resources -/

/-- names that have been given to tables, in their order -/
structure NamesSoFar.Given (tables : List Table) (state : NamesSoFar) : Prop where
  refs : state.names.map (·.1) = tables.map (·.ref)
  used : state.used = state.names.map fun entry => segment entry.2
  distinct : state.used.Nodup

theorem nameTable_given {tables : List Table} {state : NamesSoFar} (h : state.Given tables) (bases : List String)
    (t : Table) (base : String) : (nameTable bases state (t, base)).Given (tables ++ [t]) where
  refs := by
    rw [nameTable, List.map_append, List.map_append, h.refs]
    rfl
  used := by
    rw [nameTable, List.map_append, h.used]
    rfl
  distinct := by
    refine List.nodup_append.2 ⟨h.distinct, List.nodup_singleton _, fun a ha b hb same => ?_⟩
    rw [List.mem_singleton] at hb
    exact segment_freeName_not_mem state.used (wantedName bases t base) (hb ▸ same ▸ ha)

theorem resourceNames_given (strategy : NamingStrategy) (tables : List Table) :
    (resourceNames strategy tables).Given tables := by
  have run : ∀ (items : List (Table × String)) {before : List Table} {state : NamesSoFar} (bases : List String),
      state.Given before → (items.foldl (nameTable bases) state).Given (before ++ items.map (·.1)) := by
    intro items
    induction items with
    | nil =>
      intro before state bases h
      rwa [List.map_nil, List.append_nil]
    | cons item items ih =>
      intro before state bases h
      have next := ih bases (nameTable_given h bases item.1 item.2)
      rwa [List.append_assoc] at next
  have all := run (tables.zip (tables.map fun t => strategy.apply t.name))
    (tables.map fun t => strategy.apply t.name) (⟨rfl, rfl, List.nodup_nil⟩ : NamesSoFar.Given [] {})
  rw [List.nil_append, List.map_fst_zip (by simp)] at all
  exact all

/-- no two resources have the same name -/
theorem NamesSoFar.Given.names_nodup {tables : List Table} {state : NamesSoFar} (h : state.Given tables) :
    (state.names.map (·.2)).Nodup := by
  have segments := h.distinct
  rw [h.used] at segments
  have through : state.names.map (fun entry => segment entry.2) = (state.names.map (·.2)).map segment := by
    rw [List.map_map]
    rfl
  rw [through] at segments
  exact segments.of_map

/-! ## Look-ups -/

theorem nameOf?_eq_some_iff {names : List (TableRef × String)} (refs : (names.map (·.1)).Nodup) {ref : TableRef}
    {name : String} : nameOf? names ref = some name ↔ (ref, name) ∈ names := by
  rw [nameOf?, List.lookup_eq_some_iff]
  constructor
  · rintro ⟨before, after, split, -⟩
    rw [← List.mem_reverse, split]
    simp
  · intro h
    obtain ⟨before, after, split⟩ := List.append_of_mem (List.mem_reverse.2 h)
    refine ⟨before, after, split, fun p hp => ?_⟩
    have apart := List.nodup_reverse.2 refs
    rw [← List.map_reverse, split, List.map_append, List.map_cons, List.nodup_append] at apart
    have := apart.2.2 p.1 (List.mem_map_of_mem hp) ref List.mem_cons_self
    simpa using Ne.symm this

end Api
end SchemaApi
