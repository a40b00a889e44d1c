import SchemaApi.Dialect
import SchemaApi.Proofs.Text.LetterCase
import Mathlib.Data.List.Infix
/-!
Words in capitals, and the texts that spell them.

A text spells a word if it is the word in upper case. That texts have the same lower case does not mean that they have
the same upper case: the dotless i and the Kelvin sign go only one way, and ligatures become several letters. A word
that avoids all this is steady, and of two texts with the same lower case both spell it or none
(`upper_lower_eq_iff`).
-/

namespace SchemaApi.Text

/-! ## Tables -/

/-- a run of a table does not reach a code point -/
def CaseRun.Misses (run : CaseRun) (code : Nat) : Prop := code < run.2.2.2 ∨ run.2.2.2 + (run.2.1 - run.1) < code

instance (run : CaseRun) (code : Nat) : Decidable (run.Misses code) := inferInstanceAs (Decidable (_ ∨ _))

/-- a table takes a code point to itself, or by a run that reaches the image -/
theorem applyRuns_cases {runs : List CaseRun} {n code : Nat} (h : applyRuns runs n = code) :
    n = code ∨ ∃ run ∈ runs, ¬ run.Misses code ∧ run.1 ≤ n ∧ n ≤ run.2.1 := by
  unfold applyRuns at h
  split at h
  · rename_i first last step image found
    refine Or.inr ⟨_, List.mem_of_find?_eq_some found, ?_⟩
    have within := List.find?_some found
    simp only [Bool.and_eq_true, decide_eq_true_eq] at within
    simp only [CaseRun.Misses]
    omega
  · exact Or.inl h

/-- a code point that is one, or the first of all in its place -/
theorem toNat_ofNat (n : Nat) : (Char.ofNat n).toNat = n ∨ (Char.ofNat n).toNat = 0 := by
  by_cases valid : n.isValidChar
  · rw [Char.ofNat, dif_pos valid]
    exact Or.inl rfl
  · rw [Char.ofNat, dif_neg valid]
    exact Or.inr rfl

/-! ## Letters -/

theorem sameLetter_toLower (c : Char) : SameLetter c c.toLower := by
  rcases toLower_cases c with small | ⟨n, bound, -, small⟩
  · rw [small]; exact .refl c
  · have letters : ∀ n < 26, (Char.ofNat (n + 97)).toLower = Char.ofNat (n + 97) := by decide
    rw [SameLetter, small, letters n bound]

/-- a capital that the dotless i and the Kelvin sign do not disturb -/
def SteadyLetter (y : Char) : Prop := 65 ≤ y.toNat ∧ y.toNat ≤ 90 ∧ y ≠ 'I' ∧ y ≠ 'K'

instance (y : Char) : Decidable (SteadyLetter y) := inferInstanceAs (Decidable (_ ∧ _))

section
variable {x y z : Char} (steady : SteadyLetter y)

include steady

/-- beyond ASCII, only the long s is a steady letter in upper case -/
theorem steady_cases (h : upperChar x = [y]) : x.toNat < 128 ∨ x = 'ſ' := by
  by_contra outside
  obtain ⟨large, notLong⟩ := not_or.1 outside
  rw [upperChar, if_neg large] at h
  split at h
  · rename_i codes found
    have several : ∀ entry ∈ upperExpansions, 2 ≤ entry.2.length := by decide
    have two : 2 ≤ codes.length := several _ (List.mem_of_find?_eq_some found)
    have one := congrArg List.length h
    simp only [List.length_map, List.length_singleton] at one
    omega
  · have image : applyRuns upperRuns x.toNat = y.toNat := by
      have code := toNat_ofNat (applyRuns upperRuns x.toNat)
      rw [List.singleton_inj.1 h] at code
      exact (code.resolve_right (by have := steady.1; omega)).symm
    have reached : ∀ run ∈ upperRuns, ∀ n < 26, n ≠ 8 → run.Misses (n + 65) ∨ (run.1 = 0x17F ∧ run.2.1 = 0x17F) := by
      decide +kernel
    obtain ⟨low, high, notI, -⟩ := steady
    rcases applyRuns_cases image with same | ⟨run, hrun, hits, first, last⟩
    · omega
    · have notI : y.toNat - 65 ≠ 8 := fun e => notI (Char.toNat_inj.1 (show y.toNat = 73 by omega))
      have here := reached run hrun (y.toNat - 65) (by omega) notI
      rw [Nat.sub_add_cancel low] at here
      obtain ⟨single, single'⟩ := here.resolve_left hits
      exact notLong (Char.toNat_inj.1 (show x.toNat = 0x17F by omega))

theorem lowerChar_of_steady (h : upperChar x = [y]) (before after : List Char) :
    ∃ z, lowerChar before x after = [z] ∧ upperChar z = [y] := by
  rcases steady_cases steady h with ascii | rfl
  · exact ⟨x.toLower, if_pos ascii, (sameLetter_toLower x).upperChar.trans h⟩
  · exact ⟨'ſ', rfl, h⟩

theorem steady_of_lowerChar {before after more : List Char} (lowered : lowerChar before x after = z :: more)
    (h : upperChar z = [y]) : upperChar x = [y] ∧ more = [] := by
  have small := steady_cases steady h
  unfold lowerChar at lowered
  split_ifs at lowered with ascii sigma final dotted
  · obtain ⟨rfl, rfl⟩ := List.cons.inj lowered
    exact ⟨(sameLetter_toLower x).upperChar.symm.trans h, rfl⟩
  · rw [← (List.cons.inj lowered).1] at small
    exact absurd small (by decide)
  · rw [← (List.cons.inj lowered).1] at small
    exact absurd small (by decide)
  · rw [← (List.cons.inj lowered).1] at h
    exact absurd (List.singleton_inj.1 h).symm steady.2.2.1
  · obtain ⟨image, rfl⟩ := List.cons.inj lowered
    refine ⟨?_, rfl⟩
    have code : applyRuns lowerRuns x.toNat = z.toNat := by
      have code := toNat_ofNat (applyRuns lowerRuns x.toNat)
      rw [image] at code
      refine (code.resolve_right fun none => ?_).symm
      rw [Char.toNat_inj.1 (show z.toNat = (Char.ofNat 0).toNat from none)] at h
      rw [← List.singleton_inj.1 h] at steady
      exact absurd steady (by decide)
    have reached : ∀ run ∈ lowerRuns, run.Misses 0x17F ∧ (128 ≤ run.2.2.2 ∨ run.2.2.2 = 107 ∧ run.1 = run.2.1) := by
      decide +kernel
    rcases applyRuns_cases code with same | ⟨run, hrun, hits, first, last⟩
    · rwa [Char.toNat_inj.1 same]
    · -- no image is a letter of this kind but the small k
      have here := reached run hrun
      rcases small with ascii' | rfl
      · have isK : z.toNat = 107 := by
          simp only [CaseRun.Misses] at hits
          omega
        rw [Char.toNat_inj.1 (show z.toNat = 'k'.toNat from isK)] at h
        exact absurd (List.singleton_inj.1 h).symm steady.2.2.2
      · exact absurd here.1 hits

end

/-! ## Words -/

/-- a word in capitals that is spelled letter by letter only -/
structure Steady (word : String) : Prop where
  letters : ∀ y ∈ word.toList, SteadyLetter y
  noLigature : ∀ entry ∈ upperExpansions, ¬ entry.2.map Char.ofNat <:+: word.toList

/-- the characters are these letters in upper case, one by one -/
def SpellsLetters (text word : List Char) : Prop := List.Forall₂ (fun x y => upperChar x = [y]) text word

theorem flatMap_upperChar_of_spellsLetters {text word : List Char} (h : SpellsLetters text word) :
    text.flatMap upperChar = word := by
  induction h with
  | nil => rfl
  | cons first _ ih => rw [List.flatMap_cons, first, ih]; rfl

theorem spellsLetters_of_flatMap_upperChar {text word : List Char}
    (noLigature : ∀ entry ∈ upperExpansions, ¬ entry.2.map Char.ofNat <:+: word)
    (h : text.flatMap upperChar = word) : SpellsLetters text word := by
  induction text generalizing word with
  | nil => rw [← h]; exact .nil
  | cons x text ih =>
    rw [List.flatMap_cons] at h
    have single : ∃ y, upperChar x = [y] := by
      unfold upperChar at h ⊢
      split_ifs at h ⊢ with ascii
      · exact ⟨_, rfl⟩
      · split at h
        · rename_i codes found
          refine absurd ?_ (noLigature _ (List.mem_of_find?_eq_some found))
          rw [← h]
          exact (List.prefix_append _ _).isInfix
        · exact ⟨_, rfl⟩
    obtain ⟨y, first⟩ := single
    rw [first, List.singleton_append] at h
    rw [← h]
    refine .cons first (ih (fun entry he within => noLigature entry he ?_) rfl)
    rw [← h]
    exact within.trans (List.suffix_cons _ _).isInfix

theorem spellsLetters_lowerFrom_iff {before text word : List Char} (letters : ∀ y ∈ word, SteadyLetter y) :
    SpellsLetters (lowerFrom before text) word ↔ SpellsLetters text word := by
  induction text generalizing before word with
  | nil => rfl
  | cons x text ih =>
    rw [lowerFrom]
    constructor
    · intro h
      cases lowered : lowerChar before x text with
      | nil =>
        have filled : lowerChar before x text ≠ [] := by
          unfold lowerChar
          split_ifs <;> exact List.cons_ne_nil _ _
        exact absurd lowered filled
      | cons z more =>
        rw [lowered] at h
        cases h with
        | @cons _ y _ word first rest =>
          rw [List.forall_mem_cons] at letters
          obtain ⟨here, rfl⟩ := steady_of_lowerChar letters.1 lowered first
          exact .cons here ((ih letters.2).1 rest)
    · intro h
      cases h with
      | @cons _ y _ word first rest =>
        rw [List.forall_mem_cons] at letters
        obtain ⟨z, lowered, here⟩ := lowerChar_of_steady letters.1 first before text
        rw [lowered]
        exact .cons here ((ih letters.2).2 rest)

section
variable {text word : String} (steady : Steady word)

include steady

theorem upper_eq_iff : upper text = word ↔ SpellsLetters text.toList word.toList := by
  rw [upper, ← String.toList_inj, String.toList_ofList]
  exact ⟨spellsLetters_of_flatMap_upperChar steady.noLigature, flatMap_upperChar_of_spellsLetters⟩

/-- a text spells a steady word exactly if it does so in lower case -/
theorem upper_lower_eq_iff : upper (lower text) = word ↔ upper text = word := by
  rw [upper_eq_iff steady, upper_eq_iff steady, lower, String.toList_ofList,
    spellsLetters_lowerFrom_iff steady.letters]

end

/-- a name spells a steady word if a word that spells it names the same -/
theorem upper_of_sameName {d : Dialect} {name text word : String} (steady : Steady word)
    (same : d.sameName name (d.normalize text false) = true) (spelled : upper text = word) : upper name = word := by
  have lowered : upper (lower text) = word := (upper_lower_eq_iff steady).2 spelled
  rw [Dialect.sameName, beq_iff_eq] at same
  cases d with
  | postgresql =>
    have isLower : name = lower text := same
    rw [isLower, lowered]
  | mysql | sqlite | mssql =>
    have sameLower : lower name = lower text := same
    rw [← upper_lower_eq_iff steady, sameLower, lowered]

end SchemaApi.Text
