import SchemaApi.Naming
import Mathlib.Tactic.SplitIfs
/-!
Words of names, and kebab case.

A name is cut at every character that is no ASCII letter or digit, and between letters and digits; capitals cut it once
more. Whatever the cut, each letter and digit is in one word, in order (`flatten_wordsFrom`), and a word in small letters
is of one class (`IsWord`). So kebab case is words with single hyphens between them (`IsKebab`). A hyphen is as good as any
other cut, and a word of one class is not cut, so the same words are found in it again (`words_kebab`).
-/

namespace SchemaApi.Naming

/-- small letters only or digits only, and at least one of them -/
structure IsWord (cs : List Char) : Prop where
  filled : cs ≠ []
  oneClass : (∀ c ∈ cs, isSmall c = true) ∨ ∀ c ∈ cs, c.isDigit = true

/-- words with single hyphens between them -/
inductive IsKebab : List Char → Prop where
  | word {w : List Char} (h : IsWord w) : IsKebab w
  | join {w rest : List Char} (h : IsWord w) (more : IsKebab rest) : IsKebab (w ++ '-' :: rest)

/-! ## Letters and digits -/

theorem isAlphanum_eq (c : Char) : c.isAlphanum = (c.isAlpha || c.isDigit) := rfl

/-- a letter is a capital or a small one -/
theorem isAlpha_eq (c : Char) : c.isAlpha = (isCapital c || isSmall c) := rfl

/-- what holds of the ASCII letters and digits, one by one -/
theorem of_isAlphanum (P : Char → Prop) (each : ∀ n < 128, (Char.ofNat n).isAlphanum = true → P (Char.ofNat n)) {c : Char}
    (h : c.isAlphanum = true) : P c := by
  have ascii : c.toNat < 128 := by
    have last : 'Z'.val.toNat = 90 ∧ 'z'.val.toNat = 122 ∧ '9'.val.toNat = 57 := by decide
    have capital : isCapital c = decide (c.val ≥ 'A'.val ∧ c.val ≤ 'Z'.val) := rfl
    have small : isSmall c = (c.val ≥ 'a'.val && c.val ≤ 'z'.val) := rfl
    have digit : c.isDigit = (c.val ≥ '0'.val && c.val ≤ '9'.val) := rfl
    simp only [isAlphanum_eq, isAlpha_eq, capital, small, digit, Bool.or_eq_true,
      Bool.and_eq_true, decide_eq_true_eq, UInt32.le_iff_toNat_le, ge_iff_le] at h
    rw [Char.toNat]
    omega
  have here := each c.toNat ascii
  rw [Char.ofNat_toNat] at here
  exact here h

theorem isAlphanum_iff (c : Char) : c.isAlphanum = true ↔ c.isAlpha = true ∨ c.isDigit = true := by
  rw [isAlphanum_eq, Bool.or_eq_true]

/-- the three classes have no character in common -/
theorem class_cases {c : Char} (h : c.isAlphanum = true) :
    (isSmall c = true ∧ isCapital c = false ∧ c.isDigit = false) ∨
    (isSmall c = false ∧ isCapital c = true ∧ c.isDigit = false) ∨
    (isSmall c = false ∧ isCapital c = false ∧ c.isDigit = true) :=
  of_isAlphanum (fun c => (isSmall c = true ∧ isCapital c = false ∧ c.isDigit = false) ∨
    (isSmall c = false ∧ isCapital c = true ∧ c.isDigit = false) ∨
    (isSmall c = false ∧ isCapital c = false ∧ c.isDigit = true)) (by decide) h

theorem isSmall_toLower {c : Char} (letter : c.isAlpha = true) : isSmall c.toLower = true :=
  of_isAlphanum (fun c => c.isAlpha = true → isSmall c.toLower = true) (by decide) ((isAlphanum_iff c).2 (Or.inl letter))
    letter

/-- small letters and digits are their own lower case -/
theorem toLower_of_isSmall {c : Char} (small : isSmall c = true) : c.toLower = c := by
  have letter : c.isAlpha = true := by rw [isAlpha_eq, small, Bool.or_true]
  exact of_isAlphanum (fun c => isSmall c = true → c.toLower = c) (by decide) ((isAlphanum_iff c).2 (Or.inl letter)) small

theorem toLower_of_isDigit {c : Char} (digit : c.isDigit = true) : c.toLower = c :=
  of_isAlphanum (fun c => c.isDigit = true → c.toLower = c) (by decide) ((isAlphanum_iff c).2 (Or.inr digit)) digit

/-! ## Runs -/

theorem run_append_stop {p : Char → Bool} {stop : Char} (stops : p stop = false) (cs more : List Char) :
    run p (cs ++ stop :: more) = run p cs := by
  induction cs with
  | nil => simp [run, stops]
  | cons c cs ih =>
    rw [List.cons_append]
    by_cases inside : p c = true
    · simp only [run, List.takeWhile_cons_of_pos inside, List.length_cons] at ih ⊢
      rw [ih]
    · simp only [run, List.takeWhile_cons_of_neg inside]

theorem run_le (p : Char → Bool) (cs : List Char) : run p cs ≤ cs.length :=
  (List.takeWhile_sublist p).length_le

/-- a run holds nothing but characters of its class -/
theorem of_mem_take_run {p : Char → Bool} {cs : List Char} {c : Char} (h : c ∈ cs.take (run p cs)) : p c = true := by
  have taken : cs.take (run p cs) = cs.takeWhile p := (List.prefix_iff_eq_take.1 (List.takeWhile_prefix p)).symm
  rw [taken] at h
  exact List.all_eq_true.1 (List.all_takeWhile (p := p)) c h

/-- characters of one class are a run -/
theorem run_eq_length {p : Char → Bool} {cs : List Char} (all : ∀ c ∈ cs, p c = true) : run p cs = cs.length := by
  have taken := @List.takeWhile_append_of_pos _ p cs [] all
  rw [List.append_nil, List.takeWhile_nil, List.append_nil] at taken
  rw [run, taken]

/-! ## One word -/

theorem wordLength_le (c : Char) (rest : List Char) : wordLength c rest ≤ rest.length + 1 := by
  have small := run_le isSmall rest
  have capital := run_le isCapital rest
  have digit := run_le Char.isDigit rest
  unfold wordLength
  dsimp only
  split_ifs <;> omega

/-- no word begins with a character that is no letter or digit -/
theorem wordLength_of_not_alphanum {c : Char} (other : c.isAlphanum = false) (rest : List Char) : wordLength c rest = 0 := by
  simp only [isAlphanum_eq, isAlpha_eq, Bool.or_eq_false_iff] at other
  obtain ⟨⟨capital, small⟩, digit⟩ := other
  simp only [wordLength, capital, small, digit, Bool.false_eq_true, if_false]

/-- a word begins with every letter or digit, and it is letters only or digits only -/
theorem exists_wordLength {c : Char} (known : c.isAlphanum = true) (rest : List Char) : ∃ n, wordLength c rest = n + 1 ∧
    ((∀ x ∈ c :: rest.take n, x.isAlpha = true) ∨ ∀ x ∈ c :: rest.take n, x.isDigit = true) := by
  have letter : ∀ {x}, isSmall x = true ∨ isCapital x = true → x.isAlpha = true := by
    rintro x (small | capital)
    · rw [isAlpha_eq, small, Bool.or_true]
    · rw [isAlpha_eq, capital, Bool.true_or]
  have ofRun : ∀ {p : Char → Bool} {n}, n ≤ run p rest → ∀ x ∈ rest.take n, p x = true := by
    intro p n within x hx
    exact of_mem_take_run ((List.take_sublist_take_left within).subset hx)
  rcases class_cases known with ⟨small, -, -⟩ | ⟨small, capital, -⟩ | ⟨small, capital, digit⟩
  · refine ⟨run isSmall rest, by rw [wordLength, if_pos small, Nat.add_comm], Or.inl ?_⟩
    exact List.forall_mem_cons.2 ⟨letter (Or.inl small), fun x hx => letter (Or.inl (ofRun (Nat.le_refl _) x hx))⟩
  · have first : c.isAlpha = true := letter (Or.inr capital)
    have capitals : ∀ {n}, n ≤ run isCapital rest → ∀ x ∈ c :: rest.take n, x.isAlpha = true := fun within =>
      List.forall_mem_cons.2 ⟨first, fun x hx => letter (Or.inr (ofRun within x hx))⟩
    simp only [wordLength, small, capital, Bool.false_eq_true, if_false, if_true]
    split_ifs with follows next
    · refine ⟨run isSmall rest, Nat.add_comm .., Or.inl ?_⟩
      exact List.forall_mem_cons.2 ⟨first, fun x hx => letter (Or.inl (ofRun (Nat.le_refl _) x hx))⟩
    · -- the last capital belongs to the next word, so there is another one
      have more : run isCapital rest ≠ 0 := by
        intro none
        rw [none, List.drop_zero] at next
        cases rest with
        | nil => simp at next
        | cons x rest =>
          simp only [List.head?_cons, Option.map_some, Option.getD_some] at next
          simp [run, List.takeWhile_cons_of_pos next] at follows
      exact ⟨run isCapital rest - 1, by omega, Or.inl (capitals (Nat.sub_le ..))⟩
    · exact ⟨run isCapital rest, Nat.add_comm .., Or.inl (capitals (Nat.le_refl _))⟩
  · refine ⟨run Char.isDigit rest, ?_, Or.inr ?_⟩
    · simp only [wordLength, small, capital, digit, Bool.false_eq_true, if_false, if_true, Nat.add_comm]
    · exact List.forall_mem_cons.2 ⟨digit, ofRun (Nat.le_refl _)⟩

/-- what is no letter or digit ends a word -/
theorem wordLength_append_stop {stop : Char} (stops : stop.isAlphanum = false) (c : Char) (rest more : List Char) :
    wordLength c (rest ++ stop :: more) = wordLength c rest := by
  simp only [isAlphanum_eq, isAlpha_eq, Bool.or_eq_false_iff] at stops
  obtain ⟨⟨capital, small⟩, digit⟩ := stops
  have within := run_le isCapital rest
  have next : ((((rest ++ stop :: more).drop (run isCapital rest)).head?.map isSmall).getD false) =
      (((rest.drop (run isCapital rest)).head?.map isSmall).getD false) := by
    rw [List.drop_append_of_le_length within]
    cases rest.drop (run isCapital rest) with
    | nil => exact small
    | cons x _ => rfl
  unfold wordLength
  simp only [run_append_stop small, run_append_stop capital, run_append_stop digit, next]

/-! ## All words -/

theorem wordsFrom_of_not_alphanum {c : Char} (other : c.isAlphanum = false) (rest : List Char) :
    wordsFrom 0 (c :: rest) = wordsFrom 0 rest := by
  rw [wordsFrom, wordLength_of_not_alphanum other]

theorem wordsFrom_append_stop {stop : Char} (stops : stop.isAlphanum = false) {skip : Nat} {cs : List Char}
    (within : skip ≤ cs.length) (more : List Char) :
    wordsFrom skip (cs ++ stop :: more) = wordsFrom skip cs ++ wordsFrom 0 more := by
  induction cs generalizing skip with
  | nil =>
    obtain rfl := Nat.le_zero.1 within
    exact wordsFrom_of_not_alphanum stops more
  | cons c cs ih =>
    cases skip with
    | succ skip => exact ih (Nat.le_of_succ_le_succ within)
    | zero =>
      have fits := wordLength_le c cs
      rw [List.cons_append, wordsFrom, wordsFrom, wordLength_append_stop stops]
      cases size : wordLength c cs with
      | zero => exact ih (Nat.zero_le _)
      | succ n =>
        have inside : n ≤ cs.length := by omega
        dsimp only
        rw [ih inside, List.cons_append, List.take_succ_cons, List.take_succ_cons,
          List.take_append_of_le_length inside]

/-- all words as written are the letters and digits behind those of the word before -/
theorem flatten_wordsFrom (skip : Nat) (cs : List Char) :
    (wordsFrom skip cs).flatten = (cs.drop skip).filter Char.isAlphanum := by
  induction cs generalizing skip with
  | nil => cases skip <;> rfl
  | cons c cs ih =>
    cases skip with
    | succ skip => exact ih skip
    | zero =>
      rw [List.drop_zero]
      by_cases known : c.isAlphanum = true
      · obtain ⟨n, size, oneClass⟩ := exists_wordLength known cs
        have taken : (cs.take n).filter Char.isAlphanum = cs.take n := by
          refine List.filter_eq_self.2 fun x hx => (isAlphanum_iff x).2 ?_
          exact oneClass.imp (fun all => all x (List.mem_cons_of_mem c hx)) fun all => all x (List.mem_cons_of_mem c hx)
        rw [wordsFrom, size]
        calc
          ((c :: cs).take (n + 1) :: wordsFrom n cs).flatten = c :: (cs.take n ++ (cs.drop n).filter Char.isAlphanum) := by
            rw [List.flatten_cons, ih, List.take_succ_cons, List.cons_append]
          _ = c :: (cs.take n ++ cs.drop n).filter Char.isAlphanum := by rw [List.filter_append, taken]
          _ = (c :: cs).filter Char.isAlphanum := by rw [List.take_append_drop, List.filter_cons_of_pos known]
      · rw [wordsFrom_of_not_alphanum (Bool.eq_false_iff.2 known), List.filter_cons_of_neg known]
        exact ih 0

/-- in small letters every word is of one class -/
theorem isWord_of_mem_wordsFrom {skip : Nat} {cs w : List Char} (h : w ∈ wordsFrom skip cs) :
    IsWord (w.map Char.toLower) := by
  induction cs generalizing skip with
  | nil => cases skip <;> simp [wordsFrom] at h
  | cons c cs ih =>
    cases skip with
    | succ skip => exact ih h
    | zero =>
      by_cases known : c.isAlphanum = true
      · obtain ⟨n, size, oneClass⟩ := exists_wordLength known cs
        rw [wordsFrom, size] at h
        rcases List.mem_cons.1 h with rfl | later
        · rw [List.take_succ_cons]
          refine ⟨by simp, oneClass.imp (fun all => ?_) fun all => ?_⟩
          · exact List.forall_mem_map.2 fun x hx => isSmall_toLower (all x hx)
          · refine List.forall_mem_map.2 fun x hx => ?_
            rw [toLower_of_isDigit (all x hx)]
            exact all x hx
        · exact ih later
      · rw [wordsFrom_of_not_alphanum (Bool.eq_false_iff.2 known)] at h
        exact ih h

/-- nothing is left behind the last word -/
theorem wordsFrom_of_length_le {skip : Nat} {cs : List Char} (beyond : cs.length ≤ skip) : wordsFrom skip cs = [] := by
  induction cs generalizing skip with
  | nil => cases skip <;> rfl
  | cons c cs ih =>
    cases skip with
    | zero => simp at beyond
    | succ skip => exact ih (Nat.le_of_succ_le_succ beyond)

/-- a word of one class is not cut -/
theorem wordsFrom_of_isWord {cs : List Char} (h : IsWord cs) : wordsFrom 0 cs = [cs] := by
  cases cs with
  | nil => exact absurd rfl h.filled
  | cons c cs =>
    have size : wordLength c cs = cs.length + 1 := by
      rcases h.oneClass with small | digits
      · have first := small c List.mem_cons_self
        rw [wordLength, if_pos first, run_eq_length fun x hx => small x (List.mem_cons_of_mem c hx), Nat.add_comm]
      · have first := digits c List.mem_cons_self
        rcases class_cases ((isAlphanum_iff c).2 (Or.inr first)) with ⟨-, -, digit⟩ | ⟨-, -, digit⟩ | ⟨small, capital, -⟩
        · rw [first] at digit; contradiction
        · rw [first] at digit; contradiction
        · simp only [wordLength, small, capital, first, Bool.false_eq_true, if_false, if_true,
            run_eq_length fun x hx => digits x (List.mem_cons_of_mem c hx), Nat.add_comm]
    rw [wordsFrom, size]
    dsimp only
    rw [wordsFrom_of_length_le (Nat.le_refl _), ← List.length_cons, List.take_length]

/-! ## Kebab case -/

theorem IsWord.map_toLower {cs : List Char} (h : IsWord cs) : cs.map Char.toLower = cs := by
  refine (List.map_congr_left fun c hc => ?_).trans (List.map_id _)
  rcases h.oneClass with small | digits
  · exact toLower_of_isSmall (small c hc)
  · exact toLower_of_isDigit (digits c hc)

theorem isWord_of_mem_words {name word : String} (h : word ∈ words name) : IsWord word.toList := by
  obtain ⟨w, hw, rfl⟩ := List.mem_map.1 h
  rw [String.toList_ofList]
  exact isWord_of_mem_wordsFrom hw

/-- no letter or digit is lost, and they stay in order -/
theorem flatMap_words (name : String) :
    (words name).flatMap String.toList = (name.toList.filter Char.isAlphanum).map Char.toLower := by
  rw [words, List.flatMap_map]
  simp only [String.toList_ofList]
  rw [List.flatMap_def, ← List.map_flatten, flatten_wordsFrom, List.drop_zero]

/-- there are no words exactly if there are no letters and digits -/
theorem words_eq_nil_iff (name : String) : words name = [] ↔ ∀ c ∈ name.toList, c.isAlphanum = false := by
  have filled : words name = [] ↔ (words name).flatMap String.toList = [] := by
    rw [List.flatMap_eq_nil_iff]
    refine ⟨fun none word hw => ?_, fun none => List.eq_nil_iff_forall_not_mem.2 fun word hw => ?_⟩
    · rw [none] at hw
      exact absurd hw List.not_mem_nil
    · exact (isWord_of_mem_words hw).filled (none word hw)
  rw [filled, flatMap_words, List.map_eq_nil_iff, List.filter_eq_nil_iff]
  simp only [Bool.not_eq_true]

theorem isKebab_intercalate {ws : List (List Char)} (each : ∀ w ∈ ws, IsWord w) (some : ws ≠ []) :
    IsKebab (['-'].intercalate ws) := by
  induction ws with
  | nil => exact absurd rfl some
  | cons w ws ih =>
    have first := each w List.mem_cons_self
    cases ws with
    | nil => simpa using IsKebab.word first
    | cons v ws =>
      have more := ih (fun x hx => each x (List.mem_cons_of_mem w hx)) (List.cons_ne_nil v ws)
      simpa using IsKebab.join first more

/-- words with hyphens between them are cut at the hyphens -/
theorem wordsFrom_intercalate {ws : List (List Char)} (each : ∀ w ∈ ws, IsWord w) :
    wordsFrom 0 (['-'].intercalate ws) = ws := by
  induction ws with
  | nil => rfl
  | cons w ws ih =>
    have first := wordsFrom_of_isWord (each w List.mem_cons_self)
    have later := ih fun x hx => each x (List.mem_cons_of_mem w hx)
    cases ws with
    | nil => simpa using first
    | cons v ws =>
      have hyphen : '-'.isAlphanum = false := rfl
      have cut := wordsFrom_append_stop hyphen (Nat.zero_le w.length) (['-'].intercalate (v :: ws))
      rw [first, later] at cut
      simpa using cut

theorem toList_kebab (name : String) : (kebab name).toList = ['-'].intercalate ((words name).map String.toList) := by
  rw [kebab, String.toList_intercalate]
  rfl

/-- kebab case has the same words -/
theorem words_kebab (name : String) : words (kebab name) = words name := by
  have each : ∀ w ∈ (words name).map String.toList, IsWord w :=
    List.forall_mem_map.2 fun word hw => isWord_of_mem_words hw
  rw [words, toList_kebab, wordsFrom_intercalate each, List.map_map]
  refine (List.map_congr_left fun word hw => ?_).trans (List.map_id _)
  rw [Function.comp_apply, (isWord_of_mem_words hw).map_toLower, String.ofList_toList]
  rfl

theorem kebab_eq_empty_iff (name : String) : kebab name = "" ↔ words name = [] := by
  refine ⟨fun none => ?_, fun none => by rw [kebab, none]; rfl⟩
  rw [← words_kebab, none]
  rfl

/-- Kebab case loses nothing and is stable: the words are the letters and digits of the name in small letters; kebab case
is empty where there are none, and else words with single hyphens between them; and it is its own kebab case. -/
theorem kebab_lossless (name : String) :
    (words name).flatMap String.toList = (name.toList.filter Char.isAlphanum).map Char.toLower ∧
    ((kebab name = "" ∧ ∀ c ∈ name.toList, c.isAlphanum = false) ∨
      (IsKebab (kebab name).toList ∧ ∃ c ∈ name.toList, c.isAlphanum = true)) ∧
    kebab (kebab name) = kebab name := by
  refine ⟨flatMap_words name, ?_, by rw [kebab, words_kebab, ← kebab]⟩
  by_cases none : words name = []
  · exact Or.inl ⟨(kebab_eq_empty_iff name).2 none, (words_eq_nil_iff name).1 none⟩
  · refine Or.inr ⟨?_, ?_⟩
    · rw [toList_kebab]
      refine isKebab_intercalate (List.forall_mem_map.2 fun word hw => isWord_of_mem_words hw) ?_
      simpa using none
    · simpa [words_eq_nil_iff] using none

-- capitals, digits and signs of all kinds, cut once and not again
example : kebab "HTTPServer2_Name--ÄX9y" = "http-server-2-name-x-9-y" ∧
    kebab "http-server-2-name-x-9-y" = "http-server-2-name-x-9-y" := by
  decide +kernel

end SchemaApi.Naming
