import SchemaApi.Proofs.Token.Cut
import Mathlib.Data.List.Sort
/-!
The raw tokens that tokens are made of.

Merging puts the raw tokens of a script into bundles: a word that begins a phrase with the other words of the phrase, and
every other token alone. How they are put depends on nothing but the words they spell, so scripts whose raw tokens spell
the same have the same bundles; and a phrase is settled by its own words, so neighbouring bundles stay the same in a
script that ends behind them.
-/

namespace SchemaApi

open Text

/-! ## Words -/

/-- the word in capitals that an unquoted word spells -/
def Token.spelling? (t : Token) : Option String := if t.isWord && !t.quoted then some (upper t.text) else none

section
variable {d : Dialect} {t t' : Token}

theorem spells_congr (same : t'.spelling? = t.spelling?) (word : String) : t'.spells word = t.spells word := by
  have iff : ∀ t : Token, t.spells word = (t.spelling? == some word) := by
    intro t
    rw [Token.spells, Token.spelling?]
    cases t.isWord && !t.quoted <;> simp
  rw [iff t, iff t', same]

theorem phrasesAt_congr (same : t'.spelling? = t.spelling?) : phrasesAt d t' = phrasesAt d t := by
  have match' : ∀ t : Token, phrasesAt d t = (t.spelling?.map d.phrasesFrom).getD [] := by
    intro t
    rw [phrasesAt, Token.spelling?, Dialect.phrasesStarting]
    cases t.isWord && !t.quoted <;> rfl
  rw [match' t, match' t', same]

/-! ## Phrases at the head of a list -/

theorem phraseAt_congr {words : List String} {ts ts' : List Token}
    (same : List.Forall₂ (fun t t' : Token => t'.spelling? = t.spelling?) ts ts') :
    phraseAt words ts' = phraseAt words ts := by
  induction same generalizing words with
  | nil => rfl
  | cons first _ ih =>
    cases words with
    | nil => rfl
    | cons word words => rw [phraseAt, phraseAt, spells_congr first, ih]

theorem phraseAt_take {words : List String} {ts : List Token} {n : Nat} (fits : words.length ≤ n) :
    phraseAt words (ts.take n) = phraseAt words ts := by
  induction words generalizing ts n with
  | nil => rfl
  | cons word words ih =>
    obtain ⟨n, rfl⟩ : ∃ m, n = m + 1 := ⟨n - 1, by rw [List.length_cons] at fits; omega⟩
    cases ts with
    | nil => rfl
    | cons t ts => rw [List.take_succ_cons, phraseAt, phraseAt, ih (Nat.le_of_succ_le_succ fits)]

theorem phraseAt_append_of_le {words : List String} {ts : List Token} (fits : words.length ≤ ts.length)
    (more : List Token) : phraseAt words (ts ++ more) = phraseAt words ts := by
  rw [← phraseAt_take fits, List.take_left]

/-- phrases are tried longest first -/
theorem pairwise_phrasesAt (d : Dialect) (t : Token) : (phrasesAt d t).Pairwise fun a b => b.length ≤ a.length := by
  rw [phrasesAt]
  split_ifs
  · have ordered := @List.pairwise_mergeSort _ (fun a b : List String => decide (b.length ≤ a.length))
      (fun a b c first second => by simp only [decide_eq_true_eq] at *; omega)
      (fun a b => by simp only [Bool.or_eq_true, decide_eq_true_eq]; omega)
      (d.phrases.filter fun phrase => phrase.head? == some (upper t.text))
    exact ordered.imp of_decide_eq_true
  · exact .nil

theorem length_le_of_mem_phrasesAt {longest phrase : List String} {shorter : List (List String)}
    (candidates : phrasesAt d t = longest :: shorter) (h : phrase ∈ longest :: shorter) :
    phrase.length ≤ longest.length := by
  have sorted := pairwise_phrasesAt d t
  rw [candidates, List.pairwise_cons] at sorted
  rcases List.mem_cons.1 h with rfl | later
  · exact Nat.le_refl _
  · exact sorted.1 phrase later

/-- a phrase has two words at least -/
theorem two_le_of_mem_phrasesAt {phrase : List String} (h : phrase ∈ phrasesAt d t) : 2 ≤ phrase.length := by
  have several : ∀ phrase ∈ d.phrases, 2 ≤ phrase.length := by cases d <;> decide
  unfold phrasesAt at h
  split_ifs at h
  · simp only [Dialect.phrasesStarting, Dialect.phrasesFrom, List.mem_mergeSort, List.mem_filter] at h
    exact several phrase h.1
  · contradiction

/-- how many raw tokens behind the first belong to the token at the head of a list -/
def further (d : Dialect) : List Token → Nat
  | [] => 0
  | t :: ts =>
    match (phrasesAt d t).find? (phraseAt · (t :: ts)) with
    | none => 0
    | some phrase => phrase.length - 1

theorem further_congr {ts ts' : List Token}
    (same : List.Forall₂ (fun t t' : Token => t'.spelling? = t.spelling?) ts ts') : further d ts' = further d ts := by
  cases same with
  | nil => rfl
  | cons first rest =>
    have phrases : ∀ words, phraseAt words (_ :: _) = phraseAt words (_ :: _) := fun words =>
      phraseAt_congr (.cons first rest)
    simp only [further, phrasesAt_congr first, phrases]

theorem further_lt (t : Token) (ts : List Token) : further d (t :: ts) ≤ ts.length := by
  rw [further]
  split
  · exact Nat.zero_le _
  · rename_i phrase found
    have fits := length_le_of_phraseAt (@List.find?_some _ _ phrase _ found)
    rw [List.length_cons] at fits
    omega

/-- the words of a token are the same if less stands behind them -/
theorem further_append {t : Token} {ts more : List Token} (fits : further d (t :: (ts ++ more)) ≤ ts.length) :
    further d (t :: ts) = further d (t :: (ts ++ more)) := by
  -- a phrase found in the shorter list stands in the longer one, too
  have longer : ∀ words, phraseAt words (t :: ts) = true → phraseAt words (t :: (ts ++ more)) = true := by
    intro words here
    rw [← List.cons_append, phraseAt_append_of_le (length_le_of_phraseAt here)]
    exact here
  rw [further] at fits
  rw [further, further]
  cases found : (phrasesAt d t).find? (phraseAt · (t :: (ts ++ more))) with
  | none =>
    have none' : (phrasesAt d t).find? (phraseAt · (t :: ts)) = none :=
      List.find?_eq_none.2 fun words listed here => List.find?_eq_none.1 found words listed (longer words here)
    rw [none']
  | some phrase =>
    obtain ⟨here, before, behind, list, tried⟩ := List.find?_eq_some_iff_append.1 found
    have several := two_le_of_mem_phrasesAt (List.mem_of_find?_eq_some found)
    simp only [found] at fits
    have found' : (phrasesAt d t).find? (phraseAt · (t :: ts)) = some phrase := by
      refine List.find?_eq_some_iff_append.2 ⟨?_, before, behind, list, fun words first => ?_⟩
      · rwa [← List.cons_append, phraseAt_append_of_le (by rw [List.length_cons]; omega)] at here
      · have other := tried words first
        rw [Bool.not_eq_true', Bool.eq_false_iff] at other ⊢
        exact mt (longer words) other
    rw [found']

end

/-! ## Bundles -/

/-- the raw tokens that one token is made of -/
structure Bundle where
  first : Token
  more : List Token

namespace Bundle

def all (b : Bundle) : List Token := b.first :: b.more

/-- the token that the raw ones are merged to -/
def token (text : List Char) (b : Bundle) : Token :=
  if b.more = [] then b.first else phraseToken text b.first (b.more.getLastD b.first) b.all

end Bundle

/-- the raw tokens of bundles, one behind the other -/
def unbundled (bundles : List Bundle) : List Token := bundles.flatMap Bundle.all

@[simp] theorem unbundled_cons (b : Bundle) (rest : List Bundle) :
    unbundled (b :: rest) = b.first :: (b.more ++ unbundled rest) :=
  List.flatMap_cons ..

@[simp] theorem unbundled_append (a b : List Bundle) : unbundled (a ++ b) = unbundled a ++ unbundled b :=
  List.flatMap_append ..

/-- bundles as merging puts them -/
inductive Bundled (d : Dialect) : List Bundle → Prop where
  | nil : Bundled d []
  | cons {b : Bundle} {rest : List Bundle} (size : further d (unbundled (b :: rest)) = b.more.length)
      (later : Bundled d rest) : Bundled d (b :: rest)

section
variable {d : Dialect} {bundles : List Bundle}

theorem exists_bundled (d : Dialect) (ts : List Token) : ∃ bundles, Bundled d bundles ∧ unbundled bundles = ts := by
  induction size : ts.length using Nat.strong_induction_on generalizing ts with
  | _ n ih =>
    cases ts with
    | nil => exact ⟨[], .nil, rfl⟩
    | cons t ts =>
      have fits := further_lt (d := d) t ts
      obtain ⟨rest, later, tokens⟩ :=
        ih (ts.drop (further d (t :: ts))).length (by rw [List.length_drop, ← size, List.length_cons]; omega) _ rfl
      have whole : unbundled (⟨t, ts.take (further d (t :: ts))⟩ :: rest) = t :: ts := by
        rw [unbundled_cons, tokens, List.take_append_drop]
      exact ⟨_, .cons (by rw [whole, List.length_take_of_le fits]) later, whole⟩

theorem Bundled.of_append {a b : List Bundle} (h : Bundled d (a ++ b)) : Bundled d a ∧ Bundled d b := by
  induction a with
  | nil => exact ⟨.nil, h⟩
  | cons x a ih =>
    cases h with
    | cons size later =>
      obtain ⟨before, behind⟩ := ih later
      refine ⟨.cons ?_ before, behind⟩
      rw [List.append_eq, unbundled_cons, unbundled_append, ← List.append_assoc] at size
      rw [unbundled_cons, further_append, size]
      rw [size, List.length_append]
      exact Nat.le_add_right _ _

/-! ## Merging -/

section
variable {text : List Char}

theorem mergeFrom_skip {n : Nat} {ts : List Token} (fits : n ≤ ts.length) :
    mergeFrom d text n (.ofList ts) = mergeFrom d text 0 (.ofList (ts.drop n)) := by
  induction ts generalizing n with
  | nil =>
    obtain rfl := Nat.le_zero.1 fits
    rfl
  | cons t ts ih =>
    cases n with
    | zero => rfl
    | succ n => exact ih (Nat.le_of_succ_le_succ fits)

theorem mergeFrom_further (t : Token) (ts : List Token) : mergeFrom d text 0 (.ofList (t :: ts)) =
    .token (Bundle.token text ⟨t, ts.take (further d (t :: ts))⟩)
      (mergeFrom d text (further d (t :: ts)) (.ofList ts)) := by
  rw [mergeFrom_cons, further]
  cases candidates : phrasesAt d t with
  | nil => rfl
  | cons longest shorter =>
    have window : (longest :: shorter).find? (phraseAt · ((t :: ts).take longest.length)) =
        (longest :: shorter).find? (phraseAt · (t :: ts)) :=
      List.find?_congr fun words listed => phraseAt_take (length_le_of_mem_phrasesAt candidates listed)
    simp only [window]
    cases found : (longest :: shorter).find? (phraseAt · (t :: ts)) with
    | none => rfl
    | some phrase =>
      have listed := List.mem_of_find?_eq_some found
      have several := two_le_of_mem_phrasesAt (candidates ▸ listed)
      have fits := length_le_of_phraseAt (@List.find?_some _ _ phrase _ found)
      have inside := length_le_of_mem_phrasesAt candidates listed
      obtain ⟨n, count⟩ : ∃ n, phrase.length = n + 2 := ⟨phrase.length - 2, by omega⟩
      rw [List.length_cons] at fits
      have words : ((t :: ts).take longest.length).take (n + 2) = t :: ts.take (n + 1) := by
        rw [List.take_take, Nat.min_eq_left (count ▸ inside)]
        rfl
      have more : ts.take (n + 1) ≠ [] := by
        rw [ne_eq, List.take_eq_nil_iff, not_or]
        exact ⟨Nat.succ_ne_zero n, fun none => by rw [none, List.length_nil] at fits; omega⟩
      simp only [count, words, Nat.add_succ_sub_one, Bundle.token, if_neg more, Bundle.all, List.getLastD_cons]

/-- merging makes one token of each bundle -/
theorem mergeFrom_bundled (h : Bundled d bundles) :
    mergeFrom d text 0 (.ofList (unbundled bundles)) = .ofList (bundles.map (Bundle.token text)) := by
  induction h with
  | nil => rfl
  | @cons b rest size _ ih =>
    have all := size
    rw [unbundled_cons] at size ⊢
    rw [mergeFrom_further, size, List.take_left, mergeFrom_skip (by rw [List.length_append]; omega), List.drop_left, ih]
    rfl

end

/-! ## Bundles of scripts whose words are the same -/

/-- raw token beside raw token -/
structure Bundle.Alike (R : Token → Token → Prop) (b b' : Bundle) : Prop where
  first : R b.first b'.first
  more : List.Forall₂ R b.more b'.more

variable {R : Token → Token → Prop}

theorem Bundle.Alike.alone_iff {b b' : Bundle} (h : b.Alike R b') : b'.more = [] ↔ b.more = [] := by
  rw [← List.length_eq_zero_iff, ← List.length_eq_zero_iff, h.more.length_eq]

theorem forall₂_unbundled {bundles' : List Bundle} (h : List.Forall₂ (Bundle.Alike R) bundles bundles') :
    List.Forall₂ R (unbundled bundles) (unbundled bundles') := by
  induction h with
  | nil => exact .nil
  | cons first _ ih =>
    rw [unbundled_cons, unbundled_cons]
    exact .cons first.first (List.rel_append first.more ih)

theorem exists_alike {ts' : List Token} (h : List.Forall₂ R (unbundled bundles) ts') :
    ∃ bundles', List.Forall₂ (Bundle.Alike R) bundles bundles' ∧ unbundled bundles' = ts' := by
  induction bundles generalizing ts' with
  | nil =>
    cases h
    exact ⟨[], .nil, rfl⟩
  | cons b bundles ih =>
    rw [unbundled_cons] at h
    obtain ⟨first, others, one, rest, rfl⟩ := List.forall₂_cons_left_iff.1 h
    obtain ⟨more, later, rfl, own, rest⟩ := exists_of_forall₂_append rest
    obtain ⟨bundles', same, rfl⟩ := ih rest
    exact ⟨⟨first, more⟩ :: bundles', .cons ⟨one, own⟩ same, unbundled_cons ..⟩

/-- raw tokens that spell the same are put into the same bundles -/
theorem Bundled.alike (h : Bundled d bundles) (words : ∀ t t', R t t' → t'.spelling? = t.spelling?)
    {bundles' : List Bundle} (same : List.Forall₂ (Bundle.Alike R) bundles bundles') : Bundled d bundles' := by
  induction h generalizing bundles' with
  | nil =>
    cases same
    exact .nil
  | cons size _ ih =>
    have tokens := (forall₂_unbundled same).imp words
    obtain ⟨b', later', first, rest, rfl⟩ := List.forall₂_cons_left_iff.1 same
    exact .cons (by rw [further_congr tokens, size, first.more.length_eq]) (ih rest)

/-! ## Scripts -/

section
variable {text : List Char}

theorem tokenize_bundled (bundled : Bundled d bundles) (raw : scan d text = .ofList (unbundled bundles)) :
    tokenize d text = .ofList (bundles.map (Bundle.token text)) := by
  rw [tokenize, merge, raw, mergeFrom_bundled bundled]

theorem exists_bundles (complete : (tokenize d text).error? = none) : ∃ bundles, Bundled d bundles ∧
    scan d text = .ofList (unbundled bundles) ∧ tokenize d text = .ofList (bundles.map (Bundle.token text)) := by
  obtain ⟨bundles, bundled, raw⟩ := exists_bundled d (scan d text).toList
  have whole := TokenStream.eq_ofList (complete_of_mergeFrom complete)
  rw [← raw] at whole
  exact ⟨bundles, bundled, whole, tokenize_bundled bundled whole⟩

theorem Bundle.merged_token (b : Bundle) : Merged text b.all (b.token text) := by
  rw [Bundle.token, Bundle.all]
  split_ifs with alone
  · rw [alone]
    exact .single b.first
  · exact .phrase b.first b.more

@[simp] theorem Bundle.token_position (b : Bundle) : (b.token text).position = b.first.position := by
  rw [Bundle.token]
  split_ifs <;> rfl

/-- the last token ends with the last raw one -/
theorem stopOf_bundles {first : Nat} (laid : Laid d text first (unbundled bundles)) :
    stopOf first (bundles.map (Bundle.token text)) = stopOf first (unbundled bundles) := by
  have merged : List.Forall₂ (Merged text) (bundles.map Bundle.all) (bundles.map (Bundle.token text)) := by
    rw [List.forall₂_map_left_iff, List.forall₂_map_right_iff, List.forall₂_same]
    exact fun b _ => b.merged_token
  rw [unbundled, List.flatMap_def] at laid ⊢
  exact (laid_merged merged laid).2

/-! ## Words in other letters -/

/-- the tokens stand for the same -/
structure Token.SameMeaning (t t' : Token) : Prop where
  kind : t'.kind = t.kind
  value : t'.value = t.value
  quoted : t'.quoted = t.quoted

/-- the raw tokens are the same in a dialect but for the case of letters -/
structure Token.SameSense (d : Dialect) (t t' : Token) : Prop extends Token.SameMeaning t t' where
  capitals : upper t'.text = upper t.text
  name : t'.nameIn d = t.nameIn d

namespace Token.SameSense

variable {t t' : Token} (h : t.SameSense d t')

include h

theorem isWord : t'.isWord = t.isWord := by rw [Token.isWord, Token.isWord, h.kind]

theorem spelling? : t'.spelling? = t.spelling? := by
  rw [Token.spelling?, Token.spelling?, h.isWord, h.quoted, h.capitals]

theorem word? : t'.word? = t.word? := by
  rw [Token.word?, Token.word?, h.isWord, h.quoted, h.kind, h.value, h.capitals]

end Token.SameSense

theorem map_eq_of_forall₂ {α β : Type} {R : α → α → Prop} {f : α → β} {xs ys : List α} (h : List.Forall₂ R xs ys)
    (each : ∀ x y, R x y → f y = f x) : ys.map f = xs.map f := by
  induction h with
  | nil => rfl
  | cons first _ ih => rw [List.map_cons, List.map_cons, each _ _ first, ih]

/-- a token of several words is a phrase -/
theorem Bundle.isPhrase_token {b : Bundle} (several : b.more ≠ []) : (b.token text).isPhrase = true := by
  obtain ⟨second, others, more⟩ := List.exists_cons_of_ne_nil several
  rw [Bundle.token, if_neg several]
  simp [phraseToken, Token.isPhrase, Bundle.all, more, String.toList_intercalate]

section
variable {b b' : Bundle} (h : b.Alike (Token.SameSense d) b') (text text' : List Char)

include h

theorem Bundle.Alike.meaning : (b.token text).SameMeaning (b'.token text') := by
  rw [Bundle.token, Bundle.token]
  by_cases alone : b.more = []
  · rw [if_pos alone, if_pos (h.alone_iff.2 alone)]
    exact h.first.toSameMeaning
  · have words : b'.all.map (fun w => upper w.text) = b.all.map fun w => upper w.text :=
      map_eq_of_forall₂ (.cons h.first h.more) fun t t' same => same.capitals
    rw [if_neg alone, if_neg (mt h.alone_iff.1 alone)]
    exact ⟨rfl, by simp only [phraseToken, words], rfl⟩

theorem Bundle.Alike.word? : (b'.token text').word? = (b.token text).word? := by
  have meaning := h.meaning text text'
  by_cases alone : b.more = []
  · rw [Bundle.token, Bundle.token, if_pos alone, if_pos (h.alone_iff.2 alone)]
    exact h.first.word?
  · have keyword : (b.token text).kind = .keyword := by rw [Bundle.token, if_neg alone]; rfl
    have keyword' := meaning.kind.trans keyword
    simp only [Token.word?, Token.isWord, keyword, keyword', meaning.quoted, meaning.value, beq_self_eq_true, if_true]

theorem Bundle.Alike.name (single : (b.token text).isPhrase = false) :
    (b'.token text').nameIn d = (b.token text).nameIn d := by
  by_cases alone : b.more = []
  · rw [Bundle.token, Bundle.token, if_pos alone, if_pos (h.alone_iff.2 alone)]
    exact h.first.name
  · rw [Bundle.isPhrase_token alone] at single
    contradiction

end

/-! ## Parts of a script -/

theorem unbundled_within {part : List Bundle} (within : part <:+: bundles) : unbundled part <:+: unbundled bundles := by
  obtain ⟨ahead, later, rfl⟩ := within
  rw [unbundled_append, unbundled_append]
  exact List.infix_append ..

/-- neighbouring bundles are those of the part of the script that they stand in -/
theorem exists_part (bundled : Bundled d bundles) (raw : scan d text = .ofList (unbundled bundles)) {b : Bundle}
    {part : List Bundle} (within : b :: part <:+: bundles) : ∃ before piece behind part',
      text = before ++ piece ++ behind ∧ before.length = b.first.position.offset ∧
        before.length + piece.length = stopOf b.first.stop (b.more ++ unbundled part) ∧
          Bundled d part' ∧ scan d piece = .ofList (unbundled part') ∧
            List.Forall₂ (Bundle.Alike (Token.Nearer before.length)) (b :: part) part' := by
  have complete : (scan d text).error? = none := by rw [raw, TokenStream.error?_ofList]
  have here := unbundled_within within
  rw [unbundled_cons] at here
  obtain ⟨before, piece, behind, tokens, split, start, stop, scanned, moved⟩ :=
    exists_scan_part complete (by rw [raw, TokenStream.toList_ofList]; exact here)
  rw [← unbundled_cons] at moved
  obtain ⟨part', same, rfl⟩ := exists_alike moved
  obtain ⟨ahead, later, rfl⟩ := within
  have own := bundled.of_append.1.of_append.2
  refine ⟨before, piece, behind, part', split, start, stop, own.alike ?_ same, scanned, same⟩
  intro t t' nearer
  rw [Token.spelling?, Token.spelling?, Token.isWord, Token.isWord, nearer.kind, nearer.quoted, nearer.text]

theorem getLastD_rel {R : Token → Token → Prop} {t t' : Token} {ts ts' : List Token} (first : R t t')
    (h : List.Forall₂ R ts ts') : R (ts.getLastD t) (ts'.getLastD t') := by
  induction h generalizing t t' with
  | nil => exact first
  | cons next _ ih => 
    rw [List.getLastD_cons, List.getLastD_cons]
    exact ih next

/-- a phrase says the same in a part of its script -/
theorem contents_token {before piece : List Char} {b b' : Bundle} (same : b.Alike (Token.Nearer before.length) b')
    (behind : List Char) (inside : ∀ t ∈ b'.all, t.stop ≤ piece.length) :
    (b'.token piece).contents = (b.token (before ++ piece ++ behind)).contents := by
  have words : b'.all.map (fun w => upper w.text) = b.all.map fun w => upper w.text :=
    map_eq_of_forall₂ (.cons same.first same.more) fun t t' nearer => by rw [nearer.text]
  have last := getLastD_rel same.first same.more
  have within : (b'.more.getLastD b'.first).stop ≤ piece.length :=
    inside _ (getLastD_mem fun w hw => List.mem_cons_of_mem _ hw)
  have text : slice piece b'.first.position.offset (b'.more.getLastD b'.first).stop =
      slice (before ++ piece ++ behind) b.first.position.offset (b.more.getLastD b.first).stop := by
    rw [same.first.offset, last.stop, List.append_assoc, slice_shift, slice_append within]
  rw [Bundle.token, Bundle.token]
  by_cases alone : b.more = []
  · rw [if_pos alone, if_pos (same.alone_iff.2 alone)]
    exact same.first.contents
  · rw [if_neg alone, if_neg (mt same.alone_iff.1 alone), Token.contents, Token.contents]
    simp only [phraseToken, text, words]

theorem contents_tokens {before piece behind : List Char} {part part' : List Bundle}
    (same : List.Forall₂ (Bundle.Alike (Token.Nearer before.length)) part part')
    (inside : ∀ t ∈ unbundled part', t.stop ≤ piece.length) :
    (part'.map (Bundle.token piece)).map Token.contents =
      (part.map (Bundle.token (before ++ piece ++ behind))).map Token.contents := by
  induction same with
  | nil => rfl
  | @cons b b' _ _ first _ ih =>
    rw [unbundled_cons, ← List.cons_append] at inside
    simp only [List.map_cons, ih fun t ht => inside t (List.mem_append_right _ ht),
      contents_token first behind fun t ht => inside t (List.mem_append_left _ ht)]

end

end

end SchemaApi
