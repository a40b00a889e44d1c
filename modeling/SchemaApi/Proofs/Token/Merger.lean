import SchemaApi.Proofs.Token.Bundle
/-!
Merging with a buffer, and the segmentation it comes to.

A merger reads raw tokens only when it has to: to see whether a phrase begins at the head of its buffer it fills the
buffer up to the length of the longest phrase with that first word, and what it has read stays in the buffer when
there is no phrase. `Merger.run` is this machine. Whatever stands in its buffer, it gives the tokens that `merge`
gives of the buffered and the unread raw tokens together (`run_eq_merge`), and these are the tokens of the one
segmentation of the raw tokens, from left to right, that takes at each of them the longest phrase that begins there
(`merge_greedy`).
-/

namespace SchemaApi

open Text

/-! ## The greedy segmentation -/

/-- the tokens begin with the words of a phrase -/
def BeginsWith (phrase : List String) (ts : List Token) : Prop :=
  ∃ words rest, ts = words ++ rest ∧ List.Forall₂ (fun (t : Token) word => t.spells word = true) words phrase

/-- At each raw token the longest phrase that begins there is taken, and the token alone if there is none. -/
inductive Greedy (d : Dialect) : List Bundle → Prop where
  | nil : Greedy d []
  | alone {t : Token} {rest : List Bundle} (none : ∀ phrase ∈ d.phrases, ¬ BeginsWith phrase (t :: unbundled rest))
      (later : Greedy d rest) : Greedy d (⟨t, []⟩ :: rest)
  | longest {b : Bundle} {rest : List Bundle} {phrase : List String} (listed : phrase ∈ d.phrases)
      (spelled : List.Forall₂ (fun (t : Token) word => t.spells word = true) b.all phrase)
      (longest : ∀ other ∈ d.phrases, BeginsWith other (unbundled (b :: rest)) → other.length ≤ phrase.length)
      (later : Greedy d rest) : Greedy d (b :: rest)

section
variable {d : Dialect}

theorem phraseAt_iff {phrase : List String} {ts : List Token} : phraseAt phrase ts = true ↔ BeginsWith phrase ts := by
  induction phrase generalizing ts with
  | nil => exact iff_of_true rfl ⟨[], ts, rfl, .nil⟩
  | cons word phrase ih =>
    cases ts with
    | nil =>
      refine iff_of_false (by simp [phraseAt]) ?_
      rintro ⟨words, rest, none, spelled⟩
      rw [(List.append_eq_nil_iff.1 none.symm).1] at spelled
      cases spelled
    | cons t ts =>
      rw [phraseAt, Bool.and_eq_true, ih]
      constructor
      · rintro ⟨first, words, rest, rfl, spelled⟩
        exact ⟨t :: words, rest, rfl, .cons first spelled⟩
      · rintro ⟨words, rest, tokens, spelled⟩
        obtain ⟨first, others, own, later, rfl⟩ := List.forall₂_cons_right_iff.1 spelled
        rw [List.cons_append, List.cons.injEq] at tokens
        exact ⟨tokens.1 ▸ own, others, rest, tokens.2, later⟩

/-- the phrases that a token may begin are those whose first word it spells -/
theorem mem_phrasesAt {t : Token} {phrase : List String} :
    phrase ∈ phrasesAt d t ↔ phrase ∈ d.phrases ∧ ∃ word ∈ phrase.head?, t.spells word = true := by
  have words : (∃ word ∈ phrase.head?, t.spells word = true) ↔
      (t.isWord && !t.quoted) = true ∧ phrase.head? = some (upper t.text) := by
    simp only [Token.spells, Bool.and_eq_true, beq_iff_eq, Option.mem_def]
    constructor
    · rintro ⟨word, head, plain, same⟩
      exact ⟨plain, same ▸ head⟩
    · rintro ⟨plain, head⟩
      exact ⟨_, head, plain, rfl⟩
  rw [words, phrasesAt]
  split_ifs with plain
  · simp [Dialect.phrasesStarting, Dialect.phrasesFrom, plain]
  · simp [plain]

theorem head_spelled {phrase : List String} {t : Token} {ts : List Token} (listed : phrase ∈ d.phrases)
    (begins : BeginsWith phrase (t :: ts)) : phrase ∈ phrasesAt d t := by
  have several : ∀ phrase ∈ d.phrases, phrase ≠ [] := by cases d <;> decide
  obtain ⟨word, rest, rfl⟩ := List.exists_cons_of_ne_nil (several phrase listed)
  rw [← phraseAt_iff, phraseAt, Bool.and_eq_true] at begins
  exact mem_phrasesAt.2 ⟨listed, word, rfl, begins.1⟩

/-- the phrase that merging finds is the longest one that begins at a token -/
theorem find?_phrasesAt {t : Token} {ts : List Token} {phrase : List String}
    (found : (phrasesAt d t).find? (phraseAt · (t :: ts)) = some phrase) :
    phrase ∈ d.phrases ∧ BeginsWith phrase (t :: ts) ∧
      ∀ other ∈ d.phrases, BeginsWith other (t :: ts) → other.length ≤ phrase.length := by
  obtain ⟨here, before, behind, list, tried⟩ := List.find?_eq_some_iff_append.1 found
  have listed := (mem_phrasesAt.1 (List.mem_of_find?_eq_some found)).1
  refine ⟨listed, phraseAt_iff.1 here, fun other listed' begins => ?_⟩
  have candidate := head_spelled listed' begins
  rw [list, List.mem_append] at candidate
  rcases candidate with earlier | later
  · have missing := tried other earlier
    rw [phraseAt_iff.2 begins] at missing
    contradiction
  · have sorted := pairwise_phrasesAt d t
    rw [list] at sorted
    have behindOwn := (List.pairwise_append.1 sorted).2.1
    rcases List.mem_cons.1 later with rfl | later
    · exact Nat.le_refl _
    · exact (List.pairwise_cons.1 behindOwn).1 other later

/-! ## Segmentation of the raw tokens -/

/-- bundles as merging puts them are greedy -/
theorem greedy_of_bundled {bundles : List Bundle} (h : Bundled d bundles) : Greedy d bundles := by
  induction h with
  | nil => exact .nil
  | @cons b rest size _ ih =>
    obtain ⟨t, more⟩ := b
    rw [unbundled_cons, further] at size
    cases found : (phrasesAt d t).find? (phraseAt · (t :: (more ++ unbundled rest))) with
    | none =>
      rw [found] at size
      obtain rfl := List.length_eq_zero_iff.1 size.symm
      refine .alone (fun phrase listed begins => ?_) ih
      exact List.find?_eq_none.1 found phrase (head_spelled listed begins) (phraseAt_iff.2 begins)
    | some phrase =>
      rw [found] at size
      obtain ⟨listed, begins, longest⟩ := find?_phrasesAt found
      have several := two_le_of_mem_phrasesAt (List.mem_of_find?_eq_some found)
      obtain ⟨words, behind, tokens, spelled⟩ := begins
      have count : words.length = (t :: more).length := by
        rw [spelled.length_eq, List.length_cons]
        simp only at size
        omega
      rw [← List.cons_append] at tokens
      obtain rfl := (List.append_inj tokens count.symm).1
      exact .longest listed spelled (by rwa [unbundled_cons]) ih

/-- raw tokens have one greedy segmentation only -/
theorem Greedy.unique {bundles bundles' : List Bundle} (h : Greedy d bundles) (h' : Greedy d bundles')
    (same : unbundled bundles' = unbundled bundles) : bundles' = bundles := by
  induction h generalizing bundles' with
  | nil =>
    cases h' with
    | nil => rfl
    | alone | longest => rw [unbundled_cons] at same; contradiction
  | @alone t rest none _ ih =>
    cases h' with
    | nil => rw [unbundled_cons] at same; contradiction
    | @alone t' rest' _ later =>
      simp only [unbundled_cons, List.nil_append, List.cons.injEq] at same
      rw [same.1, ih later same.2]
    | @longest b rest' phrase listed spelled _ _ =>
      refine absurd ?_ (none phrase listed)
      rw [unbundled_cons, unbundled_cons, List.nil_append, ← List.cons_append] at same
      exact ⟨b.all, unbundled rest', same.symm, spelled⟩
  | @longest b rest phrase listed spelled longest _ ih =>
    have whole : ∀ b : Bundle, ∀ rest, unbundled (b :: rest) = b.all ++ unbundled rest := fun b rest => by
      rw [unbundled_cons, Bundle.all, List.cons_append]
    have begins : BeginsWith phrase (unbundled (b :: rest)) := ⟨b.all, unbundled rest, whole b rest, spelled⟩
    cases h' with
    | nil => rw [unbundled_cons] at same; contradiction
    | @alone t rest' none _ =>
      rw [← same] at begins
      exact absurd begins (none phrase listed)
    | @longest b' rest' phrase' listed' spelled' longest' later =>
      have begins' : BeginsWith phrase' (unbundled (b' :: rest')) :=
        ⟨b'.all, unbundled rest', whole b' rest', spelled'⟩
      have shorter := longest phrase' listed' (same ▸ begins')
      have shorter' := longest' phrase listed (same ▸ begins)
      have size : b'.all.length = b.all.length := by
        rw [spelled.length_eq, spelled'.length_eq]
        omega
      rw [whole, whole] at same
      obtain ⟨own, others⟩ := List.append_inj same size
      rw [ih later others]
      obtain ⟨first, more⟩ := b
      obtain ⟨first', more'⟩ := b'
      obtain ⟨rfl, rfl⟩ := List.cons.inj own
      rfl

end

/-! ## A merger -/

/-- a merger: the raw tokens it has read and not given out yet, and those it has not read -/
structure Merger where
  buffer : List Token := []
  unread : TokenStream

namespace Merger

/-- the raw tokens that are left -/
def raw (m : Merger) : TokenStream := (TokenStream.ofList m.buffer).append m.unread

/-- Reads until so many raw tokens are in the buffer, or there are no more. A fault ends the reading for good. -/
def fill (wanted : Nat) (buffer : List Token) : TokenStream → Except LexError Merger
  | .done => .ok ⟨buffer, .done⟩
  | .failed e => if wanted ≤ buffer.length then .ok ⟨buffer, .failed e⟩ else .error e
  | .token t rest =>
    if wanted ≤ buffer.length then .ok ⟨buffer, .token t rest⟩ else fill wanted (buffer ++ [t]) rest

/-- what a merger does next -/
inductive Step where
  | ends
  | breaks (error : LexError)
  | gives (t : Token) (m : Merger)

/-- Gives the head of the buffer, or the longest phrase that begins with it. What was read to find that out stays in the
buffer. -/
def give (d : Dialect) (text : List Char) (head : Token) (more : List Token) (unread : TokenStream) : Step :=
  match phrasesAt d head with
  | [] => .gives head ⟨more, unread⟩
  | longest :: shorter =>
    match fill longest.length (head :: more) unread with
    | .error e => .breaks e
    | .ok ⟨buffer, unread⟩ =>
      match (longest :: shorter).find? (phraseAt · buffer) with
      | none => .gives head ⟨buffer.tail, unread⟩
      | some phrase =>
        let words := buffer.take phrase.length
        .gives (phraseToken text head (words.getLastD head) words) ⟨buffer.drop phrase.length, unread⟩

/-- the next token, if a raw one is left -/
def next (d : Dialect) (text : List Char) (m : Merger) : Step :=
  match fill 1 m.buffer m.unread with
  | .error e => .breaks e
  | .ok ⟨[], _⟩ => .ends
  | .ok ⟨head :: more, unread⟩ => give d text head more unread

end Merger

namespace TokenStream

theorem append_token (ts : List Token) (t : Token) (rest : TokenStream) :
    (ofList (ts ++ [t])).append rest = (ofList ts).append (token t rest) := by
  induction ts with
  | nil => rfl
  | cons head ts ih => rw [List.cons_append, ofList, append, ih, ofList, append]

theorem lookAhead_within {n : Nat} {ts : List Token} (inside : n ≤ ts.length) (rest : TokenStream) :
    ((ofList ts).append rest).lookAhead n = .ok (ts.take n) := by
  induction n generalizing ts with
  | zero => rfl
  | succ n ih =>
    cases ts with
    | nil => contradiction
    | cons t ts =>
      rw [ofList, append, lookAhead, ih (Nat.le_of_succ_le_succ inside)]
      rfl

theorem lookAhead_beyond {n : Nat} {ts : List Token} (beyond : ts.length < n) (e : LexError) :
    ((ofList ts).append (failed e)).lookAhead n = .error e := by
  induction n generalizing ts with
  | zero => contradiction
  | succ n ih =>
    cases ts with
    | nil => rfl
    | cons t ts => rw [ofList, append, lookAhead, ih (Nat.lt_of_succ_lt_succ beyond)]

end TokenStream

namespace Merger

variable {d : Dialect} {text : List Char}

/-- filling the buffer looks ahead and keeps what it has seen -/
theorem fill_cases (wanted : Nat) (buffer : List Token) (unread : TokenStream) :
    (∃ e, fill wanted buffer unread = .error e ∧ (raw ⟨buffer, unread⟩).lookAhead wanted = .error e) ∨
      ∃ more rest, fill wanted buffer unread = .ok ⟨buffer ++ more, rest⟩ ∧
        raw ⟨buffer ++ more, rest⟩ = raw ⟨buffer, unread⟩ ∧
          (raw ⟨buffer, unread⟩).lookAhead wanted = .ok ((buffer ++ more).take wanted) := by
  have kept : ∀ (buffer : List Token) (unread : TokenStream), wanted ≤ buffer.length →
      raw ⟨buffer ++ [], unread⟩ = raw ⟨buffer, unread⟩ ∧
        (raw ⟨buffer, unread⟩).lookAhead wanted = .ok ((buffer ++ []).take wanted) := by
    intro buffer unread enough
    rw [List.append_nil]
    exact ⟨rfl, TokenStream.lookAhead_within enough unread⟩
  induction unread generalizing buffer with
  | done =>
    refine Or.inr ⟨[], .done, by rw [fill, List.append_nil], by rw [List.append_nil], ?_⟩
    rw [List.append_nil, raw]
    have whole := TokenStream.append_ofList buffer []
    rw [List.append_nil] at whole
    change ((TokenStream.ofList buffer).append (.ofList [])).lookAhead wanted = _
    rw [whole, TokenStream.lookAhead_ofList]
  | failed e =>
    rw [fill]
    split_ifs with enough
    · exact Or.inr ⟨[], .failed e, by rw [List.append_nil], kept buffer _ enough⟩
    · exact Or.inl ⟨e, rfl, TokenStream.lookAhead_beyond (Nat.lt_of_not_le enough) e⟩
  | token t rest ih =>
    rw [fill]
    split_ifs with enough
    · exact Or.inr ⟨[], .token t rest, by rw [List.append_nil], kept buffer _ enough⟩
    · have same : raw ⟨buffer ++ [t], rest⟩ = raw ⟨buffer, .token t rest⟩ := TokenStream.append_token buffer t rest
      rw [← same]
      rcases ih (buffer ++ [t]) with broken | ⟨more, unread, filled, left, seen⟩
      · exact Or.inl broken
      · rw [List.append_assoc] at filled left seen
        exact Or.inr ⟨[t] ++ more, unread, filled, left, seen⟩

/-- tokens of the phrase before are passed over in the buffer -/
theorem mergeFrom_buffered {n : Nat} {ts : List Token} (fits : n ≤ ts.length) (unread : TokenStream) :
    mergeFrom d text n (raw ⟨ts, unread⟩) = mergeFrom d text 0 (raw ⟨ts.drop n, unread⟩) := by
  induction ts generalizing n with
  | nil =>
    obtain rfl := Nat.le_zero.1 fits
    rfl
  | cons t ts ih =>
    cases n with
    | zero => rfl
    | succ n => exact ih (Nat.le_of_succ_le_succ fits)

theorem length_raw (ts : List Token) (unread : TokenStream) :
    (raw ⟨ts, unread⟩).toList.length = ts.length + unread.toList.length := by
  induction ts with
  | nil => rw [List.length_nil, Nat.zero_add]; rfl
  | cons t ts ih => rw [List.length_cons, Nat.add_right_comm, ← ih]; rfl

/-- the step that a merger with these raw tokens has to make -/
def Rightly (d : Dialect) (text : List Char) (left : TokenStream) : Step → Prop
  | .ends => mergeFrom d text 0 left = .done
  | .breaks e => mergeFrom d text 0 left = .failed e
  | .gives t m =>
    mergeFrom d text 0 left = .token t (mergeFrom d text 0 m.raw) ∧ m.raw.toList.length < left.toList.length

/-- what merging does at a token that may begin a phrase, by what it sees ahead -/
theorem mergeFrom_ahead {head : Token} {rest : TokenStream} {longest : List String} {shorter : List (List String)}
    (candidates : phrasesAt d head = longest :: shorter) : mergeFrom d text 0 (.token head rest) =
      match (TokenStream.token head rest).lookAhead longest.length with
      | .error e => .failed e
      | .ok window =>
        match (longest :: shorter).find? (phraseAt · window) with
        | none => .token head (mergeFrom d text 0 rest)
        | some phrase =>
          let words := window.take phrase.length
          .token (phraseToken text head (words.getLastD head) words) (mergeFrom d text (phrase.length - 1) rest) := by
  rewrite [mergeFrom, candidates]
  rfl

/-- the head of the buffer is given with the words that belong to it -/
theorem rightly_give (head : Token) (more : List Token) (unread : TokenStream) :
    Rightly d text (raw ⟨head :: more, unread⟩) (give d text head more unread) := by
  have whole : raw ⟨head :: more, unread⟩ = .token head (raw ⟨more, unread⟩) := rfl
  rw [give]
  cases candidates : phrasesAt d head with
  | nil => exact ⟨by rw [whole, mergeFrom, candidates], Nat.lt_succ_self _⟩
  | cons longest shorter =>
    have ahead := @mergeFrom_ahead d text head (raw ⟨more, unread⟩) longest shorter candidates
    rw [← whole] at ahead
    rcases fill_cases longest.length (head :: more) unread with ⟨e, broken, seen⟩ | ⟨read, unread', filled, same, seen⟩
    · rw [seen] at ahead
      simpa only [broken, Rightly] using ahead
    · rw [List.cons_append] at filled same seen
      have rest : raw ⟨more ++ read, unread'⟩ = raw ⟨more, unread⟩ := (TokenStream.token.inj same).2
      have window : (longest :: shorter).find? (phraseAt · ((head :: (more ++ read)).take longest.length)) =
          (longest :: shorter).find? (phraseAt · (head :: (more ++ read))) :=
        List.find?_congr fun words listed => phraseAt_take (length_le_of_mem_phrasesAt candidates listed)
      rw [seen] at ahead
      simp only [window] at ahead
      cases found : (longest :: shorter).find? (phraseAt · (head :: (more ++ read))) with
      | none =>
        rw [found] at ahead
        simp only [filled, found, List.tail_cons, Rightly, rest]
        exact ⟨ahead, Nat.lt_succ_self _⟩
      | some phrase =>
        have listed := List.mem_of_find?_eq_some found
        have several := two_le_of_mem_phrasesAt (candidates ▸ listed)
        have inside := length_le_of_mem_phrasesAt candidates listed
        have fits := length_le_of_phraseAt (@List.find?_some _ _ phrase _ found)
        obtain ⟨n, count⟩ : ∃ n, phrase.length = n + 1 := ⟨phrase.length - 1, by omega⟩
        rw [found] at ahead
        simp only [List.take_take, Nat.min_eq_left inside] at ahead
        simp only [filled, found, Rightly]
        constructor
        · rw [ahead, count, Nat.add_sub_cancel, List.drop_succ_cons, ← rest,
            mergeFrom_buffered (by rw [count, List.length_cons] at fits; omega)]
        · rw [← same, length_raw, length_raw, List.length_drop]
          omega

/-- One step gives the first token of the merge of all raw tokens that are left, and what it leaves is less. -/
theorem rightly_next (m : Merger) : Rightly d text m.raw (m.next d text) := by
  obtain ⟨buffer, unread⟩ := m
  rw [next]
  rcases fill_cases 1 buffer unread with ⟨e, broken, seen⟩ | ⟨read, unread', filled, same, seen⟩
  · rw [broken]
    change mergeFrom d text 0 (raw ⟨buffer, unread⟩) = .failed e
    cases left : raw ⟨buffer, unread⟩ with
    | done => rw [left] at seen; contradiction
    | failed e' =>
      rw [left] at seen
      rw [mergeFrom, Except.error.inj seen]
    | token t rest =>
      rw [left, TokenStream.lookAhead, TokenStream.lookAhead] at seen
      contradiction
  · rw [filled, ← same]
    rw [← same] at seen
    cases all : buffer ++ read with
    | nil =>
      rw [all] at seen
      change mergeFrom d text 0 unread' = .done
      cases unread' with
      | done => rfl
      | failed e => contradiction
      | token t rest =>
        simp [raw, TokenStream.ofList, TokenStream.append, TokenStream.lookAhead] at seen
    | cons head more => exact rightly_give head more unread'

/-- the tokens that a merger gives out -/
def run (d : Dialect) (text : List Char) (m : Merger) : TokenStream :=
  match _step : m.next d text with
  | .ends => .done
  | .breaks e => .failed e
  | .gives t m' => .token t (m'.run d text)
termination_by m.raw.toList.length
decreasing_by
  have rightly : Rightly d text m.raw (m.next d text) := m.rightly_next
  rw [_step] at rightly
  exact rightly.2

/-- whatever is in the buffer, a merger gives the tokens of all raw tokens that are left -/
theorem run_eq_merge (m : Merger) : m.run d text = merge d text m.raw := by
  induction size : m.raw.toList.length using Nat.strong_induction_on generalizing m with
  | _ n ih =>
    have rightly : Rightly d text m.raw (m.next d text) := m.rightly_next
    rw [run, merge]
    split
    · rename_i step
      rw [step] at rightly
      exact rightly.symm
    · rename_i e step
      rw [step] at rightly
      exact rightly.symm
    · rename_i t m' step
      rw [step] at rightly
      rw [rightly.1, ih _ (size ▸ rightly.2) m' rfl, merge]

end Merger

/-! ## Merging is greedy -/

theorem token_of_greedy {d : Dialect} {bundles : List Bundle} (h : Greedy d bundles) (text : List Char) {b : Bundle}
    (hb : b ∈ bundles) (several : b.more ≠ []) : ∃ phrase ∈ d.phrases, b.token text = {
      kind := .keyword
      text := slice text b.first.position.offset (b.more.getLastD b.first).stop
      value := " ".intercalate phrase
      position := b.first.position } := by
  induction h with
  | nil => contradiction
  | alone _ _ ih =>
    rcases List.mem_cons.1 hb with rfl | later
    · exact absurd rfl several
    · exact ih later
  | @longest _ _ phrase listed spelled _ _ ih =>
    rcases List.mem_cons.1 hb with rfl | later
    · have words : b.all.map (fun w => upper w.text) = phrase := by
        refine List.forall₂_eq_eq_eq ▸ List.forall₂_map_left_iff.2 (spelled.imp fun t word own => ?_)
        simp only [Token.spells, Bool.and_eq_true, beq_iff_eq] at own
        exact own.2
      exact ⟨phrase, listed, by rw [Bundle.token, if_neg several, phraseToken, words]⟩
    · exact ih later

/-- Merging takes the raw tokens from left to right, at each of them the longest phrase of the dialect that begins
there. So the raw tokens are segmented in one way, each segment becomes one token, and a merger gives these tokens
whatever it has read ahead. -/
theorem merge_greedy (d : Dialect) (text : List Char) (raw : List Token) : ∃ bundles,
    (∀ bundles', Greedy d bundles' ∧ unbundled bundles' = raw ↔ bundles' = bundles) ∧
      merge d text (.ofList raw) = .ofList (bundles.map (Bundle.token text)) ∧
      (∀ b ∈ bundles, b.more ≠ [] → ∃ phrase ∈ d.phrases, b.token text = {
        kind := .keyword
        text := slice text b.first.position.offset (b.more.getLastD b.first).stop
        value := " ".intercalate phrase
        position := b.first.position }) ∧
      ∀ m : Merger, m.raw = .ofList raw → m.run d text = .ofList (bundles.map (Bundle.token text)) := by
  obtain ⟨bundles, bundled, rfl⟩ := exists_bundled d raw
  have greedy := greedy_of_bundled bundled
  have merged : merge d text (.ofList (unbundled bundles)) = .ofList (bundles.map (Bundle.token text)) :=
    mergeFrom_bundled bundled
  refine ⟨bundles, fun bundles' => ⟨fun ⟨other, same⟩ => greedy.unique other same, ?_⟩, merged,
    fun b => token_of_greedy greedy text, fun m left => ?_⟩
  · rintro rfl
    exact ⟨greedy, rfl⟩
  · rw [m.run_eq_merge, left, merged]

end SchemaApi
