import SchemaApi.Proofs.Token.Lexer
/-!
Phrases do not reach over a mark.

A token that is no word ends every phrase before it, so a stream with such a token in it is merged part by
part. Together with the scanner this gives the tokens of two scripts with a semicolon on a line between them.
-/

namespace SchemaApi

open Text

namespace TokenStream

theorem eq_ofList {stream : TokenStream} (complete : stream.error? = none) : stream = ofList stream.toList := by
  induction stream with
  | done => rfl
  | failed e => contradiction
  | token t rest ih => rw [toList, ofList, ← ih complete]

theorem append_ofList (ts : List Token) (other : List Token) :
    (ofList ts).append (ofList other) = ofList (ts ++ other) := by
  induction ts with
  | nil => rfl
  | cons t ts ih => rw [ofList, append, ih]; rfl

theorem shift_ofList (s : Shift) (ts : List Token) : (ofList ts).shift s = ofList (ts.map (Token.shift s)) := by
  induction ts with
  | nil => rfl
  | cons t ts ih => rw [ofList, shift, ih]; rfl

theorem lookAhead_ofList (n : Nat) (ts : List Token) : (ofList ts).lookAhead n = .ok (ts.take n) := by
  induction n generalizing ts with
  | zero => simp [lookAhead]
  | succ n ih =>
    cases ts with
    | nil => rfl
    | cons t ts => rw [ofList, lookAhead, ih]; rfl

end TokenStream

/-! ## Phrases -/

section
variable {d : Dialect}

theorem phraseAt_append {words : List String} {mark : Token} (notWord : mark.isWord = false) (ts more : List Token)
    (n : Nat) : phraseAt words (ts ++ (mark :: more).take n) = phraseAt words ts := by
  induction words generalizing ts with
  | nil => rfl
  | cons word words ih =>
    cases ts with
    | nil =>
      cases n with
      | zero => rfl
      | succ n => simp [phraseAt, Token.spells, notWord]
    | cons t ts => rw [List.cons_append, phraseAt, phraseAt, ih]

theorem length_le_of_phraseAt {words : List String} {ts : List Token} (h : phraseAt words ts = true) :
    words.length ≤ ts.length := by
  induction words generalizing ts with
  | nil => exact Nat.zero_le _
  | cons word words ih =>
    cases ts with
    | nil => contradiction
    | cons t ts =>
      rw [phraseAt, Bool.and_eq_true] at h
      exact Nat.succ_le_succ (ih h.2)

theorem phraseAt_shift (s : Shift) (words : List String) (ts : List Token) :
    phraseAt words (ts.map (Token.shift s)) = phraseAt words ts := by
  induction words generalizing ts with
  | nil => rfl
  | cons word words ih =>
    cases ts with
    | nil => rfl
    | cons t ts => rw [List.map_cons, phraseAt, phraseAt, ih, Token.spells_shift]

theorem phrasesAt_shift (s : Shift) (t : Token) : phrasesAt d (t.shift s) = phrasesAt d t := rfl

theorem phrasesAt_mark {mark : Token} (notWord : mark.isWord = false) : phrasesAt d mark = [] := by
  simp [phrasesAt, notWord]

/-! ## Merging -/

/-- the rest of a merge behind its first token -/
theorem mergeFrom_cons {script : List Char} {t : Token} {ts : List Token} :
    mergeFrom d script 0 (.ofList (t :: ts)) =
      match phrasesAt d t with
      | [] => .token t (mergeFrom d script 0 (.ofList ts))
      | longest :: shorter =>
        match (longest :: shorter).find? (phraseAt · ((t :: ts).take longest.length)) with
        | none => .token t (mergeFrom d script 0 (.ofList ts))
        | some phrase =>
          let words := ((t :: ts).take longest.length).take phrase.length
          .token (phraseToken script t (words.getLastD t) words)
            (mergeFrom d script (phrase.length - 1) (.ofList ts)) := by
  have window : ∀ n, (TokenStream.token t (.ofList ts)).lookAhead n = .ok ((t :: ts).take n) :=
    fun n => TokenStream.lookAhead_ofList n (t :: ts)
  rw [TokenStream.ofList, mergeFrom]
  cases phrasesAt d t with
  | nil => rfl
  | cons longest shorter =>
    have ahead := window longest.length
    dsimp only
    cases looked : (TokenStream.token t (.ofList ts)).lookAhead longest.length with
    | error e => rw [looked] at ahead; contradiction
    | ok seen =>
      rw [looked] at ahead
      obtain rfl := Except.ok.inj ahead
      rfl

theorem mergeFrom_append {script : List Char} {mark : Token} (notWord : mark.isWord = false) {skip : Nat}
    {ts : List Token} (fits : skip ≤ ts.length) (more : List Token) :
    mergeFrom d script skip (.ofList (ts ++ mark :: more)) =
      (mergeFrom d script skip (.ofList ts)).append (.token mark (mergeFrom d script 0 (.ofList more))) := by
  induction ts generalizing skip with
  | nil =>
    obtain rfl : skip = 0 := Nat.le_zero.1 fits
    rw [List.nil_append, mergeFrom_cons, phrasesAt_mark notWord]
    rfl
  | cons t ts ih =>
    cases skip with
    | succ skip => exact ih (Nat.le_of_succ_le_succ fits)
    | zero =>
      have alone := ih (Nat.zero_le _)
      rw [List.cons_append, mergeFrom_cons, mergeFrom_cons]
      cases phrasesAt d t with
      | nil => simp only [alone, TokenStream.append]
      | cons longest shorter =>
        have window : (t :: (ts ++ mark :: more)).take longest.length = (t :: ts).take longest.length ++
            (mark :: more).take (longest.length - (t :: ts).length) := by
          rw [← List.cons_append, List.take_append]
        simp only [window, phraseAt_append notWord]
        cases found : (longest :: shorter).find? (phraseAt · ((t :: ts).take longest.length)) with
        | none => simp only [alone, TokenStream.append]
        | some phrase =>
          have inside : phrase.length ≤ ((t :: ts).take longest.length).length :=
            length_le_of_phraseAt (@List.find?_some _ _ phrase _ found)
          have short : phrase.length - 1 ≤ ts.length := by
            rw [List.length_take, List.length_cons] at inside
            omega
          simp only [List.take_append_of_le_length inside, ih short, TokenStream.append]

/-- a phrase has the same characters in a script that holds its text -/
theorem phraseToken_shift {e : Excerpt} {first last : Token} {words : List Token}
    (inside : last.stop ≤ e.text.length) :
    phraseToken e.script (first.shift e.shift) (last.shift e.shift) (words.map (Token.shift e.shift)) =
      (phraseToken e.text first last words).shift e.shift := by
  have text := e.same first.position.offset last.stop inside
  have names : (words.map (Token.shift e.shift)).map (fun w => upper w.text) = words.map fun w => upper w.text := by
    rw [List.map_map]; rfl
  simp only [phraseToken, Token.shift_position, Position.shift_offset, Token.stop_shift, text, names]
  rfl

theorem getLastD_mem {t : Token} {words ts : List Token} (h : ∀ w ∈ words, w ∈ t :: ts) :
    words.getLastD t ∈ t :: ts := by
  rcases List.mem_cons.1 (@List.getLastD_mem_cons _ words t) with own | within
  · rw [own]; exact List.mem_cons_self
  · exact h _ within

theorem mergeFrom_shift (e : Excerpt) {skip : Nat} {ts : List Token} (inside : ∀ t ∈ ts, t.stop ≤ e.text.length) :
    mergeFrom d e.script skip (.ofList (ts.map (Token.shift e.shift))) =
      (mergeFrom d e.text skip (.ofList ts)).shift e.shift := by
  induction ts generalizing skip with
  | nil => cases skip <;> rfl
  | cons t ts ih =>
    have later := fun n => @ih n fun w hw => inside w (List.mem_cons_of_mem _ hw)
    cases skip with
    | succ skip => exact later skip
    | zero =>
      rw [List.map_cons, mergeFrom_cons, mergeFrom_cons, phrasesAt_shift]
      cases phrasesAt d t with
      | nil => simp only [later, TokenStream.shift]
      | cons longest shorter =>
        have window : (t.shift e.shift :: ts.map (Token.shift e.shift)).take longest.length =
            ((t :: ts).take longest.length).map (Token.shift e.shift) := by
          rw [← List.map_cons, List.map_take]
        simp only [window, phraseAt_shift]
        cases (longest :: shorter).find? (phraseAt · ((t :: ts).take longest.length)) with
        | none => simp only [later, TokenStream.shift]
        | some phrase =>
          have words : ∀ w ∈ ((t :: ts).take longest.length).take phrase.length, w ∈ t :: ts :=
            fun w hw => List.mem_of_mem_take (List.mem_of_mem_take hw)
          have bound := inside _ (getLastD_mem words)
          simp only [later, TokenStream.shift, ← List.map_take, List.getLastD_map, phraseToken_shift bound]

/-- merging keeps tokens inside the text -/
theorem stop_le_of_mem_mergeFrom {text : List Char} {skip : Nat} {ts : List Token}
    (inside : ∀ t ∈ ts, t.stop ≤ text.length) {m : Token}
    (h : m ∈ (mergeFrom d text skip (.ofList ts)).toList) : m.stop ≤ text.length := by
  induction ts generalizing skip with
  | nil => cases skip <;> contradiction
  | cons t ts ih =>
    have later := fun n => @ih n (fun w hw => inside w (List.mem_cons_of_mem _ hw))
    have own := inside t List.mem_cons_self
    have single : m ∈ (TokenStream.token t (mergeFrom d text 0 (.ofList ts))).toList → m.stop ≤ text.length := by
      intro h
      rcases List.mem_cons.1 h with rfl | h
      · exact own
      · exact later 0 h
    cases skip with
    | succ skip => exact later skip h
    | zero =>
      rw [mergeFrom_cons] at h
      split at h
      · exact single h
      · split at h
        · exact single h
        · rename_i phrase _
          rcases List.mem_cons.1 h with rfl | h
          · simp only [Token.stop, phraseToken, slice, String.length_ofList, List.length_take, List.length_drop]
            simp only [Token.stop] at own
            omega
          · exact later _ h

/-- a stream that breaks off does so merged, too -/
theorem complete_of_mergeFrom {text : List Char} {skip : Nat} {raw : TokenStream}
    (complete : (mergeFrom d text skip raw).error? = none) : raw.error? = none := by
  induction raw generalizing skip with
  | done => rfl
  | failed e => cases skip <;> contradiction
  | token t rest ih =>
    cases skip with
    | succ skip => exact ih complete
    | zero =>
      rw [mergeFrom] at complete
      split at complete
      · exact ih complete
      · split at complete
        · contradiction
        · split at complete
          · exact ih complete
          · exact ih complete

/-! ## Two scripts -/

/-- what stands between two scripts: a semicolon on a line of its own -/
def divider : List Char := ['\n', ';', '\n']

/-- the semicolon behind a script -/
def dividerToken (text : List Char) : Token :=
  { kind := .punctuation, text := ";", value := ";", position := Position.start.after (text ++ ['\n']) }

/-- where a script stands behind another one and the divider -/
def Shift.behind (text : List Char) : Shift := .past (text ++ divider)

theorem stop_le_of_mem_scan {text : List Char} : ∀ t ∈ (scan d text).toList, t.stop ≤ text.length := by
  intro t ht
  have inside := stop_le_of_mem_scanFrom ht
  simpa [Position.start] using inside

theorem stop_le_of_mem_tokenize {text : List Char} (complete : (tokenize d text).error? = none) :
    ∀ t ∈ (tokenize d text).toList, t.stop ≤ text.length := by
  intro t ht
  have raw := TokenStream.eq_ofList (complete_of_mergeFrom complete)
  rw [tokenize, merge, raw] at ht
  exact stop_le_of_mem_mergeFrom stop_le_of_mem_scan ht

theorem pieceAt_semicolon (rest : List Char) : pieceAt d ';' rest = .lexeme .punctuation ";" false 1 := by
  cases d <;> rfl

theorem scan_divided {first second : List Char} (complete : (scan d first).error? = none) :
    scan d (first ++ divider ++ second) = (scan d first).append
      (.token (dividerToken first) ((scan d second).shift (.behind first))) := by
  have behind : Position.start.after (first ++ divider) = Position.start.shift (.behind first) := by
    have lines := Position.start_after_lines (first ++ ['\n', ';'])
    rwa [List.append_assoc] at lines
  have place : ((Position.start.after (first ++ ['\n'])).advance ';').advance '\n' =
      Position.start.after (first ++ divider) := by
    rw [divider, Position.after_append, Position.after_append]
    rfl
  have mark : scanFrom d 0 (Position.start.after (first ++ ['\n'])) (';' :: '\n' :: second) =
      .token (dividerToken first) ((scan d second).shift (.behind first)) := by
    rw [scanFrom, pieceAt_semicolon]
    simp only
    rw [scanFrom_newline, place, behind, scanFrom_shift]
    rfl
  rw [scan, List.append_assoc, divider, List.cons_append, scanFrom_append (Nat.zero_le _) complete]
  exact congrArg _ mark

theorem tokenize_excerpt (e : Excerpt) (complete : (scan d e.text).error? = none) :
    mergeFrom d e.script 0 (.ofList ((scan d e.text).toList.map (Token.shift e.shift))) =
      (tokenize d e.text).shift e.shift := by
  rw [mergeFrom_shift e stop_le_of_mem_scan, ← TokenStream.eq_ofList complete]
  rfl

/-- The tokens of two scripts with a semicolon on a line between them are the tokens of the first, the
semicolon, and the tokens of the second in their place. -/
theorem tokenize_divided {first second : List Char} (firstComplete : (tokenize d first).error? = none)
    (secondComplete : (tokenize d second).error? = none) :
    tokenize d (first ++ divider ++ second) = (tokenize d first).append
      (.token (dividerToken first) ((tokenize d second).shift (.behind first))) := by
  have firstRaw := complete_of_mergeFrom firstComplete
  have secondRaw := complete_of_mergeFrom secondComplete
  have raw : scan d (first ++ divider ++ second) = .ofList ((scan d first).toList ++ dividerToken first ::
      (scan d second).toList.map (Token.shift (.behind first))) := by
    rw [scan_divided firstRaw, ← TokenStream.append_ofList, TokenStream.ofList, ← TokenStream.shift_ofList,
      ← TokenStream.eq_ofList firstRaw, ← TokenStream.eq_ofList secondRaw]
  have start := @tokenize_excerpt d (.beginning first (divider ++ second)) firstRaw
  have rest := @tokenize_excerpt d (.ending (first ++ divider) second) secondRaw
  simp only [Excerpt.beginning, Excerpt.ending, TokenStream.shift_zero, Token.map_shift_zero,
    ← List.append_assoc] at start rest
  rw [tokenize, merge, raw, mergeFrom_append rfl (Nat.zero_le _), start]
  exact congrArg _ (congrArg _ rest)

end

end SchemaApi
