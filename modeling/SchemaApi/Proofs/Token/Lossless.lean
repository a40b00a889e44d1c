import SchemaApi.Proofs.Token.Phrase
import Mathlib.Data.List.Infix
/-!
Tokens lose nothing of their script.

Between the tokens of a script, before the first and behind the last there is only white space and comments
(`Trivia`); each token is the piece of the script that begins at its position, and the position counts lines and
columns from one (`Token.PlacedIn`). `Laid` says this of a list of tokens from an offset on. The scanner lays its
tokens piece by piece; a phrase covers its words and what stands between them, so merging keeps tokens laid.
-/

namespace SchemaApi

open Text

/-! ## Trivia -/

/-- the openings of comments that reach to the end of their line -/
def OpensLine (d : Dialect) (opening : List Char) : Prop :=
  opening = ['-', '-'] ∨ (opening = ['#'] ∧ d.hashComments = true)

/-- white space and comments, one behind the other; a comment to the end of its line has that line end -/
inductive Trivia (d : Dialect) : List Char → Prop where
  | nil : Trivia d []
  | blank {c : Char} {more : List Char} (white : isBlank c = true) (rest : Trivia d more) : Trivia d (c :: more)
  | line {opening body more : List Char} (opens : OpensLine d opening) (inLine : '\n' ∉ body)
      (rest : Trivia d more) : Trivia d (opening ++ body ++ '\n' :: more)
  | block {body more : List Char} (first : ¬ ['*', '/'] <:+: body) (rest : Trivia d more) :
      Trivia d (['/', '*'] ++ body ++ ['*', '/'] ++ more)

/-- trivia at the end of a script, where a last comment needs no line end -/
inductive LastTrivia (d : Dialect) : List Char → Prop where
  | closed {cs : List Char} (h : Trivia d cs) : LastTrivia d cs
  | line {before opening body : List Char} (h : Trivia d before) (opens : OpensLine d opening)
      (inLine : '\n' ∉ body) : LastTrivia d (before ++ opening ++ body)

section
variable {d : Dialect} {cs more : List Char}

theorem Trivia.append (h : Trivia d cs) (rest : Trivia d more) : Trivia d (cs ++ more) := by
  induction h with
  | nil => exact rest
  | blank white _ ih => exact .blank white ih
  | line opens inLine _ ih =>
    rw [List.append_assoc, List.cons_append]
    exact .line opens inLine ih
  | block first _ ih =>
    rw [List.append_assoc]
    exact .block first ih

theorem LastTrivia.prepend (last : LastTrivia d more) (h : Trivia d cs) : LastTrivia d (cs ++ more) := by
  cases last with
  | closed rest => exact .closed (h.append rest)
  | line rest opens inLine =>
    rw [← List.append_assoc, ← List.append_assoc]
    exact .line (h.append rest) opens inLine

theorem OpensLine.inLine {opening : List Char} (h : OpensLine d opening) : '\n' ∉ opening := by
  rcases h with rfl | ⟨rfl, -⟩ <;> decide

/-- a line ends with the first line feed, or with the text -/
theorem line_cases (cs : List Char) :
    ('\n' ∉ cs ∧ lineLength cs = cs.length) ∨
      ∃ body more, cs = body ++ '\n' :: more ∧ '\n' ∉ body ∧ lineLength cs = body.length + 1 := by
  induction cs with
  | nil => exact Or.inl ⟨List.not_mem_nil, rfl⟩
  | cons c cs ih =>
    by_cases ends : c = '\n'
    · exact Or.inr ⟨[], cs, by rw [ends]; rfl, List.not_mem_nil, by simp [lineLength, ends]⟩
    · have longer : lineLength (c :: cs) = 1 + lineLength cs := by rw [lineLength, if_neg ends]
      rcases ih with ⟨whole, size⟩ | ⟨body, more, rfl, inLine, size⟩
      · refine Or.inl ⟨?_, by rw [longer, size, List.length_cons, Nat.add_comm]⟩
        simpa using ⟨Ne.symm ends, whole⟩
      · refine Or.inr ⟨c :: body, more, rfl, by simpa using ⟨Ne.symm ends, inLine⟩, ?_⟩
        rw [longer, size, List.length_cons, Nat.add_comm]

theorem lineLength_append_of_not_mem {opening : List Char} (inLine : '\n' ∉ opening) :
    lineLength (opening ++ cs) = opening.length + lineLength cs := by
  induction opening with
  | nil => simp
  | cons c opening ih =>
    rw [List.mem_cons, not_or] at inLine
    rw [List.cons_append, lineLength, if_neg (Ne.symm inLine.1), ih inLine.2, List.length_cons]
    omega

/-- nothing before the first occurrence is one -/
theorem not_infix_of_findFirst? {part : List Char} {n : Nat} (filled : part ≠ [])
    (found : findFirst? part cs = some n) : ¬ part <:+: cs.take n := by
  induction cs generalizing n with
  | nil => simp [findFirst?, filled] at found
  | cons c cs ih =>
    rw [findFirst?] at found
    split_ifs at found with here
    · obtain rfl := Option.some.inj found
      simpa using filled
    · obtain ⟨m, later, rfl⟩ := Option.map_eq_some_iff.1 found
      rw [List.take_succ_cons, List.infix_cons_iff]
      rintro (first | within)
      · exact here (List.isPrefixOf_iff_prefix.2 (first.trans (List.prefix_cons_inj c |>.2 (List.take_prefix m cs))))
      · exact ih later within

/-- a comment up to the end of its line is trivia, or the last of the script -/
theorem trivia_of_line {opening : List Char} (opens : OpensLine d opening) :
    Trivia d ((opening ++ cs).take (lineLength (opening ++ cs))) ∨
      (lineLength (opening ++ cs) = (opening ++ cs).length ∧ LastTrivia d (opening ++ cs)) := by
  rw [lineLength_append_of_not_mem opens.inLine]
  rcases line_cases cs with ⟨whole, size⟩ | ⟨body, more, rfl, inLine, size⟩
  · right
    rw [size, List.length_append]
    exact ⟨rfl, .line .nil opens whole⟩
  · left
    have taken : (opening ++ (body ++ '\n' :: more)).take (opening.length + (body.length + 1)) =
        opening ++ body ++ '\n' :: [] := by
      rw [List.take_length_add_append, List.take_length_add_append, List.append_assoc]
      rfl
    rw [size, taken]
    exact .line opens inLine .nil

theorem trivia_of_block {n : Nat} (found : findFirst? ['*', '/'] cs = some n) :
    Trivia d (('/' :: '*' :: cs).take (n + 4)) := by
  have first := not_infix_of_findFirst? (List.cons_ne_nil _ _) found
  have fits := add_length_le_of_findFirst? found (List.cons_ne_nil _ _)
  obtain ⟨behind, closed⟩ := List.isPrefixOf_iff_prefix.1 (isPrefixOf_drop_of_findFirst? found)
  have split : cs = cs.take n ++ (['*', '/'] ++ behind) := by rw [closed, List.take_append_drop]
  have size : (cs.take n).length = n := by
    rw [List.length_take]
    simp only [List.length_cons, List.length_nil] at fits
    omega
  have taken : ('/' :: '*' :: cs).take (n + 4) = ['/', '*'] ++ cs.take n ++ ['*', '/'] ++ [] := by
    conv_lhs => rw [split]
    rw [List.take_succ_cons, List.take_succ_cons, List.take_append, size]
    have inner : (cs.take n).take (n + 2) = cs.take n := List.take_of_length_le (by omega)
    rw [inner, Nat.add_sub_cancel_left]
    simp
  rw [taken]
  exact .block first .nil

theorem trivia_of_triviaPiece? {c : Char} {n : Nat} (h : triviaPiece? d c cs = some (.trivia n)) :
    0 < n ∧ (Trivia d ((c :: cs).take n) ∨ (n = (c :: cs).length ∧ LastTrivia d (c :: cs))) := by
  have positive : 0 < lineLength (c :: cs) := by
    rw [lineLength]
    split_ifs <;> omega
  simp only [triviaPiece?] at h
  split_ifs at h with white opens block
  · obtain rfl := Piece.trivia.inj (Option.some.inj h)
    exact ⟨Nat.one_pos, Or.inl (.blank white .nil)⟩
  · obtain rfl := Piece.trivia.inj (Option.some.inj h)
    refine ⟨positive, ?_⟩
    rcases opens with ⟨rfl, next⟩ | ⟨rfl, hash⟩
    · obtain ⟨more, rfl⟩ := List.head?_eq_some_iff.1 next
      exact trivia_of_line (Or.inl rfl)
    · exact trivia_of_line (Or.inr ⟨rfl, hash⟩)
  · obtain ⟨rfl, next⟩ := block
    obtain ⟨more, rfl⟩ := List.head?_eq_some_iff.1 next
    rw [List.drop_one, List.tail_cons] at h
    cases found : findFirst? ['*', '/'] more with
    | none => simp [found] at h
    | some size =>
      simp only [found, Option.some.injEq, Piece.trivia.injEq] at h
      subst h
      exact ⟨Nat.succ_pos _, Or.inl (trivia_of_block found)⟩

end

/-! ## Positions -/

namespace Position

/-- the column is the distance from the last line feed, or from the start -/
theorem start_after_column (text : List Char) :
    (start.after text).column = 1 + (text.reverse.takeWhile (· ≠ '\n')).length := by
  induction text using List.reverseRecOn with
  | nil => rfl
  | append_singleton text c ih =>
    rw [after_append, List.reverse_append, List.reverse_singleton, List.singleton_append, List.takeWhile_cons]
    change ((start.after text).advance c).column = _
    by_cases ends : c = '\n'
    · simp [advance, ends]
    · rw [advance, if_neg ends, if_pos (by simpa using ends), List.length_cons, ih, Nat.add_assoc]

end Position

/-! ## Laid tokens -/

/-- the token is a piece of the text, and its position says where -/
structure Token.PlacedIn (text : List Char) (t : Token) : Prop where
  filled : t.text ≠ ""
  /-- its characters are those of the text from its offset on -/
  written : t.text = slice text t.position.offset t.stop
  inside : t.stop ≤ text.length
  line : t.position.line = 1 + (text.take t.position.offset).count '\n'
  /-- the distance from the last line feed before it, or from the start -/
  column : t.position.column = 1 + ((text.take t.position.offset).reverse.takeWhile (· ≠ '\n')).length

/-- Tokens that stand in a text from an offset on, one behind the other, with only trivia before each. -/
inductive Laid (d : Dialect) (text : List Char) : Nat → List Token → Prop where
  | nil (first : Nat) : Laid d text first []
  | cons {first : Nat} {t : Token} {ts : List Token} (order : first ≤ t.position.offset)
      (gap : Trivia d (slice text first t.position.offset).toList) (placed : t.PlacedIn text)
      (rest : Laid d text t.stop ts) : Laid d text first (t :: ts)

/-- the offset behind the last token, or the one given if there is none -/
def stopOf (first : Nat) (ts : List Token) : Nat := (ts.getLast?.map Token.stop).getD first

section
variable {d : Dialect} {text : List Char}

@[simp] theorem stopOf_nil (first : Nat) : stopOf first [] = first := rfl

@[simp] theorem stopOf_cons (first : Nat) (t : Token) (ts : List Token) : stopOf first (t :: ts) = stopOf t.stop ts := by
  cases ts with
  | nil => rfl
  | cons u us => simp [stopOf, List.getLast?_cons]

theorem stopOf_append (first : Nat) (ts us : List Token) : stopOf first (ts ++ us) = stopOf (stopOf first ts) us := by
  induction ts generalizing first with
  | nil => rfl
  | cons t ts ih => rw [List.cons_append, stopOf_cons, stopOf_cons, ih]

theorem laid_append_iff {first : Nat} {ts us : List Token} :
    Laid d text first (ts ++ us) ↔ Laid d text first ts ∧ Laid d text (stopOf first ts) us := by
  induction ts generalizing first with
  | nil => simp [Laid.nil]
  | cons t ts ih =>
    rw [stopOf_cons]
    constructor
    · intro h
      cases h with
      | cons order gap placed rest =>
        obtain ⟨inner, outer⟩ := ih.1 rest
        exact ⟨.cons order gap placed inner, outer⟩
    · rintro ⟨h, outer⟩
      cases h with
      | cons order gap placed rest => exact .cons order gap placed (ih.2 ⟨rest, outer⟩)

theorem Laid.of_prefix {first : Nat} {ts us : List Token} (h : Laid d text first us) (part : ts <+: us) :
    Laid d text first ts := by
  obtain ⟨more, rfl⟩ := part
  exact (laid_append_iff.1 h).1

theorem Laid.of_within {first : Nat} {ts run : List Token} (h : Laid d text first ts) (part : run <:+: ts) :
    ∃ start, Laid d text start run := by
  obtain ⟨before, behind, rfl⟩ := part
  exact ⟨_, (laid_append_iff.1 (laid_append_iff.1 h).1).2⟩

/-- laid tokens end behind where they begin, and inside the text -/
theorem Laid.stopOf_bounds {first : Nat} {ts : List Token} (h : Laid d text first ts) :
    first ≤ stopOf first ts ∧ (ts ≠ [] → stopOf first ts ≤ text.length) := by
  induction h with
  | nil => simp
  | @cons first t ts order _ placed _ ih =>
    rw [stopOf_cons]
    have size : t.position.offset ≤ t.stop := Nat.le_add_right _ _
    refine ⟨by omega, fun _ => ?_⟩
    cases ts with
    | nil => exact placed.inside
    | cons u us => exact ih.2 (List.cons_ne_nil u us)

/-- The tokens of a stream are laid in a text from an offset on. If the stream comes to its end, there is
nothing but trivia behind its last token. -/
structure TokenStream.Covers (d : Dialect) (text : List Char) (first : Nat) (stream : TokenStream) : Prop where
  laid : Laid d text first stream.toList
  rest : stream.error? = none → LastTrivia d (text.drop (stopOf first stream.toList))

theorem TokenStream.Covers.token {first : Nat} {t : Token} {stream : TokenStream} (order : first ≤ t.position.offset)
    (gap : Trivia d (slice text first t.position.offset).toList) (placed : t.PlacedIn text)
    (covers : stream.Covers d text t.stop) : (TokenStream.token t stream).Covers d text first where
  laid := .cons order gap placed covers.laid
  rest := by
    rw [TokenStream.toList, stopOf_cons]
    exact covers.rest

theorem TokenStream.Covers.failed (first : Nat) (e : LexError) :
    (TokenStream.failed e).Covers d text first where
  laid := .nil first
  rest complete := by contradiction

theorem TokenStream.Covers.done {before behind : List Char} (split : before ++ behind = text)
    (last : LastTrivia d behind) : TokenStream.done.Covers d text before.length where
  laid := .nil _
  rest _ := by
    rw [← split, TokenStream.toList, stopOf_nil, List.drop_left]
    exact last

/-- a text cut in three: the middle is the slice between its ends -/
theorem slice_middle (before middle behind : List Char) :
    slice (before ++ middle ++ behind) before.length (before.length + middle.length) = String.ofList middle := by
  rw [slice, List.append_assoc, List.drop_left, Nat.add_sub_cancel_left, List.take_left]

/-! ## Scanning -/

/-- what a piece takes is passed over at once -/
theorem scanFrom_taken {c : Char} {cs : List Char} {n : Nat} (p : Position) (filled : 0 < n)
    (fits : n ≤ (c :: cs).length) :
    scanFrom d (n - 1) (p.advance c) cs = scanFrom d 0 (p.after ((c :: cs).take n)) ((c :: cs).drop n) := by
  obtain ⟨m, rfl⟩ : ∃ m, n = m + 1 := ⟨n - 1, by omega⟩
  have size : (cs.take m).length = m := by
    rw [List.length_take]
    rw [List.length_cons] at fits
    omega
  have passed := @scanFrom_skip d (cs.take m) 0 (p.advance c) (cs.drop m)
  rw [size, Nat.add_zero, List.take_append_drop] at passed
  exact passed

/-- a lexeme of one character at least, or a fault -/
def Piece.Filled : Piece → Prop
  | trivia _ => False
  | lexeme _ _ _ size => 0 < size
  | fault _ => True

theorem stringPiece_filled (lead : Nat) (quote : Char) (escapes : Bool) (cs : List Char) :
    (stringPiece lead quote escapes cs).Filled := by
  unfold stringPiece
  split
  · simp only [Piece.Filled]; omega
  · trivial

theorem identifierPiece_filled (opening closing : Char) (cs : List Char) :
    (identifierPiece opening closing cs).Filled := by
  unfold identifierPiece
  split
  · simp only [Piece.Filled]; omega
  · trivial

theorem dollarPiece_filled (cs : List Char) : (dollarPiece cs).Filled := by
  unfold dollarPiece
  split
  · exact Nat.one_pos
  · dsimp only
    split
    · simp only [Piece.Filled]; omega
    · trivial

theorem numberPiece_filled (cs : List Char) : (numberPiece cs).Filled := by
  rw [numberPiece]
  split_ifs with none
  · trivial
  · exact Nat.pos_of_ne_zero none

theorem wordPiece_filled (c : Char) (cs : List Char) : (wordPiece d c cs).Filled := by
  have several : 0 < 1 + runLength (fun c => isWordChar c || c = '$') cs := by omega
  rw [wordPiece]
  split
  · exact stringPiece_filled ..
  · -- whether the word is a keyword makes no difference, and must not be computed
    generalize d.isKeyword _ = reserved
    cases reserved <;> exact several

theorem symbolPiece_filled (c : Char) (cs : List Char) : (symbolPiece c cs).Filled := by
  have sizes : ∀ op ∈ operators, 0 < op.length := by decide
  unfold symbolPiece
  split
  · rename_i op found
    exact sizes op (List.mem_of_find?_eq_some found)
  · exact Nat.one_pos

theorem lexemePiece_filled (c : Char) (cs : List Char) : (lexemePiece d c cs).Filled := by
  unfold lexemePiece
  split
  · exact identifierPiece_filled ..
  · split_ifs
    · exact stringPiece_filled ..
    · exact dollarPiece_filled cs
    · exact numberPiece_filled (c :: cs)
    · exact wordPiece_filled c cs
    · exact symbolPiece_filled c cs

/-- what stands at the head of a text is trivia or a lexeme of some characters -/
theorem pieceAt_cases (c : Char) (cs : List Char) :
    (∃ n, pieceAt d c cs = .trivia n ∧ triviaPiece? d c cs = some (.trivia n)) ∨
      (∃ kind value q n, pieceAt d c cs = .lexeme kind value q n ∧ 0 < n) ∨ ∃ what, pieceAt d c cs = .fault what := by
  cases found : triviaPiece? d c cs with
  | some piece =>
    have here : pieceAt d c cs = piece := by rw [pieceAt, found, Option.getD_some]
    cases piece with
    | trivia n => exact Or.inl ⟨n, here, rfl⟩
    | lexeme =>
      simp only [triviaPiece?] at found
      split_ifs at found
      · simp at found
      · simp at found
      · split at found <;> simp at found
    | fault what => exact Or.inr (Or.inr ⟨what, here⟩)
  | none =>
    have here : pieceAt d c cs = lexemePiece d c cs := by rw [pieceAt, found, Option.getD_none]
    have filled := @lexemePiece_filled d c cs
    cases piece : lexemePiece d c cs with
    | trivia n => rw [piece] at filled; exact filled.elim
    | lexeme kind value q n =>
      rw [piece] at filled
      exact Or.inr (Or.inl ⟨kind, value, q, n, here.trans piece, filled⟩)
    | fault what => exact Or.inr (Or.inr ⟨what, here.trans piece⟩)

/-- the token of a lexeme is placed where the scanner stands -/
theorem placedIn_of_lexeme {before taken behind : List Char} (split : before ++ taken ++ behind = text)
    (filled : taken ≠ []) (kind : TokenKind) (value : String) (q : Bool) :
    Token.PlacedIn text ⟨kind, String.ofList taken, value, Position.start.after before, q⟩ := by
  have offset : (Position.start.after before).offset = before.length := by
    rw [Position.after_offset]
    exact Nat.zero_add _
  have ahead : text.take before.length = before := by
    rw [← split, List.append_assoc, List.take_left]
  constructor
  · simpa using filled
  · simp only [Token.stop, offset, String.length_ofList]
    rw [← split, slice_middle]
  · simp only [Token.stop, offset, String.length_ofList]
    rw [← split]
    simp
  · simp only [offset, ahead, Position.after_line]
    rfl
  · simp only [offset, ahead, Position.start_after_column]

/-- the scanner covers a text, of which it has passed all up to the last token and trivia behind that -/
theorem covers_scanFrom {before gap left : List Char} (split : before ++ gap ++ left = text) (trivia : Trivia d gap) :
    (scanFrom d 0 (Position.start.after (before ++ gap)) left).Covers d text before.length := by
  induction size : left.length using Nat.strong_induction_on generalizing before gap left with
  | _ n ih =>
    cases left with
    | nil =>
      rw [List.append_nil] at split
      exact .done split (.closed trivia)
    | cons c cs =>
      have fits := @pieceAt_le d cs c
      have shorter : ∀ {m}, 0 < m → ((c :: cs).drop m).length < n := by
        intro m filled
        rw [List.length_drop, ← size, List.length_cons]
        omega
      rw [scanFrom]
      rcases @pieceAt_cases d c cs with ⟨m, piece, blank⟩ | ⟨kind, value, q, m, piece, filled⟩ | ⟨what, piece⟩
      · rw [piece] at fits ⊢
        simp only [Piece.size] at fits
        obtain ⟨filled, taken | ⟨whole, last⟩⟩ := trivia_of_triviaPiece? blank
        · have split' : before ++ (gap ++ (c :: cs).take m) ++ (c :: cs).drop m = text := by
            rw [← split]
            simp
          have next := ih _ (shorter filled) split' (trivia.append taken) rfl
          simp only [scanFrom_taken _ filled fits, ← Position.after_append, List.append_assoc] at next ⊢
          exact next
        · -- a comment at the very end takes all that is left
          simp only [scanFrom_taken _ filled fits]
          rw [List.drop_of_length_le (Nat.le_of_eq whole.symm), scanFrom]
          rw [List.append_assoc] at split
          exact .done split (last.prepend trivia)
      · rw [piece] at fits ⊢
        simp only [Piece.size] at fits
        have parted : before ++ gap ++ (c :: cs).take m ++ (c :: cs).drop m = text := by
          rw [List.append_assoc, List.take_append_drop, split]
        have taken : (c :: cs).take m ≠ [] := by
          rw [ne_eq, List.take_eq_nil_iff]
          simp only [reduceCtorEq, or_false]
          omega
        have place : (Position.start.after (before ++ gap)).offset = (before ++ gap).length := by
          rw [Position.after_offset]
          exact Nat.zero_add _
        have parted' : before ++ gap ++ (c :: cs).take m ++ [] ++ (c :: cs).drop m = text := by
          rw [List.append_nil, parted]
        have next := ih _ (shorter filled) parted' .nil rfl
        simp only [scanFrom_taken _ filled fits, ← Position.after_append]
        refine .token ?_ ?_ (placedIn_of_lexeme parted taken kind value q) ?_
        · rw [place, List.length_append]
          omega
        · rw [place, List.length_append, ← split, slice_middle, String.toList_ofList]
          exact trivia
        · rw [List.append_nil] at next
          have stop : Token.stop ⟨kind, String.ofList ((c :: cs).take m), value,
              Position.start.after (before ++ gap), q⟩ = (before ++ gap ++ (c :: cs).take m).length := by
            rw [Token.stop, place, String.length_ofList, @List.length_append _ (before ++ gap)]
          rw [stop]
          exact next
      · rw [piece]
        exact .failed _ _

theorem covers_scan : (scan d text).Covers d text 0 :=
  @covers_scanFrom d text [] [] text rfl .nil

/-! ## Merging -/

/-- the token of a run of raw ones: of one alone, or of the words of a phrase -/
inductive Merged (text : List Char) : List Token → Token → Prop where
  | single (t : Token) : Merged text [t] t
  | phrase (first : Token) (words : List Token) :
      Merged text (first :: words) (phraseToken text first (words.getLastD first) (first :: words))

theorem lookAhead_eq_ok {stream : TokenStream} {n : Nat} {ts : List Token} (h : stream.lookAhead n = .ok ts) :
    ts = stream.toList.take n := by
  induction stream generalizing n ts with
  | done => cases n <;> (rw [← Except.ok.inj h]; rfl)
  | failed e =>
    cases n with
    | zero => rw [← Except.ok.inj h]; rfl
    | succ n => contradiction
  | token t rest ih =>
    cases n with
    | zero => rw [← Except.ok.inj h]; rfl
    | succ n =>
      rw [TokenStream.lookAhead] at h
      split at h
      · rename_i ts' seen
        rw [← Except.ok.inj h, ih seen]
        rfl
      · contradiction

theorem phrase_ne_nil {t : Token} {phrase : List String} (h : phrase ∈ phrasesAt d t) : phrase ≠ [] := by
  unfold phrasesAt at h
  split_ifs at h
  · simp only [Dialect.phrasesStarting, Dialect.phrasesFrom, List.mem_mergeSort, List.mem_filter] at h
    intro empty
    rw [empty] at h
    simp at h
  · contradiction

/-- Merging takes the raw tokens run by run. What a stream that breaks off has not given yet is missing. -/
theorem merged_mergeFrom (skip : Nat) (raw : TokenStream) : ∃ runs,
    List.Forall₂ (Merged text) runs (mergeFrom d text skip raw).toList ∧
      runs.flatten <+: raw.toList.drop skip ∧
      ((mergeFrom d text skip raw).error? = none → runs.flatten = raw.toList.drop skip) := by
  induction raw generalizing skip with
  | done => cases skip <;> exact ⟨[], .nil, List.nil_prefix, fun _ => rfl⟩
  | failed e => cases skip <;> exact ⟨[], .nil, List.nil_prefix, fun complete => by contradiction⟩
  | token t rest ih =>
    have alone : ∃ runs,
        List.Forall₂ (Merged text) runs (TokenStream.token t (mergeFrom d text 0 rest)).toList ∧
          runs.flatten <+: t :: rest.toList ∧
          ((TokenStream.token t (mergeFrom d text 0 rest)).error? = none → runs.flatten = t :: rest.toList) := by
      obtain ⟨runs, merged, part, all⟩ := ih 0
      refine ⟨[t] :: runs, .cons (.single t) merged, ?_, fun complete => ?_⟩
      · exact (List.prefix_cons_inj t).2 part
      · exact congrArg (t :: ·) (all complete)
    cases skip with
    | succ skip => exact ih skip
    | zero =>
      rw [mergeFrom]
      split
      · exact alone
      · rename_i longest shorter candidates
        split
        · exact ⟨[], .nil, List.nil_prefix, fun complete => by contradiction⟩
        · rename_i window seen
          split
          · exact alone
          · rename_i phrase found
            have here : phraseAt phrase window = true := @List.find?_some _ _ phrase _ found
            have filled := phrase_ne_nil (candidates ▸ List.mem_of_find?_eq_some found)
            have size := length_le_of_phraseAt here
            obtain ⟨n, count⟩ : ∃ n, phrase.length = n + 1 :=
              ⟨phrase.length - 1, by have := List.length_pos_iff.2 filled; omega⟩
            -- the run is the words of the phrase, of which the token is the first
            have words : window.take phrase.length = t :: rest.toList.take n := by
              have all := lookAhead_eq_ok seen
              rw [all, List.length_take] at size
              rw [all, List.take_take, Nat.min_eq_left (by omega), count]
              rfl
            obtain ⟨runs, merged, part, all⟩ := ih n
            have last : (t :: rest.toList.take n).getLastD t = (rest.toList.take n).getLastD t := List.getLastD_cons ..
            rw [words, count, Nat.add_sub_cancel]
            dsimp only
            rw [last]
            refine ⟨(t :: rest.toList.take n) :: runs, .cons (.phrase t _) merged, ?_, fun complete => ?_⟩
            · have taken := (List.prefix_append_right_inj (rest.toList.take n)).2 part
              rw [List.take_append_drop] at taken
              exact (List.prefix_cons_inj t).2 taken
            · rw [List.flatten_cons, all complete, List.cons_append, List.take_append_drop]
              rfl

theorem stop_getLastD (first : Token) (words : List Token) :
    (words.getLastD first).stop = stopOf first.stop words := by
  induction words generalizing first with
  | nil => rfl
  | cons w words ih => rw [List.getLastD_cons, stopOf_cons, ih]

/-- a phrase is the piece of the text from its first word through its last -/
theorem placedIn_phraseToken {first : Token} {words run : List Token} (placed : first.PlacedIn text)
    (rest : Laid d text first.stop words) :
    (phraseToken text first (words.getLastD first) run).PlacedIn text ∧
      (phraseToken text first (words.getLastD first) run).stop = stopOf first.stop words := by
  obtain ⟨longer, inside⟩ := rest.stopOf_bounds
  have filled : 0 < first.text.length := by
    rw [← String.length_toList]
    exact List.length_pos_iff.2 (by simpa using placed.filled)
  have within : stopOf first.stop words ≤ text.length := by
    cases words with
    | nil => exact placed.inside
    | cons w words => exact inside (List.cons_ne_nil w words)
  have begins : first.stop = first.position.offset + first.text.length := rfl
  have size : (phraseToken text first (words.getLastD first) run).text.length =
      stopOf first.stop words - first.position.offset := by
    simp only [phraseToken, slice, String.length_ofList, List.length_take, List.length_drop, stop_getLastD]
    omega
  have stop : (phraseToken text first (words.getLastD first) run).stop = stopOf first.stop words := by
    change first.position.offset + (phraseToken text first (words.getLastD first) run).text.length = _
    omega
  refine ⟨⟨?_, ?_, ?_, placed.line, placed.column⟩, stop⟩
  · intro empty
    rw [empty, String.length_empty] at size
    omega
  · rw [stop]
    simp only [phraseToken, stop_getLastD]
  · rw [stop]; exact within

/-- merging keeps tokens laid, and does not change where the last one ends -/
theorem laid_merged {first : Nat} {runs : List (List Token)} {ts : List Token}
    (merged : List.Forall₂ (Merged text) runs ts) (h : Laid d text first runs.flatten) :
    Laid d text first ts ∧ stopOf first ts = stopOf first runs.flatten := by
  induction merged generalizing first with
  | nil => exact ⟨.nil first, rfl⟩
  | @cons run t runs ts one _ ih =>
    rw [List.flatten_cons] at h ⊢
    cases one with
    | single =>
      cases h with
      | cons order gap placed rest =>
        obtain ⟨laid, stop⟩ := ih rest
        exact ⟨.cons order gap placed laid, by rw [stopOf_cons, stop, List.singleton_append, stopOf_cons]⟩
    | phrase head words =>
      cases h with
      | cons order gap placed rest =>
        obtain ⟨own, rest⟩ := laid_append_iff.1 rest
        obtain ⟨whole, size⟩ := @placedIn_phraseToken d text head words (head :: words) placed own
        rw [← size] at rest
        obtain ⟨laid, stop⟩ := ih rest
        refine ⟨.cons order gap whole laid, ?_⟩
        rw [stopOf_cons, stop, size, List.cons_append, stopOf_cons, stopOf_append]

/-- a token reaches from the first of a run of tokens to the last -/
def Token.Spans (t : Token) (run : List Token) : Prop :=
  ∃ first last, run.head? = some first ∧ run.getLast? = some last ∧ t.position = first.position ∧ t.stop = last.stop

theorem spans_of_merged {first : Nat} {runs : List (List Token)} {ts : List Token}
    (merged : List.Forall₂ (Merged text) runs ts) (h : Laid d text first runs.flatten) :
    List.Forall₂ (fun run t => t.Spans run) runs ts := by
  induction merged generalizing first with
  | nil => exact .nil
  | @cons run t runs ts one _ ih =>
    rw [List.flatten_cons] at h
    refine .cons ?_ (ih (laid_append_iff.1 h).2)
    cases one with
    | single => exact ⟨t, t, rfl, rfl, rfl, rfl⟩
    | phrase head words =>
      cases h with
      | cons _ _ placed rest =>
        obtain ⟨-, size⟩ :=
          @placedIn_phraseToken d text head words (head :: words) placed (laid_append_iff.1 rest).1
        refine ⟨head, words.getLastD head, rfl, by simp [List.getLast?_cons], rfl, ?_⟩
        rw [size, stop_getLastD]

theorem Laid.ordered {first : Nat} {ts : List Token} (h : Laid d text first ts) :
    ts.Pairwise fun t u => t.stop ≤ u.position.offset := by
  have later : ∀ {first ts}, Laid d text first ts → ∀ u ∈ ts, first ≤ u.position.offset := by
    intro first ts h
    induction h with
    | nil => simp
    | @cons first t ts order _ _ _ ih =>
      intro u hu
      have size : t.position.offset ≤ t.stop := Nat.le_add_right _ _
      rcases List.mem_cons.1 hu with rfl | hu
      · exact order
      · have := ih u hu
        omega
  induction h with
  | nil => exact .nil
  | cons _ _ _ rest ih => exact .cons (later rest) ih

/-! ## Tokens -/

theorem covers_tokenize : (tokenize d text).Covers d text 0 ∧ ∃ runs,
    List.Forall₂ (fun run t => t.Spans run) runs (tokenize d text).toList ∧ runs.flatten <+: (scan d text).toList := by
  obtain ⟨runs, merged, part, all⟩ := @merged_mergeFrom d text 0 (scan d text)
  have raw := (@covers_scan d text).laid.of_prefix part
  obtain ⟨laid, stop⟩ := laid_merged merged raw
  refine ⟨⟨laid, fun complete => ?_⟩, runs, spans_of_merged merged raw, part⟩
  have last := (@covers_scan d text).rest (complete_of_mergeFrom complete)
  rw [tokenize, merge, stop, all complete]
  exact last

end

/-- The tokens of a script up to any point are pieces of it at the positions that they carry, in order and
apart, with nothing but white space and comments before each; behind the last one there is nothing else if the
script has come to its end. Each token reaches from the first to the last of the raw tokens that it is made of. -/
theorem tokenize_lossless (d : Dialect) (text : List Char) :
    (∀ ts, ts <+: (tokenize d text).toList →
      Laid d text 0 ts ∧ ts.Pairwise fun t u => t.stop ≤ u.position.offset) ∧
    ((tokenize d text).error? = none → LastTrivia d (text.drop (stopOf 0 (tokenize d text).toList))) ∧
    ∃ runs, List.Forall₂ (fun run t => t.Spans run) runs (tokenize d text).toList ∧
      runs.flatten <+: (scan d text).toList := by
  obtain ⟨covers, runs⟩ := @covers_tokenize d text
  refine ⟨fun ts part => ?_, covers.rest, runs⟩
  have laid := covers.laid.of_prefix part
  exact ⟨laid, laid.ordered⟩

/-- a phrase with a comment inside, behind a comment -/
theorem tokenize_lossless_notNull :
    (tokenize .mysql "id#key\nNOT/**/NULL--".toList).toList.map (·.text) = ["id", "NOT/**/NULL"] ∧
      Laid .mysql "id#key\nNOT/**/NULL--".toList 0 (tokenize .mysql "id#key\nNOT/**/NULL--".toList).toList ∧
      LastTrivia .mysql ['-', '-'] := by
  have whole : "id#key\nNOT/**/NULL--".toList.drop
      (stopOf 0 (tokenize .mysql "id#key\nNOT/**/NULL--".toList).toList) = ['-', '-'] := by decide +kernel
  have lossless := tokenize_lossless .mysql "id#key\nNOT/**/NULL--".toList
  refine ⟨by decide +kernel, (lossless.1 _ (List.prefix_refl _)).1, ?_⟩
  rw [← whole]
  exact lossless.2.1 (by decide +kernel)

end SchemaApi
