import SchemaApi.Proofs.Token.Locality
/-!
Quoting a text and reading it back.

A text between delimiters, with its closing delimiter doubled and each backslash that would escape, is one token whose
value is the text, whatever that is (`delimited_guarded`). Behind it reading starts anew: the tokens of the rest are
those that the rest has by itself, a literal further on (`tokenize_quotation`). They stand in other columns only up to
the first line feed, and so a place of the rest has a place in the whole that does not depend on the tokens
(`Position.behind`).
-/

namespace SchemaApi

open Text

/-! ## Places behind a text -/

namespace Position

/-- lines and columns are counted from one -/
def Counted (p : Position) : Prop := 1 ≤ p.line ∧ 1 ≤ p.column

theorem counted_advance {p : Position} (h : p.Counted) (c : Char) : (p.advance c).Counted := by
  by_cases feed : c = '\n'
  · simp [feed, advance, Counted]
  · simp only [advance, if_neg feed]
    exact ⟨h.1, Nat.le_add_left 1 p.column⟩

/-- Where a place of a text is if the text stands behind another one. The first line of the text goes on with the last
one before. -/
def behind (before : List Char) (p : Position) : Position where
  line := (start.after before).line + (p.line - 1)
  column := if p.line = 1 then (start.after before).column + (p.column - 1) else p.column
  offset := p.offset + before.length

variable (before : List Char)

@[simp] theorem behind_offset (p : Position) : (p.behind before).offset = p.offset + before.length := rfl

theorem behind_start : start.behind before = start.after before := by
  have offset : (start.after before).offset = 0 + before.length := after_offset start before
  simp only [behind, start, if_true, Nat.sub_self, Nat.add_zero] at offset ⊢
  rw [← offset]

theorem behind_advance {p : Position} (counted : p.Counted) (c : Char) :
    (p.behind before).advance c = (p.advance c).behind before := by
  obtain ⟨line, column⟩ := counted
  by_cases feed : c = '\n'
  · have later : p.line + 1 ≠ 1 := by omega
    simp only [advance, behind, feed, if_true, if_neg later, mk.injEq, true_and]
    omega
  · by_cases first : p.line = 1
    · simp only [advance, behind, if_neg feed, first, if_true, mk.injEq, true_and]
      omega
    · simp only [advance, behind, if_neg feed, if_neg first, mk.injEq, true_and]
      omega

end Position

/-- a token of a text behind another one -/
def Token.behind (before : List Char) (t : Token) : Token := { t with position := t.position.behind before }

def LexError.behind (before : List Char) (e : LexError) : LexError := { e with position := e.position.behind before }

/-- the tokens of a text behind another one -/
def TokenStream.behind (before : List Char) : TokenStream → TokenStream
  | done => done
  | failed e => failed (e.behind before)
  | token t rest => token (t.behind before) (rest.behind before)

section
variable {d : Dialect} (before : List Char)

theorem scanFrom_behind (cs : List Char) (skip : Nat) {p : Position} (counted : p.Counted) :
    scanFrom d skip (p.behind before) cs = (scanFrom d skip p cs).behind before := by
  induction cs generalizing skip p with
  | nil => rfl
  | cons c cs ih =>
    have next := Position.counted_advance counted c
    cases skip with
    | succ skip =>
      rw [scanFrom, scanFrom, Position.behind_advance before counted]
      exact ih skip next
    | zero =>
      rw [scanFrom, scanFrom, Position.behind_advance before counted]
      cases pieceAt d c cs with
      | fault what => rfl
      | trivia n => exact ih (n - 1) next
      | lexeme kind value isQuoted n =>
        simp only [TokenStream.behind, ih _ next]
        rfl

/-! ## Phrases behind a text -/

theorem stop_behind (t : Token) : (t.behind before).stop = t.stop + before.length := Nat.add_right_comm ..

theorem lookAhead_behind (n : Nat) (stream : TokenStream) :
    (stream.behind before).lookAhead n =
      ((stream.lookAhead n).map (List.map (Token.behind before))).mapError (LexError.behind before) := by
  induction stream generalizing n with
  | done => cases n <;> rfl
  | failed e => cases n <;> rfl
  | token t rest ih =>
    cases n with
    | zero => rfl
    | succ n =>
      rw [TokenStream.behind, TokenStream.lookAhead, TokenStream.lookAhead, ih]
      cases rest.lookAhead n <;> rfl

theorem phraseAt_behind (words : List String) (ts : List Token) :
    phraseAt words (ts.map (Token.behind before)) = phraseAt words ts := by
  induction words generalizing ts with
  | nil => rfl
  | cons word words ih =>
    cases ts with
    | nil => rfl
    | cons t ts =>
      rw [List.map_cons, phraseAt, phraseAt, ih]
      rfl

theorem phraseToken_behind (text : List Char) (first last : Token) (words : List Token) :
    phraseToken (before ++ text) (first.behind before) (last.behind before) (words.map (Token.behind before)) =
      (phraseToken text first last words).behind before := by
  have text := slice_shift before text first.position.offset last.stop
  have names : (words.map (Token.behind before)).map (fun w => upper w.text) = words.map fun w => upper w.text := by
    rw [List.map_map]
    rfl
  have place : (first.behind before).position.offset = first.position.offset + before.length := rfl
  simp only [phraseToken, place, stop_behind, text, names]
  rfl

/-- which words are merged does not depend on where they stand -/
theorem mergeFrom_behind (text : List Char) (skip : Nat) (raw : TokenStream) :
    mergeFrom d (before ++ text) skip (raw.behind before) = (mergeFrom d text skip raw).behind before := by
  induction raw generalizing skip with
  | done => cases skip <;> rfl
  | failed e => cases skip <;> rfl
  | token t rest ih =>
    cases skip with
    | succ skip => exact ih skip
    | zero =>
      have same : phrasesAt d (t.behind before) = phrasesAt d t := rfl
      rw [TokenStream.behind, mergeFrom, mergeFrom, same]
      cases phrasesAt d t with
      | nil => simp only [ih, TokenStream.behind]
      | cons longest shorter =>
        have ahead := lookAhead_behind before longest.length (.token t rest)
        rw [TokenStream.behind] at ahead
        simp only [ahead]
        cases (TokenStream.token t rest).lookAhead longest.length with
        | error e => rfl
        | ok window =>
          simp only [Except.map, Except.mapError, phraseAt_behind]
          cases (longest :: shorter).find? (phraseAt · window) with
          | none => simp only [ih, TokenStream.behind]
          | some phrase =>
            simp only [ih, TokenStream.behind, ← List.map_take, List.getLastD_map, phraseToken_behind]

/-- reading that goes on behind a text gives the tokens of the rest -/
theorem tokenize_behind (rest : List Char) :
    mergeFrom d (before ++ rest) 0 (scanFrom d 0 (Position.start.after before) rest) =
      (tokenize d rest).behind before := by
  have counted : Position.start.Counted := ⟨Nat.le_refl 1, Nat.le_refl 1⟩
  rw [← Position.behind_start, scanFrom_behind before rest 0 counted, mergeFrom_behind]
  rfl

end

/-! ## Quotations -/

/-- the ways to put a text between delimiters -/
inductive Quotation (d : Dialect) where
  /-- as an identifier, between an opening and a closing delimiter -/
  | name (quotes : Char × Char) (legal : quotes ∈ d.identifierQuotes)
  | string (quote : Char) (legal : quote ∈ d.stringQuotes)
  /-- as a string in single quotes, with a letter in front -/
  | marked (mark : Char) (legal : isStringMark mark = true)

namespace Quotation

variable {d : Dialect}

def opening : Quotation d → List Char
  | name quotes _ => [quotes.1]
  | string quote _ => [quote]
  | marked mark _ => [mark, '\'']

def closing : Quotation d → Char
  | name quotes _ => quotes.2
  | string quote _ => quote
  | marked _ _ => '\''

/-- a backslash escapes the next character; behind an `E` in every dialect -/
def escapes : Quotation d → Bool
  | name _ _ => false
  | string _ _ => d.backslashEscapes
  | marked mark _ => mark.toUpper = 'E' || d.backslashEscapes

def isName : Quotation d → Bool
  | name _ _ => true
  | _ => false

/-- what has to be written for a text to be read -/
def write (q : Quotation d) (text : String) : List Char :=
  q.opening ++ guarded q.closing q.escapes text.toList ++ [q.closing]

/-- the token of a quotation at the start of a script -/
def token (q : Quotation d) (text : String) : Token where
  kind := if q.isName then .identifier else .string
  text := String.ofList (q.write text)
  value := text
  position := .start
  quoted := q.isName

end Quotation

section
variable {d : Dialect} {mark : Char} {rest : List Char}

/-- the letters that may stand in front of a string -/
theorem mem_of_isStringMark (legal : isStringMark mark = true) : mark ∈ ['B', 'E', 'N', 'X', 'b', 'e', 'n', 'x'] := by
  by_cases ascii : mark.toNat < 128
  · have all : ∀ n < 128, isStringMark (Char.ofNat n) = true →
        Char.ofNat n ∈ ['B', 'E', 'N', 'X', 'b', 'e', 'n', 'x'] := by decide
    have here := all mark.toNat ascii
    rw [Char.ofNat_toNat] at here
    exact here legal
  · have notSmall : ¬ ('a'.val ≤ mark.val ∧ mark.val ≤ 'z'.val) :=
      fun small => ascii (Nat.lt_of_le_of_lt small.2 (by decide))
    have own : mark.toUpper = mark := dif_neg notSmall
    simp only [isStringMark, own, Bool.or_eq_true, decide_eq_true_eq] at legal
    rcases legal with ((rfl | rfl) | rfl) | rfl
    all_goals decide

/-- such a letter begins a word, or the string -/
theorem pieceAt_of_isStringMark (legal : isStringMark mark = true) : pieceAt d mark rest = wordPiece d mark rest := by
  have all : ∀ c ∈ ['B', 'E', 'N', 'X', 'b', 'e', 'n', 'x'], isBlank c = false ∧ c ≠ '-' ∧ c ≠ '#' ∧ c ≠ '/' ∧
      c ≠ '.' ∧ c ≠ '$' ∧ isDigit c = false ∧ isLetter c = true ∧ d.identifierQuotes.lookup c = none ∧
        d.stringQuotes.contains c = false := by
    cases d <;> exact List.all_iff_forall_prop.1 (by decide)
  obtain ⟨visible, dash, hash, slash, point, dollar, digit, letter, unnamed, unquoted⟩ :=
    all mark (mem_of_isStringMark legal)
  have noTrivia : triviaPiece? d mark rest = none := by simp [triviaPiece?, visible, dash, hash, slash]
  rw [pieceAt, noTrivia, Option.getD_none]
  simp only [lexemePiece, unnamed, unquoted, Bool.false_eq_true, if_false, dollar, false_and, startsNumber, digit,
    point, decide_false, Bool.false_and, Bool.or_false, letter, Bool.true_or, if_true]

/-- a string with a letter in front is one lexeme, whatever it says -/
theorem isLexeme_marked (legal : isStringMark mark = true) (ends : rest.head? ≠ some '\'') (text : String) :
    IsLexeme d (mark :: '\'' :: (guarded '\'' (mark.toUpper = 'E' || d.backslashEscapes) text.toList ++ ['\'']))
      .string text false rest := by
  have inner := @delimited_guarded rest '\'' (mark.toUpper = 'E' || d.backslashEscapes) (by decide) ends text.toList
  have marks : ∀ more, MarksString mark ('\'' :: more) := fun more => ⟨legal, rfl, rfl⟩
  refine ⟨_, _, rfl, ?_⟩
  rw [pieceAt_of_isStringMark legal, List.cons_append, wordPiece_marked (marks _), List.drop_one, List.tail_cons,
    List.append_assoc, List.singleton_append]
  simp only [stringPiece, inner, String.ofList_toList, List.length_cons, List.length_append, List.length_nil]
  congr 1
  omega

theorem Quotation.isLexeme (q : Quotation d) (ends : rest.head? ≠ some q.closing) (text : String) :
    IsLexeme d (q.write text) (if q.isName then .identifier else .string) text q.isName rest := by
  cases q with
  | name quotes legal => exact isLexeme_name legal ends text
  | string quote legal => exact isLexeme_string legal ends text
  | marked mark legal => exact isLexeme_marked legal ends text

/-- a quotation is no word that a phrase could begin with -/
theorem Quotation.phrasesAt_token (q : Quotation d) (text : String) : phrasesAt d (q.token text) = [] := by
  cases q <;> rfl

end

/-- A text that is quoted is read back: the first token is the quotation, its value is the text, and the tokens behind
it are those of what is written behind. -/
theorem tokenize_quotation {d : Dialect} (q : Quotation d) (text : String) {rest : List Char}
    (ends : rest.head? ≠ some q.closing) : tokenize d (q.write text ++ rest) =
      .token (q.token text) ((tokenize d rest).behind (q.write text)) := by
  have first := scanFrom_of_isLexeme (q.isLexeme ends text) .start
  change mergeFrom d _ 0 (scanFrom d 0 .start _) = _
  rw [first, ← Quotation.token, mergeFrom, q.phrasesAt_token]
  dsimp only
  rw [tokenize_behind]

/-- a name with the closing delimiter in it, and a column behind -/
theorem tokenize_quotation_bracketed :
    tokenize .mssql "[a]]b].id".toList =
      .token ⟨.identifier, "[a]]b]", "a]b", ⟨1, 1, 0⟩, true⟩ ((tokenize .mssql ".id".toList).behind "[a]]b]".toList) ∧
    ".id".toList.head? ≠ some ']' := by
  have ends : ".id".toList.head? ≠ some ']' := by decide
  have read := tokenize_quotation (Quotation.name ('[', ']') (by decide : _ ∈ Dialect.mssql.identifierQuotes)) "a]b" ends
  exact ⟨read, ends⟩

end SchemaApi
