import SchemaApi.Statement
import SchemaApi.Proofs.Token.Piece
/-!
Printed terminals and their tokens.

A statement is printed from terminals: fixed words and phrases, delimited names, texts, numbers and marks, with a
blank between two of them unless they stand close. Whatever the names and texts are, the tokens of the printed
text are those of the terminals, one for each, in their places: no name or text is taken for anything else,
and no phrase is made of words that were not written as one.
-/

namespace SchemaApi

open Text

/-! ## Terminals -/

/-- the fixed words and phrases of printed statements -/
inductive Vocabulary where
  | create | table | constraint | unique | references | default | notNull | primaryKey | foreignKey | onDelete | onUpdate
  | action (a : ReferentialAction)
  | integer | varchar
  deriving DecidableEq, Repr

namespace Vocabulary

/-- the words that a phrase is made of -/
def words : Vocabulary → List String
  | create => ["CREATE"]
  | table => ["TABLE"]
  | constraint => ["CONSTRAINT"]
  | unique => ["UNIQUE"]
  | references => ["REFERENCES"]
  | default => ["DEFAULT"]
  | notNull => ["NOT", "NULL"]
  | primaryKey => ["PRIMARY", "KEY"]
  | foreignKey => ["FOREIGN", "KEY"]
  | onDelete => ["ON", "DELETE"]
  | onUpdate => ["ON", "UPDATE"]
  | action .cascade => ["CASCADE"]
  | action .setNull => ["SET", "NULL"]
  | action .setDefault => ["SET", "DEFAULT"]
  | action .restrict => ["RESTRICT"]
  | action .noAction => ["NO", "ACTION"]
  | integer => ["INTEGER"]
  | varchar => ["VARCHAR"]

def text (w : Vocabulary) : String := " ".intercalate w.words

/-- the name of a type, which no dialect reserves -/
def isType (w : Vocabulary) : Bool := w == integer || w == varchar

def all : List Vocabulary :=
  [create, table, constraint, unique, references, default, notNull, primaryKey, foreignKey, onDelete, onUpdate, integer,
    varchar] ++ ReferentialAction.all.map action

theorem mem_all (w : Vocabulary) : w ∈ all := by
  cases w with
  | action a => cases a <;> decide
  | _ => decide

theorem words_cases (w : Vocabulary) : (∃ a, w.words = [a]) ∨ ∃ a b, w.words = [a, b] := by
  cases w with
  | action a => cases a <;> simp [words]
  | _ => simp [words]

theorem text_of_word {w : Vocabulary} {a : String} (h : w.words = [a]) : w.text = a := by
  rw [text, h, String.intercalate_singleton]

theorem capital_words (w : Vocabulary) : ∀ a ∈ w.words, (∀ x ∈ a.toList, x ∈ capitals) ∧ 2 ≤ a.length := by
  have every : ∀ w ∈ all, ∀ a ∈ w.words, a.toList.all capitals.contains = true ∧ 2 ≤ a.length := by decide +kernel
  intro a h
  obtain ⟨letters, long⟩ := every w w.mem_all a h
  exact ⟨fun x hx => List.contains_iff_mem.1 (List.all_eq_true.1 letters x hx), long⟩

theorem upper_words (w : Vocabulary) : ∀ a ∈ w.words, upper a = a := by
  have every : ∀ w ∈ all, ∀ a ∈ w.words, upper a = a := by decide +kernel
  exact every w w.mem_all

/-- no phrase of a dialect is made of a single word and the one that a further terminal begins with -/
theorem second_of_single {d : Dialect} {w : Vocabulary} {a : String} (single : w.words = [a]) {phrase : List String}
    (listed : phrase ∈ d.phrases) (first : phrase.head? = some a) :
    ∃ x more, phrase = a :: x :: more ∧ ∀ v : Vocabulary, v.words.head? ≠ some x := by
  have every : ∀ w ∈ all, w.words.length = 1 → ∀ phrase ∈ d.phrases, phrase.head? = w.words.head? →
      phrase[1]? ≠ none ∧ ∀ v ∈ all, v.words.head? ≠ phrase[1]? := by
    cases d <;> decide +kernel
  obtain ⟨long, apart⟩ := every w w.mem_all (by rw [single]; rfl) phrase listed (by rw [single, first]; rfl)
  rcases phrase with - | ⟨b, - | ⟨x, more⟩⟩
  · contradiction
  · contradiction
  · obtain rfl := Option.some.inj first
    exact ⟨x, more, rfl, fun v => apart v v.mem_all⟩

/-- two words that are one terminal are a phrase of every dialect, and begin no other -/
theorem phrase_of_pair {d : Dialect} {w : Vocabulary} {a b : String} (two : w.words = [a, b]) :
    [a, b] ∈ d.phrases ∧ ∀ phrase ∈ d.phrases, phrase.head? = some a →
      ∃ x more, phrase = a :: x :: more ∧ (x = b → more = []) := by
  have every : ∀ w ∈ all, w.words.length = 2 → w.words ∈ d.phrases ∧ ∀ phrase ∈ d.phrases,
      phrase.head? = w.words.head? → phrase[1]? ≠ none ∧ (phrase[1]? = w.words[1]? → phrase = w.words) := by
    cases d <;> decide +kernel
  have fact := every w w.mem_all (by rw [two]; rfl)
  rw [two] at fact
  refine ⟨fact.1, fun phrase listed first => ?_⟩
  obtain ⟨long, only⟩ := fact.2 phrase listed first
  rcases phrase with - | ⟨c, - | ⟨x, more⟩⟩
  · contradiction
  · contradiction
  · obtain rfl := Option.some.inj first
    refine ⟨x, more, rfl, ?_⟩
    rintro rfl
    exact (List.cons.inj (List.cons.inj (only rfl)).2).2

end Vocabulary

/-- a name and the delimiters that it is written between -/
structure DelimitedName (d : Dialect) where
  text : String
  quotes : Char × Char
  legal : quotes ∈ d.identifierQuotes

inductive Mark where
  | opening | closing | comma | point
  deriving DecidableEq, Repr

def Mark.char : Mark → Char
  | opening => '('
  | closing => ')'
  | comma => ','
  | point => '.'

def Mark.text : Mark → String
  | opening => "("
  | closing => ")"
  | comma => ","
  | point => "."

/-- what a statement is printed from -/
inductive Terminal (d : Dialect) where
  | word (w : Vocabulary)
  | name (n : DelimitedName d)
  /-- a text in single quotes -/
  | literal (text : String)
  | numeral (n : Nat)
  | mark (m : Mark)

/-! ## Printing -/

namespace Terminal

variable {d : Dialect}

/-- the characters that a terminal is printed as -/
def chars : Terminal d → List Char
  | word w => w.text.toList
  | name n => n.quotes.1 :: (guarded n.quotes.2 false n.text.toList ++ [n.quotes.2])
  | literal text => '\'' :: (guarded '\'' d.backslashEscapes text.toList ++ ['\''])
  | numeral n => (toString n).toList
  | mark m => [m.char]

/-- the second is printed right behind the first -/
def close : Terminal d → Terminal d → Bool
  | mark .opening, _ => true
  | _, mark .closing => true
  | _, mark .comma => true
  | name _, mark .point => true
  | mark .point, name _ => true
  | word .varchar, mark .opening => true
  | _, _ => false

/-- what is printed between a terminal and those behind it -/
def gap (t : Terminal d) : List (Terminal d) → List Char
  | [] => []
  | u :: _ => if t.close u then [] else [' ']

/-- the printed text of terminals -/
def print : List (Terminal d) → List Char
  | [] => []
  | t :: ts => t.chars ++ (t.gap ts ++ print ts)

/-! ## Tokens -/

/-- what a terminal stands for -/
def value : Terminal d → String
  | word w => if w.isType then d.normalize w.text false else w.text
  | name n => n.text
  | literal text => text
  | numeral n => toString n
  | mark m => m.text

def kind : Terminal d → TokenKind
  | word w => if w.isType then .identifier else .keyword
  | name _ => .identifier
  | literal _ => .string
  | numeral _ => .number
  | mark _ => .punctuation

def isName : Terminal d → Bool
  | name _ => true
  | _ => false

/-- the token of a terminal that is printed at a position -/
def token (t : Terminal d) (p : Position) : Token := ⟨t.kind, String.ofList t.chars, t.value, p, t.isName⟩

/-- the unquoted word, or the phrase, that a terminal is -/
def word? : Terminal d → Option String
  | word w => some w.text
  | _ => none

def isPunct (value : String) : Terminal d → Bool
  | mark m => m.text == value
  | _ => false

@[simp] theorem word?_token (t : Terminal d) (p : Position) : (t.token p).word? = t.word? := by
  cases t with
  | word w =>
    have every : ∀ w ∈ Vocabulary.all, ((word (d := d) w).token .start).word? = some w.text := by
      cases d <;> decide +kernel
    exact every w w.mem_all
  | _ => rfl

@[simp] theorem isPunct_token (value : String) (t : Terminal d) (p : Position) :
    (t.token p).isPunct value = t.isPunct value := by
  cases t with
  | word w =>
    have noMark : ((word (d := d) w).token p).kind ≠ .punctuation := by
      simp only [token, kind]
      split_ifs <;> decide
    simp [Token.isPunct, noMark, isPunct]
  | _ => rfl

/-- the tokens of terminals that are printed from a position on -/
def tokensFrom : Position → List (Terminal d) → List Token
  | _, [] => []
  | p, t :: ts => t.token p :: tokensFrom (p.after (t.chars ++ t.gap ts)) ts

@[simp] theorem length_tokensFrom (p : Position) (ts : List (Terminal d)) : (tokensFrom p ts).length = ts.length := by
  induction ts generalizing p with
  | nil => rfl
  | cons t ts ih => simp [tokensFrom, ih]

/-! ## What may stand behind a terminal -/

/-- the character does not go on with the terminal -/
def EndsBefore (t : Terminal d) (x : Char) : Prop :=
  match t with
  | word _ => isWordChar x = false ∧ x ≠ '$'
  | name n => x ≠ n.quotes.2
  | literal _ => x ≠ '\''
  | numeral _ => ¬ GoesOnNumber x
  | mark m => m = .point → isDigit x = false

theorem plain_quotes {quotes : Char × Char} (legal : quotes ∈ d.identifierQuotes) :
    quotes.2 ∉ [' ', ')', ',', '.'] ∧ isDigit quotes.1 = false := by
  have all : ∀ quotes ∈ d.identifierQuotes, quotes.2 ∉ [' ', ')', ',', '.'] ∧ isDigit quotes.1 = false := by
    cases d <;> decide
  exact all quotes legal

/-- a blank, a closing parenthesis or a comma may stand behind every terminal -/
theorem endsBefore_of_mem {x : Char} (h : x ∈ [' ', ')', ',']) (t : Terminal d) : t.EndsBefore x := by
  cases t with
  | word w =>
    have all : ∀ x ∈ [' ', ')', ','], isWordChar x = false ∧ x ≠ '$' :=
      List.all_iff_forall_prop.1 (by decide)
    exact all x h
  | name n =>
    rintro rfl
    exact (plain_quotes n.legal).1 (List.mem_append_left ['.'] h)
  | literal text =>
    have all : ∀ x ∈ [' ', ')', ','], x ≠ '\'' :=
      List.all_iff_forall_prop.1 (by decide)
    exact all x h
  | numeral n =>
    have all : ∀ x ∈ [' ', ')', ','], isDecimal x = false ∧ x ∉ ['.', 'e', 'E', 'x', 'X'] :=
      List.all_iff_forall_prop.1 (by decide)
    rintro (digit | other)
    · exact Bool.false_ne_true ((all x h).1.symm.trans digit)
    · exact (all x h).2 other
  | mark m =>
    have all : ∀ x ∈ [' ', ')', ','], isDigit x = false :=
      List.all_iff_forall_prop.1 (by decide)
    exact fun _ => all x h

/-- what is printed behind a terminal does not go on with it -/
theorem endsBefore_of_print {t : Terminal d} {ts : List (Terminal d)} {x : Char}
    (h : (t.gap ts ++ print ts).head? = some x) : t.EndsBefore x := by
  cases ts with
  | nil => contradiction
  | cons u ts =>
    by_cases near : t.close u = true
    · rw [gap, if_pos near, List.nil_append, print] at h
      unfold close at near
      split at near
      · exact fun point => by contradiction
      · obtain rfl := Option.some.inj h
        exact endsBefore_of_mem (by decide) t
      · obtain rfl := Option.some.inj h
        exact endsBefore_of_mem (by decide) t
      · rename_i n
        obtain rfl := Option.some.inj h
        rintro same
        exact (plain_quotes n.legal).1 (by rw [← same]; decide)
      · rename_i n
        obtain rfl := Option.some.inj h
        exact fun _ => (plain_quotes n.legal).2
      · obtain rfl := Option.some.inj h
        exact ⟨by decide, by decide⟩
      · contradiction
    · rw [gap, if_neg near] at h
      obtain rfl := Option.some.inj h
      exact endsBefore_of_mem (by decide) t

/-! ## Scanning -/

/-- the raw token of a word in capitals -/
def wordToken (d : Dialect) (p : Position) (word : String) : Token :=
  ⟨(wordLexeme d word).1, word, (wordLexeme d word).2, p, false⟩

/-- the raw tokens of a terminal: one for each word of a phrase -/
def rawTokens (t : Terminal d) (p : Position) : List Token :=
  match t with
  | word w =>
    match w.words with
    | [a, b] => [wordToken d p a, wordToken d (p.after (a.toList ++ [' '])) b]
    | _ => [t.token p]
  | _ => [t.token p]

/-- the raw tokens of terminals that are printed from a position on -/
def rawFrom : Position → List (Terminal d) → List Token
  | _, [] => []
  | p, t :: ts => t.rawTokens p ++ rawFrom (p.after (t.chars ++ t.gap ts)) ts

theorem wordLexeme_of_word {w : Vocabulary} {a : String} (h : w.words = [a]) :
    wordLexeme d a = ((word (d := d) w).kind, (word (d := d) w).value) := by
  have all : ∀ w ∈ Vocabulary.all, ∀ a ∈ w.words, w.words = [a] →
      wordLexeme d a = ((word (d := d) w).kind, (word (d := d) w).value) := by
    cases d <;> decide +kernel
  exact all w w.mem_all a (by rw [h]; exact List.mem_singleton_self a) h

theorem chars_of_words {w : Vocabulary} {a b : String} (h : w.words = [a, b]) :
    w.text.toList = a.toList ++ ' ' :: b.toList := by
  rw [Vocabulary.text, h, String.toList_intercalate]
  simp [List.intercalate]

/-- a terminal is scanned to its raw tokens -/
theorem scanFrom_chars (t : Terminal d) {rest : List Char} (ends : ∀ x, rest.head? = some x → t.EndsBefore x)
    (p : Position) : scanFrom d 0 p (t.chars ++ rest) =
      (TokenStream.ofList (t.rawTokens p)).append (scanFrom d 0 (p.after t.chars) rest) := by
  cases t with
  | word w =>
    have capital := w.capital_words
    rcases w.words_cases with ⟨a, single⟩ | ⟨a, b, two⟩
    · rw [single] at capital
      obtain ⟨letters, long⟩ := capital a List.mem_cons_self
      have raw : (word (d := d) w).rawTokens p = [(word (d := d) w).token p] := by simp only [rawTokens, single]
      have read := scanFrom_of_isLexeme (isLexeme_word letters long ends (d := d)) p
      rw [wordLexeme_of_word single, ← Vocabulary.text_of_word single] at read
      rw [raw]
      exact read
    · rw [two] at capital
      obtain ⟨letters, long⟩ := capital a List.mem_cons_self
      obtain ⟨letters', long'⟩ := capital b (List.mem_cons_of_mem a List.mem_cons_self)
      have raw : (word (d := d) w).rawTokens p =
          [wordToken d p a, wordToken d (p.after (a.toList ++ [' '])) b] := by simp only [rawTokens, two]
      have blank : ∀ x, (' ' :: (b.toList ++ rest)).head? = some x → isWordChar x = false ∧ x ≠ '$' := by
        intro x hx
        obtain rfl := Option.some.inj hx
        decide
      have first := scanFrom_of_isLexeme (isLexeme_word letters long blank (d := d)) p
      have second := scanFrom_of_isLexeme (isLexeme_word letters' long' ends (d := d)) (p.after (a.toList ++ [' ']))
      have between : (p.after a.toList).advance ' ' = p.after (a.toList ++ [' ']) := by
        rw [Position.after_append]
        rfl
      have whole : p.after (a.toList ++ ' ' :: b.toList) = (p.after (a.toList ++ [' '])).after b.toList := by
        rw [← Position.after_append, List.append_assoc, List.singleton_append]
      rw [raw, chars, chars_of_words two, List.append_assoc, List.cons_append, first, scanFrom_blank, between, second,
        whole]
      simp only [String.ofList_toList]
      rfl
  | name n => exact scanFrom_of_isLexeme (isLexeme_name n.legal (fun h => ends _ h rfl) n.text) p
  | literal text => exact scanFrom_of_isLexeme (isLexeme_literal (fun h => ends _ h rfl) text) p
  | numeral n =>
    have digits : ∀ x ∈ (toString n).toList, x.isDigit = true := by
      intro x hx
      rw [Nat.toString_eq_repr, Nat.toList_repr] at hx
      exact Nat.isDigit_of_mem_toDigits (by decide) (by decide) hx
    have filled : (toString n).toList ≠ [] := by
      rw [Nat.toString_eq_repr, Nat.toList_repr]
      exact Nat.toDigits_ne_nil
    have read := scanFrom_of_isLexeme (isLexeme_numeral filled digits ends (d := d)) p
    rw [String.ofList_toList] at read
    rw [chars, read]
    simp only [rawTokens, token, chars, String.ofList_toList]
    rfl
  | mark m =>
    have listed : m.char ∈ ['(', ')', ',', '.'] := by cases m <;> decide
    have point : m.char = '.' → m = .point := by cases m <;> decide
    have same : String.singleton m.char = m.text := by cases m <;> decide
    have read := scanFrom_of_isLexeme (isLexeme_mark listed fun h x hx => ends x hx (point h)) (d := d) p
    rw [same] at read
    exact read

/-- printed text is scanned to the raw tokens of its terminals -/
theorem scanFrom_print (ts : List (Terminal d)) (p : Position) :
    scanFrom d 0 p (print ts) = .ofList (rawFrom p ts) := by
  induction ts generalizing p with
  | nil => rfl
  | cons t ts ih =>
    have behind : scanFrom d 0 (p.after t.chars) (t.gap ts ++ print ts) =
        scanFrom d 0 (p.after (t.chars ++ t.gap ts)) (print ts) := by
      rw [Position.after_append]
      cases ts with
      | nil => rfl
      | cons u ts =>
        by_cases near : t.close u = true
        · rw [gap, if_pos near]
          rfl
        · rw [gap, if_neg near]
          exact scanFrom_blank _
    rw [print, t.scanFrom_chars (fun x h => endsBefore_of_print h), behind, ih, TokenStream.append_ofList, rawFrom]

/-! ## Merging -/

theorem phraseAt_of_take {words : List String} {tokens : List Token} {n : Nat}
    (h : phraseAt words (tokens.take n) = true) : phraseAt words tokens = true := by
  induction words generalizing tokens n with
  | nil => rfl
  | cons word words ih =>
    cases n with
    | zero => contradiction
    | succ n =>
      cases tokens with
      | nil => contradiction
      | cons t tokens =>
        rw [List.take_succ_cons, phraseAt, Bool.and_eq_true] at h
        rw [phraseAt, h.1, ih h.2]
        rfl

/-- a token that begins no phrase stays as it is -/
theorem mergeFrom_alone {script : List Char} {t : Token} {tokens : List Token}
    (alone : ∀ phrase ∈ phrasesAt d t, phraseAt phrase (t :: tokens) = false) :
    mergeFrom d script 0 (.ofList (t :: tokens)) = .token t (mergeFrom d script 0 (.ofList tokens)) := by
  rw [mergeFrom_cons]
  split
  · rfl
  · rename_i longest shorter phrases
    have none : (longest :: shorter).find? (phraseAt · ((t :: tokens).take longest.length)) = none := by
      rw [List.find?_eq_none]
      intro phrase listed here
      have whole := phraseAt_of_take here
      rw [alone phrase (phrases ▸ listed)] at whole
      contradiction
    rw [none]

/-- two words that are a phrase, and begin no other, are one token -/
theorem mergeFrom_phrase {script : List Char} {t u : Token} {tokens : List Token} {a b : String}
    (listed : [a, b] ∈ phrasesAt d t) (here : phraseAt [a, b] (t :: u :: tokens) = true)
    (only : ∀ phrase ∈ phrasesAt d t, 2 ≤ phrase.length ∧ (phraseAt phrase (t :: u :: tokens) = true → phrase = [a, b])) :
    mergeFrom d script 0 (.ofList (t :: u :: tokens)) =
      .token (phraseToken script t u [t, u]) (mergeFrom d script 0 (.ofList tokens)) := by
  rw [mergeFrom_cons]
  split
  · rename_i none
    rw [none] at listed
    contradiction
  · rename_i longest shorter phrases
    rw [phrases] at listed only
    obtain ⟨m, size⟩ : ∃ m, longest.length = m + 2 :=
      ⟨longest.length - 2, by have := (only longest List.mem_cons_self).1; omega⟩
    have window : (t :: u :: tokens).take longest.length = t :: u :: tokens.take m := by
      rw [size]
      rfl
    have found : (longest :: shorter).find? (phraseAt · (t :: u :: tokens.take m)) = some [a, b] := by
      have within : phraseAt [a, b] (t :: u :: tokens.take m) = true := by simpa [phraseAt] using here
      obtain ⟨phrase, first⟩ := Option.isSome_iff_exists.1
        ((@List.find?_isSome _ _ (phraseAt · (t :: u :: tokens.take m))).2 ⟨[a, b], listed, within⟩)
      have reads : phraseAt phrase (t :: u :: tokens.take m) = true := @List.find?_some _ _ phrase _ first
      rw [← window] at reads
      rw [first, (only phrase (List.mem_of_find?_eq_some first)).2 (phraseAt_of_take reads)]
    simp only [window, found]
    rfl

theorem mem_phrasesAt_iff {t : Token} {phrase : List String} : phrase ∈ phrasesAt d t ↔
    (t.isWord && !t.quoted) = true ∧ phrase ∈ d.phrases ∧ phrase.head? = some (upper t.text) := by
  rw [phrasesAt]
  split_ifs with unquoted
  · simp [unquoted, Dialect.phrasesStarting, Dialect.phrasesFrom, List.mem_mergeSort]
  · simp [unquoted]

theorem isWord_wordToken (p : Position) (a : String) : (wordToken d p a).isWord = true := by
  rw [Token.isWord, wordToken, wordLexeme]
  split_ifs <;> rfl

theorem spells_wordToken {w : Vocabulary} {a : String} (h : a ∈ w.words) (p : Position) (x : String) :
    (wordToken d p a).spells x = (a == x) := by
  rw [Token.spells, isWord_wordToken, wordToken, w.upper_words a h]
  rfl

/-- the token of a phrase is that of its terminal -/
theorem phraseToken_eq {script : List Char} {w : Vocabulary} {a b : String} (two : w.words = [a, b]) {p : Position}
    (printed : w.text.toList <+: script.drop p.offset) :
    phraseToken script (wordToken d p a) (wordToken d (p.after (a.toList ++ [' '])) b)
      [wordToken d p a, wordToken d (p.after (a.toList ++ [' '])) b] = (word (d := d) w).token p := by
  have plain : w.isType = false := by
    have every : ∀ w ∈ Vocabulary.all, w.words.length = 2 → w.isType = false := by decide
    exact every w w.mem_all (by rw [two]; rfl)
  have upper := w.upper_words
  rw [two] at upper
  have value : " ".intercalate [Text.upper a, Text.upper b] = w.text := by
    rw [upper a List.mem_cons_self, upper b (List.mem_cons_of_mem a List.mem_cons_self), ← two]
    rfl
  have size : (wordToken d (p.after (a.toList ++ [' '])) b).stop - p.offset = w.text.toList.length := by
    simp only [Token.stop, wordToken, Position.after_offset, chars_of_words two, List.length_append,
      List.length_cons, List.length_nil, String.length_toList]
    omega
  have text : slice script p.offset (wordToken d (p.after (a.toList ++ [' '])) b).stop = w.text := by
    rw [slice, size, ← List.prefix_iff_eq_take.1 printed, String.ofList_toList]
  simp only [phraseToken, token, kind, Terminal.value, chars, isName, plain, String.ofList_toList]
  change (⟨_, slice script p.offset _, " ".intercalate [Text.upper a, Text.upper b], p, false⟩ : Token) = _
  rw [text, value]
  rfl

/-- an unquoted word among raw tokens is one of the vocabulary -/
theorem spells_head_rawFrom {p : Position} {ts : List (Terminal d)} {t : Token} {x : String}
    (first : (rawFrom p ts).head? = some t) (h : t.spells x = true) : ∃ w : Vocabulary, w.words.head? = some x := by
  cases ts with
  | nil => contradiction
  | cons u ts =>
    simp only [Token.spells, Bool.and_eq_true, beq_iff_eq] at h
    obtain ⟨⟨isWord, unquoted⟩, rfl⟩ := h
    cases u with
    | word w =>
      refine ⟨w, ?_⟩
      have same := w.upper_words
      rcases w.words_cases with ⟨a, single⟩ | ⟨a, b, two⟩
      · simp only [rawFrom, rawTokens, single, List.singleton_append, List.head?_cons, Option.some.injEq] at first
        rw [single] at same ⊢
        rw [← first, token, chars, String.ofList_toList, Vocabulary.text_of_word single, same a List.mem_cons_self]
        rfl
      · simp only [rawFrom, rawTokens, two, List.cons_append, List.head?_cons, Option.some.injEq] at first
        rw [two] at same ⊢
        rw [← first, wordToken, same a List.mem_cons_self]
        rfl
    | name n =>
      obtain rfl := Option.some.inj first
      contradiction
    | literal text =>
      obtain rfl := Option.some.inj first
      contradiction
    | numeral n =>
      obtain rfl := Option.some.inj first
      contradiction
    | mark m =>
      obtain rfl := Option.some.inj first
      contradiction

/-- a terminal of several words is one token, and so is every other -/
theorem mergeFrom_rawTokens {script : List Char} (t : Terminal d) {p q : Position} {ts : List (Terminal d)}
    (printed : t.chars <+: script.drop p.offset) :
    mergeFrom d script 0 (.ofList (t.rawTokens p ++ rawFrom q ts)) =
      .token (t.token p) (mergeFrom d script 0 (.ofList (rawFrom q ts))) := by
  have noWord : (t.token p).isWord = false ∨ (t.token p).quoted = true →
      mergeFrom d script 0 (.ofList (t.token p :: rawFrom q ts)) =
        .token (t.token p) (mergeFrom d script 0 (.ofList (rawFrom q ts))) := by
    intro h
    have none : phrasesAt d (t.token p) = [] := by
      rw [phrasesAt, if_neg]
      rcases h with h | h <;> simp [h]
    exact mergeFrom_alone (by simp [none])
  cases t with
  | word w =>
    rcases w.words_cases with ⟨a, single⟩ | ⟨a, b, two⟩
    · have raw : (word (d := d) w).rawTokens p = [(word (d := d) w).token p] := by simp only [rawTokens, single]
      have text : ((word (d := d) w).token p).text = a := by
        rw [token, chars, String.ofList_toList, Vocabulary.text_of_word single]
      rw [raw, List.singleton_append]
      refine mergeFrom_alone fun phrase h => ?_
      obtain ⟨-, listed, first⟩ := mem_phrasesAt_iff.1 h
      rw [text, w.upper_words a (by rw [single]; exact List.mem_cons_self)] at first
      obtain ⟨x, more, rfl, apart⟩ := Vocabulary.second_of_single single listed first
      rw [phraseAt, Bool.and_eq_false_iff]
      right
      -- what stands behind the word begins with none that would go on with it
      cases next : rawFrom q ts with
      | nil => rfl
      | cons u us =>
        rw [phraseAt, Bool.and_eq_false_iff]
        left
        rw [← Bool.not_eq_true]
        intro spelled
        obtain ⟨v, head⟩ := spells_head_rawFrom (by rw [next]; rfl) spelled
        exact apart v head
    · have raw : (word (d := d) w).rawTokens p =
          [wordToken d p a, wordToken d (p.after (a.toList ++ [' '])) b] := by simp only [rawTokens, two]
      have first : a ∈ w.words := by rw [two]; exact List.mem_cons_self
      have second : b ∈ w.words := by rw [two]; exact List.mem_cons_of_mem a List.mem_cons_self
      have same := w.upper_words a first
      obtain ⟨phrase, only⟩ := Vocabulary.phrase_of_pair (d := d) two
      have listed : [a, b] ∈ phrasesAt d (wordToken d p a) :=
        mem_phrasesAt_iff.2 ⟨by rw [isWord_wordToken]; rfl, phrase, congrArg some same.symm⟩
      rw [raw, ← phraseToken_eq two printed]
      refine mergeFrom_phrase listed ?_ fun other h => ?_
      · simp [phraseAt, spells_wordToken first, spells_wordToken second]
      · obtain ⟨-, phrases, head⟩ := mem_phrasesAt_iff.1 h
        obtain ⟨x, more, rfl, unique⟩ := only other phrases (head.trans (congrArg some same))
        refine ⟨Nat.le_add_left 2 more.length, fun here => ?_⟩
        rw [phraseAt, phraseAt, spells_wordToken second, Bool.and_eq_true, Bool.and_eq_true, beq_iff_eq] at here
        obtain rfl := here.2.1
        rw [unique rfl]
  | name n => exact noWord (Or.inr rfl)
  | literal text => exact noWord (Or.inl rfl)
  | numeral n => exact noWord (Or.inl rfl)
  | mark m => exact noWord (Or.inl rfl)

/-- merging gives one token for each terminal -/
theorem mergeFrom_rawFrom {script : List Char} (ts : List (Terminal d)) {p : Position}
    (printed : script.drop p.offset = print ts) :
    mergeFrom d script 0 (.ofList (rawFrom p ts)) = .ofList (tokensFrom p ts) := by
  induction ts generalizing p with
  | nil => rfl
  | cons t ts ih =>
    have behind : script.drop (p.after (t.chars ++ t.gap ts)).offset = print ts := by
      rw [Position.after_offset, ← List.drop_drop, printed, print, ← List.append_assoc, List.drop_left]
    rw [rawFrom, mergeFrom_rawTokens t (by rw [printed, print]; exact List.prefix_append _ _), ih behind]
    rfl

/-- the tokens of printed text are those of its terminals -/
theorem tokenize_print (ts : List (Terminal d)) : tokenize d (print ts) = .ofList (tokensFrom .start ts) := by
  rw [tokenize, merge, scan, scanFrom_print]
  exact mergeFrom_rawFrom ts rfl

end Terminal

end SchemaApi
