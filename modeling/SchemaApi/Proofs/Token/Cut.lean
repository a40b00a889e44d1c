import SchemaApi.Proofs.Token.Locality
/-!
A script as its pieces, one behind the other.

A `Snippet` is a piece with the characters it takes; a `Cut` of a script into snippets says what the scanner finds in
it, apart from positions. A cut of the whole script has within it the cut of each part between two of its pieces, and
letters that a piece does not depend on may be changed in it.
-/

namespace SchemaApi

open Text

/-- what corresponds to two lists, one behind the other, is parted as they are -/
theorem exists_of_forall₂_append {α β : Type} {R : α → β → Prop} {xs ys : List α} {zs : List β}
    (h : List.Forall₂ R (xs ++ ys) zs) :
    ∃ xs' ys', zs = xs' ++ ys' ∧ List.Forall₂ R xs xs' ∧ List.Forall₂ R ys ys' := by
  induction xs generalizing zs with
  | nil => exact ⟨[], zs, rfl, .nil, h⟩
  | cons x xs ih =>
    rw [List.cons_append] at h
    obtain ⟨z, later, first, rest, rfl⟩ := List.forall₂_cons_left_iff.1 h
    obtain ⟨xs', ys', rfl, before, behind⟩ := ih rest
    exact ⟨z :: xs', ys', rfl, .cons first before, behind⟩

/-- a piece of a script, with the characters it takes -/
inductive Snippet where
  | trivia (chars : List Char)
  | lexeme (kind : TokenKind) (value : String) (isQuoted : Bool) (chars : List Char)

namespace Snippet

def chars : Snippet → List Char
  | trivia chars => chars
  | lexeme _ _ _ chars => chars

def piece : Snippet → Piece
  | trivia chars => .trivia chars.length
  | lexeme kind value isQuoted chars => .lexeme kind value isQuoted chars.length

@[simp] theorem size_piece (s : Snippet) : s.piece.size = s.chars.length := by cases s <;> rfl

end Snippet

/-- the text of snippets, one behind the other -/
def written (snippets : List Snippet) : List Char := snippets.flatMap Snippet.chars

/-- the tokens of snippets that stand in a script from a position on -/
def tokensAt : Position → List Snippet → List Token
  | _, [] => []
  | p, .trivia chars :: rest => tokensAt (p.after chars) rest
  | p, .lexeme kind value isQuoted chars :: rest =>
    ⟨kind, String.ofList chars, value, p, isQuoted⟩ :: tokensAt (p.after chars) rest

/-- the snippets are the pieces at the head of a text that goes on behind them -/
inductive Cut (d : Dialect) : List Snippet → List Char → Prop where
  | nil (behind : List Char) : Cut d [] behind
  | cons {s : Snippet} {rest : List Snippet} {c : Char} {own behind : List Char} (chars : s.chars = c :: own)
      (here : pieceAt d c (own ++ (written rest ++ behind)) = s.piece) (later : Cut d rest behind) :
      Cut d (s :: rest) behind

@[simp] theorem written_cons (s : Snippet) (rest : List Snippet) : written (s :: rest) = s.chars ++ written rest :=
  List.flatMap_cons ..

@[simp] theorem written_append (a b : List Snippet) : written (a ++ b) = written a ++ written b :=
  List.flatMap_append ..

section
variable {d : Dialect} {snippets : List Snippet} {behind : List Char}

theorem cut_append_iff {a b : List Snippet} :
    Cut d (a ++ b) behind ↔ Cut d a (written b ++ behind) ∧ Cut d b behind := by
  induction a with
  | nil => exact ⟨fun h => ⟨.nil _, h⟩, And.right⟩
  | cons s a ih =>
    rw [List.cons_append]
    constructor
    · intro h
      cases h with
      | cons chars here later =>
        obtain ⟨first, second⟩ := ih.1 later
        exact ⟨.cons chars (by rwa [written_append, List.append_assoc] at here) first, second⟩
    · rintro ⟨first, second⟩
      cases first with
      | cons chars here later =>
        exact .cons chars (by rwa [written_append, List.append_assoc]) (ih.2 ⟨later, second⟩)

/-! ## Scanning -/

/-- the scanner finds the tokens of the snippets, and goes on behind them -/
theorem scanFrom_cut (h : Cut d snippets behind) (p : Position) :
    scanFrom d 0 p (written snippets ++ behind) =
      (TokenStream.ofList (tokensAt p snippets)).append (scanFrom d 0 (p.after (written snippets)) behind) := by
  induction h generalizing p with
  | nil => rfl
  | @cons s rest c own behind chars here _ ih =>
    have next : scanFrom d own.length (p.advance c) (own ++ (written rest ++ behind)) =
        (TokenStream.ofList (tokensAt (p.after (c :: own)) rest)).append
          (scanFrom d 0 (p.after (c :: own ++ written rest)) behind) := by
      rw [Position.after_append p, ← ih (p.after (c :: own))]
      exact scanFrom_skip 0 (p.advance c) (written rest ++ behind)
    have whole : s.chars ++ written rest ++ behind = c :: (own ++ (written rest ++ behind)) := by
      rw [chars, List.append_assoc, List.cons_append]
    have taken : (c :: (own ++ (written rest ++ behind))).take (own.length + 1) = c :: own := by
      rw [List.take_succ_cons, List.take_left]
    rw [written_cons, whole, scanFrom, here, chars]
    cases s with
    | trivia cs =>
      obtain rfl : cs = c :: own := chars
      exact next
    | lexeme kind value isQuoted cs =>
      obtain rfl : cs = c :: own := chars
      simp only [Snippet.piece, List.length_cons, Nat.add_sub_cancel, taken, next]
      rfl

theorem scan_cut (h : Cut d snippets []) : scan d (written snippets) = .ofList (tokensAt .start snippets) := by
  have found := scanFrom_cut h .start
  rw [List.append_nil, scanFrom] at found
  rw [scan, found]
  have whole := TokenStream.append_ofList (tokensAt .start snippets) []
  rwa [List.append_nil] at whole

/-- a piece at the head of a script is a snippet in front of those of the rest -/
theorem cut_of_drop {s : Snippet} {m : Nat} {c : Char} {cs : List Char} (chars : s.chars = (c :: cs).take m)
    (here : pieceAt d c cs = s.piece) (filled : 0 < m) (cut : Cut d snippets [])
    (rest : written snippets = (c :: cs).drop m) :
    Cut d (s :: snippets) [] ∧ written (s :: snippets) = c :: cs := by
  obtain ⟨m, rfl⟩ : ∃ k, m = k + 1 := ⟨m - 1, by omega⟩
  rw [List.take_succ_cons] at chars
  rw [List.drop_succ_cons] at rest
  constructor
  · refine .cons chars ?_ cut
    rw [List.append_nil, rest, List.take_append_drop, here]
  · rw [written_cons, chars, rest, List.cons_append, List.take_append_drop]

/-- a script that is scanned to its end is cut into snippets -/
theorem exists_cut {p : Position} {text : List Char} (complete : (scanFrom d 0 p text).error? = none) :
    ∃ snippets, Cut d snippets [] ∧ written snippets = text := by
  induction size : text.length using Nat.strong_induction_on generalizing p text with
  | _ n ih =>
    cases text with
    | nil => exact ⟨[], .nil [], rfl⟩
    | cons c cs =>
      have step : ∀ {s : Snippet} {m : Nat}, s.chars = (c :: cs).take m → pieceAt d c cs = s.piece → 0 < m →
          m ≤ (c :: cs).length → (scanFrom d (m - 1) (p.advance c) cs).error? = none →
          ∃ snippets, Cut d snippets [] ∧ written snippets = c :: cs := by
        intro s m chars here filled fits rest
        rw [scanFrom_taken _ filled fits] at rest
        obtain ⟨snippets, cut, text⟩ := ih _ (by rw [List.length_drop]; omega) rest rfl
        exact ⟨s :: snippets, cut_of_drop chars here filled cut text⟩
      have fits := @pieceAt_le d cs c
      rw [scanFrom] at complete
      rcases @pieceAt_cases d c cs with ⟨m, piece, blank⟩ | ⟨kind, value, q, m, piece, filled⟩ | ⟨what, piece⟩
      · rw [piece] at complete fits
        have exact : ((c :: cs).take m).length = m := List.length_take_of_le fits
        exact @step (.trivia ((c :: cs).take m)) m rfl (by rw [Snippet.piece, exact, piece])
          (trivia_of_triviaPiece? blank).1 fits complete
      · rw [piece] at complete fits
        have exact : ((c :: cs).take m).length = m := List.length_take_of_le fits
        exact @step (.lexeme kind value q ((c :: cs).take m)) m rfl (by rw [Snippet.piece, exact, piece]) filled fits
          complete
      · rw [piece] at complete
        contradiction

end

/-! ## Parts -/

/-- the snippets up to the last of some tokens -/
theorem exists_snippets_upTo {p : Position} {snippets : List Snippet} {ts us : List Token}
    (h : tokensAt p snippets = ts ++ us) : ∃ a b, snippets = a ++ b ∧ tokensAt p a = ts ∧
      tokensAt (p.after (written a)) b = us ∧ p.offset + (written a).length = stopOf p.offset ts := by
  induction snippets generalizing p ts with
  | nil =>
    obtain ⟨rfl, rfl⟩ := List.append_eq_nil_iff.1 h.symm
    exact ⟨[], [], rfl, rfl, rfl, rfl⟩
  | cons s snippets ih =>
    cases ts with
    | nil => exact ⟨[], s :: snippets, rfl, rfl, h, rfl⟩
    | cons t ts =>
      cases s with
      | trivia chars =>
        obtain ⟨a, b, split, before, rest, stop⟩ := ih (p := p.after chars) h
        refine ⟨.trivia chars :: a, b, by rw [split]; rfl, before, ?_, ?_⟩
        · rw [written_cons, Position.after_append]
          exact rest
        · rw [Position.after_offset] at stop
          rw [written_cons, List.length_append, ← Nat.add_assoc]
          exact stop
      | lexeme kind value isQuoted chars =>
        rw [tokensAt, List.cons_append, List.cons.injEq] at h
        obtain ⟨rfl, h⟩ := h
        obtain ⟨a, b, split, before, rest, stop⟩ := ih h
        refine ⟨.lexeme kind value isQuoted chars :: a, b, by rw [split]; rfl, congrArg _ before, ?_, ?_⟩
        · rw [written_cons, Position.after_append]
          exact rest
        · rw [Position.after_offset] at stop
          rw [written_cons, List.length_append, ← Nat.add_assoc, stopOf_cons, Token.stop, String.length_ofList]
          exact stop

/-- the snippets from the first token on -/
theorem exists_snippets_of_first {p : Position} {snippets : List Snippet} {t : Token} {ts : List Token}
    (h : tokensAt p snippets = t :: ts) : ∃ gap b, snippets = gap ++ b ∧ p.after (written gap) = t.position ∧
      tokensAt t.position b = t :: ts := by
  induction snippets generalizing p with
  | nil => contradiction
  | cons s snippets ih =>
    cases s with
    | trivia chars =>
      obtain ⟨gap, b, split, place, rest⟩ := ih (p := p.after chars) h
      refine ⟨.trivia chars :: gap, b, by rw [split]; rfl, ?_, rest⟩
      rw [written_cons, Position.after_append]
      exact place
    | lexeme kind value isQuoted chars =>
      have first := h
      rw [tokensAt, List.cons.injEq] at first
      obtain ⟨rfl, -⟩ := first
      exact ⟨[], _, rfl, rfl, h⟩

theorem Position.start_after_offset (text : List Char) : (Position.start.after text).offset = text.length :=
  (Position.after_offset .start text).trans (Nat.zero_add _)

/-- the snippets of some neighbouring tokens -/
theorem exists_snippets_within {snippets : List Snippet} {t : Token} {run : List Token}
    (h : t :: run <:+: tokensAt .start snippets) : ∃ before part behind, snippets = before ++ part ++ behind ∧
      t.position = Position.start.after (written before) ∧ tokensAt t.position part = t :: run ∧
        t.position.offset + (written part).length = stopOf t.stop run := by
  obtain ⟨ahead, later, tokens⟩ := h
  obtain ⟨upTo, behind, rfl, tokens, -, stop⟩ := exists_snippets_upTo tokens.symm
  obtain ⟨before, rest, rfl, -, tokens, -⟩ := exists_snippets_upTo tokens
  obtain ⟨gap, part, rfl, place, tokens⟩ := exists_snippets_of_first tokens
  rw [← Position.after_append, ← written_append] at place
  refine ⟨before ++ gap, part, behind, by simp only [List.append_assoc], place.symm, tokens, ?_⟩
  rw [← List.append_assoc, written_append, List.length_append, stopOf_append, stopOf_cons] at stop
  rw [← place, Position.start_after_offset, ← stop]
  exact (Nat.zero_add _).symm

/-! ## Other letters -/

/-- the same piece, with other letters in trivia or in a word that folds -/
inductive Snippet.Recased (d : Dialect) : Snippet → Snippet → Prop where
  | trivia {cs cs' : List Char} (letters : SameLetters cs cs') : Recased d (.trivia cs) (.trivia cs')
  | lexeme (kind : TokenKind) (value : String) (isQuoted : Bool) {cs cs' : List Char} (letters : SameLetters cs cs')
      (kept : cs' = cs ∨ (Snippet.lexeme kind value isQuoted cs).piece.folds d = true) :
      Recased d (.lexeme kind value isQuoted cs) (.lexeme kind value isQuoted cs')

namespace Snippet.Recased

variable {d : Dialect} {s s' : Snippet}

theorem refl (s : Snippet) : s.Recased d s := by
  cases s with
  | trivia cs => exact .trivia (.refl cs)
  | lexeme kind value q cs => exact .lexeme kind value q (.refl cs) (Or.inl rfl)

theorem letters (h : s.Recased d s') : SameLetters s.chars s'.chars := by
  cases h <;> assumption

theorem piece (h : s.Recased d s') : s'.piece = s.piece := by
  cases h with
  | trivia letters => rw [Snippet.piece, Snippet.piece, letters.length_eq]
  | lexeme kind value q letters => rw [Snippet.piece, Snippet.piece, letters.length_eq]

theorem kept (h : s.Recased d s') : (∃ n, s.piece = .trivia n) ∨ s'.chars = s.chars ∨ s.piece.folds d = true := by
  cases h with
  | trivia => exact Or.inl ⟨_, rfl⟩
  | lexeme kind value q _ kept => exact Or.inr kept

end Snippet.Recased

section
variable {d : Dialect} {snippets snippets' : List Snippet} {behind behind' : List Char}

theorem written_recased (h : List.Forall₂ (Snippet.Recased d) snippets snippets') :
    SameLetters (written snippets) (written snippets') := by
  induction h with
  | nil => exact .nil
  | cons first _ ih =>
    rw [written_cons, written_cons]
    exact first.letters.append ih

/-- a cut is kept in other letters, and where the script behind it is cut off -/
theorem Cut.recased (cut : Cut d snippets behind) (h : List.Forall₂ (Snippet.Recased d) snippets snippets')
    (rest : Begins behind behind') : Cut d snippets' behind' := by
  induction cut generalizing snippets' with
  | nil =>
    cases h
    exact .nil behind'
  | @cons s later c own behind chars here _ ih =>
    obtain ⟨s', later', first, others, rfl⟩ := List.forall₂_cons_left_iff.1 h
    have letters := first.letters
    rw [chars] at letters
    obtain ⟨c', own', same, ownSame, chars'⟩ := List.forall₂_cons_left_iff.1 letters
    have size : own'.length = own.length := ownSame.length_eq.symm
    have whole : Begins (c :: (own ++ (written later ++ behind))) (c' :: (own' ++ (written later' ++ behind'))) :=
      .cons same (.of_sameLetters ownSame (.of_sameLetters (written_recased others) rest))
    refine .cons chars' ?_ (ih others rest)
    rw [first.piece, ← here]
    refine pieceAt_begins whole ?_ ?_ ?_
    · intro what fault
      rw [here] at fault
      cases s <;> contradiction
    · rw [here, Snippet.size_piece, chars]
      simp only [List.length_cons, List.length_append, size]
      omega
    · rw [here]
      refine first.kept.imp_right (Or.imp_left fun same => ?_)
      have taken : (c :: (own ++ (written later ++ behind))).take (own.length + 1) = c :: own := by
        rw [List.take_succ_cons, List.take_left]
      have taken' : (c' :: (own' ++ (written later' ++ behind'))).take (own.length + 1) = c' :: own' := by
        rw [List.take_succ_cons, ← size, List.take_left]
      rw [Snippet.size_piece, chars, List.length_cons, taken, taken', ← chars, ← chars', same]

end

/-! ## Tokens of a cut -/

namespace Token

/-- what a token says, apart from where it stands -/
def contents (t : Token) : TokenKind × String × String × Bool := (t.kind, t.text, t.value, t.quoted)

/-- the same token, so many characters nearer to the start -/
structure Nearer (n : Nat) (t t' : Token) : Prop where
  contents : t'.contents = t.contents
  offset : t.position.offset = t'.position.offset + n

/-- the same token, in letters of another case -/
structure Recased (t t' : Token) : Prop where
  kind : t'.kind = t.kind
  value : t'.value = t.value
  quoted : t'.quoted = t.quoted
  place : t'.position = t.position
  letters : SameLetters t.text.toList t'.text.toList

namespace Nearer

variable {n : Nat} {t t' : Token} (h : t.Nearer n t')

include h

theorem kind : t'.kind = t.kind := congrArg Prod.fst h.contents

theorem text : t'.text = t.text := congrArg (·.2.1) h.contents

theorem quoted : t'.quoted = t.quoted := congrArg (·.2.2.2) h.contents

theorem stop : t.stop = t'.stop + n := by
  rw [Token.stop, Token.stop, h.offset, h.text, Nat.add_right_comm]

end Nearer

end Token

theorem tokensAt_nearer {n : Nat} {p p' : Position} (place : p.offset = p'.offset + n) (snippets : List Snippet) :
    List.Forall₂ (Token.Nearer n) (tokensAt p snippets) (tokensAt p' snippets) := by
  induction snippets generalizing p p' with
  | nil => exact .nil
  | cons s snippets ih =>
    have behind : (p.after s.chars).offset = (p'.after s.chars).offset + n := by
      rw [Position.after_offset, Position.after_offset, place, Nat.add_right_comm]
    cases s with
    | trivia cs => exact ih behind
    | lexeme kind value q cs => exact .cons ⟨rfl, place⟩ (ih behind)

section
variable {d : Dialect} {text : List Char}

/-- Neighbouring tokens of a script are what the part of it is scanned to that reaches from the first to the last. -/
theorem exists_scan_part (complete : (scan d text).error? = none) {t : Token} {run : List Token}
    (within : t :: run <:+: (scan d text).toList) : ∃ before part behind raw, text = before ++ part ++ behind ∧
      before.length = t.position.offset ∧ before.length + part.length = stopOf t.stop run ∧
        scan d part = .ofList raw ∧ List.Forall₂ (Token.Nearer before.length) (t :: run) raw := by
  obtain ⟨snippets, cut, rfl⟩ := exists_cut complete
  rw [scan_cut cut, TokenStream.toList_ofList] at within
  obtain ⟨before, part, behind, rfl, place, tokens, stop⟩ := exists_snippets_within within
  have offset : t.position.offset = (written before).length := by rw [place, Position.start_after_offset]
  have here := (cut_append_iff.1 (cut_append_iff.1 cut).1).2
  have alone : Cut d part [] := here.recased (List.forall₂_same.2 fun s _ => .refl s) (.nil _)
  have moved := @tokensAt_nearer _ t.position .start (offset.trans (Nat.zero_add _).symm) part
  rw [tokens] at moved
  refine ⟨written before, written part, written behind, _, ?_, offset.symm, ?_, scan_cut alone, moved⟩
  · rw [written_append, written_append]
  · rw [← offset, stop]

/-! ## A script in other letters -/

theorem Position.after_sameLetters {cs cs' : List Char} (h : SameLetters cs cs') (p : Position) :
    p.after cs' = p.after cs := by
  induction h generalizing p with
  | nil => rfl
  | @cons c c' cs cs' same _ ih =>
    have next : p.advance c' = p.advance c := by
      simp only [Position.advance, same.eq_iff (show isLetter '\n' = false by decide)]
    exact (ih (p.advance c')).trans (congrArg (Position.after · cs) next)

/-- an unquoted word in a dialect that folds it -/
def Token.folds (d : Dialect) (t : Token) : Bool := d.foldsUnquoted && t.isWord && !t.quoted

theorem tokensAt_recased {snippets snippets' : List Snippet} (h : List.Forall₂ (Snippet.Recased d) snippets snippets')
    (p : Position) : List.Forall₂ Token.Recased (tokensAt p snippets) (tokensAt p snippets') := by
  induction h generalizing p with
  | nil => exact .nil
  | @cons s s' _ _ first _ ih =>
    have behind := Position.after_sameLetters first.letters p
    cases first with
    | trivia letters =>
      rw [Snippet.chars, Snippet.chars] at behind
      rw [tokensAt, tokensAt, behind]
      exact ih _
    | lexeme kind value q letters =>
      rw [Snippet.chars, Snippet.chars] at behind
      rw [tokensAt, tokensAt, behind]
      exact .cons ⟨rfl, rfl, rfl, rfl, by rwa [String.toList_ofList, String.toList_ofList]⟩ (ih _)

theorem exists_recased {snippets : List Snippet} {p : Position} {before text' : List Char}
    (place : p.offset = before.length) (letters : SameLetters (written snippets) text')
    (kept : ∀ t ∈ tokensAt p snippets, t.folds d = false →
      slice (before ++ text') t.position.offset t.stop = t.text) :
    ∃ snippets', List.Forall₂ (Snippet.Recased d) snippets snippets' ∧ written snippets' = text' := by
  induction snippets generalizing p before text' with
  | nil =>
    cases letters
    exact ⟨[], .nil, rfl⟩
  | cons s snippets ih =>
    rw [written_cons] at letters
    obtain ⟨own, rest, rfl, ownSame, restSame⟩ := exists_of_forall₂_append letters
    have behind : (p.after s.chars).offset = (before ++ own).length := by
      rw [Position.after_offset, place, List.length_append, ownSame.length_eq]
    rw [← List.append_assoc] at kept
    cases s with
    | trivia cs =>
      obtain ⟨snippets', same, rfl⟩ := ih behind restSame kept
      exact ⟨.trivia own :: snippets', .cons (.trivia ownSame) same, rfl⟩
    | lexeme kind value q cs =>
      rw [tokensAt] at kept
      obtain ⟨snippets', same, rfl⟩ := ih behind restSame fun t ht => kept t (List.mem_cons_of_mem _ ht)
      refine ⟨.lexeme kind value q own :: snippets', .cons (.lexeme kind value q ownSame ?_) same, rfl⟩
      by_cases folds : (Snippet.lexeme kind value q cs).piece.folds d = true
      · exact Or.inr folds
      · left
        have size : cs.length = own.length := ownSame.length_eq
        have here := kept _ List.mem_cons_self (Bool.not_eq_true _ ▸ folds)
        simp only [Token.stop, String.length_ofList, place, size, slice_middle] at here
        exact String.ofList_injective here

/-- a script in other letters has its tokens in other letters -/
theorem scan_recased {text' : List Char} (complete : (scan d text).error? = none) (letters : SameLetters text text')
    (kept : ∀ t ∈ (scan d text).toList, t.folds d = false → slice text' t.position.offset t.stop = t.text) :
    ∃ raw, scan d text' = .ofList raw ∧ List.Forall₂ Token.Recased (scan d text).toList raw := by
  obtain ⟨snippets, cut, rfl⟩ := exists_cut complete
  rw [scan_cut cut, TokenStream.toList_ofList] at kept ⊢
  obtain ⟨snippets', same, rfl⟩ := @exists_recased d snippets .start [] text' rfl letters kept
  exact ⟨_, scan_cut (cut.recased same (.nil _)), tokensAt_recased same .start⟩

end

end SchemaApi
