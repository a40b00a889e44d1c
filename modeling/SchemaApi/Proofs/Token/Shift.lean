import SchemaApi.Token.Phrase
/-!
Tokens in another place.

A text that begins on a line of its own, behind other text, has its tokens some lines and some characters
further on, in the same columns. `Excerpt` is a text with a script that holds it, and says what the reader of
a segment needs to know of the two: the characters of a token are the same in both.
-/

namespace SchemaApi

/-- how far behind the start of a script a text stands: in whole lines, and in characters -/
structure Shift where
  lines : Nat
  chars : Nat
  deriving DecidableEq, Repr

namespace Shift

/-- no way at all -/
def zero : Shift := ⟨0, 0⟩

/-- the way past a text that ends with its last line -/
def past (text : List Char) : Shift := ⟨text.count '\n', text.length⟩

end Shift

namespace Position

def shift (s : Shift) (p : Position) : Position := ⟨p.line + s.lines, p.column, p.offset + s.chars⟩

@[simp] theorem shift_zero (p : Position) : p.shift .zero = p := rfl

@[simp] theorem shift_offset (s : Shift) (p : Position) : (p.shift s).offset = p.offset + s.chars := rfl

theorem advance_shift (s : Shift) (p : Position) (c : Char) : (p.shift s).advance c = (p.advance c).shift s := by
  by_cases h : c = '\n'
  · simp only [advance, h, if_true, shift, mk.injEq, true_and]
    omega
  · simp only [advance, h, if_false, shift, mk.injEq, true_and]
    omega

@[simp] theorem advance_offset (p : Position) (c : Char) : (p.advance c).offset = p.offset + 1 := by
  by_cases h : c = '\n' <;> simp [advance, h]

theorem advance_line (p : Position) (c : Char) :
    (p.advance c).line = p.line + if c == '\n' then 1 else 0 := by
  by_cases h : c = '\n' <;> simp [advance, h]

theorem after_line (p : Position) (text : List Char) : (p.after text).line = p.line + text.count '\n' := by
  induction text generalizing p with
  | nil => rfl
  | cons c rest ih =>
    rw [after, List.foldl_cons, ← after, ih, advance_line, List.count_cons]
    omega

theorem after_offset (p : Position) (text : List Char) : (p.after text).offset = p.offset + text.length := by
  induction text generalizing p with
  | nil => rfl
  | cons c rest ih =>
    rw [after, List.foldl_cons, ← after, ih, advance_offset, List.length_cons]
    omega

theorem after_append (p : Position) (a b : List Char) : p.after (a ++ b) = (p.after a).after b :=
  List.foldl_append

/-- behind whole lines a script goes on in the first column -/
theorem start_after_lines (text : List Char) :
    Position.start.after (text ++ ['\n']) = Position.start.shift (.past (text ++ ['\n'])) := by
  have line := after_line .start (text ++ ['\n'])
  have offset := after_offset .start (text ++ ['\n'])
  have column : (Position.start.after (text ++ ['\n'])).column = 1 := by
    rw [after_append]; rfl
  cases place : Position.start.after (text ++ ['\n'])
  rw [place] at line offset column
  simp only [shift, Shift.past, mk.injEq]
  exact ⟨line, column, offset⟩

end Position

/-! ## Tokens -/

namespace Token

def shift (s : Shift) (t : Token) : Token := { t with position := t.position.shift s }

@[simp] theorem shift_zero (t : Token) : t.shift .zero = t := rfl

@[simp] theorem shift_position (s : Shift) (t : Token) : (t.shift s).position = t.position.shift s := rfl

@[simp] theorem spells_shift (s : Shift) (t : Token) (w : String) : (t.shift s).spells w = t.spells w := rfl

@[simp] theorem map_shift_zero (ts : List Token) : ts.map (Token.shift .zero) = ts := List.map_id ts

theorem stop_shift (s : Shift) (t : Token) : (t.shift s).stop = t.stop + s.chars :=
  Nat.add_right_comm ..

end Token

namespace LexError

def shift (s : Shift) (e : LexError) : LexError := { e with position := e.position.shift s }

end LexError

/-! ## Streams -/

namespace TokenStream

/-- the stream with everything in another place -/
def shift (s : Shift) : TokenStream → TokenStream
  | done => done
  | failed e => failed (e.shift s)
  | token t rest => token (t.shift s) (rest.shift s)

/-- one stream behind the other, unless the first breaks off -/
def append : TokenStream → TokenStream → TokenStream
  | done, other => other
  | failed e, _ => failed e
  | token t rest, other => token t (rest.append other)

@[simp] theorem shift_zero (stream : TokenStream) : stream.shift .zero = stream := by
  induction stream with
  | done => rfl
  | failed _ => rfl
  | token t rest ih => rw [shift, ih, Token.shift_zero]

@[simp] theorem error?_shift (s : Shift) (stream : TokenStream) :
    (stream.shift s).error? = stream.error?.map (LexError.shift s) := by
  induction stream with
  | done => rfl
  | failed _ => rfl
  | token t rest ih => simp [shift, error?, ih]

@[simp] theorem error?_ofList (ts : List Token) : (ofList ts).error? = none := by
  induction ts with
  | nil => rfl
  | cons _ _ ih => exact ih

@[simp] theorem toList_ofList (ts : List Token) : (ofList ts).toList = ts := by
  induction ts with
  | nil => rfl
  | cons t _ ih => exact congrArg (t :: ·) ih

theorem error?_append {first : TokenStream} (complete : first.error? = none) (other : TokenStream) :
    (first.append other).error? = other.error? := by
  induction first with
  | done => rfl
  | failed _ => simp [error?] at complete
  | token _ _ ih => exact ih complete

end TokenStream

/-! ## Texts inside a script -/

theorem slice_append {text : List Char} {first last : Nat} (h : last ≤ text.length) (behind : List Char) :
    slice (text ++ behind) first last = slice text first last := by
  by_cases inside : first ≤ text.length
  · rw [slice, slice, List.drop_append_of_le_length inside, List.take_append_of_le_length]
    rw [List.length_drop]; omega
  · have none : last - first = 0 := by omega
    rw [slice, slice, none, List.take_zero, List.take_zero]

theorem slice_shift (before text : List Char) (first last : Nat) :
    slice (before ++ text) (first + before.length) (last + before.length) = slice text first last := by
  have size : last + before.length - (first + before.length) = last - first := by omega
  rw [slice, slice, size, Nat.add_comm first, List.drop_append, List.drop_eq_nil_of_le (by omega),
    List.nil_append, Nat.add_sub_cancel_left]

/-- a text, and a script that holds it at some distance from its start -/
structure Excerpt where
  shift : Shift
  text : List Char
  script : List Char
  same : ∀ first last, last ≤ text.length →
    slice script (first + shift.chars) (last + shift.chars) = slice text first last

namespace Excerpt

/-- the beginning of a script -/
def beginning (text behind : List Char) : Excerpt where
  shift := .zero
  text := text
  script := text ++ behind
  same := fun _ _ h => slice_append h behind

/-- the end of a script, behind whole lines -/
def ending (before text : List Char) : Excerpt where
  shift := .past before
  text := text
  script := before ++ text
  same := fun first last _ => slice_shift before text first last

end Excerpt

end SchemaApi
