import SchemaApi.Proofs.Token.Print
import SchemaApi.Reading.Statement
/-!
Rules in front of printed terminals.

`Takes` says that a rule, in front of some terminals, comes to a value as described and leaves the later ones,
without a finding. It is proved rule by rule in the order in which the rules are written, each primitive and each
combinator having its lemma here; `Gives` is the case of one value.
-/

namespace SchemaApi

open Text Terminal

section
variable {d : Dialect}

/-- what a printed script is read in -/
structure Setting (d : Dialect) where
  script : List Char
  source : Option String
  last : Option Position

def Setting.scope (s : Setting d) : Scope :=
  { dialect := d, source := s.source, script := some s.script, last := s.last }

/-- the cursor stands before terminals, with which the script ends -/
def Cursor.Before (script : List Char) (ts : List (Terminal d)) (c : Cursor) : Prop :=
  ∃ before, script = before ++ print ts ∧ c.rest = tokensFrom (Position.start.after before) ts

/-- the token is that of the first of the terminals with which the script ends -/
def Token.Heads (s : Setting d) (t : Terminal d) (ts : List (Terminal d)) (tok : Token) : Prop :=
  ∃ before, s.script = before ++ print (t :: ts) ∧ tok = t.token (Position.start.after before)

theorem Cursor.Before.length {script : List Char} {ts : List (Terminal d)} {c : Cursor} (h : c.Before script ts) :
    c.rest.length = ts.length := by
  obtain ⟨before, -, rest⟩ := h
  rw [rest, length_tokensFrom]

theorem Cursor.Before.cons {s : Setting d} {t : Terminal d} {ts : List (Terminal d)} {c : Cursor}
    (h : c.Before s.script (t :: ts)) : ∃ tok more, c.rest = tok :: more ∧ tok.Heads s t ts ∧
      ∀ notes, Cursor.Before s.script ts ⟨more, notes⟩ := by
  obtain ⟨before, written, rest⟩ := h
  refine ⟨_, _, rest, ⟨before, written, rfl⟩, fun notes => ⟨before ++ (t.chars ++ t.gap ts), ?_, ?_⟩⟩
  · rw [written, print, List.append_assoc, List.append_assoc]
  · exact congrArg (tokensFrom · ts) (Position.after_append _ _ _).symm

namespace Terminal

/-- the unquoted word that terminals begin with -/
def headWord (ts : List (Terminal d)) : Option String := ts.head?.bind word?

/-- terminals begin with one of the words -/
def atWord (words : List String) (ts : List (Terminal d)) : Bool := (headWord ts).any words.contains

/-- terminals begin with a mark -/
def atPunct (value : String) (ts : List (Terminal d)) : Bool := ts.head?.any (isPunct value)

/-- items with commas between, up to a closing parenthesis -/
def closedList : List (List (Terminal d)) → List (Terminal d)
  | [] => [.mark .closing]
  | [item] => item ++ [.mark .closing]
  | item :: items => item ++ .mark .comma :: closedList items

/-- the terminals begin with a mark that ends an item of a list -/
def Ends (ts : List (Terminal d)) : Prop := ∃ m more, ts = .mark m :: more ∧ (m = .comma ∨ m = .closing)

theorem Ends.headWord {ts : List (Terminal d)} (h : Ends ts) : Terminal.headWord ts = none := by
  obtain ⟨m, more, rfl, -⟩ := h
  rfl

theorem Ends.atWord {ts : List (Terminal d)} (h : Ends ts) (words : List String) : Terminal.atWord words ts = false := by
  rw [Terminal.atWord, h.headWord]
  rfl

theorem Ends.atPunct {ts : List (Terminal d)} (h : Ends ts) {value : String} (comma : Mark.comma.text ≠ value)
    (closing : Mark.closing.text ≠ value) : Terminal.atPunct value ts = false := by
  obtain ⟨m, more, rfl, rfl | rfl⟩ := h
  · exact beq_false_of_ne comma
  · exact beq_false_of_ne closing

/-- terminals of a name, perhaps behind that of its schema -/
def qualified (schema : Option (DelimitedName d)) (n : DelimitedName d) : List (Terminal d) :=
  match schema with
  | none => [.name n]
  | some schema => [.name schema, .mark .point, .name n]

/-- the name that qualified terminals stand for -/
def qualifiedText (schema : Option (DelimitedName d)) (n : DelimitedName d) : QualifiedName :=
  ⟨n.text, schema.map (·.text)⟩

end Terminal

theorem Cursor.Before.headWord {script : List Char} {ts : List (Terminal d)} {c : Cursor} (before : c.Before script ts) :
    c.rest.head?.bind Token.word? = Terminal.headWord ts := by
  obtain ⟨_, _, rest⟩ := before
  rw [rest]
  cases ts with
  | nil => rfl
  | cons t ts => exact t.word?_token _

namespace Reading

variable {α β σ : Type} {s : Setting d} {ts us vs : List (Terminal d)} {t : Terminal d}

/-- In front of the terminals the rule comes to a value as described and leaves the later ones. -/
def Takes (s : Setting d) (rule : Reading α) (ts us : List (Terminal d)) (Q : α → Prop) : Prop :=
  ∀ c : Cursor, c.Before s.script ts →
    ∃ v c', rule s.scope c = .ok v c' ∧ Q v ∧ c'.Before s.script us ∧ c'.notes = c.notes

/-- In front of the terminals the rule comes to the value and leaves the later ones. -/
abbrev Gives (s : Setting d) (rule : Reading α) (ts us : List (Terminal d)) (v : α) : Prop := Takes s rule ts us (· = v)

/-! ## Combinators -/

section
variable {rule : Reading α} {next : α → Reading β} {Q : α → Prop} {R : β → Prop}

theorem Takes.andThen (first : Takes s rule ts us Q) (later : ∀ v, Q v → Takes s (next v) us vs R) :
    Takes s (rule >>= next) ts vs R := by
  intro c before
  obtain ⟨v, c', run, value, left, notes⟩ := first c before
  obtain ⟨w, c'', run', value', left', notes'⟩ := later v value c' left
  refine ⟨w, c'', ?_, value', left', notes'.trans notes⟩
  change Reading.andThen rule next s.scope c = _
  rw [Reading.andThen, run]
  exact run'

theorem Gives.andThen {v : α} (first : Gives s rule ts us v) (later : Takes s (next v) us vs R) :
    Takes s (rule >>= next) ts vs R :=
  Takes.andThen first fun _ same => same ▸ later

theorem Takes.mono {P : α → Prop} (h : Takes s rule ts us Q) (weaker : ∀ v, Q v → P v) : Takes s rule ts us P := by
  intro c before
  obtain ⟨v, c', run, value, left⟩ := h c before
  exact ⟨v, c', run, weaker v value, left⟩

theorem Takes.pure {v : α} (h : Q v) : Takes s (Pure.pure v) ts ts Q :=
  fun c before => ⟨v, c, rfl, h, before, rfl⟩

theorem Gives.map {v : α} (h : Gives s rule ts us v) (f : α → β) : Gives s (f <$> rule) ts us (f v) :=
  Gives.andThen h (.pure rfl)

theorem Takes.pos {c : Prop} [Decidable c] {no : Reading α} (h : c) (yes : Takes s rule ts us Q) :
    Takes s (if c then rule else no) ts us Q := by
  rw [if_pos h]
  exact yes

theorem Takes.neg {c : Prop} [Decidable c] {yes : Reading α} (h : ¬ c) (no : Takes s rule ts us Q) :
    Takes s (if c then yes else rule) ts us Q := by
  rw [if_neg h]
  exact no

end

section
variable {step : σ → Reading (σ ⊕ α)} {state : σ} {Q : α → Prop}

theorem Takes.iterate_done (last : Takes s (step state) ts us fun r => ∃ v, r = .inr v ∧ Q v) :
    Takes s (iterate step state) ts us Q := by
  intro c before
  obtain ⟨_, c', run, ⟨v, rfl, value⟩, left⟩ := last c before
  refine ⟨v, c', ?_, value, left⟩
  rw [iterate, run]

theorem Takes.iterate_more {P : σ → Prop} (once : Takes s (step state) ts us fun r => ∃ state', r = .inl state' ∧ P state')
    (fewer : us.length < ts.length) (rest : ∀ state', P state' → Takes s (iterate step state') us vs Q) :
    Takes s (iterate step state) ts vs Q := by
  intro c before
  obtain ⟨_, c', run, ⟨state', rfl, value⟩, left, notes⟩ := once c before
  obtain ⟨w, c'', run', value', left', notes'⟩ := rest state' value c' left
  have shorter : c'.rest.length < c.rest.length := by rw [left.length, before.length]; exact fewer
  refine ⟨w, c'', ?_, value', left', notes'.trans notes⟩
  rw [iterate, run]
  simp only [if_pos shorter]
  exact run'

theorem Gives.iterate_done {v : α} (last : Gives s (step state) ts us (.inr v)) : Gives s (iterate step state) ts us v :=
  Takes.iterate_done (last.mono fun _ same => ⟨v, same, rfl⟩)

theorem Gives.iterate_more {state' : σ} (once : Gives s (step state) ts us (.inl state')) (fewer : us.length < ts.length)
    (rest : Takes s (iterate step state') us vs Q) : Takes s (iterate step state) ts vs Q :=
  Takes.iterate_more (P := (· = state')) (once.mono fun _ same => ⟨state', same, rfl⟩) fewer fun _ same => same ▸ rest

end

/-! ## Looking ahead -/

theorem dialect_gives : Gives s dialect ts ts d := fun c before => ⟨d, c, rfl, rfl, before, rfl⟩

theorem peek_takes : Takes s peek (t :: ts) (t :: ts) fun v => ∃ tok, v = some tok ∧ tok.Heads s t ts := by
  intro c before
  obtain ⟨tok, more, rest, heads, -⟩ := before.cons
  exact ⟨_, c, rfl, ⟨tok, by rw [rest]; rfl, heads⟩, before, rfl⟩

theorem peekWord_gives {word : Option String} (here : headWord ts = word) : Gives s peekWord ts ts word :=
  fun c before => ⟨_, c, rfl, before.headWord.trans here, before, rfl⟩

theorem peekPunct_gives {value : String} {is : Bool} (here : atPunct value ts = is) :
    Gives s (peekPunct value) ts ts is := by
  intro c before
  refine ⟨_, c, rfl, ?_, before, rfl⟩
  rw [← here]
  obtain ⟨_, _, rest⟩ := before
  rw [rest]
  cases ts with
  | nil => rfl
  | cons t ts => exact t.isPunct_token value _

/-! ## Taking tokens -/

theorem advance_takes : Takes s advance (t :: ts) ts (·.Heads s t ts) := by
  intro c before
  obtain ⟨tok, more, rest, heads, behind⟩ := before.cons
  refine ⟨tok, ⟨more, c.notes⟩, ?_, heads, behind _, rfl⟩
  rw [advance, rest]

theorem acceptWord_takes {words : List String} {word : String} (here : t.word? = some word)
    (listed : words.contains word = true) : Gives s (acceptWord words) (t :: ts) ts (some word) := by
  intro c before
  obtain ⟨tok, more, rest, ⟨_, _, rfl⟩, behind⟩ := before.cons
  refine ⟨some word, ⟨more, c.notes⟩, ?_, rfl, behind _, rfl⟩
  simp only [acceptWord, rest, word?_token, here, listed, if_true]

theorem acceptWord_passes {words : List String} (other : atWord words ts = false) :
    Gives s (acceptWord words) ts ts none := by
  intro c before
  refine ⟨none, c, ?_, rfl, before, rfl⟩
  have word := before.headWord
  cases rest : c.rest with
  | nil => simp only [acceptWord, rest]
  | cons tok more =>
    rw [rest] at word
    simp only [acceptWord, rest, show tok.word? = headWord ts from word]
    cases here : headWord ts with
    | none => rfl
    | some word =>
      rw [atWord, here] at other
      simp only [show words.contains word = false from other, Bool.false_eq_true, if_false]

theorem accept_takes {word : String} (here : t.word? = some word) : Gives s (accept word) (t :: ts) ts true :=
  (acceptWord_takes here (by simp)).andThen (.pure rfl)

theorem accept_passes {word : String} (other : atWord [word] ts = false) : Gives s (accept word) ts ts false :=
  (acceptWord_passes other).andThen (.pure rfl)

theorem expectWord_takes {words : List String} {word : String} (here : t.word? = some word)
    (listed : words.contains word = true) : Gives s (expectWord words) (t :: ts) ts word :=
  (acceptWord_takes here listed).andThen (.pure rfl)

theorem acceptPunct_takes {value : String} (here : t.isPunct value = true) :
    Gives s (acceptPunct value) (t :: ts) ts true := by
  intro c before
  obtain ⟨tok, more, rest, ⟨_, _, rfl⟩, behind⟩ := before.cons
  refine ⟨true, ⟨more, c.notes⟩, ?_, rfl, behind _, rfl⟩
  simp only [acceptPunct, rest, isPunct_token, here, if_true]

theorem acceptPunct_passes {value : String} (other : atPunct value ts = false) :
    Gives s (acceptPunct value) ts ts false := by
  intro c before
  refine ⟨false, c, ?_, rfl, before, rfl⟩
  obtain ⟨_, _, rest⟩ := before
  cases ts with
  | nil => simp only [acceptPunct, rest, tokensFrom]
  | cons t ts =>
    simp only [acceptPunct, rest, tokensFrom, isPunct_token, show t.isPunct value = false from other,
      Bool.false_eq_true, if_false]

theorem expectPunct_takes {value : String} (here : t.isPunct value = true) :
    Gives s (expectPunct value) (t :: ts) ts () :=
  (acceptPunct_takes here).andThen (.pure rfl)

/-! ## Verbatim text -/

/-- the tokens are spelled as the terminals are printed -/
def Spell (s : Setting d) (as : List (Terminal d)) (tokens : List Token) : Prop :=
  spelled (some s.script) tokens = String.ofList (print as)

theorem print_prefix (as us : List (Terminal d)) : print as <+: print (as ++ us) := by
  induction as with
  | nil => exact List.nil_prefix
  | cons a as ih =>
    rw [List.cons_append, print, print, List.prefix_append_right_inj]
    cases as with
    | nil => exact List.nil_prefix
    | cons b as => exact (List.prefix_append_right_inj _).2 ih

/-- the tokens of terminals end where their printed text does -/
theorem stopOf_tokensFrom {as : List (Terminal d)} (filled : as ≠ []) (us : List (Terminal d)) (p : Position) (first : Nat) :
    stopOf first ((tokensFrom p (as ++ us)).take as.length) = p.offset + (print as).length := by
  induction as generalizing p first with
  | nil => contradiction
  | cons a as ih =>
    rw [List.cons_append, tokensFrom, List.length_cons, List.take_succ_cons, stopOf_cons]
    cases as with
    | nil =>
      rw [List.length_nil, List.take_zero, stopOf_nil, print, gap, print, List.append_nil, List.append_nil]
      exact congrArg _ (String.length_ofList ..)
    | cons b as =>
      have parts : print (a :: b :: as) = a.chars ++ a.gap (b :: as) ++ print (b :: as) :=
        (List.append_assoc ..).symm
      rw [ih (List.cons_ne_nil b as), Position.after_offset, parts, @List.length_append _ (_ ++ _), Nat.add_assoc]
      rfl

theorem spell_take {as us : List (Terminal d)} (filled : as ≠ []) {before : List Char}
    (written : s.script = before ++ print (as ++ us)) :
    Spell s as ((tokensFrom (Position.start.after before) (as ++ us)).take as.length) := by
  obtain ⟨a, as, rfl⟩ := List.exists_cons_of_ne_nil filled
  have stop := stopOf_tokensFrom filled us (Position.start.after before) 0
  have offset : (Position.start.after before).offset = before.length := by
    rw [Position.after_offset]
    exact Nat.zero_add _
  obtain ⟨behind, more⟩ := print_prefix (a :: as) us
  rw [List.cons_append, tokensFrom, List.length_cons, List.take_succ_cons] at stop ⊢
  rw [stopOf_cons, offset] at stop
  change slice s.script (Position.start.after before).offset _ = _
  rw [stop_getLastD, stop, offset, written, ← more, ← List.append_assoc, slice_middle]

theorem Heads.spell {tok : Token} (h : tok.Heads s t ts) : Spell s [t] [tok] := by
  obtain ⟨before, written, rfl⟩ := h
  exact @spell_take d s [t] ts (List.cons_ne_nil t []) before written

theorem verbatim_gives {as : List (Terminal d)} {tokens : List Token} (h : Spell s as tokens) :
    Gives s (verbatim tokens) ts ts (String.ofList (print as)) :=
  fun c before => ⟨_, c, rfl, h, before, rfl⟩

theorem withTokens_takes {rule : Reading α} {as : List (Terminal d)} {Q : α → Prop} (filled : as ≠ [])
    (first : Takes s rule (as ++ us) us Q) : Takes s (withTokens rule) (as ++ us) us fun v => Q v.1 ∧ Spell s as v.2 := by
  intro c before
  obtain ⟨v, c', run, value, left, notes⟩ := first c before
  refine ⟨_, c', by rw [withTokens, run], ⟨value, ?_⟩, left, notes⟩
  have taken : c.rest.length - c'.rest.length = as.length := by
    rw [before.length, left.length, List.length_append]
    omega
  obtain ⟨_, written, rest⟩ := before
  rw [taken, rest]
  exact spell_take filled written

/-! ## Names, lists and groups -/

theorem name_gives (what : String) (n : DelimitedName d) : Gives s (name what) (.name n :: ts) ts n.text := by
  refine peek_takes.andThen ?_
  rintro _ ⟨tok, rfl, _, -, rfl⟩
  refine Takes.neg Bool.false_ne_true ?_
  refine advance_takes.andThen fun _ _ => ?_
  exact dialect_gives.andThen (.pure rfl)

theorem dottedNames_gives (what next : String) (schema : Option (DelimitedName d)) (n : DelimitedName d)
    (ends : atPunct "." ts = false) :
    Gives s (dottedNames what next) (qualified schema n ++ ts) ts (n.text :: (schema.map (·.text)).toList) := by
  have last : ∀ names, Gives s (iterate
      (fun names => do
        if ← acceptPunct "." then return .inl ((← name next) :: names)
        return .inr names) names) ts ts names := by
    intro names
    refine Gives.iterate_done ?_
    refine (acceptPunct_passes ends).andThen ?_
    exact Takes.neg Bool.false_ne_true (.pure rfl)
  cases schema with
  | none => exact (name_gives what n).andThen (last _)
  | some schema =>
    refine (name_gives what schema).andThen ?_
    refine Gives.iterate_more ?_ (Nat.lt_succ_of_lt (Nat.lt_succ_self _)) (last _)
    refine (acceptPunct_takes rfl).andThen ?_
    refine Takes.pos rfl ?_
    exact (name_gives next n).andThen (.pure rfl)

theorem qualifiedName_gives (what : String) (schema : Option (DelimitedName d)) (n : DelimitedName d)
    (ends : atPunct "." ts = false) :
    Gives s (qualifiedName what) (qualified schema n ++ ts) ts (qualifiedText schema n) := by
  refine (dottedNames_gives what what schema n ends).andThen (.pure ?_)
  cases schema <;> rfl

/-- behind an item of a list: a comma and more items, or the end of the list -/
theorem moreItems_gives_more (items : σ) : Gives s
    (do if ← acceptPunct "," then return .inl items
        expectPunct ")"
        return (.inr items : σ ⊕ σ)) (.mark .comma :: ts) ts (.inl items) := by
  refine (acceptPunct_takes rfl).andThen ?_
  exact Takes.pos rfl (.pure rfl)

theorem moreItems_gives_last (items : σ) : Gives s
    (do if ← acceptPunct "," then return .inl items
        expectPunct ")"
        return (.inr items : σ ⊕ σ)) (.mark .closing :: ts) ts (.inr items) := by
  refine (acceptPunct_passes rfl).andThen ?_
  refine Takes.neg Bool.false_ne_true ?_
  exact (expectPunct_takes rfl).andThen (.pure rfl)

theorem length_lt_append_cons (as : List (Terminal d)) (t : Terminal d) (ts : List (Terminal d)) :
    ts.length < (as ++ t :: ts).length := by
  rw [List.length_append, List.length_cons]
  omega

/-- Items are read one by one, each with what is printed behind it; `A` says what an item does to the state. -/
theorem items_take {ι : Type} {step : σ → Reading (σ ⊕ σ)} {f : ι → List (Terminal d)} {A : ι → σ → σ → Prop}
    (each : ∀ x state ts us Q, Ends ts →
      (∀ state', A x state state' → Takes s
        (do if ← acceptPunct "," then return .inl state'
            expectPunct ")"
            return .inr state') ts us Q) → Takes s (step state) (f x ++ ts) us Q)
    {P : List ι → σ → σ → Prop} (one : ∀ x state state', A x state state' → P [x] state state')
    (more : ∀ x xs state state' state'', A x state state' → P xs state' state'' → P (x :: xs) state state'')
    {xs : List ι} (filled : xs ≠ []) (state : σ) :
    Takes s (iterate step state) (closedList (xs.map f) ++ ts) ts (P xs state) := by
  induction xs generalizing state with
  | nil => contradiction
  | cons x xs ih =>
    cases xs with
    | nil =>
      rw [List.map_cons, List.map_nil, closedList, List.append_assoc]
      refine Takes.iterate_done (each x state _ ts _ ⟨_, _, rfl, Or.inr rfl⟩ fun state' adds => ?_)
      exact (moreItems_gives_last state').mono fun _ same => ⟨state', same, one x state state' adds⟩
    | cons y ys =>
      rw [List.map_cons, List.map_cons, closedList, List.append_assoc, List.cons_append, ← List.map_cons]
      · refine Takes.iterate_more (P := A x state)
          (each x state _ _ _ ⟨_, _, rfl, Or.inl rfl⟩ fun state' adds => ?_) (length_lt_append_cons ..)
          fun state' adds => ?_
        · exact (moreItems_gives_more state').mono fun _ same => ⟨state', same, adds⟩
        · exact (ih (List.cons_ne_nil y ys) state').mono fun state'' rest => more x _ state state' state'' adds rest
      · exact List.cons_ne_nil _ _

theorem commaList_gives {ι : Type} {item : Reading α} {f : ι → List (Terminal d)} {g : ι → α} {xs : List ι}
    (filled : xs ≠ []) (each : ∀ x us, Ends us → Gives s item (f x ++ us) us (g x)) :
    Gives s (commaList item) (closedList (xs.map f) ++ ts) ts (xs.map g) := by
  refine items_take (A := fun x items items' => items' = items ++ [g x])
    (P := fun xs items items' => items' = items ++ xs.map g) ?_ ?_ ?_ filled []
  · exact fun x items ts us Q ends later => (each x ts ends).andThen (later _ rfl)
  · rintro x items _ rfl
    rfl
  · rintro x xs items _ _ rfl rfl
    rw [List.append_assoc]
    rfl

/-! ## Groups and expressions -/

/-- a group of one terminal that is no mark -/
theorem group_takes (plain : ∀ value, t.isPunct value = false) :
    Takes s group (.mark .opening :: t :: .mark .closing :: ts) ts fun inner =>
      ∃ tok, inner = [tok] ∧ tok.Heads s t (.mark .closing :: ts) := by
  refine (expectPunct_takes rfl).andThen ?_
  intro c before
  obtain ⟨tok, more, rest, heads, behind⟩ := before.cons
  obtain ⟨last, left, rest', ⟨_, _, rfl⟩, behind'⟩ := (behind []).cons
  obtain rfl : more = _ := rest'
  refine ⟨[tok], ⟨left, c.notes⟩, ?_, ⟨tok, rfl, heads⟩, behind' _, rfl⟩
  obtain ⟨_, -, rfl⟩ := heads
  simp [rest, splitGroup, plain, show (Terminal.mark (d := d) .closing).isPunct "(" = false from rfl,
    show (Terminal.mark (d := d) .closing).isPunct ")" = true from rfl]

/-- an expression of one text -/
theorem expression_gives {words : List String} {text : String}
    (ends : (atPunct "," ts || atPunct ")" ts || atWord words ts) = true) :
    Gives s (expression words) (.literal text :: ts) ts (String.ofList (Terminal.literal (d := d) text).chars) := by
  refine peek_takes.andThen ?_
  rintro _ ⟨tok, rfl, heads⟩
  have spell := Heads.spell heads
  obtain ⟨_, -, rfl⟩ := heads
  refine Takes.neg Bool.false_ne_true ?_
  refine advance_takes.andThen fun _ _ => ?_
  have nothing : Gives s (collect (fun t => (t.word?.map words.contains).getD false) 0) ts ts [] := by
    rintro ⟨rest, notes⟩ before
    refine ⟨[], ⟨rest, notes⟩, ?_, rfl, before, rfl⟩
    obtain ⟨_, _, rfl⟩ := before
    cases ts with
    | nil => contradiction
    | cons t ts =>
      have stops : t.isPunct "," = true ∨ t.isPunct ")" = true ∨ (t.word?.map words.contains).getD false = true := by
        simp only [Bool.or_eq_true, or_assoc] at ends
        refine ends.imp_right (Or.imp_right fun word => ?_)
        cases here : t.word? with
        | none =>
          rw [atWord, headWord, List.head?_cons, Option.bind_some, here] at word
          contradiction
        | some w =>
          rw [atWord, headWord, List.head?_cons, Option.bind_some, here] at word
          exact word
      simp [collect, tokensFrom, splitExpression, stops]
  refine nothing.andThen ?_
  exact (verbatim_gives spell).mono fun _ same => by rw [same, print, gap, print, List.append_nil, List.append_nil]

end Reading

end

end SchemaApi
