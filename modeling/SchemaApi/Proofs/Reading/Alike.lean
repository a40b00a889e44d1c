import SchemaApi.Reading.Column
import SchemaApi.Proofs.Reading.Likeness
import Mathlib.Data.List.Infix
import Mathlib.Tactic.SplitIfs
/-!
Rules read segments alike whose tokens are alike.

A `Pairing` is a segment with, beside each token, its counterpart in another one: the two mean the same, though they may
stand elsewhere and be written differently. Two rules are alike if, run on the one segment and on the other, they come to
values that are related and to the same tokens left, with findings that are alike. Each combinator keeps this, and so
does each rule of the grammar; a rule whose value has nothing in it that may differ is alike to itself, with the same
value (`Steady`).
-/

namespace SchemaApi

open Text

/-! ## Tokens beside their counterparts -/

/-- a token means the same as another one -/
structure Token.Counterpart (d : Dialect) (l : Likeness) (t t' : Token) : Prop where
  kind : t'.kind = t.kind
  value : t'.value = t.value
  word : t'.word? = t.word?
  name : t.isPhrase = false → t'.nameIn d = t.nameIn d
  place : l.place t.position t'.position
  text : l.literal → t'.text = t.text

/-- the token may begin an index inside a table declaration -/
def Token.startsIndex (t : Token) : Prop := ∃ word, t.word? = some word ∧ Reading.inlineIndexStarts.contains word = true

/-- Two segments of one dialect, token beside token. -/
structure Pairing extends Likeness where
  dialect : Dialect
  pairs : List (Token × Token)
  /-- the scripts that the two segments come from, if they come from one -/
  script : Option (List Char)
  script' : Option (List Char)
  counterpart : ∀ p ∈ pairs, p.1.Counterpart dialect toLikeness p.2
  /-- neighbours are written alike, as far as texts are kept -/
  spelled : ∀ run, run <:+: pairs →
    written (Reading.spelled script (run.map Prod.fst)) (Reading.spelled script' (run.map Prod.snd))
  /-- behind a word that may begin an index both are the name of a type, or neither is: this is the one place where a
  rule looks at the characters of a token and not at its meaning -/
  types : dialect = .mysql → ∀ p q, [p, q] <:+: pairs → p.1.startsIndex →
    (dialect.typeRule? q.2.text).isNone = (dialect.typeRule? q.1.text).isNone

theorem getLast?_rel {α : Type} {R : α → α → Prop} {xs ys : List α} (h : List.Forall₂ R xs ys) :
    Option.Rel R xs.getLast? ys.getLast? := by
  rw [← List.head?_reverse, ← List.head?_reverse]
  have reversed := List.rel_reverse h
  generalize xs.reverse = xs at reversed
  generalize ys.reverse = ys at reversed
  cases reversed with
  | nil => exact .none
  | cons first _ => exact .some first

namespace Pairing

variable {g : Pairing}

/-- the token and its counterpart -/
def Stands (g : Pairing) (t t' : Token) : Prop := (t, t') ∈ g.pairs

/-- neighbouring tokens and their counterparts -/
def Run (g : Pairing) (ts ts' : List Token) : Prop :=
  ∃ run, run <:+: g.pairs ∧ ts = run.map Prod.fst ∧ ts' = run.map Prod.snd

namespace Stands

variable {t t' : Token} (h : g.Stands t t')

include h

theorem counterpart : t.Counterpart g.dialect g.toLikeness t' := g.counterpart (t, t') h

theorem isPunct (value : String) : t'.isPunct value = t.isPunct value := by
  rw [Token.isPunct, Token.isPunct, h.counterpart.kind, h.counterpart.value]

theorem isOperator (value : String) : t'.isOperator value = t.isOperator value := by
  rw [Token.isOperator, Token.isOperator, h.counterpart.kind, h.counterpart.value]

theorem isWord : t'.isWord = t.isWord := by
  rw [Token.isWord, Token.isWord, h.counterpart.kind]

theorem isPhrase : t'.isPhrase = t.isPhrase := by
  rw [Token.isPhrase, Token.isPhrase, h.counterpart.kind, h.counterpart.value]

theorem startsStatement : Reading.startsStatement t' = Reading.startsStatement t := by
  rw [Reading.startsStatement, Reading.startsStatement, h.counterpart.word]

end Stands

namespace Run

variable {ts ts' : List Token}

theorem nil : g.Run [] [] := ⟨[], List.nil_infix, rfl, rfl⟩

theorem of_within {run part : List (Token × Token)} (h : run <:+: g.pairs) (within : part <:+: run) :
    g.Run (part.map Prod.fst) (part.map Prod.snd) :=
  ⟨part, within.trans h, rfl, rfl⟩

theorem cases (h : g.Run ts ts') : (ts = [] ∧ ts' = []) ∨ ∃ t t' more more', ts = t :: more ∧ ts' = t' :: more' ∧
    g.Stands t t' ∧ g.Run more more' := by
  obtain ⟨run, within, rfl, rfl⟩ := h
  cases run with
  | nil => exact Or.inl ⟨rfl, rfl⟩
  | cons p run =>
    exact Or.inr ⟨p.1, p.2, _, _, rfl, rfl, within.subset List.mem_cons_self,
      of_within within (List.suffix_cons p run).isInfix⟩

theorem length_eq (h : g.Run ts ts') : ts'.length = ts.length := by
  obtain ⟨run, -, rfl, rfl⟩ := h
  rw [List.length_map, List.length_map]

theorem take (h : g.Run ts ts') (n : Nat) : g.Run (ts.take n) (ts'.take n) := by
  obtain ⟨run, within, rfl, rfl⟩ := h
  rw [← List.map_take, ← List.map_take]
  exact of_within within (List.take_prefix n run).isInfix

theorem drop (h : g.Run ts ts') (n : Nat) : g.Run (ts.drop n) (ts'.drop n) := by
  obtain ⟨run, within, rfl, rfl⟩ := h
  rw [← List.map_drop, ← List.map_drop]
  exact of_within within (List.drop_suffix n run).isInfix

theorem head? (h : g.Run ts ts') : Option.Rel g.Stands ts.head? ts'.head? := by
  rcases h.cases with ⟨rfl, rfl⟩ | ⟨t, t', more, more', rfl, rfl, stands, -⟩
  · exact .none
  · exact .some stands

theorem getElem? (h : g.Run ts ts') (i : Nat) : Option.Rel g.Stands ts[i]? ts'[i]? := by
  rw [← List.head?_drop, ← List.head?_drop]
  exact (h.drop i).head?

theorem forall₂ (h : g.Run ts ts') : List.Forall₂ g.Stands ts ts' := by
  obtain ⟨run, within, rfl, rfl⟩ := h
  rw [List.forall₂_map_left_iff, List.forall₂_map_right_iff, List.forall₂_same]
  exact fun p hp => within.subset hp

/-- the characters of neighbouring tokens correspond -/
theorem spelled (h : g.Run ts ts') : g.written (Reading.spelled g.script ts) (Reading.spelled g.script' ts') := by
  obtain ⟨run, within, rfl, rfl⟩ := h
  exact g.spelled run within

end Run

end Pairing

open Pairing

/-! ## Cursors, outcomes and rules -/

/-- the cursors see tokens that stand beside each other, and findings that are alike -/
structure Cursor.Alike (g : Pairing) (c c' : Cursor) : Prop where
  rest : g.Run c.rest c'.rest
  notes : List.Forall₂ (Finding.Alike g.toLikeness) c.notes c'.notes

/-- two readings of the segments come to the same -/
inductive Outcome.Alike (g : Pairing) {α : Type} (R : α → α → Prop) : Outcome α → Outcome α → Prop where
  | ok {v v' : α} {c c' : Cursor} (value : R v v') (next : c.Alike g c') : Alike g R (.ok v c) (.ok v' c')
  | stop {why why' : Stop} (same : why.Alike g.toLikeness why') {notes notes' : List Finding}
      (found : List.Forall₂ (Finding.Alike g.toLikeness) notes notes') :
      Alike g R (.stop why notes) (.stop why' notes')

theorem Outcome.Alike.cases {g : Pairing} {α : Type} {R : α → α → Prop} {o o' : Outcome α} (h : o.Alike g R o') :
    (∃ v v' c c', o = .ok v c ∧ o' = .ok v' c' ∧ R v v' ∧ c.Alike g c') ∨
      ∃ why why' notes notes', o = .stop why notes ∧ o' = .stop why' notes' ∧ why.Alike g.toLikeness why' ∧
        List.Forall₂ (Finding.Alike g.toLikeness) notes notes' := by
  cases h with
  | ok value next => exact Or.inl ⟨_, _, _, _, rfl, rfl, value, next⟩
  | stop same found => exact Or.inr ⟨_, _, _, _, rfl, rfl, same, found⟩

/-- the scopes of the two segments -/
structure Scope.Alike (g : Pairing) (s s' : Scope) : Prop where
  dialect : s.dialect = g.dialect
  dialect' : s'.dialect = g.dialect
  source : s'.source = s.source
  script : s.script = g.script
  script' : s'.script = g.script'
  last : Option.Rel g.place s.last s'.last

namespace Reading

/-- the rules come to the same in both segments, with related values -/
def Alike (g : Pairing) {α : Type} (R : α → α → Prop) (rule rule' : Reading α) : Prop :=
  ∀ scope scope' c c', scope.Alike g scope' → c.Alike g c' → (rule scope c).Alike g R (rule' scope' c')

/-- the rule comes to the same value in both segments -/
abbrev Steady (g : Pairing) {α : Type} (rule : Reading α) : Prop := Alike g Eq rule rule

section
variable {g : Pairing} {α β σ : Type} {R : α → α → Prop} {S : β → β → Prop}

/-! ## Combinators -/

theorem Alike.andThen {rule rule' : Reading α} {next next' : α → Reading β} (first : Alike g R rule rule')
    (later : ∀ v v', R v v' → Alike g S (next v) (next' v')) : Alike g S (rule >>= next) (rule' >>= next') := by
  intro scope scope' c c' scopes cursor
  change (Reading.andThen rule next scope c).Alike g S (Reading.andThen rule' next' scope' c')
  rw [Reading.andThen, Reading.andThen]
  rcases (first scope scope' c c' scopes cursor).cases with ⟨v, v', left, left', run, run', value, rest⟩ |
      ⟨why, why', notes, notes', run, run', same, found⟩
  · rw [run, run']
    exact later v v' value scope scope' left left' scopes rest
  · rw [run, run']
    exact .stop same found

theorem Steady.andThen {rule : Reading α} {next next' : α → Reading β} (first : Steady g rule)
    (later : ∀ v, Alike g S (next v) (next' v)) : Alike g S (rule >>= next) (rule >>= next') :=
  Alike.andThen first fun v _ same => same ▸ later v

theorem Alike.pure {v v' : α} (h : R v v') : Alike g R (pure v) (pure v') :=
  fun _ _ _ _ _ cursor => .ok h cursor

theorem Steady.pure (v : α) : Steady g (pure v) := Alike.pure rfl

theorem Alike.map {rule rule' : Reading α} {f : α → β} (h : Alike g R rule rule')
    (keeps : ∀ v v', R v v' → S (f v) (f v')) : Alike g S (f <$> rule) (f <$> rule') :=
  h.andThen fun v v' same => .pure (keeps v v' same)

theorem Steady.map {rule : Reading α} (h : Steady g rule) (f : α → β) : Steady g (f <$> rule) :=
  Alike.map h fun _ _ => congrArg f

theorem Alike.mono {rule rule' : Reading α} {T : α → α → Prop} (h : Alike g R rule rule')
    (weaker : ∀ v v', R v v' → T v v') : Alike g T rule rule' := by
  intro scope scope' c c' scopes cursor
  rcases (h scope scope' c c' scopes cursor).cases with ⟨v, v', left, left', run, run', value, rest⟩ |
      ⟨why, why', notes, notes', run, run', same, found⟩
  · rw [run, run']
    exact .ok (weaker v v' value) rest
  · rw [run, run']
    exact .stop same found

theorem Alike.ite {c : Prop} [Decidable c] {a a' b b' : Reading α} (yes : Alike g R a a') (no : Alike g R b b') :
    Alike g R (if c then a else b) (if c then a' else b') := by
  by_cases h : c
  · rw [if_pos h, if_pos h]; exact yes
  · rw [if_neg h, if_neg h]; exact no

/-- a rule before others in one case only -/
theorem Alike.when {c : Prop} [Decidable c] {a a' : Reading Unit} {next next' : Unit → Reading β}
    (first : Alike g Eq a a') (later : Alike g S (next ()) (next' ())) :
    Alike g S (if c then a >>= next else next ()) (if c then a' >>= next' else next' ()) :=
  .ite (first.andThen fun _ _ _ => later) later

theorem Alike.unless {c : Prop} [Decidable c] {a a' : Reading Unit} {next next' : Unit → Reading β}
    (first : Alike g Eq a a') (later : Alike g S (next ()) (next' ())) :
    Alike g S (if c then next () else a >>= next) (if c then next' () else a' >>= next') :=
  .ite later (first.andThen fun _ _ _ => later)

/-- a rule before others in one case only, whatever it comes to -/
theorem Alike.optional {c : Prop} [Decidable c] {a a' : Reading α} {next next' : Reading β} (first : Alike g R a a')
    (later : Alike g S next next') :
    Alike g S (if c then a >>= fun _ => next else next) (if c then a' >>= fun _ => next' else next') :=
  .ite (first.andThen fun _ _ _ => later) later

/-- one of two rules before others -/
theorem Alike.either {c : Prop} [Decidable c] {a a' b b' : Reading α} {next next' : α → Reading β}
    (yes : Alike g R a a') (no : Alike g R b b') (later : ∀ v v', R v v' → Alike g S (next v) (next' v')) :
    Alike g S (if c then a >>= next else b >>= next) (if c then a' >>= next' else b' >>= next') :=
  .ite (yes.andThen later) (no.andThen later)

theorem Alike.iterate {step step' : σ → Reading (σ ⊕ α)} {Q : σ → σ → Prop}
    (each : ∀ s s', Q s s' → Alike g (Sum.LiftRel Q R) (step s) (step' s')) {s s' : σ} (start : Q s s') :
    Alike g R (Reading.iterate step s) (Reading.iterate step' s') := by
  intro scope scope' c c' scopes cursor
  -- the induction is on the tokens left, of which every round but the last takes some
  induction size : c.rest.length using Nat.strongRecOn generalizing s s' c c' with
  | ind n ih =>
    have same := cursor.rest.length_eq
    rw [Reading.iterate, Reading.iterate]
    rcases (each s s' start scope scope' c c' scopes cursor).cases with
      ⟨v, v', left, left', run, run', value, rest⟩ | ⟨why, why', notes, notes', run, run', stops, found⟩
    · rw [run, run']
      cases value with
      | inr value => exact .ok value rest
      | inl value =>
        have shorter := rest.rest.length_eq
        by_cases on : left.rest.length < c.rest.length
        · have on' : left'.rest.length < c'.rest.length := by omega
          simp only [if_pos on, if_pos on']
          exact ih left.rest.length (by omega) value left left' rest rfl
        · have on' : ¬ left'.rest.length < c'.rest.length := by omega
          simp only [if_neg on, if_neg on']
          exact .stop .stalled rest.notes
    · rw [run, run']
      exact .stop stops found

theorem Steady.iterate {step : σ → Reading (σ ⊕ α)} (each : ∀ s, Steady g (step s)) (s : σ) :
    Steady g (Reading.iterate step s) := by
  refine Alike.iterate (Q := Eq) ?_ rfl
  rintro s _ rfl
  refine (each s).mono ?_
  rintro v _ rfl
  cases v with
  | inl v => exact .inl rfl
  | inr v => exact .inr rfl

/-! ## Stops and findings -/

theorem refuse_alike (complaint : Complaint) : Alike g R (refuse complaint) (refuse complaint) := by
  intro scope scope' c c' scopes cursor
  rw [refuse, refuse]
  rcases cursor.rest.cases with ⟨left, left'⟩ | ⟨t, t', ts, ts', left, left', stands, -⟩
  · rw [left, left']
    exact .stop (.malformed complaint (fun _ => rfl) scopes.last) cursor.notes
  · rw [left, left']
    have text := stands.counterpart.text
    exact .stop (.malformed complaint (fun literal => by rw [text literal]) (.some stands.counterpart.place))
      cursor.notes

theorem unsupported_alike {what what' : String} (same : g.literal → what' = what) {p p' : Position}
    (place : g.place p p') : Alike g R (unsupported what p) (unsupported what' p') :=
  fun _ _ _ _ _ cursor => .stop (.unsupported same place) cursor.notes

theorem note_alike (severity : Severity) (code : String) {message message' : String}
    (same : g.literal → message' = message) {p p' : Position} (place : g.place p p') :
    Alike g Eq (note severity code message p) (note severity code message' p') := by
  intro scope scope' c c' scopes cursor
  have finding := Finding.about_alike severity .parse code same scope.source (.some place)
  rw [note, note, scopes.source]
  exact .ok rfl ⟨cursor.rest, List.rel_append cursor.notes (.cons finding .nil)⟩

/-! ## Looking ahead -/

theorem dialect_steady : Steady g dialect := by
  intro scope scope' c c' scopes cursor
  refine .ok ?_ cursor
  rw [scopes.dialect, scopes.dialect']

/-- a rule that goes by the dialect has the one of both segments -/
theorem Alike.behindDialect {next next' : Dialect → Reading β} (later : Alike g S (next g.dialect) (next' g.dialect)) :
    Alike g S (dialect >>= next) (dialect >>= next') := by
  intro scope scope' c c' scopes cursor
  change (next scope.dialect scope c).Alike g S (next' scope'.dialect scope' c')
  rw [scopes.dialect, scopes.dialect']
  exact later scope scope' c c' scopes cursor

theorem word?_alike {t t' : Option Token} (h : Option.Rel g.Stands t t') :
    t.bind Token.word? = t'.bind Token.word? := by
  cases h with
  | none => rfl
  | some stands => exact stands.counterpart.word.symm

theorem isPunct_alike {t t' : Option Token} (h : Option.Rel g.Stands t t') (value : String) :
    (t.map (·.isPunct value)).getD false = (t'.map (·.isPunct value)).getD false := by
  cases h with
  | none => rfl
  | some stands => exact (stands.isPunct value).symm

theorem peek_alike : Alike g (Option.Rel g.Stands) peek peek :=
  fun _ _ _ _ _ cursor => .ok cursor.rest.head? cursor

/-- a rule that looks at the next token, and has a complaint when there is none -/
theorem Alike.behindPeek {next next' : Option Token → Reading β} (complaint : Complaint)
    (ends : ∀ scope notes, next none scope ⟨[], notes⟩ = refuse complaint scope ⟨[], notes⟩ ∧
      next' none scope ⟨[], notes⟩ = refuse complaint scope ⟨[], notes⟩)
    (goesOn : ∀ t t', g.Stands t t' → Alike g S (next (some t)) (next' (some t'))) :
    Alike g S (peek >>= next) (peek >>= next') := by
  rintro scope scope' ⟨ts, notes⟩ ⟨ts', notes'⟩ scopes cursor
  rcases cursor.rest.cases with ⟨left, left'⟩ | ⟨t, t', more, more', left, left', stands, -⟩
  · obtain rfl := left
    obtain rfl := left'
    change (next none scope ⟨[], notes⟩).Alike g S (next' none scope' ⟨[], notes'⟩)
    rw [(ends scope notes).1, (ends scope' notes').2]
    exact refuse_alike complaint scope scope' _ _ scopes cursor
  · obtain rfl := left
    obtain rfl := left'
    exact goesOn t t' stands scope scope' _ _ scopes cursor

theorem peekWordAt_steady (ahead : Nat) : Steady g (peekWordAt ahead) :=
  fun _ _ _ _ _ cursor => .ok (word?_alike (cursor.rest.getElem? ahead)) cursor

theorem peekWord_steady : Steady g peekWord :=
  fun _ _ _ _ _ cursor => .ok (word?_alike cursor.rest.head?) cursor

theorem peekPunct_steady (value : String) : Steady g (peekPunct value) :=
  fun _ _ _ _ _ cursor => .ok (isPunct_alike cursor.rest.head? value) cursor

theorem atEnd_steady : Steady g atEnd := by
  intro scope scope' c c' _ cursor
  refine .ok ?_ cursor
  rcases cursor.rest.cases with ⟨left, left'⟩ | ⟨t, t', ts, ts', left, left', -, -⟩
  · rw [left, left']
  · rw [left, left']
    rfl

theorem atStatementEnd_steady : Steady g atStatementEnd := by
  intro scope scope' c c' _ cursor
  refine .ok ?_ cursor
  rcases cursor.rest.cases with ⟨left, left'⟩ | ⟨t, t', ts, ts', left, left', stands, -⟩
  · rw [left, left']
  · rw [left, left']
    exact stands.startsStatement.symm

/-! ## Taking tokens -/

theorem advance_alike : Alike g g.Stands advance advance := by
  intro scope scope' c c' scopes cursor
  rw [advance, advance]
  rcases cursor.rest.cases with ⟨left, left'⟩ | ⟨t, t', ts, ts', left, left', stands, more⟩
  · rw [left, left']
    exact refuse_alike .unexpectedEnd scope scope' c c' scopes cursor
  · rw [left, left']
    exact .ok stands ⟨more, cursor.notes⟩

theorem skip_steady (count : Nat) : Steady g (skip count) := by
  intro scope scope' c c' _ cursor
  rw [skip, skip, cursor.rest.length_eq]
  by_cases there : count ≤ c.rest.length
  · rw [if_pos there, if_pos there]
    exact .ok rfl ⟨cursor.rest.drop count, cursor.notes⟩
  · rw [if_neg there, if_neg there]
    exact .stop .stalled cursor.notes

theorem acceptWord_steady (words : List String) : Steady g (acceptWord words) := by
  intro scope scope' c c' _ cursor
  rw [acceptWord, acceptWord]
  rcases cursor.rest.cases with ⟨left, left'⟩ | ⟨t, t', ts, ts', left, left', stands, more⟩
  · rw [left, left']
    exact .ok rfl cursor
  · rw [left, left']
    simp only [stands.counterpart.word]
    cases t.word? with
    | none => exact .ok rfl cursor
    | some word =>
      by_cases listed : words.contains word = true
      · simp only [if_pos listed]
        exact .ok rfl ⟨more, cursor.notes⟩
      · simp only [if_neg listed]
        exact .ok rfl cursor

theorem accept_steady (word : String) : Steady g (accept word) :=
  (acceptWord_steady [word]).andThen fun _ => .pure rfl

theorem expectWord_steady (words : List String) : Steady g (expectWord words) := by
  refine (acceptWord_steady words).andThen fun found => ?_
  cases found with
  | none => exact refuse_alike _
  | some word => exact .pure rfl

theorem acceptPunct_steady (value : String) : Steady g (acceptPunct value) := by
  intro scope scope' c c' _ cursor
  rw [acceptPunct, acceptPunct]
  rcases cursor.rest.cases with ⟨left, left'⟩ | ⟨t, t', ts, ts', left, left', stands, more⟩
  · rw [left, left']
    exact .ok rfl cursor
  · rw [left, left']
    simp only [stands.isPunct]
    by_cases here : t.isPunct value = true
    · simp only [if_pos here]
      exact .ok rfl ⟨more, cursor.notes⟩
    · simp only [if_neg here]
      exact .ok rfl cursor

theorem expectPunct_steady (value : String) : Steady g (expectPunct value) := by
  refine (acceptPunct_steady value).andThen fun found => ?_
  exact .ite (.pure rfl) (refuse_alike _)

theorem acceptOperator_steady (value : String) : Steady g (acceptOperator value) := by
  intro scope scope' c c' _ cursor
  rw [acceptOperator, acceptOperator]
  rcases cursor.rest.cases with ⟨left, left'⟩ | ⟨t, t', ts, ts', left, left', stands, more⟩
  · rw [left, left']
    exact .ok rfl cursor
  · rw [left, left']
    simp only [stands.isOperator]
    by_cases here : t.isOperator value = true
    · simp only [if_pos here]
      exact .ok rfl ⟨more, cursor.notes⟩
    · simp only [if_neg here]
      exact .ok rfl cursor

/-- behind an item there is one more, or the list is closed -/
theorem moreItems_alike {Q : σ → σ → Prop} (state state' : σ) (h : Q state state') : Alike g (Sum.LiftRel Q Q)
    (do if ← acceptPunct "," then return .inl state
        expectPunct ")"
        return .inr state)
    (do if ← acceptPunct "," then return .inl state'
        expectPunct ")"
        return .inr state') := by
  refine (acceptPunct_steady ",").andThen fun more => ?_
  refine .ite (.pure (.inl h)) ?_
  exact (expectPunct_steady ")").andThen fun _ => .pure (.inr h)

theorem commaList_alike {item : Reading α} (h : Alike g R item item) :
    Alike g (List.Forall₂ R) (commaList item) (commaList item) := by
  refine Alike.iterate (Q := List.Forall₂ R) ?_ .nil
  intro items items' same
  refine h.andThen fun v v' value => ?_
  exact moreItems_alike _ _ (List.rel_append same (.cons value .nil))

theorem commaList_steady {item : Reading α} (h : Steady g item) : Steady g (commaList item) :=
  (commaList_alike h).mono fun _ _ same => List.forall₂_eq_eq_eq ▸ same

/-! ## Groups, expressions and their characters -/

theorem withTokens_alike {rule : Reading α} (h : Alike g R rule rule) :
    Alike g (fun v v' => R v.1 v'.1 ∧ g.Run v.2 v'.2) (withTokens rule) (withTokens rule) := by
  intro scope scope' c c' scopes cursor
  rw [withTokens, withTokens]
  rcases (h scope scope' c c' scopes cursor).cases with ⟨v, v', left, left', run, run', value, rest⟩ |
      ⟨why, why', notes, notes', run, run', same, found⟩
  · rw [run, run']
    have taken : c'.rest.length - left'.rest.length = c.rest.length - left.rest.length := by
      rw [cursor.rest.length_eq, rest.rest.length_eq]
    refine .ok ⟨value, ?_⟩ rest
    simp only [taken]
    exact cursor.rest.take _
  · rw [run, run']
    exact .stop same found

theorem verbatim_alike {ts ts' : List Token} (h : g.Run ts ts') : Alike g g.written (verbatim ts) (verbatim ts') := by
  intro scope scope' c c' scopes cursor
  refine .ok ?_ cursor
  rw [scopes.script, scopes.script']
  exact h.spelled

/-- a run of tokens cut in two, and its counterpart cut at the same place; a token in between may be left out -/
def Parts (run : List (Token × Token)) (p p' : List Token × List Token) : Prop :=
  ∃ front back, front <+: run ∧ back <:+ run ∧ p = (front.map Prod.fst, back.map Prod.fst) ∧
    p' = (front.map Prod.snd, back.map Prod.snd)

theorem Parts.here (run : List (Token × Token)) {back : List (Token × Token)} (h : back <:+ run) :
    Parts run ([], back.map Prod.fst) ([], back.map Prod.snd) :=
  ⟨[], back, List.nil_prefix, h, rfl, rfl⟩

theorem Parts.grow {run : List (Token × Token)} {p p' : List Token × List Token} (h : Parts run p p')
    (first : Token × Token) : Parts (first :: run) (first.1 :: p.1, p.2) (first.2 :: p'.1, p'.2) := by
  obtain ⟨front, back, before, behind, rfl, rfl⟩ := h
  exact ⟨first :: front, back, (List.prefix_cons_inj first).2 before, behind.trans (List.suffix_cons first run), rfl,
    rfl⟩

theorem Parts.growSome {run : List (Token × Token)} {o o' : Option (List Token × List Token)}
    (h : Option.Rel (Parts run) o o') (first : Token × Token) :
    Option.Rel (Parts (first :: run)) (o.map fun p => (first.1 :: p.1, p.2))
      (o'.map fun p => (first.2 :: p.1, p.2)) := by
  cases h with
  | none => exact .none
  | some parts => exact .some (parts.grow first)

theorem Parts.runs {run : List (Token × Token)} {p p' : List Token × List Token} (h : Parts run p p')
    (within : run <:+: g.pairs) : g.Run p.1 p'.1 ∧ g.Run p.2 p'.2 := by
  obtain ⟨front, back, before, behind, rfl, rfl⟩ := h
  exact ⟨.of_within within before.isInfix, .of_within within behind.isInfix⟩

theorem splitGroup_alike {run : List (Token × Token)} (stands : ∀ p ∈ run, g.Stands p.1 p.2) (depth : Nat) :
    Option.Rel (Parts run) (splitGroup depth (run.map Prod.fst)) (splitGroup depth (run.map Prod.snd)) := by
  induction run generalizing depth with
  | nil => cases depth <;> exact .none
  | cons p run ih =>
    have first := stands p List.mem_cons_self
    have ih := ih fun q hq => stands q (List.mem_cons_of_mem p hq)
    simp only [List.map_cons, splitGroup, first.isPunct]
    split_ifs
    · exact Parts.growSome (ih (depth + 1)) p
    · cases depth with
      | zero => exact .some (Parts.here _ (List.suffix_cons p run))
      | succ outer => exact Parts.growSome (ih outer) p
    · exact Parts.growSome (ih depth) p

theorem group_alike : Alike g g.Run group group := by
  refine (expectPunct_steady "(").andThen fun _ => ?_
  intro scope scope' c c' scopes cursor
  obtain ⟨run, within, left, left'⟩ := cursor.rest
  have parts := splitGroup_alike (g := g) (fun p hp => within.subset hp) 0
  simp only [left, left']
  cases split : splitGroup 0 (run.map Prod.fst) with
  | none =>
    rw [split] at parts
    have split' : splitGroup 0 (run.map Prod.snd) = none := by
      generalize splitGroup 0 (run.map Prod.snd) = other at parts
      cases parts; rfl
    simp only [split']
    exact refuse_alike .unexpectedEnd scope scope' _ _ scopes ⟨.nil, cursor.notes⟩
  | some p =>
    rw [split] at parts
    obtain ⟨p', split', both⟩ : ∃ p', splitGroup 0 (run.map Prod.snd) = some p' ∧ Parts run p p' := by
      generalize splitGroup 0 (run.map Prod.snd) = other at parts
      cases parts with
      | some h => exact ⟨_, rfl, h⟩
    obtain ⟨inner, more⟩ := both.runs within
    simp only [split']
    exact .ok inner ⟨more, cursor.notes⟩

/-- a rule behind a group that is kept as it is written -/
theorem Alike.behindVerbatim {next next' : String → Reading β}
    (later : ∀ text text', g.written text text' → Alike g S (next text) (next' text')) :
    Alike g S (group >>= fun ts => verbatim ts >>= next) (group >>= fun ts => verbatim ts >>= next') :=
  group_alike.andThen fun _ _ tokens => (verbatim_alike tokens).andThen later

theorem splitExpression_alike {stopAt : Token → Bool} (same : ∀ t t', g.Stands t t' → stopAt t' = stopAt t)
    {run : List (Token × Token)} (stands : ∀ p ∈ run, g.Stands p.1 p.2) (depth : Nat) :
    Parts run (splitExpression stopAt depth (run.map Prod.fst)) (splitExpression stopAt depth (run.map Prod.snd)) := by
  induction run generalizing depth with
  | nil => exact Parts.here [] (List.suffix_refl [])
  | cons p run ih =>
    have first := stands p List.mem_cons_self
    have ih := ih fun q hq => stands q (List.mem_cons_of_mem p hq)
    simp only [List.map_cons, splitExpression, first.isPunct, same _ _ first]
    split_ifs
    · exact Parts.here _ (List.suffix_refl (p :: run))
    all_goals exact (ih _).grow p

theorem collect_alike {stopAt : Token → Bool} (same : ∀ t t', g.Stands t t' → stopAt t' = stopAt t) (depth : Nat) :
    Alike g g.Run (collect stopAt depth) (collect stopAt depth) := by
  intro scope scope' c c' _ cursor
  obtain ⟨run, within, left, left'⟩ := cursor.rest
  have parts := splitExpression_alike same (fun p hp => within.subset hp) depth
  rw [← left, ← left'] at parts
  obtain ⟨taken, more⟩ := parts.runs within
  exact .ok taken ⟨more, cursor.notes⟩

theorem collectAll_alike : Alike g g.Run collectAll collectAll :=
  collect_alike (fun _ _ _ => rfl) 0

theorem expression_cons (stopWords : List String) (scope : Scope) (first : Token) (ts : List Token)
    (notes : List Finding) : expression stopWords scope ⟨first :: ts, notes⟩ =
      if first.isPunct "," || first.isPunct ")" then
        refuse (.expected "an expression") scope ⟨first :: ts, notes⟩
      else
        let parts := splitExpression (fun t => (t.word?.map stopWords.contains).getD false)
          (if first.isPunct "(" then 1 else 0) ts
        .ok (spelled scope.script (first :: parts.1)) ⟨parts.2, notes⟩ := by
  by_cases ends : (first.isPunct "," || first.isPunct ")") = true
  · rw [if_pos ends]
    change (if first.isPunct "," || first.isPunct ")" then _ else _ : Reading String) scope _ = _
    rw [if_pos ends]
    rfl
  · rw [if_neg ends]
    change (if first.isPunct "," || first.isPunct ")" then _ else _ : Reading String) scope _ = _
    rw [if_neg ends]
    rfl

/-- the first token of an expression and those behind it are neighbours, so that their characters correspond -/
theorem expression_alike (stopWords : List String) :
    Alike g g.written (expression stopWords) (expression stopWords) := by
  rintro scope scope' ⟨ts, notes⟩ ⟨ts', notes'⟩ scopes cursor
  obtain ⟨run, within, left, left'⟩ := cursor.rest
  obtain rfl := left
  obtain rfl := left'
  rcases run with - | ⟨p, run⟩
  · exact refuse_alike .unexpectedEnd scope scope' _ _ scopes cursor
  · have stands : g.Stands p.1 p.2 := within.subset List.mem_cons_self
    have parts := @splitExpression_alike g (fun t => (t.word?.map stopWords.contains).getD false)
      (fun _ _ same => by rw [same.counterpart.word]) run (fun q hq => within.subset (List.mem_cons_of_mem p hq))
      (if p.1.isPunct "(" then 1 else 0)
    obtain ⟨front, back, before, behind, taken, taken'⟩ := parts
    simp only [List.map_cons, expression_cons, stands.isPunct, taken, taken', scopes.script, scopes.script']
    split_ifs
    · exact refuse_alike _ scope scope' _ _ scopes cursor
    · have tokens := Run.of_within within ((List.prefix_cons_inj p).2 before).isInfix
      exact .ok tokens.spelled ⟨.of_within within (behind.trans (List.suffix_cons p run)).isInfix, cursor.notes⟩

/-! ## Names and literals -/

theorem name_steady (what : String) : Steady g (name what) := by
  refine peek_alike.andThen ?_
  intro _ _ next
  cases next with
  | none => exact refuse_alike _
  | @some t t' stands =>
    simp only [stands.isWord, stands.isPhrase]
    by_cases wrong : (!t.isWord || t.isPhrase) = true
    · simp only [if_pos wrong]
      exact (refuse_alike (R := fun _ _ => False) _).andThen fun _ _ never => never.elim
    · simp only [if_neg wrong]
      refine advance_alike.andThen fun _ _ _ => .behindDialect (.pure ?_)
      refine (stands.counterpart.name ?_).symm
      rw [Bool.or_eq_true, not_or, Bool.not_eq_true (t.isPhrase)] at wrong
      exact wrong.2

theorem dottedNames_steady (what next : String) : Steady g (dottedNames what next) := by
  refine (name_steady what).andThen fun first => ?_
  refine Steady.iterate (fun names => ?_) [first]
  refine (acceptPunct_steady ".").andThen fun more => ?_
  refine .ite ?_ (.pure rfl)
  exact (name_steady next).andThen fun _ => .pure rfl

theorem qualifiedName_steady (what : String) : Steady g (qualifiedName what) :=
  (dottedNames_steady what what).andThen fun _ => .pure rfl

theorem nameList_steady (what : String) : Steady g (nameList what) := by
  refine (qualifiedName_steady what).andThen fun first => ?_
  refine Steady.iterate (fun names => ?_) [first]
  refine (acceptPunct_steady ",").andThen fun more => ?_
  refine .ite ?_ (.pure rfl)
  exact (qualifiedName_steady what).andThen fun _ => .pure rfl

theorem stringLiteral_steady : Steady g stringLiteral := by
  refine peek_alike.andThen ?_
  intro _ _ next
  cases next with
  | none => exact refuse_alike _
  | @some t t' stands =>
    simp only [stands.counterpart.kind, stands.counterpart.value]
    refine .when (refuse_alike _) ?_
    exact advance_alike.andThen fun _ _ _ => .pure rfl

/-! ## Ends of statements -/

theorem span_alike {p : Token → Bool} (same : ∀ t t', g.Stands t t' → p t' = p t) {run : List (Token × Token)}
    (stands : ∀ q ∈ run, g.Stands q.1 q.2) :
    Parts run ((run.map Prod.fst).takeWhile p, (run.map Prod.fst).dropWhile p)
      ((run.map Prod.snd).takeWhile p, (run.map Prod.snd).dropWhile p) := by
  induction run with
  | nil => exact Parts.here [] (List.suffix_refl [])
  | cons q run ih =>
    have first := stands q List.mem_cons_self
    have ih := ih fun q' hq => stands q' (List.mem_cons_of_mem q hq)
    simp only [List.map_cons, List.takeWhile_cons, List.dropWhile_cons, same _ _ first]
    cases p q.1 with
    | true => exact ih.grow q
    | false => exact Parts.here _ (List.suffix_refl (q :: run))

theorem Run.span {p : Token → Bool} (same : ∀ t t', g.Stands t t' → p t' = p t) {ts ts' : List Token}
    (h : g.Run ts ts') :
    g.Run (ts.takeWhile p) (ts'.takeWhile p) ∧ g.Run (ts.dropWhile p) (ts'.dropWhile p) := by
  obtain ⟨run, within, rfl, rfl⟩ := h
  exact (span_alike same fun q hq => within.subset hq).runs within

theorem restOfStatement_alike : Alike g g.Run restOfStatement restOfStatement := by
  intro scope scope' c c' _ cursor
  obtain ⟨taken, left⟩ := Run.span (p := fun t => !startsStatement t)
    (fun _ _ stands => by rw [stands.startsStatement]) cursor.rest
  exact .ok taken ⟨left, cursor.notes⟩

end

end Reading

end SchemaApi
