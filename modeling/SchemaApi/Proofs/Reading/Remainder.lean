import SchemaApi.Reading.Cursor
import Mathlib.Tactic.SplitIfs
/-!
What reading leaves, and what it reports.

Rules only ever drop tokens from the front, keep the findings there are, and add none but remarks on what they pass
over; where a rule stops, the statement is malformed or outside the grammar (`Proceeds`). The combinators keep this, so
it is found for a rule from the rules that it is made of; only where a rule goes by a value, its cases are looked at one
by one. A rule that is repeated keeps it because a round that goes on has taken a token (`Spends`): most rounds begin
with a rule that takes one, or go on only where a token was accepted. A rule that drops tokens unread looks at them
before, so none of them is missing.
-/

namespace SchemaApi

/-- a finding about a clause or an action that is passed over -/
def Finding.IsRemark (f : Finding) : Prop :=
  f.stage = .parse ∧ f.code ∈ ["UNSUPPORTED_CLAUSE", "UNSUPPORTED_ALTER_ACTION"]

/-- the findings continue others, and all that are new are as described -/
def Continues (P : Finding → Prop) (before after : List Finding) : Prop := ∃ new, after = before ++ new ∧ ∀ f ∈ new, P f

section
variable {P Q : Finding → Prop} {a b c : List Finding}

theorem Continues.refl (notes : List Finding) : Continues P notes notes :=
  ⟨[], (List.append_nil notes).symm, fun _ none => absurd none List.not_mem_nil⟩

theorem Continues.trans (h : Continues P a b) (h' : Continues P b c) : Continues P a c := by
  obtain ⟨new, rfl, fromNew⟩ := h
  obtain ⟨later, rfl, fromLater⟩ := h'
  refine ⟨new ++ later, List.append_assoc .., fun f hf => ?_⟩
  exact (List.mem_append.1 hf).elim (fromNew f) (fromLater f)

theorem Continues.add (h : Continues P a b) {f : Finding} (new : P f) : Continues P a (b ++ [f]) :=
  h.trans ⟨[f], rfl, fun _ hf => List.mem_singleton.1 hf ▸ new⟩

theorem Continues.mono (h : Continues P a b) (weaker : ∀ f, P f → Q f) : Continues Q a b := by
  obtain ⟨new, rfl, described⟩ := h
  exact ⟨new, rfl, fun f hf => weaker f (described f hf)⟩

end

/-- the statement is malformed, or outside the grammar -/
def Stop.isRefusal : Stop → Bool
  | malformed _ _ _ => true
  | unsupported _ _ => true
  | _ => false

/-- the cursor that a rule leaves; a rule that stops leaves no tokens -/
def Outcome.cursor {α : Type} : Outcome α → Cursor
  | .ok _ next => next
  | .stop _ notes => ⟨[], notes⟩

/-- the tokens end those before, and the findings continue those before with remarks -/
structure Cursor.Follows (before after : Cursor) : Prop where
  rest : after.rest <:+ before.rest
  notes : Continues Finding.IsRemark before.notes after.notes

theorem Cursor.Follows.refl (c : Cursor) : c.Follows c := ⟨List.suffix_refl _, .refl _⟩

theorem Cursor.Follows.trans {a b c : Cursor} (h : a.Follows b) (h' : b.Follows c) : a.Follows c :=
  ⟨h'.rest.trans h.rest, h.notes.trans h'.notes⟩

/-- where the rest is not read, only the findings matter -/
theorem Cursor.Follows.stop {a b : Cursor} (h : a.Follows b) : a.Follows ⟨[], b.notes⟩ := ⟨List.nil_suffix, h.notes⟩

/-- what is left follows what was there, and where reading stops, the statement is refused -/
structure Outcome.Proper {α : Type} (before : Cursor) (o : Outcome α) : Prop where
  follows : before.Follows o.cursor
  refused : ∀ why notes, o = .stop why notes → why.isRefusal = true

theorem Outcome.Proper.ok {α : Type} {before after : Cursor} (h : before.Follows after) (v : α) :
    (Outcome.ok v after).Proper before := ⟨h, nofun⟩

theorem Outcome.Proper.stop {α : Type} {before after : Cursor} (h : before.Follows after) {why : Stop}
    (refusal : why.isRefusal = true) : (Outcome.stop why after.notes : Outcome α).Proper before :=
  ⟨h.stop, by rintro _ _ ⟨⟩; exact refusal⟩

/-- where a rule stops, the next one stops alike -/
theorem Outcome.Proper.stopped {α β : Type} {before : Cursor} {why : Stop} {notes : List Finding}
    (h : (Outcome.stop why notes : Outcome α).Proper before) : (Outcome.stop why notes : Outcome β).Proper before :=
  ⟨h.follows, by rintro _ _ ⟨⟩; exact h.refused why notes rfl⟩

theorem Outcome.Proper.behind {α : Type} {before between : Cursor} {o : Outcome α} (h : o.Proper between)
    (follows : before.Follows between) : o.Proper before := ⟨follows.trans h.follows, h.refused⟩

namespace Reading

/-- the rule drops tokens from the front, keeps the findings there are, adds only remarks, and stops only to refuse the
statement -/
class Proceeds {α : Type} (rule : Reading α) : Prop where
  proper : ∀ (scope : Scope) (c : Cursor), (rule scope c).Proper c

/-- where the rule comes to a value of the kind, it has taken a token -/
def SpendsAt {α : Type} (P : α → Prop) (rule : Reading α) (c : Cursor) : Prop :=
  ∀ scope v c', rule scope c = .ok v c' → P v → c'.rest.length < c.rest.length

/-- the rule takes a token wherever it comes to a value of the kind -/
class Spends {α : Type} (P : α → Prop) (rule : Reading α) : Prop where
  anywhere : ∀ c, SpendsAt P rule c

theorem Spends.fewer {α : Type} {P : α → Prop} {rule : Reading α} (h : Spends P rule) {scope : Scope} {c c' : Cursor} {v : α}
    (run : rule scope c = .ok v c') (holds : P v) : c'.rest.length < c.rest.length := h.anywhere c scope v c' run holds

section
variable {α β σ : Type}

/-! ## Combinators -/

section
variable {rule : Reading α} {next : α → Reading β} {scope : Scope} {c c' : Cursor}

theorem andThen_ok {v : α} (run : rule scope c = .ok v c') : (rule >>= next) scope c = next v scope c' := by
  change Reading.andThen rule next scope c = _
  rw [Reading.andThen, run]

theorem andThen_stop {why : Stop} {notes : List Finding} (run : rule scope c = .stop why notes) :
    (rule >>= next) scope c = .stop why notes := by
  change Reading.andThen rule next scope c = _
  rw [Reading.andThen, run]

/-- one rule after another comes to a value in two steps -/
theorem andThen_eq_ok {w : β} :
    (rule >>= next) scope c = .ok w c' ↔ ∃ v left, rule scope c = .ok v left ∧ next v scope left = .ok w c' := by
  cases run : rule scope c with
  | stop why notes => simp [andThen_stop run]
  | ok v left =>
    rw [andThen_ok run]
    refine ⟨fun run' => ⟨v, left, rfl, run'⟩, ?_⟩
    rintro ⟨_, _, ⟨⟩, run'⟩
    exact run'

end

theorem Proceeds.follows {rule : Reading α} (h : Proceeds rule) (scope : Scope) (c : Cursor) :
    c.Follows (rule scope c).cursor := (h.proper scope c).follows

theorem Proceeds.of_ok {rule : Reading α} [proceeds : Proceeds rule] {scope : Scope} {c c' : Cursor} {v : α}
    (run : rule scope c = .ok v c') : c.Follows c' := by
  have follows := proceeds.follows scope c
  rwa [run] at follows

/-- a rule that stops has added only remarks -/
theorem Proceeds.notes_of_stop {rule : Reading α} (h : Proceeds rule) {scope : Scope} {c : Cursor} {why : Stop}
    {notes : List Finding} (run : rule scope c = .stop why notes) : Continues Finding.IsRemark c.notes notes := by
  have follows := (h.follows scope c).notes
  rwa [run] at follows

/-- the tokens that a rule leaves end those that it is given -/
theorem Proceeds.suffix {rule : Reading α} [Proceeds rule] {scope : Scope} {c c' : Cursor} {v : α}
    (run : rule scope c = .ok v c') : c'.rest <:+ c.rest := (of_ok run).rest

/-- a rule that takes nothing -/
theorem Proceeds.still {rule : Reading α} (same : ∀ scope c, ∃ v, rule scope c = .ok v c) : Proceeds rule := by
  refine ⟨fun scope c => ?_⟩
  obtain ⟨v, run⟩ := same scope c
  rw [run]
  exact .ok (.refl c) v

/-- a rule that drops tokens and does nothing else -/
theorem Proceeds.drops {rule : Reading α}
    (run : ∀ scope c, ∃ v rest, rest <:+ c.rest ∧ rule scope c = .ok v ⟨rest, c.notes⟩) : Proceeds rule := by
  refine ⟨fun scope c => ?_⟩
  obtain ⟨v, rest, suffix, run⟩ := run scope c
  have follows : c.Follows ⟨rest, c.notes⟩ := ⟨suffix, .refl c.notes⟩
  rw [run]
  exact .ok follows v

instance (v : α) : Proceeds (pure v : Reading α) := .still fun _ _ => ⟨v, rfl⟩

theorem proper_andThen {rule : Reading α} {next : α → Reading β} {scope : Scope} {c : Cursor}
    (first : (rule scope c).Proper c)
    (later : ∀ v left, rule scope c = .ok v left → (next v scope left).Proper left) :
    ((rule >>= next) scope c).Proper c := by
  cases run : rule scope c with
  | stop why notes =>
    rw [andThen_stop run]
    rw [run] at first
    exact first.stopped
  | ok v left =>
    have behind := later v left run
    rw [andThen_ok run]
    rw [run] at first
    exact behind.behind first.follows

theorem Proceeds.andThen {rule : Reading α} {next : α → Reading β} (first : Proceeds rule)
    (later : ∀ v, Proceeds (next v)) : Proceeds (rule >>= next) :=
  ⟨fun scope c => proper_andThen (first.proper scope c) fun v left _ => (later v).proper scope left⟩

instance {rule : Reading α} {next : α → Reading β} [first : Proceeds rule] [later : ∀ v, Proceeds (next v)] :
    Proceeds (rule >>= next) := first.andThen later

instance {rule : Reading α} {f : α → β} [first : Proceeds rule] : Proceeds (f <$> rule) :=
  first.andThen fun v => (inferInstance : Proceeds (pure (f v)))

theorem Proceeds.ite {c : Prop} [Decidable c] {a b : Reading α} (yes : Proceeds a) (no : Proceeds b) :
    Proceeds (if c then a else b) := by
  split
  · exact yes
  · exact no

instance {c : Prop} [Decidable c] {a b : Reading α} [yes : Proceeds a] [no : Proceeds b] :
    Proceeds (if c then a else b) := .ite yes no

/-- one of two rules before others -/
theorem Proceeds.either {c : Prop} [Decidable c] {a b : Reading α} {next : α → Reading β} (yes : Proceeds a)
    (no : Proceeds b) (later : ∀ v, Proceeds (next v)) : Proceeds (if c then a >>= next else b >>= next) :=
  .ite (yes.andThen later) (no.andThen later)

/-! ### Tokens that are taken -/

section
variable {P : β → Prop} {rule : Reading α} {next : α → Reading β}

/-- a token is taken at first -/
theorem SpendsAt.first {c : Cursor} (h : SpendsAt (fun _ => True) rule c) (later : ∀ v, Proceeds (next v)) :
    SpendsAt P (rule >>= next) c := by
  intro scope w c' run _
  obtain ⟨v, left, once, run⟩ := andThen_eq_ok.1 run
  have behind := later v
  calc
    _ ≤ left.rest.length := (Proceeds.suffix run).length_le
    _ < _ := h scope v left once trivial

theorem Spends.first (h : Spends (fun _ => True) rule) (later : ∀ v, Proceeds (next v)) : Spends P (rule >>= next) :=
  ⟨fun c => .first (h.anywhere c) later⟩

/-- a token is taken behind others -/
theorem Spends.behind (first : Proceeds rule) (later : ∀ v, Spends P (next v)) : Spends P (rule >>= next) := by
  refine ⟨fun c scope w c' run holds => ?_⟩
  obtain ⟨v, left, once, run⟩ := andThen_eq_ok.1 run
  calc
    _ < left.rest.length := (later v).fewer run holds
    _ ≤ _ := (Proceeds.suffix once).length_le

/-- a token is taken at first, or behind what comes to another value -/
theorem Spends.either {Q : α → Prop} (first : Proceeds rule) (h : Spends Q rule) (taken : ∀ v, Q v → Proceeds (next v))
    (passed : ∀ v, ¬ Q v → Spends P (next v)) : Spends P (rule >>= next) := by
  refine ⟨fun c scope w c' run holds => ?_⟩
  obtain ⟨v, left, once, run⟩ := andThen_eq_ok.1 run
  by_cases here : Q v
  · have behind := taken v here
    calc
      _ ≤ left.rest.length := (Proceeds.suffix run).length_le
      _ < _ := h.fewer once here
  · calc
      _ < left.rest.length := (passed v here).fewer run holds
      _ ≤ _ := (Proceeds.suffix once).length_le

/-- a token is accepted, or else one is taken behind -/
theorem Spends.accepted {rule : Reading Bool} {a b : Reading β} (first : Proceeds rule) (h : Spends (· = true) rule)
    (yes : Proceeds a) (no : Spends P b) : Spends P (rule >>= fun v => if v = true then a else b) := by
  refine .either first h (fun v here => ?_) fun v other => ?_
  · rwa [if_pos here]
  · rwa [if_neg other]

theorem Spends.found {rule : Reading (Option α)} {next : Option α → Reading β} (first : Proceeds rule)
    (h : Spends (·.isSome = true) rule) (yes : ∀ v, Proceeds (next (some v))) (no : Spends P (next none)) :
    Spends P (rule >>= next) := by
  refine .either first h (fun v here => ?_) fun v other => ?_
  · obtain ⟨x, rfl⟩ := Option.isSome_iff_exists.1 here
    exact yes x
  · obtain rfl := Option.not_isSome_iff_eq_none.1 other
    exact no

instance [first : Spends (fun _ => True) rule] [later : ∀ v, Proceeds (next v)] : Spends P (rule >>= next) :=
  first.first later

instance [first : Proceeds rule] [later : ∀ v, Spends P (next v)] : Spends P (rule >>= next) := .behind first later

instance {rule : Reading Bool} {a b : Reading β} [first : Proceeds rule] [h : Spends (· = true) rule] [yes : Proceeds a]
    [no : Spends P b] : Spends P (rule >>= fun v => if v = true then a else b) := .accepted first h yes no

theorem Spends.acceptedWord {rule : Reading (Option α)} {a b : Reading β} (first : Proceeds rule)
    (h : Spends (·.isSome = true) rule) (yes : Proceeds a) (no : Spends P b) :
    Spends P (rule >>= fun v => if v.isSome = true then a else b) :=
  .found first h (fun _ => yes) no

instance {rule : Reading (Option α)} {a b : Reading β} [first : Proceeds rule] [h : Spends (·.isSome = true) rule]
    [yes : Proceeds a] [no : Spends P b] : Spends P (rule >>= fun v => if v.isSome = true then a else b) :=
  .acceptedWord first h yes no

/-- a value of another kind -/
theorem Spends.pure {v : β} (other : ¬ P v) : Spends P (Pure.pure v) :=
  ⟨fun _ _ _ _ run holds => by cases run; exact absurd holds other⟩

theorem Spends.ite {p : Prop} [Decidable p] {a b : Reading β} (yes : Spends P a) (no : Spends P b) :
    Spends P (if p then a else b) := by
  split
  · exact yes
  · exact no

instance {p : Prop} [Decidable p] {a b : Reading β} [yes : Spends P a] [no : Spends P b] :
    Spends P (if p then a else b) := .ite yes no

instance (complaint : Complaint) : Spends P (refuse complaint) := by
  refine ⟨fun c scope v c' run _ => ?_⟩
  rw [refuse] at run
  split at run <;> contradiction

instance (what : String) (p : Position) : Spends P (unsupported what p) := ⟨fun _ _ _ _ run => by cases run⟩

/-- a round that ends takes nothing -/
instance {σ : Type} (v : β) : Spends (·.isLeft = true) (Pure.pure (Sum.inr v) : Reading (σ ⊕ β)) :=
  .pure Bool.false_ne_true

end

/-! ### Rounds -/

section
variable {step : σ → Reading (σ ⊕ α)} {s s' : σ} {scope : Scope} {c c' : Cursor}

theorem iterate_stop {why : Stop} {notes : List Finding} (round : step s scope c = .stop why notes) :
    iterate step s scope c = .stop why notes := by
  rw [iterate, round]

theorem iterate_done {v : α} (round : step s scope c = .ok (.inr v) c') : iterate step s scope c = .ok v c' := by
  rw [iterate, round]

theorem iterate_goes (round : step s scope c = .ok (.inl s') c') (fewer : c'.rest.length < c.rest.length) :
    iterate step s scope c = iterate step s' scope c' := by
  rw [iterate, round]
  exact if_pos fewer

/-- What holds before the round that ends a loop, and before a round if it holds behind it, holds before the loop. -/
theorem iterate_induction {motive : σ → Cursor → Prop} {v : α}
    (last : ∀ s c, step s scope c = .ok (.inr v) c' → motive s c)
    (more : ∀ s c s' left, step s scope c = .ok (.inl s') left → motive s' left → motive s c)
    (run : iterate step s scope c = .ok v c') : motive s c := by
  -- the induction is on the tokens left, of which every round but the last takes some
  induction size : c.rest.length using Nat.strongRecOn generalizing s c with
  | ind n ih =>
    rw [iterate] at run
    cases round : step s scope c with
    | stop why notes =>
      rw [round] at run
      contradiction
    | ok r left =>
      rw [round] at run
      cases r with
      | inr w =>
        cases run
        exact last s c round
      | inl s' =>
        dsimp only at run
        split_ifs at run with fewer
        exact more s c s' left round (ih left.rest.length (size ▸ fewer) run rfl)

/-- A rule that is repeated proceeds if each round does, and takes a token where it goes on. -/
theorem Proceeds.iterate (each : ∀ s, Proceeds (step s)) (takes : ∀ s, Spends (·.isLeft = true) (step s)) (s : σ) :
    Proceeds (Reading.iterate step s) := by
  refine ⟨fun scope c => ?_⟩
  -- the induction is on the tokens left, of which every round but the last takes some
  induction size : c.rest.length using Nat.strongRecOn generalizing s c with
  | ind n ih =>
    have once := (each s).proper scope c
    cases round : step s scope c with
    | stop why notes =>
      rw [round] at once
      rw [iterate_stop round]
      exact once.stopped
    | ok v left =>
      rw [round] at once
      cases v with
      | inr v =>
        rw [iterate_done round]
        exact .ok once.follows v
      | inl s' =>
        have fewer : left.rest.length < c.rest.length := (takes s).fewer round rfl
        have later := ih left.rest.length (size ▸ fewer) s' left rfl
        rw [iterate_goes round fewer]
        exact later.behind once.follows

instance [each : ∀ s, Proceeds (step s)] [takes : ∀ s, Spends (·.isLeft = true) (step s)] :
    Proceeds (iterate step s) :=
  .iterate each takes s

/-- A rule that is repeated takes a token if the first round goes on. -/
theorem SpendsAt.iterate {P : α → Prop} (later : ∀ s, Proceeds (Reading.iterate step s))
    (takes : Spends (·.isLeft = true) (step s))
    (goes : ∀ scope v left, step s scope c = .ok v left → v.isLeft = true) : SpendsAt P (Reading.iterate step s) c := by
  intro scope w c' run _
  cases round : step s scope c with
  | stop why notes =>
    rw [iterate_stop round] at run
    contradiction
  | ok v left =>
    cases v with
    | inr v => exact absurd (goes _ _ _ round) Bool.false_ne_true
    | inl s' =>
      have fewer : left.rest.length < c.rest.length := takes.fewer round rfl
      rw [iterate_goes round fewer] at run
      calc
        _ ≤ left.rest.length := (Proceeds.suffix run).length_le
        _ < _ := fewer

end

/-! ## Rules for tokens -/

instance (complaint : Complaint) : Proceeds (refuse complaint : Reading α) := by
  refine ⟨fun scope c => ?_⟩
  rw [refuse]
  split <;> exact .stop (.refl c) rfl

instance (what : String) (p : Position) : Proceeds (unsupported what p : Reading α) :=
  ⟨fun _ c => .stop (.refl c) rfl⟩

section
variable {next : Option String → Reading β} {scope : Scope} {c : Cursor}

theorem peekWord_andThen : (peekWord >>= next) scope c = next (c.rest.head?.bind Token.word?) scope c := rfl

theorem peekWordAt_andThen (ahead : Nat) :
    (peekWordAt ahead >>= next) scope c = next (c.rest[ahead]?.bind Token.word?) scope c := rfl

end

/-- only remarks are noted while a statement is read on -/
theorem Proceeds.note {severity : Severity} {code message : String} {p : Position}
    (remark : code ∈ ["UNSUPPORTED_CLAUSE", "UNSUPPORTED_ALTER_ACTION"]) : Proceeds (note severity code message p) :=
  ⟨fun _ c => ⟨⟨List.suffix_refl _, (Continues.refl c.notes).add ⟨rfl, remark⟩⟩, nofun⟩⟩

instance (severity : Severity) (message : String) (p : Position) :
    Proceeds (note severity "UNSUPPORTED_CLAUSE" message p) := .note (by decide)

instance (severity : Severity) (message : String) (p : Position) :
    Proceeds (note severity "UNSUPPORTED_ALTER_ACTION" message p) := .note (by decide)

instance : Proceeds dialect := .still fun _ _ => ⟨_, rfl⟩

instance (ahead : Nat) : Proceeds (peekAt ahead) := .still fun _ _ => ⟨_, rfl⟩

instance : Proceeds peek := .still fun _ _ => ⟨_, rfl⟩

instance : Proceeds peekWord := .still fun _ _ => ⟨_, rfl⟩

instance (ahead : Nat) : Proceeds (peekWordAt ahead) := .still fun _ _ => ⟨_, rfl⟩

instance (value : String) : Proceeds (peekPunct value) := .still fun _ _ => ⟨_, rfl⟩

instance : Proceeds atEnd := .still fun _ _ => ⟨_, rfl⟩

instance : Proceeds advance := by
  refine ⟨fun scope c => ?_⟩
  obtain ⟨_ | ⟨t, rest⟩, notes⟩ := c
  · exact (inferInstance : Proceeds (refuse .unexpectedEnd : Reading Token)).proper scope _
  · exact ⟨⟨List.suffix_cons t rest, .refl notes⟩, nofun⟩

instance {P : Token → Prop} : Spends P advance := by
  refine ⟨fun c scope v c' run _ => ?_⟩
  obtain ⟨_ | ⟨t, rest⟩, notes⟩ := c
  · contradiction
  · cases run
    exact Nat.lt_succ_self rest.length

/-- tokens that are there may be dropped -/
theorem proper_skip {count : Nat} {scope : Scope} {c : Cursor} (there : count ≤ c.rest.length) :
    (skip count scope c).Proper c := by
  have follows : c.Follows ⟨c.rest.drop count, c.notes⟩ := ⟨List.drop_suffix count c.rest, .refl c.notes⟩
  rw [skip, if_pos there]
  exact .ok follows ()

instance {P : Unit → Prop} (count : Nat) : Spends P (skip (count + 1)) := by
  refine ⟨fun c scope v c' run _ => ?_⟩
  simp only [skip] at run
  split_ifs at run with there
  cases run
  rw [List.length_drop]
  omega

/-- a rule that looks at the word behind the next token; where there is one, there are two tokens -/
theorem Proceeds.ahead {next : Option String → Reading β}
    (each : ∀ word scope c, (word.isSome = true → 2 ≤ c.rest.length) → (next word scope c).Proper c) :
    Proceeds (peekWordAt 1 >>= next) := by
  refine ⟨fun scope c => each (c.rest[1]?.bind Token.word?) scope c fun found => ?_⟩
  obtain ⟨word, found⟩ := Option.isSome_iff_exists.1 found
  obtain ⟨t, there, -⟩ := Option.bind_eq_some_iff.1 found
  exact (List.getElem?_eq_some_iff.1 there).1

instance (words : List String) : Proceeds (acceptWord words) := by
  refine .drops fun scope c => ?_
  obtain ⟨_ | ⟨t, rest⟩, notes⟩ := c
  · exact ⟨none, [], List.suffix_refl _, rfl⟩
  · simp only [acceptWord]
    split
    · exact ⟨none, t :: rest, List.suffix_refl _, rfl⟩
    · split_ifs
      · exact ⟨_, rest, List.suffix_cons t rest, rfl⟩
      · exact ⟨none, t :: rest, List.suffix_refl _, rfl⟩

instance (words : List String) : Spends (·.isSome = true) (acceptWord words) := by
  refine ⟨fun c scope v c' run found => ?_⟩
  obtain ⟨_ | ⟨t, rest⟩, notes⟩ := c
  · cases run
    contradiction
  · simp only [acceptWord] at run
    split at run
    · cases run
      contradiction
    · split_ifs at run <;> cases run
      · exact Nat.lt_succ_self rest.length
      · contradiction

section
variable {words : List String} {word : String} {t : Token} {rest : List Token} {notes : List Finding} {scope : Scope}

/-- one of the words is taken -/
theorem acceptWord_of_mem (here : t.word? = some word) (among : words.contains word = true) :
    acceptWord words scope ⟨t :: rest, notes⟩ = .ok (some word) ⟨rest, notes⟩ := by
  simp only [acceptWord, here, among, if_true]

/-- another word is left -/
theorem acceptWord_of_not_mem (here : t.word? = some word) (other : words.contains word = false) :
    acceptWord words scope ⟨t :: rest, notes⟩ = .ok none ⟨t :: rest, notes⟩ := by
  simp only [acceptWord, here, other, Bool.false_eq_true, if_false]

theorem accept_of_word (here : t.word? = some word) :
    accept word scope ⟨t :: rest, notes⟩ = .ok true ⟨rest, notes⟩ := by
  rw [accept, andThen_ok (acceptWord_of_mem here (by simp))]
  rfl

end

instance (word : String) : Proceeds (accept word) := by unfold accept; infer_instance

instance (word : String) : Spends (· = true) (accept word) :=
  .found inferInstance inferInstance (fun _ => inferInstance) (.pure Bool.false_ne_true)

instance (words : List String) : Proceeds (expectWord words) := by
  refine .andThen inferInstance fun found => ?_
  cases found <;> infer_instance

instance {P : String → Prop} (words : List String) : Spends P (expectWord words) :=
  .found inferInstance inferInstance (fun _ => inferInstance) inferInstance

/-- the rule takes the next token if it passes a test -/
def Tests (rule : Reading Bool) (p : Token → Bool) : Prop := ∀ scope c, rule scope c =
  match c.rest with
  | [] => .ok false c
  | t :: rest => if p t then .ok true { c with rest := rest } else .ok false c

theorem Tests.proceeds {rule : Reading Bool} {p : Token → Bool} (same : Tests rule p) : Proceeds rule := by
  refine .drops fun scope c => ?_
  rw [same]
  obtain ⟨_ | ⟨t, rest⟩, notes⟩ := c
  · exact ⟨false, [], List.suffix_refl _, rfl⟩
  · dsimp only
    split_ifs
    · exact ⟨true, rest, List.suffix_cons t rest, rfl⟩
    · exact ⟨false, t :: rest, List.suffix_refl _, rfl⟩

theorem Tests.spends {rule : Reading Bool} {p : Token → Bool} (same : Tests rule p) : Spends (· = true) rule := by
  refine ⟨fun c scope v c' run accepted => ?_⟩
  rw [same] at run
  obtain ⟨_ | ⟨t, rest⟩, notes⟩ := c
  · cases run
    contradiction
  · dsimp only at run
    split_ifs at run <;> cases run
    · exact Nat.lt_succ_self rest.length
    · contradiction

theorem tests_acceptPunct (value : String) : Tests (acceptPunct value) (·.isPunct value) := fun _ _ => rfl

theorem tests_acceptOperator (value : String) : Tests (acceptOperator value) (·.isOperator value) := fun _ _ => rfl

instance (value : String) : Proceeds (acceptPunct value) := (tests_acceptPunct value).proceeds

instance (value : String) : Spends (· = true) (acceptPunct value) := (tests_acceptPunct value).spends

instance (value : String) : Proceeds (acceptOperator value) := (tests_acceptOperator value).proceeds

instance (value : String) : Proceeds (expectPunct value) := by unfold expectPunct; infer_instance

instance {P : Unit → Prop} (value : String) : Spends P (expectPunct value) :=
  .accepted inferInstance inferInstance inferInstance inferInstance

section
variable {item : Reading α}

theorem Proceeds.commaItem (h : Proceeds item) (items : List α) : Proceeds (commaItem item items) := by
  unfold Reading.commaItem
  infer_instance

/-- where another item follows, a comma was taken -/
theorem Spends.commaItem (h : Proceeds item) (items : List α) : Spends (·.isLeft = true) (commaItem item items) := by
  unfold Reading.commaItem
  infer_instance

theorem Proceeds.commaList (h : Proceeds item) : Proceeds (commaList item) :=
  .iterate h.commaItem (Spends.commaItem h) []

instance [h : Proceeds item] : Proceeds (commaList item) := .commaList h

end

theorem Proceeds.withTokens {rule : Reading α} (h : Proceeds rule) : Proceeds (withTokens rule) := by
  refine ⟨fun scope c => ?_⟩
  have first := h.proper scope c
  rw [Reading.withTokens]
  cases run : rule scope c with
  | ok v left =>
    rw [run] at first
    exact .ok first.follows _
  | stop why notes =>
    rw [run] at first
    exact first.stopped

instance (tokens : List Token) : Proceeds (verbatim tokens) := .still fun _ _ => ⟨_, rfl⟩

/-! ## Groups and expressions -/

/-- an expression, and what is left behind it, are the tokens it is read from -/
theorem splitExpression_append (stopAt : Token → Bool) (depth : Nat) (ts : List Token) :
    (splitExpression stopAt depth ts).1 ++ (splitExpression stopAt depth ts).2 = ts := by
  induction ts generalizing depth with
  | nil => rfl
  | cons t rest ih =>
    rw [splitExpression]
    split
    · rfl
    · exact congrArg (t :: ·) (ih _)

instance (stopAt : Token → Bool) (depth : Nat) : Proceeds (collect stopAt depth) :=
  .drops fun _ c => ⟨_, _, ⟨_, splitExpression_append stopAt depth c.rest⟩, rfl⟩

instance : Proceeds collectAll := by unfold collectAll; infer_instance

theorem suffix_of_splitGroup {depth : Nat} {ts inner left : List Token} (split : splitGroup depth ts = some (inner, left)) :
    left <:+ ts := by
  induction ts generalizing depth inner with
  | nil => cases split
  | cons t rest ih =>
    have inside {depth : Nat} (split : ((splitGroup depth rest).map fun r => (t :: r.1, r.2)) =
        some (inner, left)) : left <:+ t :: rest := by
      obtain ⟨r, found, same⟩ := Option.map_eq_some_iff.1 split
      obtain ⟨-, rfl⟩ := Prod.mk.inj same
      exact (ih found).trans (List.suffix_cons t rest)
    unfold splitGroup at split
    split_ifs at split
    · exact inside split
    · cases depth with
      | zero =>
        cases split
        exact List.suffix_cons t _
      | succ outer => exact inside split
    · exact inside split

/-- the rule behind the parenthesis that opens a group -/
theorem proceeds_splitGroup : Proceeds fun scope c =>
    match splitGroup 0 c.rest with
    | some (inner, left) => .ok inner { c with rest := left }
    | none => refuse .unexpectedEnd scope { c with rest := [] } := by
  refine ⟨fun scope c => ?_⟩
  cases found : splitGroup 0 c.rest with
  | none => exact .stop (.refl c) rfl
  | some parts =>
    have follows : c.Follows ⟨parts.2, c.notes⟩ := ⟨suffix_of_splitGroup found, .refl c.notes⟩
    exact .ok follows parts.1

instance : Proceeds group := .andThen inferInstance fun _ => proceeds_splitGroup

instance {P : List Token → Prop} : Spends P group := .first inferInstance fun _ => proceeds_splitGroup

instance (stopWords : List String) : Proceeds (expression stopWords) := by
  refine .andThen inferInstance fun next => ?_
  cases next <;> infer_instance

instance (what : String) : Proceeds (name what) := by
  refine .andThen inferInstance fun next => ?_
  cases next <;> infer_instance

instance {P : String → Prop} (what : String) : Spends P (name what) := by
  refine .behind inferInstance fun next => ?_
  cases next <;> infer_instance

instance (what : String) (names : List String) : Proceeds (dottedName what names) := by unfold dottedName; infer_instance

instance (what : String) (names : List String) : Spends (·.isLeft = true) (dottedName what names) := by
  unfold dottedName
  infer_instance

instance (what next : String) : Proceeds (dottedNames what next) := by unfold dottedNames; infer_instance

instance (what : String) : Proceeds (qualifiedName what) := by unfold qualifiedName; infer_instance

instance (what : String) (names : List QualifiedName) : Proceeds (listedName what names) := by
  unfold listedName
  infer_instance

instance (what : String) (names : List QualifiedName) : Spends (·.isLeft = true) (listedName what names) := by
  unfold listedName
  infer_instance

instance (what : String) : Proceeds (nameList what) := by unfold nameList; infer_instance

instance : Proceeds stringLiteral := by
  refine .andThen inferInstance fun next => ?_
  cases next <;> infer_instance

instance : Proceeds atStatementEnd := .still fun _ _ => ⟨_, rfl⟩

instance : Proceeds restOfStatement := .drops fun _ _ => ⟨_, _, List.dropWhile_suffix _, rfl⟩

end

end Reading

end SchemaApi
