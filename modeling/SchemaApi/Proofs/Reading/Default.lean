import SchemaApi.Proofs.Reading.Result
import SchemaApi.Proofs.Reading.Alike
/-!
Default expressions.

The end of a default expression is found by a scan that counts parentheses; to the scan a square bracket is a token
like any other. So an expression in which both are properly nested, and which has neither a comma nor a word that
begins a clause outside of them (`DefaultExpression`), is read whole exactly if it has none inside square brackets
alone (`BracketsClear`). What is read behind it leaves the default as it is, unless it is another default.
-/

namespace SchemaApi

open Text

/-- the token begins a clause of a column -/
def Token.startsClause (t : Token) : Bool := (t.word?.map Reading.columnClauseStarts.contains).getD false

/-- the token may stand behind a default expression -/
def Token.EndsDefault (t : Token) : Prop := t.isPunct "," = true ∨ t.isPunct ")" = true ∨ t.startsClause = true

namespace Reading

/-! ## Nesting -/

/-- the marks that close what is open behind a token, the innermost first; none if the token closes anything else -/
def shift (marks : List String) (t : Token) : Option (List String) :=
  if t.isPunct "(" then some (")" :: marks)
  else if t.isPunct "[" then some ("]" :: marks)
  else if t.isPunct ")" || t.isPunct "]" then
    match marks with
    | mark :: outer => if t.isPunct mark then some outer else none
    | [] => none
  else some marks

/-- tokens, each with the marks that close what is open before it; none if they are not properly nested -/
def nest? : List String → List Token → Option (List (List String × Token))
  | [], [] => some []
  | _ :: _, [] => none
  | marks, t :: rest => (shift marks t).bind fun marks' => (nest? marks' rest).map ((marks, t) :: ·)

theorem nest?_cons {marks : List String} {t : Token} {rest : List Token} {placed : List (List String × Token)}
    (nested : nest? marks (t :: rest) = some placed) :
    ∃ marks' later, shift marks t = some marks' ∧ nest? marks' rest = some later ∧ placed = (marks, t) :: later := by
  rw [nest?] at nested
  obtain ⟨marks', shifted, nested⟩ := Option.bind_eq_some_iff.1 nested
  obtain ⟨later, behind, rfl⟩ := Option.map_eq_some_iff.1 nested
  exact ⟨marks', later, shifted, behind, rfl⟩

/-- a token is one mark only -/
theorem eq_of_isPunct {t : Token} {a b : String} (ha : t.isPunct a = true) (hb : t.isPunct b = true) : a = b := by
  have value {c : String} (h : t.isPunct c = true) : t.value = c := beq_iff_eq.1 (Bool.and_eq_true_iff.1 h).2
  exact (value ha).symm.trans (value hb)

/-- what is open behind a token, in parentheses -/
theorem count_shift {marks marks' : List String} {t : Token} (shifted : shift marks t = some marks') :
    marks'.count ")" = (if t.isPunct "(" then marks.count ")" + 1 else if t.isPunct ")" then marks.count ")" - 1
      else marks.count ")") ∧ (t.isPunct ")" = true → ")" ∈ marks) := by
  unfold shift at shifted
  split_ifs at shifted with opening bracket closing
  · cases shifted
    rw [if_pos opening, List.count_cons_self]
    exact ⟨rfl, fun closing => absurd (eq_of_isPunct opening closing) (by decide)⟩
  · cases shifted
    have other : ¬ t.isPunct ")" = true := fun closing => absurd (eq_of_isPunct bracket closing) (by decide)
    rw [if_neg opening, if_neg other, List.count_cons_of_ne (by decide)]
    exact ⟨rfl, fun closing => absurd closing other⟩
  · cases marks with
    | nil => contradiction
    | cons mark outer =>
      dsimp only at shifted
      split_ifs at shifted with own
      cases shifted
      rw [if_neg opening]
      by_cases parenthesis : t.isPunct ")" = true
      · rw [if_pos parenthesis, eq_of_isPunct own parenthesis, List.count_cons_self]
        exact ⟨rfl, fun _ => List.mem_cons_self⟩
      · have other : mark ≠ ")" := fun same => parenthesis (same ▸ own)
        rw [if_neg parenthesis, List.count_cons_of_ne other]
        exact ⟨rfl, fun closing => absurd closing parenthesis⟩
  · cases shifted
    have other : ¬ t.isPunct ")" = true := fun parenthesis => closing (by rw [parenthesis, Bool.true_or])
    rw [if_neg opening, if_neg other]
    exact ⟨rfl, fun closing => absurd closing other⟩

/-! ## The scan -/

/-- The scan comes to the end of properly nested tokens exactly if none of them, outside all parentheses, is a comma or
one to stop at. -/
theorem splitExpression_eq_iff {stopAt : Token → Bool} {next : Token} {rest : List Token}
    (ends : next.isPunct "," = true ∨ next.isPunct ")" = true ∨ stopAt next = true) {e : List Token} {marks : List String}
    {placed : List (List String × Token)} (nested : nest? marks e = some placed) :
    splitExpression stopAt (marks.count ")") (e ++ next :: rest) = (e, next :: rest) ↔
      ∀ p ∈ placed, ")" ∉ p.1 → p.2.isPunct "," = false ∧ stopAt p.2 = false := by
  induction e generalizing marks placed with
  | nil =>
    cases marks with
    | cons mark outer => contradiction
    | nil =>
      cases nested
      have stopped : splitExpression stopAt 0 (next :: rest) = ([], next :: rest) := by
        rw [splitExpression, if_pos ⟨rfl, ends⟩]
      exact iff_of_true stopped fun _ hp => absurd hp List.not_mem_nil
  | cons t e ih =>
    obtain ⟨marks', later, shifted, behind, rfl⟩ := nest?_cons nested
    obtain ⟨depth, closes⟩ := count_shift shifted
    rw [List.cons_append, splitExpression, ← depth, List.forall_mem_cons, ← ih behind]
    by_cases stops : marks.count ")" = 0 ∧ (t.isPunct "," = true ∨ t.isPunct ")" = true ∨ stopAt t = true)
    · rw [if_pos stops]
      have outside := List.count_eq_zero.1 stops.1
      refine iff_of_false (fun same => absurd (congrArg Prod.fst same) (by simp)) fun h => ?_
      obtain ⟨comma, word⟩ := h.1 outside
      rcases stops.2 with own | closing | own
      · exact Bool.noConfusion (comma.symm.trans own)
      · exact outside (closes closing)
      · exact Bool.noConfusion (word.symm.trans own)
    · rw [if_neg stops]
      have clear (outside : ")" ∉ marks) : t.isPunct "," = false ∧ stopAt t = false := by
        have none := not_or.1 fun h => stops ⟨List.count_eq_zero.2 outside, h⟩
        exact ⟨Bool.eq_false_iff.2 none.1, Bool.eq_false_iff.2 (not_or.1 none.2).2⟩
      refine ⟨fun same => ⟨clear, ?_⟩, fun h => by simp only [h.2]⟩
      obtain ⟨taken, left⟩ := Prod.mk.inj same
      exact Prod.ext (List.cons.inj taken).2 left

/-! ## Expressions -/

/-- Properly nested tokens with neither a comma nor, behind the first of them, a word that begins a clause, outside all
parentheses and square brackets. -/
structure DefaultExpression (e : List Token) (placed : List (List String × Token)) : Prop where
  nested : nest? [] e = some placed
  comma : ∀ p ∈ placed, p.1 = [] → p.2.isPunct "," = false
  clause : ∀ p ∈ placed.tail, p.1 = [] → p.2.startsClause = false

/-- there is neither a comma nor a word that begins a clause inside square brackets alone -/
def BracketsClear (placed : List (List String × Token)) : Prop :=
  ∀ p ∈ placed, p.1 ≠ [] → ")" ∉ p.1 → p.2.isPunct "," = false ∧ p.2.startsClause = false

section
variable {scope : Scope} {first next : Token} {more rest : List Token} {notes : List Finding}
  {placed : List (List String × Token)}

/-- The tokens are read whole, and reading goes on behind them, exactly if there is nothing to stop at in brackets. -/
theorem expression_eq_iff (whole : DefaultExpression (first :: more) placed) (ends : next.EndsDefault) :
    expression columnClauseStarts scope ⟨first :: more ++ next :: rest, notes⟩ =
      .ok (spelled scope.script (first :: more)) ⟨next :: rest, notes⟩ ↔ BracketsClear placed := by
  obtain ⟨marks, later, shifted, behind, rfl⟩ := nest?_cons whole.nested
  obtain ⟨depth, closes⟩ := count_shift shifted
  have comma := whole.comma _ List.mem_cons_self rfl
  have closing : first.isPunct ")" = false := Bool.eq_false_iff.2 fun closing => List.not_mem_nil (closes closing)
  simp only [closing, List.count_nil, Bool.false_eq_true, if_false] at depth
  rw [List.cons_append, expression_cons, comma, closing, Bool.or_false, if_neg Bool.false_ne_true, ← depth]
  dsimp only
  generalize parts : splitExpression _ _ _ = read
  have all := splitExpression_append (fun t => (t.word?.map columnClauseStarts.contains).getD false) (marks.count ")")
    (more ++ next :: rest)
  rw [parts] at all
  calc
    _ ↔ read = (more, next :: rest) := by
      refine ⟨fun same => ?_, fun same => by rw [same]⟩
      injection same with _ same
      injection same with left
      rw [left] at all
      exact Prod.ext (List.append_cancel_right all) left
    _ ↔ ∀ p ∈ later, ")" ∉ p.1 → p.2.isPunct "," = false ∧ p.2.startsClause = false := by
      rw [← parts]
      exact splitExpression_eq_iff ends behind
    _ ↔ _ := by
      refine ⟨fun clear p hp inside outside => ?_, fun clear p hp outside => ?_⟩
      · rcases List.mem_cons.1 hp with rfl | hp
        · exact absurd rfl inside
        · exact clear p hp outside
      · by_cases inside : p.1 = []
        · exact ⟨whole.comma p (List.mem_cons_of_mem _ hp) inside, whole.clause p hp inside⟩
        · exact clear p (List.mem_cons_of_mem _ hp) inside outside

end

/-! ## Clauses -/

/-- The rule takes tokens from the front, and comes to a value as described if each of them passes a test. -/
def Keeps {α : Type} (p : Token → Prop) (Q : α → Prop) (rule : Reading α) (c : Cursor) : Prop :=
  ∀ scope v c', rule scope c = .ok v c' → ∃ taken, c.rest = taken ++ c'.rest ∧ ((∀ t ∈ taken, p t) → Q v)

theorem Keeps.of_results {α : Type} {p : Token → Prop} {Q : α → Prop} {rule : Reading α} [Proceeds rule] {c : Cursor}
    (h : Results Q rule) : Keeps p Q rule c := by
  intro scope v c' run
  obtain ⟨taken, split⟩ := Proceeds.suffix run
  exact ⟨taken, split.symm, fun _ => h.holds run⟩

/-- A rule that is repeated changes nothing about a state if no round does. -/
theorem Keeps.iterate {σ α β : Type} {step : σ → Reading (σ ⊕ α)} {f : σ → β} {g : α → β} {p : Token → Prop}
    (each : ∀ s c, Keeps p (fun r => r.elim f g = f s) (step s) c) (s : σ) (c : Cursor) :
    Keeps p (fun v => g v = f s) (Reading.iterate step s) c := by
  intro scope v c' run
  refine iterate_induction (motive := fun s c => ∃ taken, c.rest = taken ++ c'.rest ∧ ((∀ t ∈ taken, p t) → g v = f s))
    ?_ ?_ run
  · intro s c round
    exact each s c scope (.inr v) c' round
  · rintro s c s' left round ⟨later, split', keeps'⟩
    obtain ⟨taken, split, keeps⟩ := each s c scope (.inl s') left round
    refine ⟨taken ++ later, by rw [split, split', List.append_assoc], fun all => ?_⟩
    have first := keeps fun t ht => all t (List.mem_append_left later ht)
    exact (keeps' fun t ht => all t (List.mem_append_right taken ht)).trans first

/-- a clause that is no default keeps the default of the column -/
theorem columnClause_default {draft : ColumnDraft} {t : Token} {word : String} (other : word ≠ "DEFAULT") :
    Results (·.default = draft.column.default) (columnClause draft t word) := by
  unfold columnClause
  split
  case h_6 => exact absurd rfl other
  all_goals
    repeat' first
      | exact .pure rfl
      | exact .refuse _
      | refine .ite ?_ ?_
      | refine .behind fun _ => ?_

/-- The clauses of a column keep its default if no token that they take is the word DEFAULT. -/
theorem columnClauses_default (column : ColumnClause) (c : Cursor) :
    Keeps (·.word? ≠ some "DEFAULT") (·.default = column.default) (columnClauses column) c := by
  refine Keeps.iterate (f := fun draft : ColumnDraft => draft.column.default) (fun draft c => ?_) _ c
  obtain ⟨_ | ⟨t, rest⟩, notes⟩ := c
  · change Keeps _ _ (pure (Sum.inr draft.column)) _
    exact .of_results (.pure rfl)
  · change Keeps _ _ (if t.isPunct "," || t.isPunct ")" then pure (Sum.inr draft.column) else _) _
    split_ifs
    · exact .of_results (.pure rfl)
    · split
      · exact .of_results (.refuse _)
      · exact .of_results (.behind fun _ => .behind fun _ => .pure rfl)
      · next word _ here =>
        by_cases own : word = "DEFAULT"
        · -- the word itself is taken
          intro scope r left run
          obtain ⟨column, c', run, done⟩ := andThen_eq_ok.1 run
          cases done
          rw [own] at run here
          obtain ⟨_, _, ⟨⟩, run⟩ := andThen_eq_ok.1 run
          obtain ⟨taken, split⟩ := Proceeds.suffix run
          refine ⟨t :: taken, by rw [List.cons_append, split], fun none => ?_⟩
          exact absurd here (none t List.mem_cons_self)
        · intro scope r left run
          obtain ⟨column, c', run, done⟩ := andThen_eq_ok.1 run
          cases done
          obtain ⟨taken, split⟩ := Proceeds.suffix run
          exact ⟨taken, split.symm, fun _ => (columnClause_default own).holds run⟩

/-! ## Columns -/

section
variable {scope : Scope} {notes : List Finding}

theorem isPunct_of_word {t : Token} {word : String} (here : t.word? = some word) (value : String) :
    t.isPunct value = false := by
  rw [Token.word?, Token.isWord] at here
  rw [Token.isPunct]
  cases kind : t.kind <;> simp_all

/-- a round that goes on, and the rounds behind it -/
theorem iterate_of_round {σ α β : Type} {step : σ → Reading (σ ⊕ α)} {s : σ} {rule : Reading β} [Proceeds rule] {f : β → σ}
    {c c' : Cursor} (round : step s scope c = (rule >>= fun v => pure (Sum.inl (f v))) scope c')
    (fewer : c'.rest.length < c.rest.length) :
    iterate step s scope c = (rule >>= fun v => iterate step (f v)) scope c' := by
  rw [iterate, round]
  cases run : rule scope c' with
  | stop why notes => rw [andThen_stop run, andThen_stop run]
  | ok v left =>
    rw [andThen_ok run, andThen_ok run]
    exact if_pos (Nat.lt_of_le_of_lt (Proceeds.suffix run).length_le fewer)

/-- a default is read, and then the clauses behind it -/
theorem columnClauses_of_default {column : ColumnClause} {t : Token} (word : t.word? = some "DEFAULT") (ts : List Token) :
    columnClauses column scope ⟨t :: ts, notes⟩ =
      (expression columnClauseStarts >>= fun text => columnClauses { column with default := some text }) scope
        ⟨ts, notes⟩ := by
  have clause : columnClause { column := column } t "DEFAULT" scope ⟨t :: ts, notes⟩ =
      (expression columnClauseStarts >>= fun text => pure { column with default := some text }) scope ⟨ts, notes⟩ := rfl
  have fewer : (⟨ts, notes⟩ : Cursor).rest.length < (⟨t :: ts, notes⟩ : Cursor).rest.length := Nat.lt_succ_self _
  refine iterate_of_round (f := fun text => ({ column := { column with default := some text } } : ColumnDraft)) ?_ fewer
  change (if t.isPunct "," || t.isPunct ")" then pure (Sum.inr column) else _ : Reading (ColumnDraft ⊕ ColumnClause))
    scope _ = _
  rw [isPunct_of_word word, isPunct_of_word word, Bool.or_self, if_neg Bool.false_ne_true, word]
  change (columnClause { column := column } t "DEFAULT" >>= fun column =>
    pure (Sum.inl ({ column := column } : ColumnDraft))) scope _ = _
  cases run : expression columnClauseStarts scope ⟨ts, notes⟩ with
  | stop why notes => rw [andThen_stop run, andThen_stop (clause.trans (andThen_stop run))]
  | ok text left =>
    rw [andThen_ok run, andThen_ok (clause.trans (andThen_ok run))]

/-- a type begins with a word -/
theorem isWord_of_typeName {t : Token} {ts : List Token} {declared : TypeName} {c : Cursor}
    (run : typeName scope ⟨t :: ts, notes⟩ = .ok declared c) : t.isWord = true := by
  by_contra other
  obtain ⟨_, _, run, -⟩ := andThen_eq_ok.1 run
  rw [withTokens] at run
  split at run
  · next inner =>
    obtain ⟨_, _, head, -⟩ := andThen_eq_ok.1 inner
    obtain ⟨_, _, ⟨⟩, head⟩ := andThen_eq_ok.1 head
    simp only [List.head?_cons, Bool.eq_false_iff.2 other, Bool.not_false, if_true] at head
    obtain ⟨_, _, refused, -⟩ := andThen_eq_ok.1 head
    contradiction
  · contradiction

/-- Behind a name and a type, a default is read and then the clauses behind it. -/
theorem columnDefinition_of_default {t u dflt : Token} {types ts : List Token} {declared : TypeName}
    (named : t.isWord = true) (simple : t.isPhrase = false) (typed : u.startsClause = false)
    (type : typeName scope ⟨u :: types ++ dflt :: ts, notes⟩ = .ok declared ⟨dflt :: ts, notes⟩)
    (default : dflt.word? = some "DEFAULT") :
    columnDefinition scope ⟨t :: (u :: types ++ dflt :: ts), notes⟩ =
      (expression columnClauseStarts >>= fun text => columnClauses
        { name := t.nameIn scope.dialect, type := some declared, position := t.position, default := some text })
        scope ⟨ts, notes⟩ := by
  have name : name "column name" scope ⟨t :: (u :: types ++ dflt :: ts), notes⟩ =
      .ok (t.nameIn scope.dialect) ⟨u :: types ++ dflt :: ts, notes⟩ := by
    change (if !t.isWord || t.isPhrase then _ else _ : Reading String) scope _ = _
    rw [named, simple]
    rfl
  have noMark (value : String) : u.isPunct value = false := by
    have word := isWord_of_typeName type
    rw [Token.isWord] at word
    rw [Token.isPunct]
    cases kind : u.kind <;> simp_all
  have lacks : lacksType scope ⟨u :: types ++ dflt :: ts, notes⟩ = .ok false ⟨u :: types ++ dflt :: ts, notes⟩ := by
    change Outcome.ok (u.isPunct "," || u.isPunct ")" || u.startsClause) _ = _
    rw [noMark, noMark, typed]
    rfl
  change (Reading.name "column name" >>= fun column => lacksType >>= fun lacks => if lacks then _ else
    typeName >>= fun declared => columnClauses { name := column, type := some declared, position := t.position }) scope
      _ = _
  rw [andThen_ok name, andThen_ok lacks, if_neg Bool.false_ne_true, andThen_ok type]
  exact columnClauses_of_default default ts

/-- Behind a name and a type, the text of a default expression is read whole, and reading goes on behind it, exactly if
it has nothing to stop at in square brackets alone. The column that is read then has the text for its default, unless
another default stands behind it. -/
theorem columnDefinition_default (scope : Scope) {script : List Char} (read : scope.script = some script)
    {t u dflt first next : Token} {types more rest : List Token} {declared : TypeName}
    {placed : List (List String × Token)} (named : t.isWord = true) (simple : t.isPhrase = false)
    (typed : u.startsClause = false) (default : dflt.word? = some "DEFAULT")
    (type : typeName scope ⟨u :: types ++ dflt :: (first :: more ++ next :: rest), notes⟩ =
      .ok declared ⟨dflt :: (first :: more ++ next :: rest), notes⟩)
    (whole : DefaultExpression (first :: more) placed) (ends : next.EndsDefault) :
    let text := slice script first.position.offset (more.getLastD first).stop
    let c : Cursor := ⟨t :: (u :: types ++ dflt :: (first :: more ++ next :: rest)), notes⟩
    columnDefinition scope c = (expression columnClauseStarts >>= fun value => columnClauses
      { name := t.nameIn scope.dialect, type := some declared, position := t.position, default := some value }) scope
        ⟨first :: more ++ next :: rest, notes⟩ ∧
    (expression columnClauseStarts scope ⟨first :: more ++ next :: rest, notes⟩ = .ok text ⟨next :: rest, notes⟩ ↔
      BracketsClear placed) ∧
    (BracketsClear placed → ∀ column left, columnDefinition scope c = .ok column left →
      ∃ taken, next :: rest = taken ++ left.rest ∧
        ((∀ v ∈ taken, v.word? ≠ some "DEFAULT") → column.default = some text)) := by
  intro text c
  have behind := columnDefinition_of_default named simple typed type default
  have captured : expression columnClauseStarts scope ⟨first :: more ++ next :: rest, notes⟩ =
      .ok (spelled scope.script (first :: more)) ⟨next :: rest, notes⟩ ↔ BracketsClear placed :=
    expression_eq_iff whole ends
  rw [read, spelled] at captured
  refine ⟨behind, captured, fun clear column left run => ?_⟩
  rw [behind, andThen_ok (captured.2 clear)] at run
  exact columnClauses_default _ _ scope column left run

end

/-! ### Arrays -/

/-- the value that a rule comes to, with what is left -/
def result? {α : Type} : Outcome α → Option (α × Cursor)
  | .ok v left => some (v, left)
  | .stop _ _ => none

theorem result?_eq_some {α : Type} {o : Outcome α} {v : α} {left : Cursor} (h : result? o = some (v, left)) :
    o = .ok v left := by
  cases o with
  | ok v left =>
    cases h
    rfl
  | stop why notes => contradiction

/-- a token in the first line of a script -/
def tokenAt (kind : TokenKind) (offset : Nat) (text value : String) : Token :=
  ⟨kind, text, value, ⟨1, offset + 1, offset⟩, false⟩

def markAt (offset : Nat) (mark : String) : Token := tokenAt .punctuation offset mark mark

/-- an array of two numbers -/
def numbers : List Token :=
  [tokenAt .identifier 14 "ARRAY" "array", markAt 19 "[", tokenAt .number 20 "1" "1", markAt 21 ",",
    tokenAt .number 23 "2" "2", markAt 24 "]"]

/-- an array of what a function gives for two numbers -/
def called : List Token :=
  [tokenAt .identifier 14 "ARRAY" "array", markAt 19 "[", tokenAt .identifier 20 "f" "f", markAt 21 "(",
    tokenAt .number 22 "1" "1", markAt 23 ",", tokenAt .number 25 "2" "2", markAt 26 ")", markAt 27 "]"]

/-- a column with the tokens for its default, and those behind it -/
def defaultingTo (e behind : List Token) : List Token :=
  tokenAt .identifier 0 "a" "a" :: ([tokenAt .identifier 2 "INT" "int"] ++
    tokenAt .keyword 6 "DEFAULT" "DEFAULT" :: (e ++ behind))

/-- reads a script in PostgreSQL -/
def scopeOf (script : String) : Scope := { dialect := .postgresql, script := some script.toList }

/-- a comma inside parentheses ends no default, also if these stand in square brackets -/
theorem columnDefinition_default_called :
    (tokenize .postgresql "a INT DEFAULT ARRAY[f(1, 2)] NOT NULL,".toList).toList =
      defaultingTo called [tokenAt .keyword 29 "NOT NULL" "NOT NULL", markAt 37 ","] ∧
    ∃ placed column left, DefaultExpression called placed ∧ BracketsClear placed ∧
      columnDefinition (scopeOf "a INT DEFAULT ARRAY[f(1, 2)] NOT NULL,")
        ⟨defaultingTo called [tokenAt .keyword 29 "NOT NULL" "NOT NULL", markAt 37 ","], []⟩ = .ok column left ∧
      left.rest = [markAt 37 ","] ∧ column.notNull = some true ∧ column.default = some "ARRAY[f(1, 2)]" := by
  have typed : (result? (typeName (scopeOf "a INT DEFAULT ARRAY[f(1, 2)] NOT NULL,") ⟨(defaultingTo called
      [tokenAt .keyword 29 "NOT NULL" "NOT NULL", markAt 37 ","]).tail, []⟩)).map (fun r => (r.2.rest, r.2.notes)) =
      some ((defaultingTo called [tokenAt .keyword 29 "NOT NULL" "NOT NULL", markAt 37 ","]).drop 2, []) := by
    decide +kernel
  have columns : (result? (columnDefinition (scopeOf "a INT DEFAULT ARRAY[f(1, 2)] NOT NULL,") ⟨defaultingTo called
      [tokenAt .keyword 29 "NOT NULL" "NOT NULL", markAt 37 ","], []⟩)).map (fun r => (r.1.notNull, r.2.rest)) =
      some (some true, [markAt 37 ","]) := by
    decide +kernel
  obtain ⟨⟨declared, _, _⟩, type, same⟩ := Option.map_eq_some_iff.1 typed
  obtain ⟨rfl, rfl⟩ := Prod.mk.inj same
  obtain ⟨⟨column, left⟩, run, same⟩ := Option.map_eq_some_iff.1 columns
  obtain ⟨notNull, behind⟩ := Prod.mk.inj same
  have whole : DefaultExpression called ((nest? [] called).getD []) :=
    ⟨by decide +kernel, by decide +kernel, by decide +kernel⟩
  have clear : BracketsClear ((nest? [] called).getD []) := by
    unfold BracketsClear
    decide +kernel
  have run := result?_eq_some run
  obtain ⟨-, -, keeps⟩ := columnDefinition_default (scopeOf "a INT DEFAULT ARRAY[f(1, 2)] NOT NULL,") rfl
    (t := tokenAt .identifier 0 "a" "a") rfl (by decide) (by decide) (by decide) (result?_eq_some type) whole
    (Or.inr (Or.inr (by decide)))
  obtain ⟨taken, split, default⟩ := keeps clear column left run
  have split : [tokenAt .keyword 29 "NOT NULL" "NOT NULL"] ++ [markAt 37 ","] = taken ++ [markAt 37 ","] :=
    behind ▸ split
  obtain rfl := List.append_cancel_right split
  refine ⟨by decide +kernel, _, column, left, whole, clear, run, behind, notNull, ?_⟩
  rw [default (by decide)]
  decide +kernel

/-- A comma inside square brackets ends the default, and the table is lost. -/
theorem not_captured_numbers :
    (tokenize .postgresql "a INT DEFAULT ARRAY[1, 2])".toList).toList = defaultingTo numbers [markAt 25 ")"] ∧
    (∃ placed, DefaultExpression numbers placed) ∧ (markAt 25 ")").EndsDefault ∧
    (∃ column left, columnDefinition (scopeOf "a INT DEFAULT ARRAY[1, 2])") ⟨defaultingTo numbers [markAt 25 ")"], []⟩ =
      .ok column left ∧ column.default = some "ARRAY[1" ∧ left.rest = numbers.drop 3 ++ [markAt 25 ")"]) ∧
    (parseScript .postgresql none "CREATE TABLE t (a INT DEFAULT ARRAY[1, 2])").statements.length = 0 := by
  have columns : (result? (columnDefinition (scopeOf "a INT DEFAULT ARRAY[1, 2])") ⟨defaultingTo numbers
      [markAt 25 ")"], []⟩)).map (fun r => (r.1.default, r.2.rest)) =
      some (some "ARRAY[1", numbers.drop 3 ++ [markAt 25 ")"]) := by
    decide +kernel
  obtain ⟨⟨column, left⟩, run, same⟩ := Option.map_eq_some_iff.1 columns
  obtain ⟨default, behind⟩ := Prod.mk.inj same
  have whole : DefaultExpression numbers ((nest? [] numbers).getD []) :=
    ⟨by decide +kernel, by decide +kernel, by decide +kernel⟩
  exact ⟨by decide +kernel, ⟨_, whole⟩, Or.inr (Or.inl (by decide)), ⟨column, left, result?_eq_some run, default, behind⟩,
    by decide +kernel⟩

end Reading

end SchemaApi
