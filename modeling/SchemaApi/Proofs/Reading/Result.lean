import SchemaApi.Proofs.Reading.Grammar
/-!
What reading comes to.

`Results` says what the values of a rule are like, whatever tokens it is given. It goes by the rules that come last; what
earlier ones come to matters only where a later one uses it. A statement stands where its first token does, and what is
written at a column of a table declaration is about that column (`StandsAt`).
-/

namespace SchemaApi

/-- the constraint names the column, and no other -/
def ConstraintClause.IsAbout (column : String) : ConstraintClause → Prop
  | primaryKey columns _ _ => columns = [column]
  | unique columns _ _ => columns = [column]
  | foreignKey columns _ _ _ => columns = [column]
  | check _ _ given _ => given = some column
  | index _ _ _ _ _ => False

/-- what is written at the column is about it -/
def ColumnClause.SelfNaming (column : ColumnClause) : Prop := ∀ k ∈ column.constraints, k.IsAbout column.name

/-- the statement stands where the token does, and what it says at its columns is about them -/
structure Statement.StandsAt (start : Token) (st : Statement) : Prop where
  position : st.position = start.position
  columns : ∀ table, st.body = .createTable table → ∀ column ∈ table.columns, column.SelfNaming

namespace Reading

/-- the rule comes to nothing but values as described -/
class Results {α : Type} (Q : α → Prop) (rule : Reading α) : Prop where
  holds : ∀ {scope : Scope} {c c' : Cursor} {v : α}, rule scope c = .ok v c' → Q v

section
variable {α β σ : Type} {P : α → Prop} {Q : β → Prop} {rule : Reading α} {next : α → Reading β}

theorem Results.andThen (first : Results P rule) (later : ∀ v, P v → Results Q (next v)) : Results Q (rule >>= next) := by
  refine ⟨fun run => ?_⟩
  obtain ⟨v, left, run, run'⟩ := andThen_eq_ok.1 run
  exact (later v (first.holds run)).holds run'

theorem Results.behind (later : ∀ v, Results Q (next v)) : Results Q (rule >>= next) :=
  .andThen (P := fun _ => True) ⟨fun _ => trivial⟩ fun v _ => later v

instance [later : ∀ v, Results Q (next v)] : Results Q (rule >>= next) := .behind later

theorem Results.pure {v : β} (h : Q v) : Results Q (Pure.pure v) :=
  ⟨fun run => by cases run; exact h⟩

theorem Results.refuse (complaint : Complaint) : Results Q (Reading.refuse complaint) := by
  refine ⟨fun run => ?_⟩
  rw [Reading.refuse] at run
  split at run <;> contradiction

instance (complaint : Complaint) : Results Q (refuse complaint) := .refuse complaint

instance (what : String) (p : Position) : Results Q (Reading.unsupported what p) := ⟨nofun⟩

instance (start : Token) (words : String) (what : Option String) : Results Q (unsupportedPhrase start words what) := by
  unfold unsupportedPhrase
  infer_instance

theorem Results.ite {p : Prop} [Decidable p] {a b : Reading β} (yes : Results Q a) (no : Results Q b) :
    Results Q (if p then a else b) := by
  split
  · exact yes
  · exact no

instance {p : Prop} [Decidable p] {a b : Reading β} [yes : Results Q a] [no : Results Q b] :
    Results Q (if p then a else b) := .ite yes no

/-- one of two rules before others -/
theorem Results.either {p : Prop} [Decidable p] {a b : Reading α} (later : ∀ v, Results Q (next v)) :
    Results Q (if p then a >>= next else b >>= next) :=
  .ite (.behind later) (.behind later)

/-- A rule that is repeated comes to what a round comes to from a state that the rounds before keep as described. -/
theorem Results.iterate {I : σ → Prop} {step : σ → Reading (σ ⊕ β)}
    (each : ∀ s, I s → Results (Sum.elim I Q) (step s)) {s : σ} (initial : I s) : Results Q (Reading.iterate step s) := by
  refine ⟨fun {scope c c' v} run => ?_⟩
  refine iterate_induction (motive := fun s _ => I s → Q v) ?_ ?_ run initial
  · intro s c round kept
    exact (each s kept).holds round
  · intro s c s' left round later kept
    exact later ((each s kept).holds round)

end

/-! ## Columns -/

theorem columnClause_selfNaming {draft : ColumnDraft} (before : draft.column.SelfNaming) (t : Token) (word : String) :
    Results ColumnClause.SelfNaming (columnClause draft t word) := by
  have constrained : ∀ clause : Option String → ConstraintClause, (clause draft.constraint).IsAbout draft.column.name →
      (draft.constrain clause).SelfNaming := by
    intro clause about k hk
    rcases List.mem_append.1 hk with old | new
    · exact before k old
    · rw [List.mem_singleton.1 new]
      exact about
  unfold columnClause
  split
  case h_3 =>
    -- a primary key may number its rows as well
    refine .behind fun _ => .behind fun _ => .behind fun _ => .behind fun numbered => .pure ?_
    exact constrained (fun name => .primaryKey [draft.column.name] name t.position) rfl
  all_goals
    repeat' first
      | exact .pure before
      | exact .pure (constrained _ rfl)
      | exact .refuse _
      | refine .ite ?_ ?_
      | refine .behind fun _ => ?_

theorem columnClauses_selfNaming {column : ColumnClause} (before : column.SelfNaming) :
    Results ColumnClause.SelfNaming (columnClauses column) := by
  refine .iterate (I := fun draft : ColumnDraft => draft.column.SelfNaming) (fun draft kept => ?_) before
  refine .behind fun next => ?_
  cases next with
  | none => exact .pure kept
  | some t =>
    refine .ite (.pure kept) ?_
    split
    · infer_instance
    · exact .behind fun _ => .behind fun name => .pure kept
    · exact (columnClause_selfNaming kept t _).andThen fun column described => .pure described

theorem columnDefinition_selfNaming : Results ColumnClause.SelfNaming columnDefinition := by
  have clauses : ∀ column : ColumnClause, column.constraints = [] →
      Results ColumnClause.SelfNaming (columnClauses column) := by
    intro column none
    apply columnClauses_selfNaming
    intro k hk
    rw [none] at hk
    exact absurd hk List.not_mem_nil
  refine .behind fun first => .behind fun column => .behind fun untyped => .ite ?_ ?_
  · exact .behind fun d => .behind fun word => .ite (clauses _ rfl) (.behind fun _ => clauses _ rfl)
  · exact .behind fun declared => clauses _ rfl

/-! ## Tables -/

/-- what is written at the columns read so far is about them -/
def SelfNamed (parts : List ColumnClause × List ConstraintClause) : Prop := ∀ column ∈ parts.1, column.SelfNaming

theorem tableElements_selfNaming : Results SelfNamed tableElements := by
  have none : ∀ constraints, SelfNamed ([], constraints) := fun _ _ nothing => absurd nothing List.not_mem_nil
  refine .behind fun _ => .behind fun empty => .ite (.pure (none [])) ?_
  refine .iterate (I := SelfNamed) (fun ⟨columns, constraints⟩ kept => .behind fun isConstraint => .ite ?_ ?_) (none [])
  · refine .behind fun clause => ?_
    cases clause with
    | some clause =>
      refine .andThen (P := SelfNamed) (.pure kept) fun parts kept => ?_
      exact .behind fun comma => .ite (.pure kept) (.behind fun _ => .pure kept)
    | none =>
      refine .andThen (P := SelfNamed) (.pure kept) fun parts kept => ?_
      exact .behind fun comma => .ite (.pure kept) (.behind fun _ => .pure kept)
  · refine columnDefinition_selfNaming.andThen fun column described => ?_
    have longer : SelfNamed (columns ++ [column], constraints) :=
      List.forall_mem_append.2 ⟨kept, List.forall_mem_singleton.2 described⟩
    refine .andThen (P := SelfNamed) (.pure longer) fun parts kept => ?_
    exact .behind fun comma => .ite (.pure kept) (.behind fun _ => .pure kept)

/-! ## Statements -/

-- a statement is made of many rules
set_option synthInstance.maxSize 1024

section
variable {start : Token}

theorem located_standsAt {body : StatementBody}
    (columns : ∀ table, body = .createTable table → ∀ column ∈ table.columns, column.SelfNaming) :
    Results (Statement.StandsAt start) (located start body) := by
  refine ⟨fun run => ?_⟩
  cases run
  exact ⟨rfl, columns⟩

instance (index : CreateIndex) : Results (Statement.StandsAt start) (located start (.createIndex index)) :=
  located_standsAt nofun

instance (view : CreateView) : Results (Statement.StandsAt start) (located start (.createView view)) :=
  located_standsAt nofun

instance (enum : CreateEnum) : Results (Statement.StandsAt start) (located start (.createEnum enum)) :=
  located_standsAt nofun

instance (table : AlterTable) : Results (Statement.StandsAt start) (located start (.alterTable table)) :=
  located_standsAt nofun

instance (drop : DropTable) : Results (Statement.StandsAt start) (located start (.dropTable drop)) :=
  located_standsAt nofun

instance (drop : DropIndex) : Results (Statement.StandsAt start) (located start (.dropIndex drop)) :=
  located_standsAt nofun

instance (drop : DropView) : Results (Statement.StandsAt start) (located start (.dropView drop)) :=
  located_standsAt nofun

instance (comment : CommentOn) : Results (Statement.StandsAt start) (located start (.commentOn comment)) :=
  located_standsAt nofun

instance (temporary : Bool) : Results (Statement.StandsAt start) (createTable start temporary) := by
  refine .behind fun _ => .behind fun ifNotExists => .behind fun table => .behind fun word => ?_
  split
  · infer_instance
  · infer_instance
  · refine tableElements_selfNaming.andThen fun ⟨columns, constraints⟩ described => .behind fun comment => ?_
    apply located_standsAt
    rintro _ ⟨⟩
    exact described

instance : Results (Statement.StandsAt start) (createIndex start) := by
  refine .behind fun ⟨unique, kind⟩ => .behind fun _ => .behind fun ifNotExists => .behind fun word => ?_
  refine .ite (.behind fun index => ?_) (.behind fun index => ?_)
  all_goals
    refine .behind fun method => .behind fun _ => .behind fun _ => .behind fun table => .behind fun method' => ?_
    exact .behind fun elements => .behind fun ⟨method, condition⟩ => inferInstance

instance (orReplace : Bool) : Results (Statement.StandsAt start) (createView start orReplace) := by
  refine .behind fun materialized => .behind fun _ => .behind fun _ => .behind fun view => .behind fun opens => ?_
  refine .either fun columns => .behind fun options => ?_
  dsimp only
  infer_instance

instance : Results (Statement.StandsAt start) (createEnum start) := by
  unfold createEnum
  dsimp only
  infer_instance

instance : Results (Statement.StandsAt start) (create start) := by
  refine .behind fun orReplace => .behind fun temporary => .behind fun word => ?_
  split <;> infer_instance

instance : Results (Statement.StandsAt start) (alter start) := by
  unfold alter
  dsimp only
  infer_instance

instance : Results (Statement.StandsAt start) (drop start) := by
  refine .behind fun word => ?_
  split <;> infer_instance

instance : Results (Statement.StandsAt start) (commentOn start) := by
  refine .behind fun word => ?_
  split <;> infer_instance

/-- in front of the token the rule takes it, and comes to a statement that stands at it -/
def TakesStart (start : Token) (rule : Reading Statement) : Prop :=
  ∀ {scope : Scope} {rest : List Token} {notes : List Finding} {st : Statement} {next : Cursor},
    rule scope ⟨start :: rest, notes⟩ = .ok st next → next.rest <:+ rest ∧ st.StandsAt start

theorem takesStart_advance {rule : Reading Statement} [Proceeds rule] [Results (Statement.StandsAt start) rule] :
    TakesStart start (advance >>= fun _ => rule) := by
  intro scope rest notes st next run
  obtain ⟨_, _, ⟨⟩, run⟩ := andThen_eq_ok.1 run
  exact ⟨Proceeds.suffix run, Results.holds run⟩

theorem takesStart_unsupported {what : String} {p : Position} : TakesStart start (unsupported what p) := nofun

/-- a statement takes its first token, and stands at it -/
theorem statement_takesStart (start : Token) : TakesStart start statement := by
  intro scope rest notes st next run
  obtain ⟨_, _, ⟨⟩, run⟩ := andThen_eq_ok.1 run
  have through : ∀ {rule : Reading Statement}, TakesStart start rule →
      rule scope ⟨start :: rest, notes⟩ = .ok st next → next.rest <:+ rest ∧ st.StandsAt start := fun takes => takes
  refine through ?_ run
  dsimp only [List.head?_cons]
  split
  · exact takesStart_advance
  · exact takesStart_advance
  · exact takesStart_advance
  · exact takesStart_advance
  · exact takesStart_unsupported
  · exact takesStart_unsupported

end

end Reading

end SchemaApi
