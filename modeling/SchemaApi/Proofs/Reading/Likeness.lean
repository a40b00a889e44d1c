import SchemaApi.Proofs.Reading.Shift
import Mathlib.Data.List.Forall2
import Mathlib.Data.Option.Basic
/-!
Statements and findings that are alike.

What a script says does not depend on everything in it: it may stand in another place, have other white space and
comments, or words in other letter case. A `Likeness` says which positions correspond then, which texts that are kept as
they are written, and whether the messages are the same, which show tokens as they are written. Two statements are alike
if they differ in nothing but positions and such texts, and these correspond.
-/

namespace SchemaApi

/-- what two scripts may differ in -/
structure Likeness where
  /-- positions that correspond -/
  place : Position → Position → Prop
  /-- texts that correspond among those that are kept as they are written: raw types, arguments of types, defaults,
  conditions, generated columns, elements and conditions of indexes, queries of views -/
  written : String → String → Prop
  /-- tokens are written alike, so that messages are the same -/
  literal : Prop

variable {l : Likeness}

/-! ## Statements -/

/-- arguments of types: one that is a string is its value, all others are as they are written -/
def Likeness.Argument (l : Likeness) (a a' : String) : Prop := a' = a ∨ l.written a a'

structure TypeName.Alike (l : Likeness) (t t' : TypeName) : Prop where
  base : t'.base = t.base
  args : List.Forall₂ l.Argument t.args t'.args
  raw : l.written t.raw t'.raw
  isArray : t'.isArray = t.isArray
  unsigned : t'.unsigned = t.unsigned
  timezone : t'.timezone = t.timezone
  identifier : t'.identifier = t.identifier
  schema : t'.schema = t.schema

structure IndexElement.Alike (l : Likeness) (i i' : IndexElement) : Prop where
  text : l.written i.text i'.text
  column : i'.column = i.column
  descending : i'.descending = i.descending

inductive ConstraintClause.Alike (l : Likeness) : ConstraintClause → ConstraintClause → Prop where
  | primaryKey (columns : List String) (name : Option String) {p p' : Position} (place : l.place p p') :
      Alike l (.primaryKey columns name p) (.primaryKey columns name p')
  | unique (columns : List String) (name : Option String) {p p' : Position} (place : l.place p p') :
      Alike l (.unique columns name p) (.unique columns name p')
  | foreignKey (columns : List String) (reference : ReferenceClause) (name : Option String) {p p' : Position}
      (place : l.place p p') : Alike l (.foreignKey columns reference name p) (.foreignKey columns reference name p')
  | check {text text' : String} (written : l.written text text') (name column : Option String) {p p' : Position}
      (place : l.place p p') : Alike l (.check text name column p) (.check text' name column p')
  | index {elements elements' : List IndexElement} (same : List.Forall₂ (IndexElement.Alike l) elements elements')
      (name : Option String) (isUnique : Bool) (kind : Option String) {p p' : Position} (place : l.place p p') :
      Alike l (.index elements name isUnique kind p) (.index elements' name isUnique kind p')

structure ColumnClause.Alike (l : Likeness) (c c' : ColumnClause) : Prop where
  name : c'.name = c.name
  type : Option.Rel (TypeName.Alike l) c.type c'.type
  place : l.place c.position c'.position
  notNull : c'.notNull = c.notNull
  default : Option.Rel l.written c.default c'.default
  autoIncrement : c'.autoIncrement = c.autoIncrement
  generated : Option.Rel l.written c.generated c'.generated
  comment : c'.comment = c.comment
  constraints : List.Forall₂ (ConstraintClause.Alike l) c.constraints c'.constraints

inductive TableAction.Alike (l : Likeness) : TableAction → TableAction → Prop where
  | addColumn {c c' : ColumnClause} (column : c.Alike l c') (ifNotExists : Bool) :
      Alike l (.addColumn c ifNotExists) (.addColumn c' ifNotExists)
  | dropColumn (name : String) (ifExists cascade : Bool) :
      Alike l (.dropColumn name ifExists cascade) (.dropColumn name ifExists cascade)
  | addConstraint {c c' : ConstraintClause} (clause : c.Alike l c') : Alike l (.addConstraint c) (.addConstraint c')
  | dropConstraint (target : ConstraintTarget) (ifExists : Bool) :
      Alike l (.dropConstraint target ifExists) (.dropConstraint target ifExists)
  | alterColumn (name : String) (setNotNull : Option Bool) {default default' : Option String}
      (value : Option.Rel l.written default default') (dropDefault : Bool) {type type' : Option TypeName}
      (newType : Option.Rel (TypeName.Alike l) type type') :
      Alike l (.alterColumn name setNotNull default dropDefault type)
        (.alterColumn name setNotNull default' dropDefault type')
  | renameColumn (old new : String) : Alike l (.renameColumn old new) (.renameColumn old new)
  | renameTable (newName : QualifiedName) : Alike l (.renameTable newName) (.renameTable newName)
  | modifyColumn {c c' : ColumnClause} (column : c.Alike l c') (oldName : Option String) :
      Alike l (.modifyColumn c oldName) (.modifyColumn c' oldName)

inductive StatementBody.Alike (l : Likeness) : StatementBody → StatementBody → Prop where
  | createTable (st : CreateTable) {columns : List ColumnClause} {constraints : List ConstraintClause}
      (sameColumns : List.Forall₂ (ColumnClause.Alike l) st.columns columns)
      (sameConstraints : List.Forall₂ (ConstraintClause.Alike l) st.constraints constraints) :
      Alike l (.createTable st) (.createTable { st with columns := columns, constraints := constraints })
  | alterTable (st : AlterTable) {actions : List TableAction}
      (same : List.Forall₂ (TableAction.Alike l) st.actions actions) :
      Alike l (.alterTable st) (.alterTable { st with actions := actions })
  | createIndex (st : CreateIndex) {elements : List IndexElement} {condition : Option String}
      (sameElements : List.Forall₂ (IndexElement.Alike l) st.elements elements)
      (sameCondition : Option.Rel l.written st.condition condition) :
      Alike l (.createIndex st) (.createIndex { st with elements := elements, condition := condition })
  | createView (st : CreateView) {query : String} (same : l.written st.query query) :
      Alike l (.createView st) (.createView { st with query := query })
  | createEnum (st : CreateEnum) : Alike l (.createEnum st) (.createEnum st)
  | dropTable (st : DropTable) : Alike l (.dropTable st) (.dropTable st)
  | dropIndex (st : DropIndex) : Alike l (.dropIndex st) (.dropIndex st)
  | dropView (st : DropView) : Alike l (.dropView st) (.dropView st)
  | commentOn (st : CommentOn) : Alike l (.commentOn st) (.commentOn st)

structure Statement.Alike (l : Likeness) (st st' : Statement) : Prop where
  body : st.body.Alike l st'.body
  place : l.place st.position st'.position
  source : st'.source = st.source

/-! ## Findings -/

structure Finding.Alike (l : Likeness) (f f' : Finding) : Prop where
  severity : f'.severity = f.severity
  stage : f'.stage = f.stage
  code : f'.code = f.code
  source : f'.source = f.source
  /-- they are about no place, or about positions that correspond -/
  place : ∃ p p', Option.Rel l.place p p' ∧ f.line = p.map (·.line) ∧ f.column = p.map (·.column) ∧
    f'.line = p'.map (·.line) ∧ f'.column = p'.map (·.column)
  message : l.literal → f'.message = f.message

theorem Finding.about_alike (severity : Severity) (stage : Stage) (code : String) {message message' : String}
    (same : l.literal → message' = message) (source : Option String) {p p' : Option Position}
    (place : Option.Rel l.place p p') :
    (about severity stage code message source p).Alike l (about severity stage code message' source p') where
  severity := rfl
  stage := rfl
  code := rfl
  source := rfl
  place := ⟨p, p', place, rfl, rfl, rfl, rfl⟩
  message := same

/-- why two readings stop, for the same reason -/
inductive Stop.Alike (l : Likeness) : Stop → Stop → Prop where
  | malformed (complaint : Complaint) {found found' : Option String} (same : l.literal → found' = found)
      {p p' : Option Position} (place : Option.Rel l.place p p') :
      Alike l (.malformed complaint found p) (.malformed complaint found' p')
  | trailing {found found' : String} (same : l.literal → found' = found) {p p' : Position} (place : l.place p p') :
      Alike l (.trailing found p) (.trailing found' p')
  | unsupported {what what' : String} (same : l.literal → what' = what) {p p' : Position} (place : l.place p p') :
      Alike l (.unsupported what p) (.unsupported what' p')
  | stalled : Alike l .stalled .stalled

theorem Stop.finding_alike (source : Option String) {why why' : Stop} (h : why.Alike l why') :
    (why.finding source).Alike l (why'.finding source) := by
  cases h with
  | malformed complaint same place =>
    exact Finding.about_alike _ _ _ (fun literal => by rw [same literal]; rfl) _ place
  | trailing same place =>
    exact Finding.about_alike _ _ _ (fun literal => by rw [same literal]; rfl) _ (.some place)
  | unsupported same place =>
    exact Finding.about_alike _ _ _ (fun literal => by rw [same literal]) _ (.some place)
  | stalled => exact Finding.about_alike _ _ _ (fun _ => rfl) _ .none

/-! ## Another place alone

Where nothing differs but the place, likeness is equality up to the move. -/

/-- scripts that differ by a move -/
def Likeness.moved (s : Shift) : Likeness := ⟨fun p p' => p' = p.shift s, Eq, True⟩

section
variable {s : Shift}

theorem map_of_forall₂ {α : Type} {R : α → α → Prop} {f : α → α} (each : ∀ x y, R x y → y = f x) {xs ys : List α}
    (h : List.Forall₂ R xs ys) : ys = xs.map f := by
  induction h with
  | nil => rfl
  | cons first _ ih => rw [List.map_cons, each _ _ first, ih]

theorem eq_of_forall₂ {α : Type} {R : α → α → Prop} (each : ∀ x y, R x y → y = x) {xs ys : List α}
    (h : List.Forall₂ R xs ys) : ys = xs :=
  (map_of_forall₂ (f := id) each h).trans (List.map_id xs)

theorem eq_of_rel {α : Type} {R : α → α → Prop} (each : ∀ x y, R x y → y = x) {o o' : Option α}
    (h : Option.Rel R o o') : o' = o := by
  cases h with
  | none => rfl
  | some same => rw [each _ _ same]

theorem Likeness.written_moved (x y : String) (h : (Likeness.moved s).written x y) : y = x := Eq.symm h

theorem TypeName.eq_of_alike (t t' : TypeName) (h : t.Alike (.moved s) t') : t' = t := by
  have args : t'.args = t.args := eq_of_forall₂ (fun a a' same => same.elim id (Likeness.written_moved a a')) h.args
  obtain ⟨base, -, raw, isArray, unsigned, timezone, identifier, schema⟩ := h
  cases t; cases t'
  simp_all [Likeness.moved]

theorem IndexElement.eq_of_alike (i i' : IndexElement) (h : i.Alike (.moved s) i') : i' = i := by
  obtain ⟨text, column, descending⟩ := h
  cases i; cases i'
  simp_all [Likeness.moved]

theorem ConstraintClause.eq_of_alike (c c' : ConstraintClause) (h : c.Alike (.moved s) c') : c' = c.shift s := by
  cases h with
  | primaryKey columns name place => rw [place]; rfl
  | unique columns name place => rw [place]; rfl
  | foreignKey columns reference name place => rw [place]; rfl
  | check written name column place => rw [place, Likeness.written_moved _ _ written]; rfl
  | index same name isUnique kind place => rw [place, eq_of_forall₂ IndexElement.eq_of_alike same]; rfl

theorem ColumnClause.eq_of_alike (c c' : ColumnClause) (h : c.Alike (.moved s) c') : c' = c.shift s := by
  have type := eq_of_rel TypeName.eq_of_alike h.type
  have default := eq_of_rel Likeness.written_moved h.default
  have generated := eq_of_rel Likeness.written_moved h.generated
  have constraints := map_of_forall₂ ConstraintClause.eq_of_alike h.constraints
  obtain ⟨name, -, place, notNull, -, autoIncrement, -, comment, -⟩ := h
  cases c; cases c'
  simp_all [Likeness.moved, ColumnClause.shift]

theorem TableAction.eq_of_alike (a a' : TableAction) (h : a.Alike (.moved s) a') : a' = a.shift s := by
  cases h with
  | addColumn column ifNotExists => rw [ColumnClause.eq_of_alike _ _ column]; rfl
  | addConstraint clause => rw [ConstraintClause.eq_of_alike _ _ clause]; rfl
  | modifyColumn column oldName => rw [ColumnClause.eq_of_alike _ _ column]; rfl
  | alterColumn name setNotNull value dropDefault newType =>
    rw [eq_of_rel Likeness.written_moved value, eq_of_rel TypeName.eq_of_alike newType]; rfl
  | dropColumn | dropConstraint | renameColumn | renameTable => rfl

theorem StatementBody.eq_of_alike (b b' : StatementBody) (h : b.Alike (.moved s) b') : b' = b.shift s := by
  cases h with
  | createTable st columns constraints =>
    rw [map_of_forall₂ ColumnClause.eq_of_alike columns, map_of_forall₂ ConstraintClause.eq_of_alike constraints]; rfl
  | alterTable st same => rw [map_of_forall₂ TableAction.eq_of_alike same]; rfl
  | createIndex st elements condition =>
    rw [eq_of_forall₂ IndexElement.eq_of_alike elements, eq_of_rel Likeness.written_moved condition]; rfl
  | createView st same => rw [Likeness.written_moved _ _ same]; rfl
  | createEnum | dropTable | dropIndex | dropView | commentOn => rfl

theorem Statement.eq_of_alike (st st' : Statement) (h : st.Alike (.moved s) st') : st' = st.shift s := by
  have body := StatementBody.eq_of_alike _ _ h.body
  obtain ⟨-, place, source⟩ := h
  cases st; cases st'
  simp_all [Likeness.moved, Statement.shift]

theorem Finding.eq_of_alike (f f' : Finding) (h : f.Alike (.moved s) f') : f' = f.shift s := by
  obtain ⟨severity, stage, code, source, ⟨p, p', place, line, column, line', column'⟩, message⟩ := h
  cases f; cases f'
  cases place with
  | none => simp_all [Likeness.moved, Finding.shift]
  | some place => simp_all [Likeness.moved, Finding.shift, Position.shift]

end

end SchemaApi
