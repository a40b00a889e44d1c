import SchemaApi.Proofs.Reading.Takes
import Mathlib.Data.List.Forall2
/-!
Printed columns and constraints are read as they were described.

A table declaration is described by its columns and constraints, with every name as the dialect delimits it. Each
rule of the grammar, in front of the terminals that a part of the description is printed from, comes to that part.
-/

namespace SchemaApi

open Text
open Terminal (print tokensFrom headWord atWord atPunct closedList Ends qualified qualifiedText)

section
variable {d : Dialect}

/-! ## Descriptions -/

/-- a declared type -/
inductive TypeText where
  | integer
  | varchar (length : Nat)

namespace TypeText

def terminals : TypeText → List (Terminal d)
  | integer => [.word .integer]
  | varchar length => [.word .varchar, .mark .opening, .numeral length, .mark .closing]

/-- what the declared type is read as -/
def typeName (d : Dialect) : TypeText → TypeName
  | integer => { base := "INTEGER", raw := "INTEGER", identifier := some (d.normalize "INTEGER" false) }
  | varchar length =>
    { base := "VARCHAR", args := [toString length], raw := "VARCHAR(" ++ toString length ++ ")"
      identifier := some (d.normalize "VARCHAR" false) }

end TypeText

/-- the text of a default as it is printed -/
def printedText (d : Dialect) (text : String) : String := String.ofList (Terminal.literal (d := d) text).chars

/-- a column -/
structure ColumnText (d : Dialect) where
  name : DelimitedName d
  type : TypeText
  default : Option String := none
  notNull : Bool := false

namespace ColumnText

/-- the terminals behind the type of a column -/
def tail (c : ColumnText d) : List (Terminal d) :=
  (c.default.elim [] fun text => [.word .default, .literal text]) ++ if c.notNull then [.word .notNull] else []

def terminals (c : ColumnText d) : List (Terminal d) := .name c.name :: (c.type.terminals ++ c.tail)

/-- what the column is read as where it stands -/
def clause (c : ColumnText d) (p : Position) : ColumnClause :=
  { name := c.name.text, type := some (c.type.typeName d), position := p
    notNull := if c.notNull then some true else none
    default := c.default.map (printedText d) }

/-- the declaration reads as the column does, where it stands -/
def ReadAs (c : ColumnText d) (clause : ColumnClause) : Prop := clause = c.clause clause.position

end ColumnText

/-- what a foreign key refers to -/
structure ReferenceText (d : Dialect) where
  schema : Option (DelimitedName d) := none
  table : DelimitedName d
  /-- none if the columns are left out -/
  columns : List (DelimitedName d) := []
  onDelete : Option ReferentialAction := none
  onUpdate : Option ReferentialAction := none

/-- column names in parentheses -/
def columnTerminals (columns : List (DelimitedName d)) : List (Terminal d) :=
  .mark .opening :: closedList (columns.map fun n => [.name n])

namespace ReferenceText

def action (event : Vocabulary) (a : Option ReferentialAction) : List (Terminal d) :=
  a.elim [] fun a => [.word event, .word (.action a)]

def terminals (r : ReferenceText d) : List (Terminal d) :=
  qualified r.schema r.table ++ ((if r.columns = [] then [] else columnTerminals r.columns) ++
    (action .onDelete r.onDelete ++ action .onUpdate r.onUpdate))

def clause (r : ReferenceText d) : ReferenceClause :=
  { table := qualifiedText r.schema r.table, columns := r.columns.map (·.text), onDelete := r.onDelete
    onUpdate := r.onUpdate }

end ReferenceText

/-- what a constraint of a table demands of columns -/
inductive Demand (d : Dialect) where
  | primaryKey
  | unique
  | foreignKey (reference : ReferenceText d)

namespace Demand

def terminals (columns : List (DelimitedName d)) : Demand d → List (Terminal d)
  | primaryKey => .word .primaryKey :: columnTerminals columns
  | unique => .word .unique :: columnTerminals columns
  | foreignKey reference =>
    .word .foreignKey :: (columnTerminals columns ++ .word .references :: reference.terminals)

def clause (columns : List String) (name : Option String) (p : Position) : Demand d → ConstraintClause
  | primaryKey => .primaryKey columns name p
  | unique => .unique columns name p
  | foreignKey reference => .foreignKey columns reference.clause name p

end Demand

/-- a constraint of a table -/
structure ConstraintText (d : Dialect) where
  name : Option (DelimitedName d) := none
  demand : Demand d
  columns : List (DelimitedName d)
  filled : columns ≠ []

namespace ConstraintText

def terminals (c : ConstraintText d) : List (Terminal d) :=
  (c.name.elim [] fun n => [.word .constraint, .name n]) ++ c.demand.terminals c.columns

/-- what the constraint is read as where it stands -/
def clause (c : ConstraintText d) (p : Position) : ConstraintClause :=
  c.demand.clause (c.columns.map (·.text)) (c.name.map (·.text)) p

/-- the declaration reads as the constraint does, where it stands -/
def ReadAs (c : ConstraintText d) (clause : ConstraintClause) : Prop := clause = c.clause clause.position

end ConstraintText

/-- an element of a table declaration -/
inductive ElementText (d : Dialect) where
  | column (c : ColumnText d)
  | constraint (c : ConstraintText d)

namespace ElementText

def terminals : ElementText d → List (Terminal d)
  | column c => c.terminals
  | constraint c => c.terminals

/-- no element begins with a mark -/
theorem terminals_eq_cons (e : ElementText d) :
    ∃ t more, e.terminals = t :: more ∧ ∀ value, t.isPunct value = false := by
  cases e with
  | column c => exact ⟨_, _, rfl, fun _ => rfl⟩
  | constraint c =>
    rw [terminals, ConstraintText.terminals]
    cases c.name with
    | some n => exact ⟨_, _, rfl, fun _ => rfl⟩
    | none => cases c.demand <;> exact ⟨_, _, rfl, fun _ => rfl⟩

def column? : ElementText d → Option (ColumnText d)
  | column c => some c
  | constraint _ => none

def constraint? : ElementText d → Option (ConstraintText d)
  | column _ => none
  | constraint c => some c

end ElementText

namespace Reading

variable {s : Setting d} {ts us : List (Terminal d)}

/-! ## Clauses that several rules share -/

theorem indexMethod_gives (other : atWord ["USING"] ts = false) : Gives s indexMethod ts ts none := by
  refine (accept_passes other).andThen ?_
  exact Takes.neg Bool.false_ne_true (.pure rfl)

theorem conflictClause_gives (noWord : headWord ts = none) : Gives s conflictClause ts ts () := by
  refine (peekWord_gives noWord).andThen ?_
  have any : Takes s (peekWordAt 1) ts ts fun _ => True := fun c before => ⟨_, c, rfl, trivial, before, rfl⟩
  refine any.andThen fun next _ => ?_
  exact Takes.neg Bool.false_ne_true (.pure rfl)

theorem constraintAttributes_gives (ends : Ends ts) : Gives s constraintAttributes ts ts () := by
  refine Gives.iterate_done ?_
  refine (acceptWord_passes (ends.atWord _)).andThen ?_
  refine Takes.neg Bool.false_ne_true ?_
  refine (peekWord_gives ends.headWord).andThen ?_
  refine Takes.neg Bool.false_ne_true ?_
  refine (accept_passes (ends.atWord _)).andThen ?_
  exact Takes.neg Bool.false_ne_true (.pure rfl)

theorem keyTail_gives (ends : Ends ts) : Gives s keyTail ts ts () := by
  refine (indexMethod_gives (ends.atWord _)).andThen ?_
  refine (conflictClause_gives ends.headWord).andThen ?_
  exact constraintAttributes_gives ends

theorem columnList_gives {columns : List (DelimitedName d)} (filled : columns ≠ []) :
    Gives s columnList (columnTerminals columns ++ ts) ts (columns.map (·.text)) := by
  refine (expectPunct_takes rfl).andThen ?_
  refine commaList_gives filled fun n us ends => ?_
  refine (name_gives "column name" n).andThen ?_
  refine (peekPunct_gives (ends.atPunct (by decide) (by decide))).andThen ?_
  refine Takes.neg Bool.false_ne_true ?_
  exact (acceptWord_passes (ends.atWord _)).andThen (.pure rfl)

theorem referentialAction_gives (a : ReferentialAction) :
    Gives s referentialAction (.word (.action a) :: ts) ts a := by
  have listed : ["CASCADE", "RESTRICT", "SET NULL", "SET DEFAULT", "NO ACTION"].contains (Vocabulary.action a).text =
      true := by cases a <;> decide
  refine (expectWord_takes rfl listed).andThen (.pure ?_)
  cases a <;> decide

theorem referenceEvent_gives_none (clause : ReferenceClause) (ends : Ends ts) :
    Gives s (referenceEvent clause) ts ts (.inr clause) := by
  refine (accept_passes (ends.atWord _)).andThen ?_
  refine Takes.neg Bool.false_ne_true ?_
  exact (acceptWord_passes (ends.atWord _)).andThen (.pure rfl)

theorem referenceEvent_gives_onDelete (clause : ReferenceClause) (a : ReferentialAction) :
    Gives s (referenceEvent clause) (.word .onDelete :: .word (.action a) :: ts) ts
      (.inl { clause with onDelete := some a }) := by
  refine (accept_passes rfl).andThen ?_
  refine Takes.neg Bool.false_ne_true ?_
  refine (acceptWord_takes rfl rfl).andThen ?_
  refine (referentialAction_gives a).andThen ?_
  exact Takes.pos rfl (.pure rfl)

theorem referenceEvent_gives_onUpdate (clause : ReferenceClause) (a : ReferentialAction) :
    Gives s (referenceEvent clause) (.word .onUpdate :: .word (.action a) :: ts) ts
      (.inl { clause with onUpdate := some a }) := by
  refine (accept_passes rfl).andThen ?_
  refine Takes.neg Bool.false_ne_true ?_
  refine (acceptWord_takes rfl rfl).andThen ?_
  refine (referentialAction_gives a).andThen ?_
  exact Takes.neg (by decide) (.pure rfl)

/-- the events of a foreign key -/
theorem referenceEvents_give (table : QualifiedName) (columns : List String) (onDelete onUpdate : Option ReferentialAction)
    (ends : Ends us) : Gives s (iterate referenceEvent { table := table, columns := columns })
      (ReferenceText.action .onDelete onDelete ++ (ReferenceText.action .onUpdate onUpdate ++ us)) us
      { table := table, columns := columns, onDelete := onDelete, onUpdate := onUpdate } := by
  have last : ∀ clause, Gives s (iterate referenceEvent clause) us us clause :=
    fun clause => Gives.iterate_done (referenceEvent_gives_none clause ends)
  have update : ∀ deleted, Gives s
      (iterate referenceEvent { table := table, columns := columns, onDelete := deleted })
      (ReferenceText.action .onUpdate onUpdate ++ us) us
      { table := table, columns := columns, onDelete := deleted, onUpdate := onUpdate } := by
    intro deleted
    cases onUpdate with
    | none => exact last _
    | some a =>
      exact Gives.iterate_more (referenceEvent_gives_onUpdate _ a) (Nat.lt_succ_of_lt (Nat.lt_succ_self _)) (last _)
  cases onDelete with
  | none => exact update none
  | some a =>
    exact Gives.iterate_more (referenceEvent_gives_onDelete _ a) (Nat.lt_succ_of_lt (Nat.lt_succ_self _))
      (update (some a))

/-- neither a point nor a parenthesis stands in front of the events of a foreign key -/
theorem atPunct_events {value : String} (onDelete onUpdate : Option ReferentialAction) (ends : Ends us)
    (comma : Mark.comma.text ≠ value) (closing : Mark.closing.text ≠ value) : atPunct value
      (ReferenceText.action .onDelete onDelete ++ (ReferenceText.action .onUpdate onUpdate ++ us)) = false := by
  cases onDelete with
  | some a => rfl
  | none =>
    cases onUpdate with
    | some a => rfl
    | none => exact ends.atPunct comma closing

theorem referenceClause_gives (r : ReferenceText d) (ends : Ends us) :
    Gives s referenceClause (r.terminals ++ us) us r.clause := by
  have events : ∀ columns, Gives s
      (do let clause ← iterate referenceEvent { table := qualifiedText r.schema r.table, columns := columns }
          constraintAttributes
          return clause)
      (ReferenceText.action .onDelete r.onDelete ++ (ReferenceText.action .onUpdate r.onUpdate ++ us)) us
      { table := qualifiedText r.schema r.table, columns := columns, onDelete := r.onDelete, onUpdate := r.onUpdate } := by
    intro columns
    refine (referenceEvents_give _ columns r.onDelete r.onUpdate ends).andThen ?_
    exact (constraintAttributes_gives ends).andThen (.pure rfl)
  simp only [ReferenceText.terminals, List.append_assoc]
  by_cases bare : r.columns = []
  · rw [if_pos bare, List.nil_append]
    refine (qualifiedName_gives "table name" r.schema r.table
      (atPunct_events r.onDelete r.onUpdate ends (by decide) (by decide))).andThen ?_
    refine (peekPunct_gives (atPunct_events r.onDelete r.onUpdate ends (by decide) (by decide))).andThen ?_
    refine Takes.neg Bool.false_ne_true ?_
    rw [ReferenceText.clause, bare]
    exact Gives.andThen (.pure rfl) (events [])
  · rw [if_neg bare]
    refine (qualifiedName_gives "table name" r.schema r.table rfl).andThen ?_
    refine (peekPunct_gives rfl).andThen ?_
    refine Takes.pos rfl ?_
    exact (columnList_gives bare).andThen (events _)

/-! ## Types -/

/-- terminals that may stand behind a type: a clause of the column, or the end of its definition -/
structure EndsType (ts : List (Terminal d)) : Prop where
  punct : ∀ value ∈ [".", "(", "["], atPunct value ts = false
  word : ∀ word, headWord ts = some word → word ∈ ["DEFAULT", "NOT NULL"]

theorem EndsType.atWord (h : EndsType ts) {words : List String}
    (other : ∀ word ∈ ["DEFAULT", "NOT NULL"], words.contains word = false) : atWord words ts = false := by
  rw [Terminal.atWord]
  cases here : headWord ts with
  | none => rfl
  | some word => exact other word (h.word word here)

theorem typeHead_gives {w : Vocabulary} (isType : w.isType = true) (simple : atPunct "." ts = false) :
    Gives s typeHead (.word w :: ts) ts { base := w.text, identifier := some (d.normalize w.text false) } := by
  have identifier : ∀ p, ((Terminal.word (d := d) w).token p).isWord = true ∧
      ((Terminal.word (d := d) w).token p).kind = .identifier ∧
        ((Terminal.word (d := d) w).token p).nameIn d = d.normalize w.text false := by
    intro p
    simp [Terminal.token, Terminal.kind, Terminal.value, Token.isWord, Token.nameIn, isType]
  have upper : Text.upper (d.normalize w.text false) = w.text := by
    have every : ∀ w ∈ Vocabulary.all, w.isType = true → Text.upper (d.normalize w.text false) = w.text := by
      cases d <;> decide +kernel
    exact every w w.mem_all isType
  refine peek_takes.andThen ?_
  rintro _ ⟨tok, rfl, before, -, rfl⟩
  obtain ⟨isWord, kind, name⟩ := identifier (Position.start.after before)
  refine Takes.neg (by rw [isWord]; decide) ?_
  refine advance_takes.andThen fun _ _ => ?_
  refine Takes.neg (by rw [kind]; decide) ?_
  refine dialect_gives.andThen ?_
  rw [name]
  refine (acceptPunct_passes simple).andThen ?_
  refine Takes.neg Bool.false_ne_true (.pure ?_)
  rw [upper]

/-- the argument of a type that is a number -/
theorem typeArguments_gives (n : Nat) :
    Gives s typeArguments (.mark .opening :: .numeral n :: .mark .closing :: ts) ts [toString n] := by
  refine (group_takes fun _ => rfl).andThen ?_
  rintro _ ⟨tok, rfl, heads⟩
  have spell := Heads.spell heads
  obtain ⟨before, -, rfl⟩ := heads
  have plain : typeArgument [(Terminal.numeral (d := d) n).token (Position.start.after before)] =
      verbatim [(Terminal.numeral (d := d) n).token (Position.start.after before)] := rfl
  refine Gives.andThen (v := toString n) ?_ (.pure rfl)
  rw [plain]
  refine (verbatim_gives spell).mono fun _ same => ?_
  rw [same, print, Terminal.gap, print, List.append_nil, List.append_nil]
  exact String.ofList_toList

/-- a type that is one word, with its arguments if there are any -/
theorem typeName_gives_word {w : Vocabulary} {args : List (Terminal d)} {values : List String} (isType : w.isType = true)
    (simple : atPunct "." (args ++ ts) = false) (ends : EndsType ts)
    (arguments : (atPunct "(" (args ++ ts) = true ∧ Gives s typeArguments (args ++ ts) ts values) ∨
      (args = [] ∧ values = [])) :
    Gives s typeName (.word w :: args ++ ts) ts
      { base := w.text, args := values, raw := String.ofList (print (.word w :: args))
        identifier := some (d.normalize w.text false) } := by
  have zone : splitTimezone w.text = (w.text, none) := by
    have every : ∀ w ∈ Vocabulary.all, w.isType = true → splitTimezone w.text = (w.text, none) := by decide +kernel
    exact every w w.mem_all isType
  have signed : Gives s (iterate signedness false) ts ts false := by
    refine Gives.iterate_done ?_
    exact (acceptWord_passes (ends.atWord (by decide))).andThen (.pure rfl)
  have single : Gives s (iterate arrayBounds false) ts ts false := by
    refine Gives.iterate_done ?_
    refine (acceptPunct_passes (ends.punct "[" (by decide))).andThen ?_
    refine Takes.neg Bool.false_ne_true ?_
    refine (accept_passes (ends.atWord (by decide))).andThen ?_
    exact Takes.neg Bool.false_ne_true (.pure rfl)
  refine (withTokens_takes (List.cons_ne_nil _ _) (Q := (· =
    { base := w.text, args := values, identifier := some (d.normalize w.text false) })) ?_).andThen ?_
  · refine (typeHead_gives isType simple).andThen ?_
    simp only [zone]
    rcases arguments with ⟨opens, read⟩ | ⟨rfl, rfl⟩
    · refine (peekPunct_gives opens).andThen ?_
      refine Takes.pos rfl ?_
      refine read.andThen ?_
      refine (acceptWord_passes (ends.atWord (by decide))).andThen ?_
      refine signed.andThen ?_
      exact single.andThen (.pure rfl)
    · refine (peekPunct_gives (ends.punct "(" (by decide))).andThen ?_
      refine Takes.neg Bool.false_ne_true ?_
      refine (acceptWord_passes (ends.atWord (by decide))).andThen ?_
      refine signed.andThen ?_
      exact single.andThen (.pure rfl)
  · rintro ⟨_, tokens⟩ ⟨rfl, spell⟩
    exact (verbatim_gives spell).andThen (.pure rfl)

theorem typeName_gives (type : TypeText) (ends : EndsType ts) :
    Gives s typeName (type.terminals ++ ts) ts (type.typeName d) := by
  cases type with
  | integer => exact @typeName_gives_word d s ts .integer [] [] rfl (ends.punct "." (by decide)) ends (Or.inr ⟨rfl, rfl⟩)
  | varchar length =>
    have text : String.ofList (print [.word (d := d) .varchar, .mark .opening, .numeral length, .mark .closing]) =
        "VARCHAR(" ++ toString length ++ ")" := by
      rw [← String.toList_inj]
      simp only [String.toList_ofList, String.toList_append]
      simp [print, Terminal.gap, Terminal.close, Terminal.chars]
      rfl
    have read := @typeName_gives_word d s ts .varchar [.mark .opening, .numeral length, .mark .closing] [toString length]
      rfl rfl ends (Or.inl ⟨rfl, typeArguments_gives length⟩)
    rw [text] at read
    exact read

/-! ## Columns -/

theorem columnClauses_gives_self (column : ColumnClause) (ends : Ends us) :
    Gives s (columnClauses column) us us column := by
  refine Gives.iterate_done ?_
  obtain ⟨m, more, rfl, mark⟩ := ends
  refine peek_takes.andThen ?_
  rintro _ ⟨tok, rfl, _, -, rfl⟩
  refine Takes.pos ?_ (.pure rfl)
  rw [Terminal.isPunct_token, Terminal.isPunct_token]
  rcases mark with rfl | rfl <;> rfl

/-- a clause that begins with a fixed word, and the clauses behind it -/
theorem columnClauses_takes {column column' : ColumnClause} {w : Vocabulary} {ts us vs : List (Terminal d)}
    {Q : ColumnClause → Prop} (own : w.text ≠ "CONSTRAINT") (fewer : us.length ≤ ts.length)
    (clause : ∀ tok, Gives s (columnClause { column := column } tok w.text) (.word w :: ts) us column')
    (rest : Takes s (columnClauses column') us vs Q) : Takes s (columnClauses column) (.word w :: ts) vs Q := by
  refine Gives.iterate_more ?_ (Nat.lt_succ_of_le fewer) rest
  refine peek_takes.andThen ?_
  rintro _ ⟨tok, rfl, before, -, rfl⟩
  refine Takes.neg ?_ ?_
  · rw [Terminal.isPunct_token, Terminal.isPunct_token]
    exact Bool.false_ne_true
  · rw [Terminal.word?_token]
    split
    · contradiction
    · next same => exact absurd (Option.some.inj same) own
    · next word _ same =>
      obtain rfl : w.text = word := Option.some.inj same
      exact (clause _).andThen (.pure rfl)

/-- the clauses that the tail of a column is printed from -/
theorem columnClauses_gives (c : ColumnText d) (p : Position) (ends : Ends us) :
    Gives s (columnClauses { name := c.name.text, type := some (c.type.typeName d), position := p }) (c.tail ++ us) us
      (c.clause p) := by
  have notNull : ∀ default, Gives s
      (columnClauses { name := c.name.text, type := some (c.type.typeName d), position := p, default := default })
      ((if c.notNull then [.word .notNull] else []) ++ us) us { c.clause p with default := default } := by
    intro default
    rw [ColumnText.clause]
    cases c.notNull with
    | false => exact columnClauses_gives_self _ ends
    | true =>
      refine columnClauses_takes (by decide) (Nat.le_refl _) (fun tok => ?_) (columnClauses_gives_self _ ends)
      exact advance_takes.andThen fun _ _ => .pure rfl
  rw [ColumnText.tail, List.append_assoc]
  cases given : c.default with
  | none =>
    have same : c.clause p = { c.clause p with default := none } := by rw [ColumnText.clause, given]; rfl
    rw [same]
    exact notNull none
  | some text =>
    have same : c.clause p = { c.clause p with default := some (printedText d text) } := by
      rw [ColumnText.clause, given]; rfl
    rw [same]
    refine columnClauses_takes (by decide) (Nat.le_succ _) (fun tok => ?_) (notNull _)
    refine advance_takes.andThen fun _ _ => ?_
    refine (expression_gives ?_).andThen (.pure rfl)
    cases c.notNull with
    | true => rfl
    | false => obtain ⟨m, more, rfl, rfl | rfl⟩ := ends <;> rfl

theorem endsType_tail (c : ColumnText d) (ends : Ends us) : EndsType (c.tail ++ us) := by
  rw [ColumnText.tail]
  cases c.default with
  | some text => exact ⟨by simp [atPunct, Terminal.isPunct], by rintro _ ⟨⟩; decide⟩
  | none =>
    cases c.notNull with
    | true => exact ⟨by simp [atPunct, Terminal.isPunct], by rintro _ ⟨⟩; decide⟩
    | false =>
      refine ⟨fun value listed => ends.atPunct ?_ ?_, fun word here => ?_⟩
      · rintro rfl; revert listed; decide
      · rintro rfl; revert listed; decide
      · have noWord := ends.headWord
        rw [show headWord us = some word from here] at noWord
        contradiction

theorem columnDefinition_takes (c : ColumnText d) (ends : Ends us) :
    Takes s columnDefinition (c.terminals ++ us) us c.ReadAs := by
  refine peek_takes.andThen ?_
  rintro _ ⟨tok, rfl, before, -, rfl⟩
  refine (name_gives "column name" c.name).andThen ?_
  -- the word of a type is none of those that show that there is no type
  have typed : Gives s lacksType (c.type.terminals ++ c.tail ++ us) (c.type.terminals ++ c.tail ++ us) false := by
    cases c.type
    all_goals
      refine peek_takes.andThen ?_
      rintro _ ⟨tok, rfl, _, -, rfl⟩
      refine .pure ?_
      rw [Terminal.isPunct_token, Terminal.isPunct_token, Terminal.word?_token]
      rfl
  refine typed.andThen ?_
  refine Takes.neg Bool.false_ne_true ?_
  rw [List.append_assoc]
  refine (typeName_gives c.type (endsType_tail c ends)).andThen ?_
  refine (columnClauses_gives c _ ends).mono ?_
  rintro _ rfl
  rfl

/-! ## Constraints of a table -/

theorem atTableConstraint_gives_false (n : DelimitedName d) :
    Gives s atTableConstraint (.name n :: ts) (.name n :: ts) false :=
  (peekWord_gives rfl).andThen (.pure rfl)

/-- the words that constraints begin with -/
theorem atTableConstraint_gives_true (c : ConstraintText d) :
    Gives s atTableConstraint (c.terminals ++ ts) (c.terminals ++ ts) true := by
  have begins : ∀ {w : Vocabulary} {more : List (Terminal d)}, tableConstraintStarts.contains w.text = true →
      Gives s atTableConstraint (.word w :: more) (.word w :: more) true := by
    intro w more listed
    refine (peekWord_gives rfl).andThen ?_
    exact Takes.pos listed (.pure rfl)
  rw [ConstraintText.terminals]
  cases c.name with
  | some n => exact begins (by decide)
  | none =>
    cases c.demand with
    | primaryKey => exact begins (by decide)
    | unique => exact begins (by decide)
    | foreignKey reference => exact begins (by decide)

theorem indexName?_gives : Gives s indexName? (.mark .opening :: ts) (.mark .opening :: ts) none := by
  refine (peekPunct_gives rfl).andThen ?_
  exact Takes.pos rfl (.pure rfl)

/-- the name of a constraint, if it has one -/
theorem givenName_takes {β : Type} {next : Option String → Reading β} {Q : β → Prop} (given : Option (DelimitedName d))
    (other : atWord ["CONSTRAINT"] ts = false) (later : Takes s (next (given.map (·.text))) ts us Q) :
    Takes s
      (do let given ← if ← accept "CONSTRAINT" then some <$> Reading.name "constraint name" else pure none
          next given)
      ((given.elim [] fun n => [.word .constraint, .name n]) ++ ts) us Q := by
  cases given with
  | none =>
    refine (accept_passes other).andThen ?_
    refine Takes.neg Bool.false_ne_true ?_
    exact Gives.andThen (.pure rfl) later
  | some n =>
    refine (accept_takes rfl).andThen ?_
    refine Takes.pos rfl ?_
    exact ((name_gives "constraint name" n).map some).andThen later

theorem tableConstraint_takes (c : ConstraintText d) (ends : Ends us) : Takes s tableConstraint (c.terminals ++ us) us
    fun v => ∃ clause, v = some clause ∧ c.ReadAs clause := by
  -- the first token only gives the position, and any position will do
  have first : Takes s peek (c.terminals ++ us) (c.terminals ++ us) fun _ => True :=
    fun cursor before => ⟨_, cursor, rfl, trivial, before, rfl⟩
  refine first.andThen fun first _ => ?_
  rw [ConstraintText.terminals, List.append_assoc]
  cases demand : c.demand with
  | primaryKey =>
    refine givenName_takes c.name rfl ?_
    refine (@peekWord_gives d s _ (some "PRIMARY KEY") rfl).andThen ?_
    refine advance_takes.andThen fun _ _ => ?_
    refine (acceptWord_passes rfl).andThen ?_
    refine (columnList_gives c.filled).andThen ?_
    refine (keyTail_gives ends).andThen ?_
    refine .pure ⟨_, rfl, ?_⟩
    rw [ConstraintText.ReadAs, ConstraintText.clause, demand]
    rfl
  | unique =>
    refine givenName_takes c.name rfl ?_
    refine (@peekWord_gives d s _ (some "UNIQUE") rfl).andThen ?_
    refine advance_takes.andThen fun _ _ => ?_
    refine (acceptWord_passes rfl).andThen ?_
    refine indexName?_gives.andThen ?_
    refine (columnList_gives c.filled).andThen ?_
    refine (keyTail_gives ends).andThen ?_
    refine .pure ⟨_, rfl, ?_⟩
    rw [ConstraintText.ReadAs, ConstraintText.clause, demand]
    rfl
  | foreignKey reference =>
    have parts : (Demand.foreignKey reference).terminals c.columns ++ us = .word .foreignKey ::
        (columnTerminals c.columns ++ .word .references :: (reference.terminals ++ us)) := by simp [Demand.terminals]
    rw [parts]
    refine givenName_takes c.name rfl ?_
    refine (@peekWord_gives d s _ (some "FOREIGN KEY") rfl).andThen ?_
    refine advance_takes.andThen fun _ _ => ?_
    refine indexName?_gives.andThen ?_
    refine (columnList_gives c.filled).andThen ?_
    refine (expectWord_takes rfl rfl).andThen ?_
    refine (referenceClause_gives reference ends).andThen ?_
    refine .pure ⟨_, rfl, ?_⟩
    rw [ConstraintText.ReadAs, ConstraintText.clause, demand]
    rfl

/-! ## Table declarations -/

/-- what the elements of a declaration add to those read before them -/
def Adds (elements : List (ElementText d)) (state state' : List ColumnClause × List ConstraintClause) : Prop :=
  ∃ columns constraints, state' = (state.1 ++ columns, state.2 ++ constraints) ∧
    List.Forall₂ ColumnText.ReadAs (elements.filterMap ElementText.column?) columns ∧
    List.Forall₂ ConstraintText.ReadAs (elements.filterMap ElementText.constraint?) constraints

theorem Adds.cons {e : ElementText d} {elements : List (ElementText d)}
    {state state' state'' : List ColumnClause × List ConstraintClause} (first : Adds [e] state state')
    (rest : Adds elements state' state'') : Adds (e :: elements) state state'' := by
  obtain ⟨columns, constraints, rfl, ofColumns, ofConstraints⟩ := first
  obtain ⟨columns', constraints', rfl, ofColumns', ofConstraints'⟩ := rest
  refine ⟨columns ++ columns', constraints ++ constraints', by simp, ?_, ?_⟩
  · exact (@List.filterMap_append _ _ [e] elements ElementText.column?) ▸ List.rel_append ofColumns ofColumns'
  · exact (@List.filterMap_append _ _ [e] elements ElementText.constraint?) ▸ List.rel_append ofConstraints ofConstraints'

theorem tableElements_takes {elements : List (ElementText d)} (filled : elements ≠ []) : Takes s tableElements
    (.mark .opening :: (closedList (elements.map ElementText.terminals) ++ ts)) ts (Adds elements ([], [])) := by
  have opens : atPunct ")" (closedList (elements.map ElementText.terminals) ++ ts) = false := by
    obtain ⟨e, more, rfl⟩ := List.exists_cons_of_ne_nil filled
    obtain ⟨t, behind, head, plain⟩ := e.terminals_eq_cons
    cases more with
    | nil => simp [closedList, head, atPunct, plain]
    | cons e' more => simp [closedList, head, atPunct, plain]
  refine (expectPunct_takes rfl).andThen ?_
  refine (acceptPunct_passes opens).andThen ?_
  refine Takes.neg Bool.false_ne_true ?_
  refine items_take (A := fun e => Adds [e]) (P := Adds) ?_ (fun _ _ _ => id) (fun _ _ _ _ _ => Adds.cons) filled ([], [])
  rintro (c | c) ⟨columns, constraints⟩ ts us Q ends later
  · refine (atTableConstraint_gives_false c.name).andThen ?_
    refine Takes.neg Bool.false_ne_true ?_
    refine (columnDefinition_takes c ends).andThen fun clause same => ?_
    refine Gives.andThen (.pure rfl) (later _ ⟨[clause], [], ?_, .cons same .nil, .nil⟩)
    rw [List.append_nil]
  · refine (atTableConstraint_gives_true c).andThen ?_
    refine Takes.pos rfl ?_
    refine (tableConstraint_takes c ends).andThen ?_
    rintro _ ⟨clause, rfl, same⟩
    refine Gives.andThen (.pure rfl) (later _ ⟨[], [clause], ?_, .nil, .cons same .nil⟩)
    rw [List.append_nil]

end Reading

end

end SchemaApi
