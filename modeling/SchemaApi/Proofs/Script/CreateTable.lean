import SchemaApi.Proofs.Reading.Declaration
import SchemaApi.Proofs.Script.Isolation
/-!
A printed table declaration is read as it was described.

Names are written between delimiters of the dialect and defaults as texts, so none of them is taken for a keyword, a
phrase, a comment or the end of the statement: the script of a description is one statement, with the columns and
constraints of the description in their order.
-/

namespace SchemaApi

open Text
open Terminal (print tokensFrom headWord atWord atPunct closedList qualified qualifiedText)

/-- a table declaration -/
structure TableText (d : Dialect) where
  schema : Option (DelimitedName d) := none
  name : DelimitedName d
  columns : List (ColumnText d)
  filled : columns ≠ []
  constraints : List (ConstraintText d) := []

section
variable {d : Dialect}

namespace TableText

/-- the columns, and the constraints behind them -/
def elements (t : TableText d) : List (ElementText d) := t.columns.map .column ++ t.constraints.map .constraint

def terminals (t : TableText d) : List (Terminal d) :=
  .word .create :: .word .table :: (qualified t.schema t.name ++
    .mark .opening :: closedList (t.elements.map ElementText.terminals))

/-- the declaration as it is printed -/
def script (t : TableText d) : String := String.ofList (print t.terminals)

theorem elements_ne_nil (t : TableText d) : t.elements ≠ [] := by
  simp [elements, t.filled]

theorem columns_elements (t : TableText d) : t.elements.filterMap ElementText.column? = t.columns := by
  have own : t.columns.filterMap (ElementText.column? ∘ ElementText.column) = t.columns := List.filterMap_some
  have other : t.constraints.filterMap (ElementText.column? ∘ ElementText.constraint) = [] :=
    List.filterMap_eq_nil_iff.2 fun _ _ => rfl
  rw [elements, List.filterMap_append, List.filterMap_map, List.filterMap_map, own, other, List.append_nil]

theorem constraints_elements (t : TableText d) : t.elements.filterMap ElementText.constraint? = t.constraints := by
  have own : t.constraints.filterMap (ElementText.constraint? ∘ ElementText.constraint) = t.constraints :=
    List.filterMap_some
  have other : t.columns.filterMap (ElementText.constraint? ∘ ElementText.column) = [] :=
    List.filterMap_eq_nil_iff.2 fun _ _ => rfl
  rw [elements, List.filterMap_append, List.filterMap_map, List.filterMap_map, own, other, List.nil_append]

end TableText

namespace Reading

variable {s : Setting d} {ts : List (Terminal d)}

/-! ## Statements -/

theorem tableOptions_gives : Gives s tableOptions [] [] none := by
  refine Gives.iterate_done ?_
  have ended : Gives s atStatementEnd [] [] true := by
    intro c before
    refine ⟨true, c, ?_, rfl, before, rfl⟩
    obtain ⟨_, _, rest⟩ := before
    rw [atStatementEnd, rest]
    rfl
  refine ended.andThen ?_
  exact Takes.pos rfl (.pure rfl)

/-- what a declaration is read as, its columns and constraints in order -/
def Declares (t : TableText d) (p : Position) (source : Option String) (st : Statement) : Prop :=
  ∃ columns constraints, List.Forall₂ ColumnText.ReadAs t.columns columns ∧
    List.Forall₂ ConstraintText.ReadAs t.constraints constraints ∧
    st = ⟨.createTable { name := qualifiedText t.schema t.name, columns := columns, constraints := constraints }, p, source⟩

theorem createTable_takes (t : TableText d) (start : Token) :
    Takes s (createTable start false) t.terminals.tail [] (Declares t start.position s.source) := by
  -- a delimited name is no word, whatever it says: IF NOT EXISTS cannot be read from it
  have noWord : ∀ (words : List String) ts, atWord words (qualified t.schema t.name ++ ts) = false := by
    intro words ts
    cases t.schema <;> rfl
  refine (expectWord_takes rfl rfl).andThen ?_
  refine (accept_passes (noWord _ _)).andThen ?_
  refine (qualifiedName_gives "table name" t.schema t.name rfl).andThen ?_
  refine (peekWord_gives rfl).andThen ?_
  have elements := @tableElements_takes d s [] t.elements t.elements_ne_nil
  rw [List.append_nil] at elements
  refine elements.andThen ?_
  rintro _ ⟨columns, constraints, rfl, ofColumns, ofConstraints⟩
  rw [t.columns_elements] at ofColumns
  rw [t.constraints_elements] at ofConstraints
  refine tableOptions_gives.andThen ?_
  exact fun c before => ⟨_, c, rfl, ⟨columns, constraints, ofColumns, ofConstraints, rfl⟩, before, rfl⟩

theorem create_takes (t : TableText d) (start : Token) :
    Takes s (create start) t.terminals.tail [] (Declares t start.position s.source) := by
  have modifiers : Gives s createModifiers t.terminals.tail t.terminals.tail false := by
    refine Gives.iterate_done ?_
    exact (acceptWord_passes rfl).andThen (.pure rfl)
  refine (accept_passes rfl).andThen ?_
  refine modifiers.andThen ?_
  refine (@peekWord_gives d s _ (some "TABLE") rfl).andThen ?_
  exact createTable_takes t start

theorem statement_takes (t : TableText d) (whole : s.script = print t.terminals) :
    Takes s statement t.terminals [] (Declares t .start s.source) := by
  refine peek_takes.andThen ?_
  rintro _ ⟨tok, rfl, before, written, rfl⟩
  -- the whole script is still to come, so the statement stands at its start
  obtain rfl : before = [] := List.self_eq_append_left.1 (whole.symm.trans written)
  refine advance_takes.andThen fun _ _ => ?_
  exact create_takes t _

end Reading

/-! ## Scripts -/

/-- a printed terminal separates no statements -/
theorem isSeparator_token (t : Terminal d) (p : Position) : isSeparator d (t.token p) = false := by
  have word : (t.token p).spells "GO" = false := by
    cases t with
    | word w =>
      have every : ∀ w ∈ Vocabulary.all, (Text.upper w.text == "GO") = false := by decide +kernel
      rw [Token.spells, Terminal.token, Terminal.chars, String.ofList_toList, every w w.mem_all, Bool.and_false]
    | _ => rfl
  have mark : t.isPunct ";" = false := by
    cases t with
    | mark m => cases m <;> rfl
    | _ => rfl
  rw [isSeparator, Terminal.isPunct_token, mark, word, Bool.and_false, Bool.false_and, Bool.false_or]

/-- tokens without a separator are one segment -/
theorem segmentsFrom_ofList {tokens : List Token} (joined : ∀ t ∈ tokens, isSeparator d t = false) (current : List Token)
    (filled : current ≠ [] ∨ tokens ≠ []) : segmentsFrom d current (.ofList tokens) = [current.reverse ++ tokens] := by
  induction tokens generalizing current with
  | nil =>
    obtain ⟨t, current, rfl⟩ := List.exists_cons_of_ne_nil (filled.resolve_right fun h => h rfl)
    simp [TokenStream.ofList, segmentsFrom]
  | cons t tokens ih =>
    have rest := ih (fun u hu => joined u (List.mem_cons_of_mem t hu)) (t :: current) (Or.inl (List.cons_ne_nil t current))
    rw [TokenStream.ofList, segmentsFrom, if_neg (by simp [joined t List.mem_cons_self]), rest]
    simp

theorem mem_tokensFrom {p : Position} {ts : List (Terminal d)} {tok : Token} (h : tok ∈ tokensFrom p ts) :
    ∃ (t : Terminal d) (q : Position), tok = t.token q := by
  induction ts generalizing p with
  | nil => contradiction
  | cons t ts ih =>
    rcases List.mem_cons.1 h with rfl | h
    · exact ⟨t, p, rfl⟩
    · exact ih h

/-- a printed declaration is one segment, and is read without a finding -/
theorem readSegment_print (source : Option String) (t : TableText d) : ∃ st, Reading.Declares t .start source st ∧
    readSegment d source (some (print t.terminals)) (tokensFrom .start t.terminals) = ([st], []) := by
  let s : Setting d :=
    { script := print t.terminals, source := source
      last := (tokensFrom .start t.terminals).getLast?.map (·.position) }
  obtain ⟨st, ⟨rest, notes⟩, run, declares, left, same⟩ :=
    @Reading.statement_takes d s t rfl { rest := tokensFrom .start t.terminals } ⟨[], rfl, rfl⟩
  refine ⟨st, declares, ?_⟩
  obtain rfl : rest = [] := List.length_eq_zero_iff.1 left.length
  obtain rfl : notes = [] := same
  have filled : tokensFrom .start t.terminals ≠ [] := List.cons_ne_nil _ _
  change readFrom s.scope _ = _
  rw [readFrom_cons filled, run]

end

/-- The script of a table declaration is read as one statement that says what the declaration does: its name, its
columns in order with types, defaults as printed and NOT NULL, and its constraints in order. Nothing is found but
what the dialect itself gives rise to. -/
theorem parseScript_print (d : Dialect) (source : Option String) (t : TableText d) : ∃ columns constraints,
    List.Forall₂ ColumnText.ReadAs t.columns columns ∧ List.Forall₂ ConstraintText.ReadAs t.constraints constraints ∧
    parseScript d source t.script =
      { statements := [{
          body := .createTable
            { name := ⟨t.name.text, t.schema.map (·.text)⟩, columns := columns, constraints := constraints }
          position := .start, source := source }]
        findings := dialectNotes d source } := by
  obtain ⟨_, ⟨columns, constraints, ofColumns, ofConstraints, rfl⟩, read⟩ := readSegment_print source t
  refine ⟨columns, constraints, ofColumns, ofConstraints, ?_⟩
  have tokens : tokenize d t.script.toList = .ofList (tokensFrom .start t.terminals) := by
    rw [TableText.script, String.toList_ofList]
    exact Terminal.tokenize_print t.terminals
  have segment : segments d (.ofList (tokensFrom .start t.terminals)) = [tokensFrom .start t.terminals] := by
    refine segmentsFrom_ofList (fun tok h => ?_) [] (Or.inr (List.cons_ne_nil _ _))
    obtain ⟨u, q, rfl⟩ := mem_tokensFrom h
    exact isSeparator_token u q
  have text : t.script.toList = print t.terminals := String.toList_ofList
  rw [text] at tokens
  rw [parseScript, parseTokens, text, tokens, segment, TokenStream.error?_ofList, List.map_singleton, read]
  simp [qualifiedText]

/-- names like clauses, comments and separators, and a text of a quote and a backslash -/
example : TableText.script (d := .mysql)
    { schema := some ⟨"s", ('\x60', '\x60'), by decide⟩, name := ⟨"--\x60;", ('\x60', '\x60'), by decide⟩
      columns := [
        { name := ⟨"NOT NULL", ('\x60', '\x60'), by decide⟩, type := .varchar 40, default := some "'\\"
          notNull := true }]
      filled := List.cons_ne_nil _ _
      constraints := [
        { demand := .foreignKey { table := ⟨"t", ('\x60', '\x60'), by decide⟩, onDelete := some .setNull }
          columns := [⟨"NOT NULL", ('\x60', '\x60'), by decide⟩], filled := List.cons_ne_nil _ _ }] } =
    "CREATE TABLE \x60s\x60.\x60--\x60\x60;\x60 (\x60NOT NULL\x60 VARCHAR(40) DEFAULT '''\\\\' NOT NULL, " ++
      "FOREIGN KEY (\x60NOT NULL\x60) REFERENCES \x60t\x60 ON DELETE SET NULL)" := by
  decide +kernel

end SchemaApi
