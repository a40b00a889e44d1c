import SchemaApi.Proofs.Script.Rewritten
/-!
Texts that are kept as they are written.

The characters from one token of a script to another are split into the same tokens again: no token depends on what
stands before it or behind it, and no phrase on words behind its last. So a condition, a default or an index that a
statement keeps as it is written means later on what it meant in the script.
-/

namespace SchemaApi

section
variable {d : Dialect} {text : List Char}

/-- neighbouring tokens, by themselves -/
theorem tokenize_spelled (complete : (tokenize d text).error? = none) {run : List Token}
    (within : run <:+: (tokenize d text).toList) :
    (tokenize d (Reading.spelled (some text) run).toList).error? = none ∧
      (tokenize d (Reading.spelled (some text) run).toList).toList.map Token.contents = run.map Token.contents := by
  obtain ⟨bundles, bundled, raw, tokens⟩ := exists_bundles complete
  rw [tokens, TokenStream.toList_ofList] at within
  obtain ⟨part, inBundles, rfl⟩ := List.infix_map_iff.1 within
  obtain ⟨before, piece, behind, part', rfl, spelled, bundled', scanned, same⟩ :=
    exists_part_spelled bundled raw inBundles
  have inside : ∀ t ∈ unbundled part', t.stop ≤ piece.length := by
    have all := @stop_le_of_mem_scan d piece
    rwa [scanned, TokenStream.toList_ofList] at all
  rw [spelled, String.toList_ofList, tokenize_bundled bundled' scanned]
  exact ⟨TokenStream.error?_ofList _, by rw [TokenStream.toList_ofList]; exact contents_tokens same inside⟩

end

/-! ## Statements -/

/-- the texts of a constraint that are kept as they are written: its condition, or the elements of an index -/
def ConstraintClause.verbatims : ConstraintClause → List String
  | check text _ _ _ => [text]
  | index elements _ _ _ _ => elements.map IndexElement.text
  | _ => []

def ColumnClause.verbatims (c : ColumnClause) : List String :=
  (c.type.map TypeName.raw).toList ++ c.default.toList ++ c.generated.toList ++
    c.constraints.flatMap ConstraintClause.verbatims

def TableAction.verbatims : TableAction → List String
  | addColumn column _ => column.verbatims
  | addConstraint clause => clause.verbatims
  | alterColumn _ _ default _ newType => default.toList ++ (newType.map TypeName.raw).toList
  | modifyColumn column _ => column.verbatims
  | _ => []

def StatementBody.verbatims : StatementBody → List String
  | createTable st => st.columns.flatMap ColumnClause.verbatims ++ st.constraints.flatMap ConstraintClause.verbatims
  | alterTable st => st.actions.flatMap TableAction.verbatims
  | createIndex st => st.elements.map IndexElement.text ++ st.condition.toList
  | createView st => [st.query]
  | _ => []

/-- the texts that a statement keeps as they are written -/
def Statement.verbatims (st : Statement) : List String := st.body.verbatims

section
variable {l : Likeness}

theorem toList_rel {α : Type} {R : α → α → Prop} {o o' : Option α} (h : Option.Rel R o o') :
    List.Forall₂ R o.toList o'.toList := by
  cases h with
  | none => exact .nil
  | some same => exact .cons same .nil

theorem flatMap_rel {α β : Type} {R : α → α → Prop} {S : β → β → Prop} {f : α → List β}
    (each : ∀ x y, R x y → List.Forall₂ S (f x) (f y)) {xs ys : List α} (h : List.Forall₂ R xs ys) :
    List.Forall₂ S (xs.flatMap f) (ys.flatMap f) := by
  induction h with
  | nil => exact .nil
  | cons first _ ih =>
    rw [List.flatMap_cons, List.flatMap_cons]
    exact List.rel_append (each _ _ first) ih

theorem raw_rel {type type' : Option TypeName} (h : Option.Rel (TypeName.Alike l) type type') :
    List.Forall₂ l.written (type.map TypeName.raw).toList (type'.map TypeName.raw).toList := by
  cases h with
  | none => exact .nil
  | some same => exact .cons same.raw .nil

theorem elements_rel {elements elements' : List IndexElement}
    (h : List.Forall₂ (IndexElement.Alike l) elements elements') :
    List.Forall₂ l.written (elements.map IndexElement.text) (elements'.map IndexElement.text) := by
  rw [List.forall₂_map_left_iff, List.forall₂_map_right_iff]
  exact h.imp fun _ _ same => same.text

theorem ConstraintClause.verbatims_alike (c c' : ConstraintClause) (h : c.Alike l c') :
    List.Forall₂ l.written c.verbatims c'.verbatims := by
  cases h with
  | check written => exact .cons written .nil
  | index same => exact elements_rel same
  | primaryKey | unique | foreignKey => exact .nil

theorem ColumnClause.verbatims_alike (c c' : ColumnClause) (h : c.Alike l c') :
    List.Forall₂ l.written c.verbatims c'.verbatims :=
  List.rel_append (List.rel_append (List.rel_append (raw_rel h.type) (toList_rel h.default)) (toList_rel h.generated))
    (flatMap_rel ConstraintClause.verbatims_alike h.constraints)

theorem TableAction.verbatims_alike (a a' : TableAction) (h : a.Alike l a') :
    List.Forall₂ l.written a.verbatims a'.verbatims := by
  cases h with
  | addColumn column => exact ColumnClause.verbatims_alike _ _ column
  | addConstraint clause => exact ConstraintClause.verbatims_alike _ _ clause
  | modifyColumn column => exact ColumnClause.verbatims_alike _ _ column
  | alterColumn name setNotNull value dropDefault newType => exact List.rel_append (toList_rel value) (raw_rel newType)
  | dropColumn | dropConstraint | renameColumn | renameTable => exact .nil

theorem StatementBody.verbatims_alike (b b' : StatementBody) (h : b.Alike l b') :
    List.Forall₂ l.written b.verbatims b'.verbatims := by
  cases h with
  | createTable st columns constraints =>
    exact List.rel_append (flatMap_rel ColumnClause.verbatims_alike columns)
      (flatMap_rel ConstraintClause.verbatims_alike constraints)
  | alterTable st same => exact flatMap_rel TableAction.verbatims_alike same
  | createIndex st elements condition => exact List.rel_append (elements_rel elements) (toList_rel condition)
  | createView st same => exact .cons same .nil
  | createEnum | dropTable | dropIndex | dropView | commentOn => exact .nil

end

/-! ## Scripts -/

/-- what is kept as it is written is a text from one token of a list to another -/
def keptFrom (script : List Char) (ts : List Token) : Likeness where
  place := Eq
  written text _ := ∃ run, run <:+: ts ∧ text = Reading.spelled (some script) run
  literal := True

theorem verbatims_keptFrom {d : Dialect} {script : String} (complete : (tokenize d script.toList).error? = none)
    (source : Option String) {st : Statement} (h : st ∈ (parseScript d source script).statements) {text : String}
    (kept : text ∈ st.verbatims) :
    ∃ run, run <:+: (tokenize d script.toList).toList ∧ text = Reading.spelled (some script.toList) run := by
  have tokens := TokenStream.eq_ofList complete
  have read : ∀ segment ∈ segments d (tokenize d script.toList),
      ReadAlike (keptFrom script.toList (tokenize d script.toList).toList)
        (readSegment d source (some script.toList) segment) (readSegment d source (some script.toList) segment) := by
    intro segment hs
    have inScript := infix_of_mem_segments (tokens ▸ hs)
    exact readSegment_itself (fun _ => rfl) d source _ _ segment fun run within => ⟨run, within.trans inScript, rfl⟩
  have same := List.forall₂_same.1 (readAlike_flatMap read).statements st h
  exact List.forall₂_same.1 (StatementBody.verbatims_alike _ _ same.body) text kept

/-- The characters of a script from one of its tokens to another are split into the same tokens, and the texts that the
statements of the script keep as they are written are such characters. -/
theorem tokenize_verbatim (d : Dialect) (source : Option String) (script : String)
    (complete : (tokenize d script.toList).error? = none) :
    (∀ first more, first :: more <:+: (tokenize d script.toList).toList →
      (tokenize d (slice script.toList first.position.offset (more.getLastD first).stop).toList).error? = none ∧
      (tokenize d (slice script.toList first.position.offset (more.getLastD first).stop).toList).toList.map
        Token.contents = (first :: more).map Token.contents) ∧
    ∀ st ∈ (parseScript d source script).statements, ∀ text ∈ st.verbatims,
      ∃ run, run <:+: (tokenize d script.toList).toList ∧ text = Reading.spelled (some script.toList) run ∧
        (tokenize d text.toList).error? = none ∧
          (tokenize d text.toList).toList.map Token.contents = run.map Token.contents := by
  refine ⟨fun first more within => ?_, fun st h text kept => ?_⟩
  · have alone := tokenize_spelled complete within
    rw [Reading.spelled] at alone
    exact alone
  · obtain ⟨run, within, rfl⟩ := verbatims_keptFrom complete source h kept
    exact ⟨run, within, rfl, tokenize_spelled complete within⟩

/-- a condition with a comment inside a phrase -/
theorem tokenize_verbatim_notNull :
    (parseScript .postgresql none "CREATE TABLE t (a INT CHECK (a IS NOT/**/NULL))").statements.flatMap
      Statement.verbatims = ["INT", "a IS NOT/**/NULL"] ∧
    ∃ run, run <:+: (tokenize .postgresql "CREATE TABLE t (a INT CHECK (a IS NOT/**/NULL))".toList).toList ∧
      (tokenize .postgresql "a IS NOT/**/NULL".toList).toList.map Token.contents = run.map Token.contents := by
  have texts : (parseScript .postgresql none "CREATE TABLE t (a INT CHECK (a IS NOT/**/NULL))").statements.flatMap
      Statement.verbatims = ["INT", "a IS NOT/**/NULL"] := by decide +kernel
  obtain ⟨st, read, kept⟩ := List.mem_flatMap.1 (texts ▸ List.mem_cons_of_mem "INT" List.mem_cons_self)
  have verbatim := tokenize_verbatim .postgresql none "CREATE TABLE t (a INT CHECK (a IS NOT/**/NULL))" (by decide +kernel)
  obtain ⟨run, within, -, -, same⟩ := verbatim.2 st read _ kept
  exact ⟨texts, run, within, same⟩

end SchemaApi
