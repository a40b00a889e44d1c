import SchemaApi.Proofs.Reading.Remainder
import SchemaApi.Reading.Statement
/-!
Every rule of the grammar proceeds.

Most rules are made of others, so that they drop tokens from the front and stop only to refuse a statement is found from
their parts. Where a rule drops tokens that it has not read, it has looked at them before. A round after which a loop
goes on takes a token; two of them, the clauses of a column and those of an index, take it because of what stands next:
a clause begins with the word that was looked at.
-/

namespace SchemaApi.Reading

variable {α β : Type}

/-! ## Rules for columns and constraints -/

instance : Proceeds indexMethod := by unfold indexMethod; infer_instance

/-- a method whose word stands here is read -/
theorem indexMethod_spends {P : Option String → Prop} {rest : List Token} {notes : List Finding}
    (here : rest.head?.bind Token.word? = some "USING") : SpendsAt P indexMethod ⟨rest, notes⟩ := by
  obtain _ | ⟨t, rest⟩ := rest
  · contradiction
  · intro scope v c run holds
    rw [indexMethod, andThen_ok (accept_of_word here), if_pos rfl] at run
    exact Nat.lt_succ_of_le (Proceeds.suffix run).length_le

instance : Proceeds conflictClause := by
  refine .andThen inferInstance fun word => .ahead fun next scope c there => ?_
  split_ifs with conflict
  · obtain ⟨-, rfl⟩ : word = some "ON" ∧ next = some "CONFLICT" := by simpa using conflict
    exact proper_andThen (proper_skip (there rfl)) fun _ left _ => Proceeds.proper scope left
  · exact .ok (.refl c) ()

instance : Proceeds constraintAttribute := by
  refine .andThen inferInstance fun found => .ite inferInstance ?_
  refine .andThen inferInstance fun word => .ite (.ahead fun next scope c there => ?_) inferInstance
  cases next with
  | none => exact Proceeds.proper scope c
  | some word =>
    dsimp only
    split_ifs
    · exact proper_andThen (proper_skip (there rfl)) fun _ left _ => Proceeds.proper scope left
    · exact Proceeds.proper scope c

instance : Spends (·.isLeft = true) constraintAttribute := by
  refine .acceptedWord inferInstance inferInstance inferInstance (.behind inferInstance fun word => ?_)
  refine .ite (.behind inferInstance fun next => ?_) inferInstance
  cases next <;> infer_instance

instance : Proceeds constraintAttributes := by unfold constraintAttributes; infer_instance

section
variable {word : String} {t : Token} {rest : List Token} {notes : List Finding} {scope : Scope} {c : Cursor}

/-- the words show that a phrase about when a constraint is checked begins -/
def StartsAttribute (word : String) (next : Option String) : Prop :=
  word = "DEFERRABLE" ∨ word = "INITIALLY" ∨ word = "NOT" ∧ next = some "DEFERRABLE"

/-- a phrase that begins here is read -/
theorem constraintAttribute_isLeft {v : Unit ⊕ Unit} (here : t.word? = some word)
    (starts : StartsAttribute word (rest.head?.bind Token.word?))
    (run : constraintAttribute scope ⟨t :: rest, notes⟩ = .ok v c) : v.isLeft = true := by
  rw [constraintAttribute] at run
  obtain rfl | rfl | ⟨rfl, next⟩ := starts
  · rw [andThen_ok (acceptWord_of_mem here (by decide))] at run
    cases run
    rfl
  · rw [andThen_ok (acceptWord_of_not_mem here (by decide)), if_neg (by decide), peekWord_andThen, List.head?_cons,
      Option.bind_some, here, if_neg (by decide)] at run
    dsimp only at run
    rw [andThen_ok (accept_of_word here)] at run
    obtain ⟨_, _, -, run⟩ := andThen_eq_ok.1 run
    cases run
    rfl
  · rw [andThen_ok (acceptWord_of_not_mem here (by decide)), if_neg (by decide), peekWord_andThen, List.head?_cons,
      Option.bind_some, here, if_pos (by decide), peekWordAt_andThen, List.getElem?_cons_succ, ← List.head?_eq_getElem?,
      next] at run
    obtain ⟨_, _, -, run⟩ := andThen_eq_ok.1 run
    cases run
    rfl

/-- phrases that begin here are read -/
theorem constraintAttributes_spends {P : Unit → Prop} (here : t.word? = some word)
    (starts : StartsAttribute word (rest.head?.bind Token.word?)) : SpendsAt P constraintAttributes ⟨t :: rest, notes⟩ :=
  .iterate inferInstance inferInstance fun _ _ _ once => constraintAttribute_isLeft here starts once

theorem conflictClause_spends {P : Unit → Prop} (here : t.word? = some "ON")
    (next : rest.head?.bind Token.word? = some "CONFLICT") : SpendsAt P conflictClause ⟨t :: rest, notes⟩ := by
  intro scope v c run holds
  rw [conflictClause, peekWord_andThen, peekWordAt_andThen, List.head?_cons, Option.bind_some, here,
    List.getElem?_cons_succ, ← List.head?_eq_getElem?, next, if_pos (by decide)] at run
  have takes : Spends P (do skip 2; let _ ← advance; pure ()) := inferInstance
  exact takes.fewer run holds

end

instance : Proceeds listedColumn := by unfold listedColumn; infer_instance

instance : Proceeds columnList := by unfold columnList; infer_instance

instance : Proceeds referentialAction := by unfold referentialAction; infer_instance

instance (clause : ReferenceClause) : Proceeds (referenceEvent clause) := by
  refine .andThen inferInstance fun isMatch => .ite inferInstance (.andThen inferInstance fun word => ?_)
  cases word <;> infer_instance

instance (clause : ReferenceClause) : Spends (·.isLeft = true) (referenceEvent clause) :=
  .accepted inferInstance inferInstance inferInstance
    (.found inferInstance inferInstance (fun _ => inferInstance) inferInstance)

instance : Proceeds referenceClause := by
  refine .andThen inferInstance fun table => .andThen inferInstance fun opens => ?_
  exact .either inferInstance inferInstance inferInstance

instance (head : Token) (rest : List Token) : Proceeds (indexElement head rest) := by unfold indexElement; infer_instance

instance : Proceeds listedElement := by
  refine .andThen inferInstance fun tokens => ?_
  cases tokens <;> infer_instance

instance : Proceeds indexElements := by unfold indexElements; infer_instance

instance (tokens : List Token) : Proceeds (typeArgument tokens) := by
  unfold typeArgument
  split <;> infer_instance

theorem Proceeds.mapM {f : α → Reading β} (each : ∀ x, Proceeds (f x)) (xs : List α) : Proceeds (xs.mapM f) := by
  have loop : ∀ xs done, Proceeds (List.mapM.loop f xs done) := by
    intro xs
    induction xs with
    | nil => exact fun done => (inferInstance : Proceeds (pure done.reverse))
    | cons x xs ih => exact fun done => .andThen (each x) fun v => ih (v :: done)
  exact loop xs []

instance : Proceeds typeArguments := .andThen inferInstance fun _ => .mapM inferInstance _

instance : Proceeds typeHead := by
  refine .andThen inferInstance fun next => ?_
  cases next <;> infer_instance

instance (unsigned : Bool) : Proceeds (signedness unsigned) := by
  refine .andThen inferInstance fun word => ?_
  cases word <;> infer_instance

instance (unsigned : Bool) : Spends (·.isLeft = true) (signedness unsigned) :=
  .found inferInstance inferInstance (fun _ => inferInstance) inferInstance

instance : Proceeds skipBracket := by
  refine ⟨fun scope c => ?_⟩
  rw [skipBracket]
  split
  · exact .stop (.refl c) rfl
  · next closing rest split =>
    have later := @List.dropWhile_suffix Token c.rest fun t => !t.isPunct "]"
    rw [split] at later
    have follows : c.Follows ⟨rest, c.notes⟩ := ⟨(List.suffix_cons closing rest).trans later, .refl c.notes⟩
    exact .ok follows ()

instance (isArray : Bool) : Proceeds (arrayBounds isArray) := by unfold arrayBounds; infer_instance

instance (isArray : Bool) : Spends (·.isLeft = true) (arrayBounds isArray) := by unfold arrayBounds; infer_instance

instance : Proceeds typeName := by
  refine .andThen (.withTokens (.andThen inferInstance fun head => ?_)) inferInstance
  refine .andThen inferInstance fun opens => .either inferInstance inferInstance fun args => ?_
  refine .andThen inferInstance fun word => ?_
  cases word <;> infer_instance

instance (draft : ColumnDraft) (t : Token) (word : String) : Proceeds (columnClause draft t word) := by
  unfold columnClause
  split <;> infer_instance

/-- a clause that begins with the next token takes it -/
theorem columnClause_spends {P : ColumnClause → Prop} {draft : ColumnDraft} {word : String} {t : Token} {rest : List Token}
    {notes : List Finding} (here : t.word? = some word) : SpendsAt P (columnClause draft t word) ⟨t :: rest, notes⟩ := by
  have attributes (starts : StartsAttribute word (rest.head?.bind Token.word?)) {column : ColumnClause} :
      SpendsAt P (do constraintAttributes; pure column) ⟨t :: rest, notes⟩ :=
    .first (constraintAttributes_spends here starts) inferInstance
  unfold columnClause
  split
  case h_21 => exact attributes (.inl rfl)
  case h_22 => exact attributes (.inr (.inl rfl))
  case h_25 =>
    change SpendsAt P (if (word == "NOT" && rest[0]?.bind Token.word? == some "DEFERRABLE") = true then _ else
      if (word == "ON" && rest[0]?.bind Token.word? == some "CONFLICT") = true then _ else _) _
    rw [← List.head?_eq_getElem?]
    split_ifs with deferred conflict
    · obtain ⟨isNot, next⟩ := Bool.and_eq_true_iff.1 deferred
      exact attributes (.inr (.inr ⟨eq_of_beq isNot, eq_of_beq next⟩))
    · obtain ⟨isOn, next⟩ := Bool.and_eq_true_iff.1 conflict
      obtain rfl := eq_of_beq isOn
      exact .first (conflictClause_spends here (eq_of_beq next)) inferInstance
    · exact Spends.anywhere _
  -- every other clause takes its first word at once
  all_goals exact Spends.anywhere _

instance (draft : ColumnDraft) : Proceeds (furtherClause draft) := by
  refine .andThen inferInstance fun next => ?_
  cases next with
  | none => infer_instance
  | some t =>
    refine .ite inferInstance ?_
    split <;> infer_instance

instance (draft : ColumnDraft) : Spends (·.isLeft = true) (furtherClause draft) := by
  refine ⟨fun c => ?_⟩
  obtain ⟨_ | ⟨t, rest⟩, notes⟩ := c
  · exact (inferInstance : Spends _ (pure (Sum.inr draft.column))).anywhere _
  · change SpendsAt _ (if t.isPunct "," || t.isPunct ")" then pure (Sum.inr draft.column) else _) _
    split_ifs
    · exact Spends.anywhere _
    · split
      · exact Spends.anywhere _
      · exact Spends.anywhere _
      · next here => exact .first (columnClause_spends here) inferInstance

instance (column : ColumnClause) : Proceeds (columnClauses column) := by unfold columnClauses; infer_instance

instance : Proceeds lacksType := by
  refine .andThen inferInstance fun next => ?_
  cases next <;> infer_instance

instance : Proceeds columnDefinition := by unfold columnDefinition; infer_instance

instance : Proceeds atTableConstraint := by
  refine .andThen inferInstance fun word => ?_
  cases word with
  | none => infer_instance
  | some word =>
    refine .ite inferInstance (.andThen inferInstance fun d => .ite inferInstance ?_)
    refine .andThen inferInstance fun next => ?_
    cases next <;> infer_instance

instance : Proceeds keyTail := by unfold keyTail; infer_instance

instance : Proceeds indexName? := by unfold indexName?; infer_instance

instance (given : Option String) (p : Position) : Proceeds (inlineIndex given p) := by unfold inlineIndex; infer_instance

instance : Proceeds tableConstraint := by
  refine .andThen inferInstance fun first => .andThen inferInstance fun named => ?_
  refine .either inferInstance inferInstance fun given => .andThen inferInstance fun word => ?_
  split <;> infer_instance

/-! ## Rules for statements -/

-- a statement is made of many rules
set_option synthInstance.maxSize 1024

instance (start : Token) (body : StatementBody) : Proceeds (located start body) := .still fun _ _ => ⟨_, rfl⟩

instance (start : Token) (words : String) (what : Option String) :
    Proceeds (unsupportedPhrase start words what : Reading α) := by
  unfold unsupportedPhrase
  infer_instance

instance (comment : Option String) : Proceeds (tableOption comment) := by unfold tableOption; infer_instance

instance (comment : Option String) : Spends (·.isLeft = true) (tableOption comment) := by
  unfold tableOption
  infer_instance

instance : Proceeds tableOptions := by unfold tableOptions; infer_instance

instance (elements : List ColumnClause × List ConstraintClause) : Proceeds (tableElement elements) := by
  refine .andThen inferInstance fun isConstraint => .ite (.andThen inferInstance fun clause => ?_) inferInstance
  cases clause <;> infer_instance

instance (elements : List ColumnClause × List ConstraintClause) : Spends (·.isLeft = true) (tableElement elements) := by
  refine .behind inferInstance fun isConstraint => .ite (.behind inferInstance fun clause => ?_) inferInstance
  cases clause <;> infer_instance

instance : Proceeds tableElements := by unfold tableElements; infer_instance

instance (start : Token) (temporary : Bool) : Proceeds (createTable start temporary) := by
  refine .andThen inferInstance fun _ => .andThen inferInstance fun ifNotExists => ?_
  refine .andThen inferInstance fun table => .andThen inferInstance fun word => ?_
  split <;> infer_instance

instance : Proceeds indexHead := by unfold indexHead; infer_instance

instance (found : Option String × Option String) : Proceeds (indexClause found) := by unfold indexClause; infer_instance

instance (found : Option String × Option String) : Spends (·.isLeft = true) (indexClause found) := by
  refine .behind inferInstance fun ends => .ite inferInstance (.accepted inferInstance inferInstance inferInstance ?_)
  refine ⟨fun c => ?_⟩
  obtain ⟨rest, notes⟩ := c
  change SpendsAt _ (if (rest.head?.bind Token.word? == some "USING") = true then _ else _) _
  split_ifs with isUsing
  · exact .first (indexMethod_spends (eq_of_beq isUsing)) inferInstance
  · exact Spends.anywhere _

instance (method : Option String) : Proceeds (indexTail method) := by unfold indexTail; infer_instance

instance (start : Token) : Proceeds (createIndex start) := by
  refine .andThen inferInstance fun ⟨unique, kind⟩ => ?_
  refine .andThen inferInstance fun _ => .andThen inferInstance fun ifNotExists => .andThen inferInstance fun word => ?_
  dsimp only
  infer_instance

instance : Proceeds takeAll := .drops fun _ _ => ⟨_, _, List.nil_suffix, rfl⟩

instance (start : Token) (orReplace : Bool) : Proceeds (createView start orReplace) := by
  refine .andThen inferInstance fun materialized => .andThen inferInstance fun _ => .andThen inferInstance fun _ => ?_
  refine .andThen inferInstance fun view => .andThen inferInstance fun opens => ?_
  exact .either inferInstance inferInstance fun columns => inferInstance

instance (start : Token) : Proceeds (createEnum start) := by unfold createEnum; infer_instance

instance (temporary : Bool) : Proceeds (createModifier temporary) := by
  refine .andThen inferInstance fun word => ?_
  cases word <;> infer_instance

instance (temporary : Bool) : Spends (·.isLeft = true) (createModifier temporary) :=
  .found inferInstance inferInstance (fun _ => inferInstance) inferInstance

instance : Proceeds createModifiers := by unfold createModifiers; infer_instance

instance (start : Token) : Proceeds (create start) := by
  refine .andThen inferInstance fun orReplace => .andThen inferInstance fun temporary => ?_
  refine .andThen inferInstance fun word => ?_
  split <;> infer_instance

instance (t : Token) : Proceeds (skipAction t) := by unfold skipAction; infer_instance

instance : Proceeds addAction := by unfold addAction; infer_instance

instance : Proceeds dropAction := by
  refine .andThen inferInstance fun word => ?_
  split <;> infer_instance

instance (column : String) (start : Token) : Proceeds (alterColumnAction column start) := by
  refine .andThen inferInstance fun setNotNull => .ite inferInstance ?_
  refine .andThen inferInstance fun dropNotNull => .ite inferInstance ?_
  infer_instance

instance (start : Token) : Proceeds (renameAction start) := by unfold renameAction; infer_instance

instance (previous : Option TableAction) (t : Token) : Proceeds (otherAction previous t) := by
  unfold otherAction
  infer_instance

instance : Proceeds checkMode := by
  refine .andThen inferInstance fun word => .ahead fun next scope c there => ?_
  split_ifs with checked
  · exact proper_skip (there (by cases next <;> simp_all))
  · exact .ok (.refl c) ()

instance (previous : Option TableAction) : Proceeds (tableAction previous) := by
  refine .andThen inferInstance fun _ => .andThen inferInstance fun next => ?_
  cases next with
  | none => infer_instance
  | some t =>
    dsimp only
    split <;> infer_instance

instance (actions : List TableAction) : Proceeds (furtherAction actions) := by unfold furtherAction; infer_instance

instance (actions : List TableAction) : Spends (·.isLeft = true) (furtherAction actions) := by
  unfold furtherAction
  infer_instance

instance : Proceeds tableActions := by unfold tableActions; infer_instance

instance (start : Token) : Proceeds (alter start) := by unfold alter; infer_instance

instance (start : Token) : Proceeds (drop start) := by
  refine .andThen inferInstance fun word => ?_
  split <;> infer_instance

instance (names : List String) : Proceeds (columnTarget names) := by
  unfold columnTarget
  split
  · split <;> infer_instance
  · infer_instance

instance (start : Token) : Proceeds (commentOn start) := by
  refine .andThen inferInstance fun word => ?_
  split <;> infer_instance

instance : Proceeds statement := by
  refine .andThen inferInstance fun next => ?_
  cases next with
  | none => infer_instance
  | some t =>
    dsimp only
    split <;> infer_instance

/-- a statement that is read takes its first word -/
instance {P : Statement → Prop} : Spends P statement := by
  refine .behind inferInstance fun next => ?_
  cases next with
  | none => infer_instance
  | some t =>
    dsimp only
    split <;> infer_instance

end SchemaApi.Reading
