import SchemaApi.Proofs.Reading.Column
/-!
The rules for whole statements read segments alike whose tokens are alike.
-/

namespace SchemaApi.Reading

open Text Pairing

section
variable {g : Pairing} {t t' : Token}

theorem located_alike (stands : g.Stands t t') {body body' : StatementBody} (same : body.Alike g.toLikeness body') :
    Alike g (Statement.Alike g.toLikeness) (located t body) (located t' body') :=
  fun _ _ _ _ scopes cursor => .ok ⟨same, stands.counterpart.place, scopes.source⟩ cursor

theorem unsupportedPhrase_alike {α : Type} {R : α → α → Prop} (stands : g.Stands t t') (words : String)
    {what what' : Option String} (same : g.literal → what' = what) :
    Alike g R (unsupportedPhrase t words what) (unsupportedPhrase t' words what') :=
  unsupported_alike (fun literal => by rw [same literal]) stands.counterpart.place

/-! ## CREATE -/

theorem tableOptions_steady : Steady g tableOptions := by
  refine Steady.iterate (fun comment => ?_) none
  refine atStatementEnd_steady.andThen fun done => ?_
  refine .ite (.pure rfl) ?_
  refine (accept_steady _).andThen fun isComment => ?_
  refine .ite ?_ ?_
  · refine (acceptOperator_steady _).andThen fun _ => ?_
    exact stringLiteral_steady.andThen fun _ => .pure rfl
  · refine (peekPunct_steady _).andThen fun opens => ?_
    refine .ite (group_alike.andThen fun _ _ _ => .pure rfl) ?_
    exact advance_alike.andThen fun _ _ _ => .pure rfl

/-- the columns and constraints of tables are alike -/
def ElementsAlike (l : Likeness) (e e' : List ColumnClause × List ConstraintClause) : Prop :=
  List.Forall₂ (ColumnClause.Alike l) e.1 e'.1 ∧ List.Forall₂ (ConstraintClause.Alike l) e.2 e'.2

theorem tableElements_alike : Alike g (ElementsAlike g.toLikeness) tableElements tableElements := by
  refine (expectPunct_steady _).andThen fun _ => ?_
  refine (acceptPunct_steady _).andThen fun empty => ?_
  refine .ite (.pure ⟨.nil, .nil⟩) ?_
  refine Alike.iterate (Q := ElementsAlike g.toLikeness) ?_ ⟨.nil, .nil⟩
  rintro ⟨columns, constraints⟩ ⟨columns', constraints'⟩ ⟨sameColumns, sameConstraints⟩
  refine atTableConstraint_steady.andThen fun isConstraint => ?_
  refine .ite ?_ ?_
  · refine tableConstraint_alike.andThen ?_
    intro _ _ clause
    cases clause with
    | none =>
      exact (Alike.pure (R := ElementsAlike g.toLikeness) ⟨sameColumns, sameConstraints⟩).andThen moreItems_alike
    | some clause =>
      refine (Alike.pure (R := ElementsAlike g.toLikeness) ?_).andThen moreItems_alike
      exact ⟨sameColumns, List.rel_append sameConstraints (.cons clause .nil)⟩
  · refine columnDefinition_alike.andThen fun column column' same => ?_
    refine (Alike.pure (R := ElementsAlike g.toLikeness) ?_).andThen moreItems_alike
    exact ⟨List.rel_append sameColumns (.cons same .nil), sameConstraints⟩

theorem createTable_alike (stands : g.Stands t t') (temporary : Bool) :
    Alike g (Statement.Alike g.toLikeness) (createTable t temporary) (createTable t' temporary) := by
  refine (expectWord_steady _).andThen fun _ => ?_
  refine (accept_steady _).andThen fun ifNotExists => ?_
  refine (qualifiedName_steady _).andThen fun table => ?_
  refine peekWord_steady.andThen fun word => ?_
  split
  · exact unsupported_alike (fun _ => rfl) stands.counterpart.place
  · exact unsupported_alike (fun _ => rfl) stands.counterpart.place
  · refine tableElements_alike.andThen ?_
    rintro ⟨columns, constraints⟩ ⟨columns', constraints'⟩ ⟨sameColumns, sameConstraints⟩
    refine tableOptions_steady.andThen fun comment => ?_
    exact located_alike stands (.createTable ⟨table, columns, constraints, ifNotExists, temporary, comment⟩
      sameColumns sameConstraints)

theorem indexHead_steady : Steady g indexHead := by
  refine (accept_steady _).andThen fun both => ?_
  refine .ite (.pure rfl) ?_
  refine (accept_steady _).andThen fun unique => ?_
  refine (acceptWord_steady _).andThen fun modifier => ?_
  exact (expectWord_steady _).andThen fun _ => .pure rfl

/-- the methods of indexes are the same, and their conditions correspond -/
def TailAlike (l : Likeness) (a a' : Option String × Option String) : Prop :=
  a'.1 = a.1 ∧ Option.Rel l.written a.2 a'.2

theorem indexTail_alike (method : Option String) :
    Alike g (TailAlike g.toLikeness) (indexTail method) (indexTail method) := by
  refine Alike.iterate (Q := TailAlike g.toLikeness) ?_ ⟨rfl, .none⟩
  rintro ⟨method, condition⟩ ⟨_, condition'⟩ ⟨rfl, same⟩
  refine atStatementEnd_steady.andThen fun done => ?_
  refine .ite (.pure (.inr ⟨rfl, same⟩)) ?_
  refine (accept_steady _).andThen fun isCondition => ?_
  refine .ite ?_ ?_
  · refine restOfStatement_alike.andThen fun _ _ tokens => ?_
    exact (verbatim_alike tokens).andThen fun _ _ written => .pure (.inl ⟨rfl, .some written⟩)
  refine peekWord_steady.andThen fun word => ?_
  refine .ite (indexMethod_steady.andThen fun _ => .pure (.inl ⟨rfl, same⟩)) ?_
  refine (acceptWord_steady _).andThen fun clause => ?_
  refine .ite ?_ ?_
  · refine (peekPunct_steady _).andThen fun opens => ?_
    exact .optional group_alike (.pure (.inl ⟨rfl, same⟩))
  · exact advance_alike.andThen fun _ _ _ => .pure (.inl ⟨rfl, same⟩)

theorem createIndex_alike (stands : g.Stands t t') :
    Alike g (Statement.Alike g.toLikeness) (createIndex t) (createIndex t') := by
  refine indexHead_steady.andThen fun head => ?_
  refine (accept_steady _).andThen fun _ => ?_
  refine (accept_steady _).andThen fun ifNotExists => ?_
  refine peekWord_steady.andThen fun word => ?_
  refine .either (.pure rfl) ((qualifiedName_steady _).map _) ?_
  rintro index _ rfl
  refine indexMethod_steady.andThen fun early => ?_
  refine (expectWord_steady _).andThen fun _ => ?_
  refine (accept_steady _).andThen fun _ => ?_
  refine (qualifiedName_steady _).andThen fun table => ?_
  refine indexMethod_steady.andThen fun late => ?_
  refine indexElements_alike.andThen fun elements elements' sameElements => ?_
  refine (indexTail_alike _).andThen ?_
  rintro tail ⟨_, condition⟩ ⟨rfl, sameCondition⟩
  exact located_alike stands (.createIndex ⟨index, table, elements, head.1, tail.1, tail.2, ifNotExists⟩
    sameElements sameCondition)

theorem takeAll_alike : Alike g g.Run takeAll takeAll :=
  fun _ _ _ _ _ cursor => .ok cursor.rest ⟨.nil, cursor.notes⟩

theorem createView_alike (stands : g.Stands t t') (orReplace : Bool) :
    Alike g (Statement.Alike g.toLikeness) (createView t orReplace) (createView t' orReplace) := by
  refine (accept_steady _).andThen fun materialized => ?_
  refine (expectWord_steady _).andThen fun _ => ?_
  refine (accept_steady _).andThen fun _ => ?_
  refine (qualifiedName_steady _).andThen fun view => ?_
  refine (peekPunct_steady _).andThen fun opens => ?_
  refine .either columnList_steady (.pure rfl) ?_
  rintro columns _ rfl
  refine (accept_steady _).andThen fun isWith => ?_
  refine .optional group_alike ?_
  refine (expectWord_steady _).andThen fun _ => ?_
  refine atEnd_steady.andThen fun done => ?_
  refine .when (refuse_alike _) ?_
  refine takeAll_alike.andThen fun _ _ tokens => ?_
  refine (verbatim_alike tokens).andThen fun query query' written => ?_
  exact located_alike stands (.createView ⟨view, query, orReplace, materialized, columns⟩ written)

theorem createEnum_alike (stands : g.Stands t t') :
    Alike g (Statement.Alike g.toLikeness) (createEnum t) (createEnum t') := by
  refine (expectWord_steady _).andThen fun _ => ?_
  refine (qualifiedName_steady _).andThen fun type => ?_
  refine (expectWord_steady _).andThen fun _ => ?_
  refine (accept_steady _).andThen fun isEnum => ?_
  refine .unless (unsupported_alike (fun _ => rfl) stands.counterpart.place) ?_
  refine (expectPunct_steady _).andThen fun _ => ?_
  refine (acceptPunct_steady _).andThen fun empty => ?_
  refine .either (.pure rfl) (commaList_steady stringLiteral_steady) ?_
  rintro values _ rfl
  exact located_alike stands (.createEnum ⟨type, values⟩)

theorem createModifiers_steady : Steady g createModifiers := by
  refine Steady.iterate (fun temporary => ?_) false
  refine (acceptWord_steady _).andThen fun found => ?_
  cases found with
  | none => exact .pure rfl
  | some word => exact .pure rfl

theorem create_alike (stands : g.Stands t t') :
    Alike g (Statement.Alike g.toLikeness) (create t) (create t') := by
  refine (accept_steady _).andThen fun orReplace => ?_
  refine createModifiers_steady.andThen fun temporary => ?_
  refine peekWord_steady.andThen fun word => ?_
  split
  · exact createTable_alike stands temporary
  · exact createView_alike stands orReplace
  · exact createView_alike stands orReplace
  · exact createEnum_alike stands
  · exact .ite (createIndex_alike stands) (unsupportedPhrase_alike stands _ fun _ => rfl)
  · refine peek_alike.andThen ?_
    intro _ _ next
    cases next with
    | none => exact unsupportedPhrase_alike stands _ fun _ => rfl
    | some other =>
      exact unsupportedPhrase_alike stands _ fun literal => congrArg some (other.counterpart.text literal)

/-! ## ALTER TABLE -/

theorem skipAction_alike (stands : g.Stands t t') : Alike g Eq (skipAction t) (skipAction t') := by
  refine (note_alike _ _ (fun literal => ?_) stands.counterpart.place).andThen fun _ _ _ => ?_
  · rw [stands.counterpart.text literal]
  · exact collectAll_alike.andThen fun _ _ _ => .pure rfl

/-- actions, if there are any, that are alike -/
abbrev ActionAlike (l : Likeness) : Option TableAction → Option TableAction → Prop := Option.Rel (TableAction.Alike l)

theorem skippedAction_alike (stands : g.Stands t t') : Alike g (ActionAlike g.toLikeness)
    (do skipAction t
        return none)
    (do skipAction t'
        return none) :=
  (skipAction_alike stands).andThen fun _ _ _ => .pure .none

theorem addedColumn_alike (ifNotExists : Bool) : Alike g (ActionAlike g.toLikeness)
    (do return some (.addColumn (← columnDefinition) ifNotExists))
    (do return some (.addColumn (← columnDefinition) ifNotExists)) :=
  columnDefinition_alike.andThen fun _ _ column => .pure (.some (.addColumn column ifNotExists))

theorem addAction_alike : Alike g (ActionAlike g.toLikeness) addAction addAction := by
  refine (accept_steady _).andThen fun isColumn => ?_
  refine .ite ?_ ?_
  · exact (accept_steady _).andThen fun ifNotExists => addedColumn_alike ifNotExists
  · refine (accept_steady _).andThen fun ifNotExists => ?_
    refine atTableConstraint_steady.andThen fun isConstraint => ?_
    refine .ite ?_ (addedColumn_alike ifNotExists)
    refine tableConstraint_alike.andThen ?_
    intro _ _ clause
    cases clause with
    | none => exact .pure .none
    | some clause => exact .pure (.some (.addConstraint clause))

theorem dropAction_alike : Alike g (TableAction.Alike g.toLikeness) dropAction dropAction := by
  refine peekWord_steady.andThen fun word => ?_
  split
  case h_1 =>
    refine advance_alike.andThen fun _ _ _ => ?_
    refine (accept_steady _).andThen fun ifExists => ?_
    refine (name_steady _).andThen fun constraint => ?_
    exact (acceptWord_steady _).andThen fun _ => .pure (.dropConstraint _ ifExists)
  case h_2 => exact advance_alike.andThen fun _ _ _ => .pure (.dropConstraint _ false)
  case h_3 | h_4 | h_5 =>
    refine advance_alike.andThen fun _ _ _ => ?_
    exact (name_steady _).andThen fun _ => .pure (.dropConstraint _ false)
  case h_6 =>
    refine (accept_steady _).andThen fun _ => ?_
    refine (accept_steady _).andThen fun ifExists => ?_
    refine (name_steady _).andThen fun column => ?_
    exact (acceptWord_steady _).andThen fun _ => .pure (.dropColumn column ifExists _)

theorem alterColumnAction_alike (column : String) (stands : g.Stands t t') : Alike g (ActionAlike g.toLikeness)
    (alterColumnAction column t) (alterColumnAction column t') := by
  have plain : ∀ setNotNull dropDefault, ActionAlike g.toLikeness
      (some (.alterColumn column setNotNull none dropDefault none))
      (some (.alterColumn column setNotNull none dropDefault none)) :=
    fun setNotNull dropDefault => .some (.alterColumn column setNotNull .none dropDefault .none)
  have typed : ∀ {type type'}, TypeName.Alike g.toLikeness type type' → ∀ setNotNull, ActionAlike g.toLikeness
      (some (.alterColumn column setNotNull none false (some type)))
      (some (.alterColumn column setNotNull none false (some type'))) :=
    fun same setNotNull => .some (.alterColumn column setNotNull .none false (.some same))
  refine (accept_steady _).andThen fun _ => ?_
  refine .ite (.pure (plain _ _)) ?_
  refine (accept_steady _).andThen fun _ => ?_
  refine .ite (.pure (plain _ _)) ?_
  refine (accept_steady _).andThen fun _ => ?_
  refine .ite ((expression_alike _).andThen fun _ _ written => .pure ?_) ?_
  · exact .some (.alterColumn column none (.some written) false .none)
  refine (accept_steady _).andThen fun _ => ?_
  refine .ite (.pure (plain _ _)) ?_
  refine (acceptWord_steady _).andThen fun _ => ?_
  refine .ite ?_ ?_
  · refine typeName_alike.andThen fun type type' same => ?_
    refine (accept_steady _).andThen fun _ => ?_
    exact .optional collectAll_alike (.pure (typed same _))
  refine peekWord_steady.andThen fun word => ?_
  refine .ite (skippedAction_alike stands) ?_
  refine typeName_alike.andThen fun type type' same => ?_
  refine (accept_steady _).andThen fun _ => ?_
  refine .ite (.pure (typed same _)) ?_
  refine (accept_steady _).andThen fun _ => ?_
  exact .ite (.pure (typed same _)) (.pure (typed same _))

theorem renameAction_alike (stands : g.Stands t t') :
    Alike g (ActionAlike g.toLikeness) (renameAction t) (renameAction t') := by
  refine (accept_steady _).andThen fun isColumn => ?_
  refine .ite ?_ ?_
  · refine (name_steady _).andThen fun old => ?_
    refine (expectWord_steady _).andThen fun _ => ?_
    exact (name_steady _).andThen fun new => .pure (.some (.renameColumn old new))
  refine (acceptWord_steady _).andThen fun isTable => ?_
  refine .ite ((qualifiedName_steady _).andThen fun _ => .pure (.some (.renameTable _))) ?_
  refine peekWord_steady.andThen fun word => ?_
  refine .ite (skippedAction_alike stands) ?_
  refine (name_steady _).andThen fun old => ?_
  refine (accept_steady _).andThen fun _ => ?_
  refine .ite ?_ (.pure (.some (.renameTable _)))
  exact (name_steady _).andThen fun new => .pure (.some (.renameColumn old new))

theorem addsColumn_alike {l : Likeness} {previous previous' : Option TableAction} (h : ActionAlike l previous previous') :
    previous'.map TableAction.addsColumn = previous.map TableAction.addsColumn := by
  cases h with
  | none => rfl
  | some same => cases same <;> rfl

theorem otherAction_alike {previous previous' : Option TableAction} (h : ActionAlike g.toLikeness previous previous')
    (stands : g.Stands t t') : Alike g (ActionAlike g.toLikeness) (otherAction previous t) (otherAction previous' t') := by
  simp only [otherAction, addsColumn_alike h, stands.isWord, stands.counterpart.word]
  exact .ite (addedColumn_alike false) (skippedAction_alike stands)

theorem checkMode_steady : Steady g checkMode := by
  refine peekWord_steady.andThen fun word => ?_
  refine (peekWordAt_steady 1).andThen fun next => ?_
  exact .ite (skip_steady 2) (.pure rfl)

theorem tableAction_alike {previous previous' : Option TableAction} (h : ActionAlike g.toLikeness previous previous') :
    Alike g (ActionAlike g.toLikeness) (tableAction previous) (tableAction previous') := by
  refine checkMode_steady.andThen fun _ => ?_
  refine peek_alike.andThen ?_
  intro _ _ next
  cases next with
  | none => exact refuse_alike _
  | @some t t' stands =>
    simp only [stands.counterpart.word]
    split
    case h_1 => exact advance_alike.andThen fun _ _ _ => addAction_alike
    case h_2 => exact advance_alike.andThen fun _ _ _ => dropAction_alike.map fun _ _ same => .some same
    case h_3 =>
      refine advance_alike.andThen fun _ _ _ => ?_
      refine (accept_steady _).andThen fun _ => ?_
      exact (name_steady _).andThen fun column => alterColumnAction_alike column stands
    case h_4 => exact advance_alike.andThen fun _ _ _ => renameAction_alike stands
    case h_5 =>
      refine advance_alike.andThen fun _ _ _ => ?_
      refine (accept_steady _).andThen fun _ => ?_
      exact columnDefinition_alike.andThen fun _ _ column => .pure (.some (.modifyColumn column none))
    case h_6 =>
      refine advance_alike.andThen fun _ _ _ => ?_
      refine (accept_steady _).andThen fun _ => ?_
      refine (name_steady _).andThen fun old => ?_
      exact columnDefinition_alike.andThen fun _ _ column => .pure (.some (.modifyColumn column (some old)))
    case h_7 => exact otherAction_alike h stands

theorem tableActions_alike : Alike g (List.Forall₂ (TableAction.Alike g.toLikeness)) tableActions tableActions := by
  refine Alike.iterate (Q := List.Forall₂ (TableAction.Alike g.toLikeness)) ?_ .nil
  intro actions actions' same
  refine (tableAction_alike (getLast?_rel same)).andThen fun action action' next => ?_
  have grown : List.Forall₂ (TableAction.Alike g.toLikeness) (actions ++ action.toList) (actions' ++ action'.toList) := by
    cases next with
    | none => exact List.rel_append same .nil
    | some next => exact List.rel_append same (.cons next .nil)
  refine (acceptPunct_steady _).andThen fun more => ?_
  exact .ite (.pure (.inl grown)) (.pure (.inr grown))

theorem alter_alike (stands : g.Stands t t') : Alike g (Statement.Alike g.toLikeness) (alter t) (alter t') := by
  refine (accept_steady _).andThen fun isTable => ?_
  refine .ite ?_ ?_
  · refine (accept_steady _).andThen fun ifExists => ?_
    refine (accept_steady _).andThen fun _ => ?_
    refine (qualifiedName_steady _).andThen fun table => ?_
    refine tableActions_alike.andThen fun actions actions' same => ?_
    exact located_alike stands (.alterTable ⟨table, actions, ifExists⟩ same)
  · refine peekWord_steady.andThen fun word => ?_
    refine (unsupportedPhrase_alike (R := fun _ _ => False) stands _ fun _ => rfl).andThen ?_
    exact fun _ _ never => never.elim

/-! ## DROP and COMMENT ON -/

theorem drop_alike (stands : g.Stands t t') : Alike g (Statement.Alike g.toLikeness) (drop t) (drop t') := by
  refine peekWord_steady.andThen fun word => ?_
  split
  case h_1 =>
    refine advance_alike.andThen fun _ _ _ => ?_
    refine (accept_steady _).andThen fun ifExists => ?_
    refine (nameList_steady _).andThen fun names => ?_
    refine (acceptWord_steady _).andThen fun behaviour => ?_
    exact located_alike stands (.dropTable ⟨names, ifExists, behaviour == some "CASCADE"⟩)
  case h_2 =>
    refine advance_alike.andThen fun _ _ _ => ?_
    refine (accept_steady _).andThen fun _ => ?_
    refine (accept_steady _).andThen fun ifExists => ?_
    refine (nameList_steady _).andThen fun names => ?_
    refine (accept_steady _).andThen fun isOn => ?_
    refine .either ((qualifiedName_steady _).map some) (.pure rfl) ?_
    rintro table _ rfl
    refine (acceptWord_steady _).andThen fun _ => ?_
    exact located_alike stands (.dropIndex ⟨names, ifExists, table⟩)
  case h_3 | h_4 =>
    refine advance_alike.andThen fun _ _ _ => ?_
    refine .optional (expectWord_steady _) ?_
    refine (accept_steady _).andThen fun ifExists => ?_
    refine (nameList_steady _).andThen fun names => ?_
    refine (acceptWord_steady _).andThen fun _ => ?_
    exact located_alike stands (.dropView ⟨names, ifExists⟩)
  case h_5 => exact unsupportedPhrase_alike stands _ fun _ => rfl

theorem columnTarget_steady (names : List String) : Steady g (columnTarget names) := by
  rcases names with - | ⟨column, - | ⟨table, more⟩⟩
  · exact refuse_alike _
  · exact refuse_alike _
  · exact Alike.pure rfl

theorem commentText_alike (stands : g.Stands t t') (target : QualifiedName × Option String) :
    Alike g (Statement.Alike g.toLikeness)
      (do let _ ← expectWord ["IS"]
          let text ← if ← accept "NULL" then pure none else some <$> stringLiteral
          located t (.commentOn ⟨target.1, target.2, text⟩))
      (do let _ ← expectWord ["IS"]
          let text ← if ← accept "NULL" then pure none else some <$> stringLiteral
          located t' (.commentOn ⟨target.1, target.2, text⟩)) := by
  refine (expectWord_steady _).andThen fun _ => ?_
  refine (accept_steady _).andThen fun isNull => ?_
  refine .either (.pure rfl) (stringLiteral_steady.map some) ?_
  rintro text _ rfl
  exact located_alike stands (.commentOn ⟨target.1, target.2, text⟩)

theorem commentOn_alike (stands : g.Stands t t') :
    Alike g (Statement.Alike g.toLikeness) (commentOn t) (commentOn t') := by
  refine peekWord_steady.andThen fun word => ?_
  split
  · refine advance_alike.andThen fun _ _ _ => ?_
    refine (qualifiedName_steady _).andThen fun table => ?_
    exact (Steady.pure (table, none)).andThen fun target => commentText_alike stands target
  · refine advance_alike.andThen fun _ _ _ => ?_
    refine (dottedNames_steady _ _).andThen fun names => ?_
    refine (columnTarget_steady names).andThen fun named => ?_
    exact (Steady.pure (named.1, some named.2)).andThen fun target => commentText_alike stands target
  · refine (unsupportedPhrase_alike (R := fun _ _ => False) stands _ fun _ => rfl).andThen ?_
    exact fun _ _ never => never.elim

theorem statement_alike : Alike g (Statement.Alike g.toLikeness) statement statement := by
  refine peek_alike.andThen ?_
  intro _ _ next
  cases next with
  | none => exact refuse_alike _
  | @some t t' stands =>
    have place := stands.counterpart.place
    simp only [stands.counterpart.word]
    split
    · exact advance_alike.andThen fun _ _ _ => create_alike stands
    · exact advance_alike.andThen fun _ _ _ => alter_alike stands
    · exact advance_alike.andThen fun _ _ _ => drop_alike stands
    · exact advance_alike.andThen fun _ _ _ => commentOn_alike stands
    · exact unsupported_alike (fun _ => rfl) place
    · exact unsupported_alike stands.counterpart.text place

end

end SchemaApi.Reading
