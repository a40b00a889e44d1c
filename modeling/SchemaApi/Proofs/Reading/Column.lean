import SchemaApi.Proofs.Reading.Alike
/-!
The rules for columns and constraints read segments alike whose tokens are alike. What has positions or texts of the
script in it, a type, a column or a constraint, comes out alike; everything else comes out the same.
-/

namespace SchemaApi.Reading

open Text Pairing

section
variable {g : Pairing}

/-! ## Clauses that several rules share -/

theorem indexMethod_steady : Steady g indexMethod := by
  refine (accept_steady "USING").andThen fun given => ?_
  refine .ite ?_ (.pure rfl)
  exact (name_steady "index method").andThen fun _ => .pure rfl

theorem conflictClause_steady : Steady g conflictClause := by
  refine peekWord_steady.andThen fun word => ?_
  refine (peekWordAt_steady 1).andThen fun next => ?_
  refine .ite ?_ (.pure rfl)
  refine (skip_steady 2).andThen fun _ => ?_
  exact advance_alike.andThen fun _ _ _ => .pure rfl

theorem constraintAttributes_steady : Steady g constraintAttributes := by
  refine Steady.iterate (fun _ => ?_) ()
  refine (acceptWord_steady _).andThen fun plain => ?_
  refine .ite (.pure rfl) ?_
  refine peekWord_steady.andThen fun word => ?_
  have initially : Steady g (do
      if ← accept "INITIALLY" then
        let _ ← expectWord ["DEFERRED", "IMMEDIATE"]
        return (.inl () : Unit ⊕ Unit)
      return .inr ()) := by
    refine (accept_steady _).andThen fun given => ?_
    refine .ite ?_ (.pure rfl)
    exact (expectWord_steady _).andThen fun _ => .pure rfl
  refine .ite ?_ initially
  refine (peekWordAt_steady 1).andThen fun next => ?_
  cases next with
  | none => exact initially
  | some next =>
    refine .ite ?_ initially
    exact (skip_steady 2).andThen fun _ => .pure rfl

theorem columnList_steady : Steady g columnList := by
  refine (expectPunct_steady "(").andThen fun _ => ?_
  refine commaList_steady ?_
  refine (name_steady "column name").andThen fun column => ?_
  refine (peekPunct_steady "(").andThen fun opens => ?_
  refine .optional group_alike ?_
  exact (acceptWord_steady _).andThen fun _ => .pure rfl

theorem referentialAction_steady : Steady g referentialAction :=
  (expectWord_steady _).andThen fun _ => .pure rfl

theorem referenceClause_steady : Steady g referenceClause := by
  refine (qualifiedName_steady "table name").andThen fun table => ?_
  refine (peekPunct_steady "(").andThen fun opens => ?_
  refine .either columnList_steady (.pure rfl) ?_
  rintro columns _ rfl
  refine (Steady.iterate (fun clause => ?_) _).andThen fun clause => ?_
  · refine (accept_steady "MATCH").andThen fun isMatch => ?_
    refine .ite (advance_alike.andThen fun _ _ _ => .pure rfl) ?_
    refine (acceptWord_steady _).andThen fun event => ?_
    cases event with
    | none => exact .pure rfl
    | some word =>
      refine referentialAction_steady.andThen fun action => ?_
      exact .ite (.pure rfl) (.pure rfl)
  · exact constraintAttributes_steady.andThen fun _ => .pure rfl

/-! ## Indexed elements -/

theorem all_alike {p : Token → Bool} (same : ∀ t t', g.Stands t t' → p t' = p t) {ts ts' : List Token}
    (h : List.Forall₂ g.Stands ts ts') : ts'.all p = ts.all p ∧ ts'.any p = ts.any p := by
  induction h with
  | nil => exact ⟨rfl, rfl⟩
  | cons first _ ih => simp only [List.all_cons, List.any_cons, ih, same _ _ first, and_self]

theorem getLastD_alike {ts ts' : List Token} (h : List.Forall₂ g.Stands ts ts') {t t' : Token}
    (first : g.Stands t t') : g.Stands (ts.getLastD t) (ts'.getLastD t') := by
  induction h generalizing t t' with
  | nil => exact first
  | cons next _ ih =>
    rw [List.getLastD_cons, List.getLastD_cons]
    exact ih next

theorem descends_alike {t t' : Token} (stands : g.Stands t t') :
    (t'.word? == some "DESC") = (t.word? == some "DESC") := by
  rw [stands.counterpart.word]

/-- a column with its order, or an expression -/
theorem namedElement_alike {text text' : String} (written : g.written text text') {head head' : Token}
    (first : g.Stands head head') (plain : head.isPhrase = false) {expression expression' : IndexElement}
    (other : expression.Alike g.toLikeness expression') {ts ts' : List Token} (h : List.Forall₂ g.Stands ts ts') :
    Alike g (IndexElement.Alike g.toLikeness)
      (do if ts.all (·.isWord) then
            return ⟨text, some (head.nameIn (← dialect)), ts.any fun t => t.word? == some "DESC"⟩
          return expression)
      (do if ts'.all (·.isWord) then
            return ⟨text', some (head'.nameIn (← dialect)), ts'.any fun t => t.word? == some "DESC"⟩
          return expression') := by
  have words := (all_alike (fun _ _ stands => stands.isWord) h).1
  have descending := (all_alike (fun _ _ stands => descends_alike stands) h).2
  rw [words, descending]
  refine .ite (.behindDialect (.pure ⟨written, ?_, rfl⟩)) (.pure other)
  rw [first.counterpart.name plain]

theorem indexElement_alike {head head' : Token} {rest rest' : List Token}
    (h : g.Run (head :: rest) (head' :: rest')) :
    Alike g (IndexElement.Alike g.toLikeness) (indexElement head rest) (indexElement head' rest') := by
  obtain ⟨first, more⟩ := List.forall₂_cons.1 h.forall₂
  refine (verbatim_alike h).andThen fun text text' written => ?_
  have last := getLastD_alike more first
  have expression : IndexElement.Alike g.toLikeness ⟨text, none, (rest.getLastD head).word? == some "DESC"⟩
      ⟨text', none, (rest'.getLastD head').word? == some "DESC"⟩ := ⟨written, rfl, descends_alike last⟩
  rw [first.isWord, first.isPhrase]
  by_cases named : (head.isWord && !head.isPhrase) = true
  · have plain : head.isPhrase = false := by
      rw [Bool.and_eq_true, Bool.not_eq_true'] at named
      exact named.2
    simp only [if_pos named]
    rcases more with - | ⟨a, - | ⟨b, - | ⟨c, left⟩⟩⟩
    · exact namedElement_alike written first plain expression .nil
    · exact namedElement_alike written first plain expression (.cons a .nil)
    · exact namedElement_alike written first plain expression (.cons a (.cons b .nil))
    · rename_i t t' u u' v v' ts ts'
      simp only [a.isPunct, b.counterpart.kind, c.isPunct]
      by_cases sized : (t.isPunct "(" && u.kind == TokenKind.number && v.isPunct ")") = true
      · simp only [if_pos sized]
        exact namedElement_alike written first plain expression left
      · simp only [if_neg sized]
        exact namedElement_alike written first plain expression (.cons a (.cons b (.cons c left)))
  · simp only [if_neg named]
    exact .pure expression

theorem indexElements_alike :
    Alike g (List.Forall₂ (IndexElement.Alike g.toLikeness)) indexElements indexElements := by
  refine (expectPunct_steady "(").andThen fun _ => ?_
  refine commaList_alike ?_
  refine collectAll_alike.andThen fun ts ts' tokens => ?_
  rcases tokens.cases with ⟨rfl, rfl⟩ | ⟨t, t', more, more', rfl, rfl, -, -⟩
  · exact refuse_alike _
  · exact indexElement_alike tokens

/-! ## Types -/

/-- between commas stand parts of the tokens, and the first of them is their beginning -/
theorem splitCommas_alike {run : List (Token × Token)} (stands : ∀ p ∈ run, g.Stands p.1 p.2) (depth : Nat) :
    ∃ part parts, part <+: run ∧ (∀ other ∈ parts, other <:+: run) ∧
      splitCommas depth (run.map Prod.fst) = (part :: parts).map (List.map Prod.fst) ∧
      splitCommas depth (run.map Prod.snd) = (part :: parts).map (List.map Prod.snd) := by
  induction run generalizing depth with
  | nil => exact ⟨[], [], List.nil_prefix, fun _ none => absurd none List.not_mem_nil, rfl, rfl⟩
  | cons p run ih =>
    have first := stands p List.mem_cons_self
    have ih := ih fun q hq => stands q (List.mem_cons_of_mem p hq)
    have later : ∀ {other}, other <:+: run → other <:+: p :: run := fun h => h.trans (List.suffix_cons p run).isInfix
    simp only [List.map_cons, splitCommas, first.isPunct]
    by_cases comma : depth = 0 ∧ p.1.isPunct "," = true
    · obtain ⟨part, parts, front, others, split, split'⟩ := ih 0
      rw [if_pos comma, if_pos comma, split, split']
      have all : ∀ other ∈ part :: parts, other <:+: p :: run :=
        List.forall_mem_cons.2 ⟨later front.isInfix, fun other ho => later (others other ho)⟩
      exact ⟨[], part :: parts, List.nil_prefix, all, rfl, rfl⟩
    · rw [if_neg comma, if_neg comma]
      generalize (if p.1.isPunct "(" = true then depth + 1 else if p.1.isPunct ")" = true then depth - 1 else depth)
        = inner
      obtain ⟨part, parts, front, others, split, split'⟩ := ih inner
      simp only [split, split', List.map_cons]
      exact ⟨p :: part, parts, (List.prefix_cons_inj p).2 front, fun other ho => later (others other ho), rfl, rfl⟩

theorem typeArgument_alike {ts ts' : List Token} (h : g.Run ts ts') :
    Alike g g.Argument (typeArgument ts) (typeArgument ts') := by
  have verbatim := (verbatim_alike h).mono (T := g.Argument) fun _ _ => Or.inr
  rcases h.forall₂ with - | ⟨first, - | ⟨second, more⟩⟩
  · exact verbatim
  · simp only [typeArgument, first.counterpart.kind]
    exact .ite (.pure (Or.inl first.counterpart.value)) verbatim
  · exact verbatim

theorem mapM_alike {α β : Type} {Q : α → α → Prop} {R : β → β → Prop} {f : α → Reading β}
    (each : ∀ x x', Q x x' → Alike g R (f x) (f x')) {xs xs' : List α} (h : List.Forall₂ Q xs xs') :
    Alike g (List.Forall₂ R) (xs.mapM f) (xs'.mapM f) := by
  have loop : ∀ done done', List.Forall₂ R done done' →
      Alike g (List.Forall₂ R) (List.mapM.loop f xs done) (List.mapM.loop f xs' done') := by
    induction h with
    | nil => exact fun _ _ same => .pure (List.rel_reverse same)
    | cons first _ ih =>
      exact fun _ _ same => (each _ _ first).andThen fun _ _ value => ih _ _ (.cons value same)
  exact loop [] [] .nil

theorem typeArguments_alike : Alike g (List.Forall₂ g.Argument) typeArguments typeArguments := by
  refine group_alike.andThen fun inner inner' tokens => ?_
  refine mapM_alike (fun _ _ h => typeArgument_alike h) ?_
  obtain ⟨run, within, rfl, rfl⟩ := tokens
  obtain ⟨part, parts, front, others, split, split'⟩ :=
    splitCommas_alike (g := g) (fun p hp => within.subset hp) 0
  rw [split, split']
  refine List.rel_filter (fun part part' same => ?_) ?_
  · rcases same.cases with ⟨rfl, rfl⟩ | ⟨t, t', more, more', rfl, rfl, -, -⟩ <;> exact Iff.rfl
  · rw [List.forall₂_map_left_iff, List.forall₂_map_right_iff, List.forall₂_same]
    exact List.forall_mem_cons.2
      ⟨.of_within within front.isInfix, fun other ho => .of_within within (others other ho)⟩

theorem typeHead_steady : Steady g typeHead := by
  refine peek_alike.andThen ?_
  intro _ _ next
  cases next with
  | none => exact refuse_alike _
  | @some t t' stands =>
    simp only [stands.isWord, stands.counterpart.kind, stands.counterpart.value]
    refine .when (refuse_alike _) ?_
    refine advance_alike.andThen fun _ _ _ => ?_
    by_cases keyword : (t.kind == TokenKind.keyword) = true
    · simp only [if_pos keyword]
      exact .pure rfl
    · simp only [if_neg keyword]
      have plain : t.isPhrase = false := by rw [Token.isPhrase, Bool.eq_false_iff.2 keyword, Bool.false_and]
      refine .behindDialect ?_
      rw [stands.counterpart.name plain]
      refine (acceptPunct_steady ".").andThen fun more => ?_
      refine .ite ?_ (.pure rfl)
      exact (name_steady "type name").andThen fun second => .pure rfl

theorem signedness_steady (unsigned : Bool) : Steady g (signedness unsigned) := by
  refine (acceptWord_steady _).andThen fun found => ?_
  cases found with
  | none => exact .pure rfl
  | some word => exact .pure rfl

theorem skipBracket_steady : Steady g skipBracket := by
  intro scope scope' c c' scopes cursor
  have left := (Run.span (p := fun t => !t.isPunct "]") (fun _ _ stands => by rw [stands.isPunct]) cursor.rest).2
  rw [skipBracket, skipBracket]
  generalize c.rest.dropWhile (fun t => !t.isPunct "]") = ts at left
  generalize c'.rest.dropWhile (fun t => !t.isPunct "]") = ts' at left
  rcases left.cases with ⟨rfl, rfl⟩ | ⟨t, t', more, more', rfl, rfl, -, rest⟩
  · exact refuse_alike .unexpectedEnd scope scope' _ _ scopes ⟨.nil, cursor.notes⟩
  · exact .ok rfl ⟨rest, cursor.notes⟩

theorem arrayBounds_steady (isArray : Bool) : Steady g (arrayBounds isArray) := by
  refine (acceptPunct_steady "[").andThen fun opens => ?_
  refine .ite (skipBracket_steady.andThen fun _ => .pure rfl) ?_
  refine (accept_steady "ARRAY").andThen fun word => ?_
  exact .ite (.pure rfl) (.pure rfl)

/-- types as they are read, before their characters are kept -/
def Declared (g : Pairing) (t t' : TypeName) : Prop :=
  ∃ args, List.Forall₂ g.Argument t.args args ∧ t' = { t with args := args }

theorem Declared.alike {t t' : TypeName} (h : Declared g t t') {raw raw' : String} (written : g.written raw raw') :
    TypeName.Alike g.toLikeness { t with raw := raw } { t' with raw := raw' } := by
  obtain ⟨args, same, rfl⟩ := h
  exact ⟨rfl, same, written, rfl, rfl, rfl, rfl, rfl⟩

theorem typeName_alike : Alike g (TypeName.Alike g.toLikeness) typeName typeName := by
  refine (withTokens_alike (R := Declared g) ?_).andThen ?_
  · refine typeHead_steady.andThen fun head => ?_
    refine (peekPunct_steady "(").andThen fun opens => ?_
    refine .either typeArguments_alike (.pure .nil) fun args args' same => ?_
    refine (acceptWord_steady _).andThen fun found => ?_
    cases found
    all_goals
      refine (Steady.pure _).andThen fun zone => ?_
      refine (Steady.iterate signedness_steady _).andThen fun unsigned => ?_
      exact (Steady.iterate arrayBounds_steady _).andThen fun isArray => .pure ⟨args', same, rfl⟩
  · rintro ⟨declared, tokens⟩ ⟨declared', tokens'⟩ ⟨type, same⟩
    exact (verbatim_alike same).andThen fun raw raw' written => .pure (type.alike written)

/-! ## Columns -/

structure ColumnDraft.Alike (l : Likeness) (draft draft' : ColumnDraft) : Prop where
  column : draft.column.Alike l draft'.column
  constraint : draft'.constraint = draft.constraint

theorem ColumnDraft.constrain_alike {l : Likeness} {draft draft' : ColumnDraft} (h : draft.Alike l draft')
    {clause clause' : Option String → ConstraintClause} (same : ∀ name, (clause name).Alike l (clause' name)) :
    (draft.constrain clause).Alike l (draft'.constrain clause') :=
  { h.column with constraints := List.rel_append h.column.constraints (.cons (h.constraint ▸ same _) .nil) }

theorem columnClause_alike {draft draft' : ColumnDraft} (h : draft.Alike g.toLikeness draft') {t t' : Token}
    (first : g.Stands t t') (word : String) :
    Alike g (ColumnClause.Alike g.toLikeness) (columnClause draft t word) (columnClause draft' t' word) := by
  have place := first.counterpart.place
  have column := h.column
  have constrained : ∀ {clause clause' : Option String → ConstraintClause},
      (∀ name, (clause name).Alike g.toLikeness (clause' name)) →
      Alike g (ColumnClause.Alike g.toLikeness) (pure (draft.constrain clause)) (pure (draft'.constrain clause')) :=
    fun same => .pure (ColumnDraft.constrain_alike h same)
  have stray : Alike g (ColumnClause.Alike g.toLikeness) (refuse (.strayInColumn draft.column.name))
      (refuse (.strayInColumn draft'.column.name)) := by rw [column.name]; exact refuse_alike _
  unfold columnClause
  split
  case h_1 | h_2 => exact advance_alike.andThen fun _ _ _ => .pure { column with notNull := rfl }
  case h_3 =>
    refine advance_alike.andThen fun _ _ _ => ?_
    refine (acceptWord_steady _).andThen fun _ => ?_
    refine conflictClause_steady.andThen fun _ => ?_
    refine (accept_steady _).andThen fun numbered => .pure ?_
    have primaryKey : ∀ name, ConstraintClause.Alike g.toLikeness (.primaryKey [draft.column.name] name t.position)
        (.primaryKey [draft'.column.name] name t'.position) :=
      fun name => by rw [column.name]; exact .primaryKey _ name place
    have keyed := ColumnDraft.constrain_alike h primaryKey
    exact { keyed with autoIncrement := congrArg (· || numbered) keyed.autoIncrement }
  case h_4 | h_5 =>
    refine advance_alike.andThen fun _ _ _ => ?_
    exact conflictClause_steady.andThen fun _ => constrained fun name => by
      rw [column.name]; exact .unique _ name place
  case h_6 =>
    refine advance_alike.andThen fun _ _ _ => ?_
    exact (expression_alike _).andThen fun _ _ written => .pure { column with default := .some written }
  case h_7 =>
    refine advance_alike.andThen fun _ _ _ => ?_
    exact .behindVerbatim fun _ _ written => constrained fun name => by
      rw [column.name]; exact .check written name _ place
  case h_8 =>
    refine advance_alike.andThen fun _ _ _ => ?_
    exact referenceClause_steady.andThen fun reference => constrained fun name => by
      rw [column.name]; exact .foreignKey _ reference name place
  case h_9 | h_10 => exact advance_alike.andThen fun _ _ _ => .pure { column with autoIncrement := rfl }
  case h_11 | h_12 | h_13 =>
    refine advance_alike.andThen fun _ _ _ => ?_
    refine (peekPunct_steady _).andThen fun opens => ?_
    exact .optional group_alike (.pure { column with autoIncrement := rfl })
  case h_14 | h_15 =>
    refine advance_alike.andThen fun _ _ _ => ?_
    refine .behindVerbatim fun _ _ written => ?_
    exact (acceptWord_steady _).andThen fun _ => .pure { column with generated := .some written }
  case h_16 =>
    refine advance_alike.andThen fun _ _ _ => ?_
    exact stringLiteral_steady.andThen fun _ => .pure { column with comment := rfl }
  case h_17 =>
    refine advance_alike.andThen fun _ _ _ => ?_
    exact advance_alike.andThen fun _ _ _ => .pure column
  case h_18 | h_19 =>
    refine advance_alike.andThen fun _ _ _ => ?_
    refine (acceptOperator_steady _).andThen fun _ => ?_
    exact advance_alike.andThen fun _ _ _ => .pure column
  case h_20 =>
    refine advance_alike.andThen fun _ _ _ => ?_
    exact (expression_alike _).andThen fun _ _ _ => .pure column
  case h_21 | h_22 => exact constraintAttributes_steady.andThen fun _ => .pure column
  case h_23 => exact advance_alike.andThen fun _ _ _ => .pure column
  case h_24 =>
    refine advance_alike.andThen fun _ _ _ => ?_
    exact (name_steady _).andThen fun _ => .pure column
  case h_25 =>
    refine (peekWordAt_steady 1).andThen fun next => ?_
    refine .ite (constraintAttributes_steady.andThen fun _ => .pure column) ?_
    exact .ite (conflictClause_steady.andThen fun _ => .pure column) stray

theorem columnClauses_alike {column column' : ColumnClause} (h : column.Alike g.toLikeness column') :
    Alike g (ColumnClause.Alike g.toLikeness) (columnClauses column) (columnClauses column') := by
  refine Alike.iterate (Q := ColumnDraft.Alike g.toLikeness) ?_ ⟨h, rfl⟩
  intro draft draft' same
  refine peek_alike.andThen ?_
  intro _ _ next
  cases next with
  | none => exact .pure (.inr same.column)
  | @some t t' stands =>
    simp only [stands.isPunct, stands.counterpart.word, same.column.name]
    refine .ite (.pure (.inr same.column)) ?_
    split
    · exact refuse_alike _
    · refine advance_alike.andThen fun _ _ _ => ?_
      exact (name_steady _).andThen fun _ => .pure (.inl ⟨same.column, rfl⟩)
    · refine (columnClause_alike same stands _).andThen ?_
      exact fun column column' h => .pure (.inl ⟨h, rfl⟩)

theorem lacksType_steady : Steady g lacksType := by
  refine peek_alike.andThen ?_
  intro _ _ next
  cases next with
  | none => exact .pure rfl
  | @some t t' stands =>
    simp only [stands.isPunct, stands.counterpart.word]
    exact .pure rfl

theorem columnDefinition_alike :
    Alike g (ColumnClause.Alike g.toLikeness) columnDefinition columnDefinition := by
  refine .behindPeek (.expected "column name") (fun _ _ => ⟨rfl, rfl⟩) fun t t' stands => ?_
  have place := stands.counterpart.place
  refine (name_steady _).andThen fun column => ?_
  refine lacksType_steady.andThen fun bare => ?_
  refine .ite ?_ ?_
  · refine dialect_steady.andThen fun d => ?_
    refine peekWord_steady.andThen fun word => ?_
    refine .unless (refuse_alike _) ?_
    exact columnClauses_alike ⟨rfl, .none, place, rfl, .none, rfl, .none, rfl, .nil⟩
  · refine typeName_alike.andThen fun declared declared' type => ?_
    exact columnClauses_alike ⟨rfl, .some type, place, rfl, .none, rfl, .none, rfl, .nil⟩

/-! ## Constraints of a table -/

/-- whether a constraint begins at the head of some tokens -/
def constraintBegins (d : Dialect) (ts : List Token) : Bool :=
  match ts.head?.bind Token.word? with
  | none => false
  | some word =>
    tableConstraintStarts.contains word || (d == .mysql && inlineIndexStarts.contains word &&
      match ts[1]? with
      | none => true
      | some next => !next.isWord || (d.typeRule? next.text).isNone ||
        (((ts[2]?).map (·.isPunct "(")).getD false && ((ts[3]?).map Token.isWord).getD false))

theorem atTableConstraint_eq (scope : Scope) (cursor : Cursor) :
    atTableConstraint scope cursor = .ok (constraintBegins scope.dialect cursor.rest) cursor := by
  have head : atTableConstraint scope cursor = (match cursor.rest.head?.bind Token.word? with
    | none => pure false
    | some word => _ : Reading Bool) scope cursor := rfl
  rw [head, constraintBegins]
  cases cursor.rest.head?.bind Token.word? with
  | none => rfl
  | some word =>
    simp only
    by_cases listed : tableConstraintStarts.contains word = true
    · rw [if_pos listed, listed, Bool.true_or]
      rfl
    rw [if_neg listed, Bool.eq_false_iff.2 listed, Bool.false_or]
    change (if (scope.dialect != .mysql || !inlineIndexStarts.contains word) = true then _ else _ : Reading Bool)
      scope cursor = _
    by_cases index : (scope.dialect == .mysql && inlineIndexStarts.contains word) = true
    · have behind : ¬ (scope.dialect != .mysql || !inlineIndexStarts.contains word) = true := by
        rw [bne, ← Bool.not_and, index]
        decide
      rw [if_neg behind, index, Bool.true_and]
      change (match cursor.rest[1]? with | none => _ | some next => _ : Reading Bool) scope cursor = _
      cases cursor.rest[1]? with
      | none => rfl
      | some next =>
        simp only
        by_cases type : (!next.isWord || (scope.dialect.typeRule? next.text).isNone) = true
        · rw [if_pos type, type, Bool.true_or]
          rfl
        · rw [if_neg type, Bool.eq_false_iff.2 type, Bool.false_or]
          rfl
    · have ahead : (scope.dialect != .mysql || !inlineIndexStarts.contains word) = true := by
        rw [bne, ← Bool.not_and, Bool.eq_false_iff.2 index]
        rfl
      rw [if_pos ahead, Bool.eq_false_iff.2 index, Bool.false_and]
      rfl

theorem constraintBegins_alike {ts ts' : List Token} (h : g.Run ts ts') :
    constraintBegins g.dialect ts = constraintBegins g.dialect ts' := by
  have opens := isPunct_alike (h.getElem? 2) "("
  have named : (ts[3]?.map Token.isWord).getD false = (ts'[3]?.map Token.isWord).getD false := by
    have third := h.getElem? 3
    generalize ts[3]? = t at third
    generalize ts'[3]? = t' at third
    cases third with
    | none => rfl
    | some stands => exact stands.isWord.symm
  rw [constraintBegins, constraintBegins, ← opens, ← named, word?_alike h.head?]
  cases start : ts'.head?.bind Token.word? with
  | none => rfl
  | some word =>
    simp only
    by_cases index : (g.dialect == .mysql && inlineIndexStarts.contains word) = true
    · rw [index]
      obtain ⟨run, within, rfl, rfl⟩ := h
      rcases run with - | ⟨p, - | ⟨q, run⟩⟩
      · rfl
      · rfl
      · have first : g.Stands p.1 p.2 := within.subset List.mem_cons_self
        have second : g.Stands q.1 q.2 := within.subset (List.mem_cons_of_mem p List.mem_cons_self)
        have start : p.1.startsIndex := by
          refine ⟨word, ?_, (Bool.and_eq_true_iff.1 index).2⟩
          rw [← first.counterpart.word]
          exact start
        have mysql := eq_of_beq (Bool.and_eq_true_iff.1 index).1
        have neighbours : [p, q] <:+: g.pairs := (List.prefix_append [p, q] run).isInfix.trans within
        simp only [List.map_cons, List.getElem?_cons_succ, List.getElem?_cons_zero, second.isWord,
          g.types mysql p q neighbours start]
    · rw [Bool.eq_false_iff.2 index, Bool.false_and, Bool.false_and]

theorem atTableConstraint_steady : Steady g atTableConstraint := by
  intro scope scope' c c' scopes cursor
  rw [atTableConstraint_eq, atTableConstraint_eq, scopes.dialect, scopes.dialect']
  exact .ok (constraintBegins_alike cursor.rest) cursor

theorem keyTail_steady : Steady g keyTail := by
  refine indexMethod_steady.andThen fun _ => ?_
  refine conflictClause_steady.andThen fun _ => ?_
  exact constraintAttributes_steady

theorem indexName?_steady : Steady g indexName? := by
  refine (peekPunct_steady _).andThen fun opens => ?_
  refine .ite (.pure rfl) ?_
  exact (name_steady _).andThen fun _ => .pure rfl

theorem inlineIndex_alike (given : Option String) {p p' : Position} (place : g.place p p') :
    Alike g (ConstraintClause.Alike g.toLikeness) (inlineIndex given p) (inlineIndex given p') := by
  refine advance_alike.andThen ?_
  intro t t' stands
  simp only [stands.counterpart.word]
  refine .optional (acceptWord_steady _) ?_
  refine indexName?_steady.andThen fun own => ?_
  refine indexMethod_steady.andThen fun early => ?_
  refine indexElements_alike.andThen fun elements elements' same => ?_
  exact indexMethod_steady.andThen fun late => .pure (.index same _ _ _ place)

theorem tableConstraint_alike :
    Alike g (Option.Rel (ConstraintClause.Alike g.toLikeness)) tableConstraint tableConstraint := by
  refine .behindPeek (.expected "a table constraint") (fun _ _ => ⟨rfl, rfl⟩) fun t t' stands => ?_
  have place := stands.counterpart.place
  refine (accept_steady _).andThen fun isNamed => ?_
  refine .either ((name_steady _).map some) (.pure rfl) ?_
  rintro given _ rfl
  refine peekWord_steady.andThen fun word => ?_
  split
  case h_1 =>
    refine advance_alike.andThen fun _ _ _ => ?_
    refine (acceptWord_steady _).andThen fun _ => ?_
    refine columnList_steady.andThen fun columns => ?_
    exact keyTail_steady.andThen fun _ => .pure (.some (.primaryKey _ _ place))
  case h_2 | h_3 | h_4 =>
    refine advance_alike.andThen fun _ _ _ => ?_
    refine (acceptWord_steady _).andThen fun _ => ?_
    refine indexName?_steady.andThen fun own => ?_
    refine columnList_steady.andThen fun columns => ?_
    exact keyTail_steady.andThen fun _ => .pure (.some (.unique _ _ place))
  case h_5 =>
    refine advance_alike.andThen fun _ _ _ => ?_
    refine indexName?_steady.andThen fun own => ?_
    refine columnList_steady.andThen fun columns => ?_
    refine (expectWord_steady _).andThen fun _ => ?_
    exact referenceClause_steady.andThen fun reference => .pure (.some (.foreignKey _ _ _ place))
  case h_6 =>
    refine advance_alike.andThen fun _ _ _ => ?_
    refine .behindVerbatim fun text text' written => ?_
    exact constraintAttributes_steady.andThen fun _ => .pure (.some (.check written _ _ place))
  case h_7 =>
    refine (note_alike _ _ (fun _ => rfl) place).andThen fun _ _ _ => ?_
    exact collectAll_alike.andThen fun _ _ _ => .pure .none
  case h_8 =>
    refine .ite ?_ (refuse_alike _)
    exact (inlineIndex_alike given place).andThen fun clause clause' same => .pure (.some same)
  case h_9 => exact refuse_alike _

end

end SchemaApi.Reading
