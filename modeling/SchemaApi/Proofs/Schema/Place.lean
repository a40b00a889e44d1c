import SchemaApi.Proofs.Schema.Locality
/-!
Where things were declared is remembered for the messages only.

`forget` takes from a table which statement declared it, and from tables and findings the places as well if they are
to be forgotten. What is added to a table depends on nothing that is forgotten (`agree_additions`), and neither do the
tables of a model, nor what is found in them but for the places (`tableFindings_forget`).
-/

namespace SchemaApi

variable {d : Dialect} {places : Bool}

/-! ## Forgetting -/

/-- the constraint, without its place if places are to be forgotten -/
def Placed.forget (places : Bool) (e : Placed) : Placed :=
  if places then { constraint := e.constraint, position := {} } else e

/-- the finding, without its place if places are to be forgotten -/
def Finding.forget (places : Bool) (f : Finding) : Finding :=
  if places then { f with source := none, line := none, column := none } else f

/-- the table without the number of its statement, and without places if they are to be forgotten -/
def Draft.forget (places : Bool) (t : Draft) : Draft :=
  { t with
    declaredBy := 0
    position := if places then {} else t.position
    source := if places then none else t.source
    constraints := t.constraints.map (Placed.forget places) }

def Workspace.forget (places : Bool) (w : Workspace) : Workspace :=
  { w with
    tables := w.tables.map (Draft.forget places)
    findings := w.findings.map (Finding.forget places)
    errors := w.errors.map (Finding.forget places) }

theorem Placed.constraint_forget (e : Placed) : (e.forget places).constraint = e.constraint := by
  cases places <;> rfl

theorem Placed.forget_forget (e : Placed) : (e.forget places).forget places = e.forget places := by
  cases places <;> rfl

theorem Placed.place_forget (e : Placed) (kept : places = false) :
    (e.forget places).source = e.source ∧ (e.forget places).position = e.position := by
  subst kept
  exact ⟨rfl, rfl⟩

theorem Finding.forget_about {severity : Severity} {stage : Stage} {code message : String}
    {source source' : Option String} {position position' : Option Position}
    (same : places = false → source' = source ∧ position' = position) :
    (about severity stage code message source' position').forget places =
      (about severity stage code message source position).forget places := by
  cases places with
  | true => rfl
  | false =>
    obtain ⟨rfl, rfl⟩ := same rfl
    rfl

theorem Problem.forget_finding {source source' : Option String} {position position' : Position}
    (same : places = false → source' = source ∧ position' = position) (p : Problem) :
    (p.finding position' source').forget places = (p.finding position source).forget places := by
  cases places with
  | true => rfl
  | false =>
    obtain ⟨rfl, rfl⟩ := same rfl
    rfl

namespace Draft

variable {t : Draft}

theorem toTable_forget : (t.forget places).toTable = t.toTable := by
  simp only [toTable, forget, List.map_map, Function.comp_def, Placed.constraint_forget]

theorem forget_forget : (t.forget places).forget places = t.forget places := by
  cases places <;> simp [forget, Function.comp_def, Placed.forget_forget]

/-- what is read of a table without what is forgotten is the same for tables that are alike -/
theorem congr_of_forget {α : Type} {t' : Draft} (read : Draft → α) (reads : ∀ t, read (t.forget places) = read t)
    (alike : t'.forget places = t.forget places) : read t' = read t := by
  rw [← reads t', alike, reads]

theorem primaryKey?_forget : (t.forget places).primaryKey? = t.primaryKey? := by
  rw [primaryKey?, toTable_forget, primaryKey?]

theorem uniqueSets_forget : (t.forget places).uniqueSets = t.uniqueSets := by
  rw [uniqueSets, toTable_forget, uniqueSets]

theorem sameTarget_forget : SameTarget t (t.forget places) where
  key := rfl
  ref := rfl
  columns := rfl
  primaryKey := primaryKey?_forget
  uniqueSets := uniqueSets_forget

/-! ## Additions -/

theorem forget_addPlaced {source source' : Option String} (same : places = false → source' = source) (c : Constraint)
    (position : Position) :
    ((t.forget places).addPlaced c position source').forget places = (t.addPlaced c position source).forget places := by
  have placed : Placed.forget places ⟨c, position, source'⟩ = Placed.forget places ⟨c, position, source⟩ := by
    cases places with
    | true => rfl
    | false => rw [same rfl]
  simp only [forget, addPlaced, List.map_append, List.map_map, Function.comp_def, Placed.forget_forget, List.map_cons,
    List.map_nil, placed]
  cases places <;> rfl

theorem requireValues_forget (names : List String) :
    (t.forget places).requireValues d names = (t.requireValues d names).forget places := by
  unfold requireValues
  induction names generalizing t with
  | nil => rfl
  | cons n names ih => exact ih (t := t.updateColumn d n fun c => { c with nullable := false })

theorem addIndex_forget (elements : List IndexElement) (name : Option String) (unique : Bool)
    (method condition : Option String) :
    ((t.forget places).addIndex d elements name unique method condition).map (forget places) =
      (t.addIndex d elements name unique method condition).map (forget places) := by
  have read : (t.forget places).elementColumn d = t.elementColumn d := rfl
  simp only [addIndex, read, map_bind_eq]
  refine bind_congr fun columns => bind_congr fun _ => congrArg Except.ok ?_
  exact forget_forget (t := { t with indexes := t.indexes ++ [
    { name := name, columns := columns, unique := unique, method := method, condition := condition,
      isExpression := elements.any (·.column.isNone) }] })

/-- a constraint or an index is the same, wherever the table was declared -/
theorem addConstraint_forget {source source' : Option String} (same : places = false → source' = source)
    (clause : ConstraintClause) : ((t.forget places).addConstraint d source' clause).map (forget places) =
      (t.addConstraint d source clause).map (forget places) := by
  have read : ∀ names what, (t.forget places).canonical d names what = t.canonical d names what := fun _ _ => rfl
  cases clause with
  | primaryKey columns name position =>
    simp only [addConstraint, read, primaryKey?_forget, map_bind_eq]
    refine bind_congr fun cols => ?_
    split_ifs
    · cases made : t.problem (α := Draft) .multiplePrimaryKeys with
      | error failure => exact congrArg (Except.map (forget places)) made
      | ok t' => exact absurd made (by simp [problem_eq_ok_iff])
    · rw [map_bind_eq, map_bind_eq, requireValues_forget]
      exact bind_congr fun _ => congrArg Except.ok (forget_addPlaced same ..)
  | unique columns name position =>
    simp only [addConstraint, read, map_bind_eq]
    exact bind_congr fun cols => bind_congr fun _ => congrArg Except.ok (forget_addPlaced same ..)
  | foreignKey columns reference name position =>
    simp only [addConstraint, read, map_bind_eq]
    refine bind_congr fun cols => ?_
    split_ifs
    · rfl
    · rw [map_bind_eq, map_bind_eq]
      exact bind_congr fun _ => congrArg Except.ok (forget_addPlaced same ..)
  | check expression name column position =>
    have own : ∀ c, (t.forget places).requireColumn d c "Check constraint" = t.requireColumn d c "Check constraint" :=
      fun _ => rfl
    simp only [addConstraint, own, map_bind_eq]
    refine bind_congr fun own => ?_
    split_ifs
    · rfl
    · exact congrArg Except.ok (forget_addPlaced same ..)
  | index elements name unique kind position => exact addIndex_forget ..

theorem addConstraint_congr {t' : Draft} (alike : t'.forget places = t.forget places) {source source' : Option String}
    (same : places = false → source' = source) (clause : ConstraintClause) :
    (t'.addConstraint d source' clause).map (forget places) = (t.addConstraint d source clause).map (forget places) := by
  rw [← addConstraint_forget fun _ => rfl, alike, addConstraint_forget same]

end Draft

namespace Workspace

/-- the changes make the same of schemas that are the same but for what is forgotten -/
def Agree {ε : Type} (places : Bool) (change change' : Workspace → Except ε Workspace) : Prop :=
  ∀ w w', w'.forget places = w.forget places → (change' w').map (forget places) = (change w).map (forget places)

variable {w w' : Workspace} {key : String}

theorem Agree.symm {ε : Type} {change change' : Workspace → Except ε Workspace} (agree : Agree places change change') :
    Agree places change' change :=
  fun w w' alike => (agree w' w alike.symm).symm

/-- where one of two changes that agree succeeds, so does the other -/
theorem Agree.exists_eq_ok {ε : Type} {change change' : Workspace → Except ε Workspace}
    (agree : Agree places change change') (run : change w = .ok w') :
    ∃ v, change' w = .ok v ∧ v.forget places = w'.forget places :=
  map_eq_ok_iff.1 ((agree w w rfl).trans (congrArg (Except.map (forget places)) run))

theorem table?_forget : (w.forget places).table? key = (w.table? key).map (Draft.forget places) :=
  Draft.find?_key_map (f := Draft.forget places) (fun _ _ => rfl) key

theorem forall₂_tables (alike : w'.forget places = w.forget places) :
    List.Forall₂ (fun t' t : Draft => t'.forget places = t.forget places) w'.tables w.tables := by
  have tables : w'.tables.map (Draft.forget places) = w.tables.map (Draft.forget places) :=
    congrArg Workspace.tables alike
  have pairs := List.forall₂_eq_eq_eq ▸ tables
  exact List.forall₂_map_right_iff.1 (List.forall₂_map_left_iff.1 pairs)

theorem updateTable_alike (alike : w'.forget places = w.forget places) {f f' : Draft → Draft}
    (same : ∀ t t', t'.forget places = t.forget places → (f' t').forget places = (f t).forget places) :
    (w'.updateTable key f').forget places = (w.updateTable key f).forget places := by
  have tables : (w'.updateTable key f').tables.map (Draft.forget places) =
      (w.updateTable key f).tables.map (Draft.forget places) := by
    simp only [updateTable, List.map_map]
    refine map_eq_map_of_forall₂ ((forall₂_tables alike).imp fun t' t pair => ?_)
    have key' : t'.key = t.key := Draft.congr_of_forget Draft.key (fun _ => rfl) pair
    simp only [Function.comp_apply, key']
    split_ifs
    · exact same t t' pair
    · exact pair
  obtain ⟨_, enums, views, findings, errors⟩ := w
  obtain ⟨_, enums', views', findings', errors'⟩ := w'
  simp only [forget, mk.injEq] at alike
  simp only [updateTable] at tables
  simp only [forget, updateTable, tables, alike]

theorem forget_found (alike : w'.forget places = w.forget places) {f f' : Finding}
    (same : f'.forget places = f.forget places) :
    forget places { w' with findings := w'.findings ++ [f'] } =
      forget places { w with findings := w.findings ++ [f] } := by
  obtain ⟨tables, enums, views, findings, errors⟩ := w
  obtain ⟨tables', enums', views', findings', errors'⟩ := w'
  simp only [forget, mk.injEq] at alike
  simp only [forget, List.map_append, List.map_cons, List.map_nil, same, alike]

theorem forget_recorded (alike : w'.forget places = w.forget places) (p : Problem) {position position' : Position}
    {source source' : Option String} (same : places = false → source' = source ∧ position' = position) :
    (w'.record p position' source').forget places = (w.record p position source).forget places := by
  obtain ⟨tables, enums, views, findings, errors⟩ := w
  obtain ⟨tables', enums', views', findings', errors'⟩ := w'
  simp only [forget, mk.injEq] at alike
  simp only [record, forget, List.map_append, List.map_cons, List.map_nil, Problem.forget_finding same, alike]

theorem Agree.attempt {change change' : Change} (agree : Agree places change change') {position position' : Position}
    {source source' : Option String} (same : places = false → source' = source ∧ position' = position) :
    Agree places (fun w => w.attempt position source change) fun w => w.attempt position' source' change' := by
  intro w w' alike
  simp only [Workspace.attempt]
  rcases map_eq_map_iff.1 (agree w w' alike) with ⟨failure, made', made⟩ | ⟨v', v, made', made, alike'⟩
  · rw [made, made']
    cases failure with
    | problem p => exact congrArg Except.ok (forget_recorded alike p same)
    | refused r => rfl
  · rw [made, made']
    exact congrArg Except.ok alike'

theorem Agree.foldlM {ε α : Type} {step step' : Workspace → α → Except ε Workspace} {l l' : List α}
    (each : List.Forall₂ (fun a b => Agree places (fun w => step w a) fun w => step' w b) l l') :
    Agree places (fun w => l.foldlM step w) fun w => l'.foldlM step' w := by
  intro w w' alike
  induction each generalizing w w' with
  | nil => exact congrArg Except.ok alike
  | cons first _ ih =>
    simp only [List.foldlM_cons]
    exact map_bind_congr (first w w' alike) fun v' v same => ih v v' same

/-- the tables of a key are the same but for what is forgotten -/
theorem table?_alike (alike : w'.forget places = w.forget places) (key : String) :
    (w.table? key = none ∧ w'.table? key = none) ∨ ∃ t t', w.table? key = some t ∧ w'.table? key = some t' ∧
      t'.forget places = t.forget places := by
  have found : (w'.table? key).map (Draft.forget places) = (w.table? key).map (Draft.forget places) := by
    rw [← table?_forget, ← table?_forget, alike]
  cases there : w.table? key with
  | none =>
    rw [there, Option.map_none, Option.map_eq_none_iff] at found
    exact Or.inl ⟨rfl, found⟩
  | some t =>
    rw [there, Option.map_some, Option.map_eq_some_iff] at found
    obtain ⟨t', there', same⟩ := found
    exact Or.inr ⟨t, t', rfl, there', same⟩

theorem agree_addConstraint {source source' : Option String} (same : places = false → source' = source)
    (clause : ConstraintClause) : Agree places (fun w => w.onTable key fun t => t.addConstraint d source clause)
      fun w => w.onTable key fun t => t.addConstraint d source' clause := by
  intro w w' alike
  rcases table?_alike alike key with ⟨there, there'⟩ | ⟨t, t', there, there', alike'⟩
  · simp only [onTable, there, there']
    exact congrArg Except.ok alike
  · simp only [onTable, there, there']
    rcases map_eq_map_iff.1 (Draft.addConstraint_congr (d := d) alike' same clause) with
      ⟨failure, made', made⟩ | ⟨x', x, made', made, alike''⟩
    · rw [made, made']
      rfl
    · rw [made, made']
      exact congrArg Except.ok (updateTable_alike alike fun _ _ _ => alike'')

theorem agree_addConstraints {source source' : Option String} (same : places = false → source' = source)
    (clauses : List ConstraintClause) : Agree places (fun w => w.addConstraints d key source clauses)
      fun w => w.addConstraints d key source' clauses :=
  .foldlM (List.forall₂_same.2 fun clause _ => (agree_addConstraint same clause).attempt fun h => ⟨same h, rfl⟩)

theorem forget_reportType (alike : w'.forget places = w.forget places) {source source' : Option String}
    (same : places = false → source' = source) (type : Option TypeName) (reading : TypeReading) (place : String)
    (position : Position) : (w'.reportType type reading place position source').forget places =
      (w.reportType type reading place position source).forget places := by
  unfold reportType
  split_ifs
  · exact forget_found alike (Finding.forget_about fun h => ⟨same h, rfl⟩)
  · exact alike

theorem settle_alike {x y : Except Refusal Workspace} (alike : x.map (forget places) = y.map (forget places)) :
    (settle x).map (forget places) = (settle y).map (forget places) := by
  rcases map_eq_map_iff.1 alike with ⟨r, rfl, rfl⟩ | ⟨v, v', rfl, rfl, same⟩
  · rfl
  · exact congrArg Except.ok same

theorem agree_addColumn {source source' : Option String} (same : places = false → source' = source)
    (clause : ColumnClause) : Agree places (addColumn d key source clause) (addColumn d key source' clause) := by
  intro w w' alike
  have enums := congrArg Workspace.enums alike
  simp only [forget] at enums
  unfold addColumn
  rcases table?_alike alike key with ⟨there, there'⟩ | ⟨t, t', there, there', alike'⟩
  · rw [there, there']
    exact congrArg Except.ok alike
  · have columns : t'.column? d clause.name = t.column? d clause.name :=
      Draft.congr_of_forget (·.column? d clause.name) (fun _ => rfl) alike'
    have label : t'.label? = t.label? := Draft.congr_of_forget Draft.label? (fun _ => rfl) alike'
    rw [there, there', enums]
    simp only [columns, Draft.problem, label]
    split_ifs
    · cases t.label? <;> rfl
    · rw [map_bind_eq, map_bind_eq]
      refine bind_congr fun label => ?_
      rw [map_bind_eq, map_bind_eq]
      refine bind_congr fun reading => settle_alike (agree_addConstraints same clause.constraints _ _ ?_)
      refine updateTable_alike (forget_reportType alike same ..) fun t t' pair => ?_
      exact congrArg (fun x : Draft => { x with columns := x.columns ++ [clause.toColumn reading] }) pair

/-- additions make the same, wherever they are written -/
theorem agree_add (a : Addition) {site site' : Site} (same : places = false → site' = site) :
    Agree places (fun w => add d key w (a, site)) fun w => add d key w (a, site') := by
  have source : places = false → site'.source = site.source := fun h => by rw [same h]
  have place : places = false → site'.source = site.source ∧ site'.position = site.position := fun h => by simp [same h]
  cases a with
  | column clause => exact (agree_addColumn source clause).attempt place
  | constraint clause => exact (agree_addConstraint source clause).attempt place

theorem agree_additions {additions additions' : List (Addition × Site)}
    (same : List.Forall₂ (fun a a' => a'.1 = a.1 ∧ (places = false → a'.2 = a.2)) additions additions') :
    Agree places (fun w => additions.foldlM (add d key) w) fun w => additions'.foldlM (add d key) w := by
  refine .foldlM (same.imp ?_)
  rintro ⟨a, site⟩ ⟨_, site'⟩ ⟨rfl, place⟩
  exact agree_add _ place

/-- a declared table is the same, whatever the number of its statement -/
theorem agree_addTable (st : Statement) (table : CreateTable) (index index' : Nat) :
    Agree places (addTable d st table index) (addTable d st table index') := by
  intro w w' alike
  have started : forget places { w' with tables := w'.tables ++ [newDraft d st table index'] } =
      forget places { w with tables := w.tables ++ [newDraft d st table index] } := by
    obtain ⟨tables, enums, views, findings, errors⟩ := w
    obtain ⟨tables', enums', views', findings', errors'⟩ := w'
    simp only [forget, mk.injEq] at alike
    simp only [forget, List.map_append, alike]
    rfl
  rw [addTable_eq, addTable_eq]
  refine map_bind_congr (agree_additions ?_ _ _ started) fun v' v alike' => ?_
  · exact List.forall₂_same.2 fun _ _ => ⟨rfl, fun _ => rfl⟩
  cases emptyFindings d st table with
  | error r => rfl
  | ok found =>
    obtain ⟨tables, enums, views, findings, errors⟩ := v
    obtain ⟨tables', enums', views', findings', errors'⟩ := v'
    simp only [forget, mk.injEq] at alike'
    simp only [Except.map, forget, List.map_append, alike']

end Workspace

/-! ## Models -/

namespace Draft

variable {t target : Draft} {tables : List Draft}

theorem typeFindings_forget (what targetLabel : String) (e : Placed) (pairs : List (String × String)) :
    (typeFindings d (t.forget places) (target.forget places) what targetLabel (e.forget places) pairs).map
        (Finding.forget places) =
      (typeFindings d t target what targetLabel e pairs).map (Finding.forget places) := by
  simp only [typeFindings, List.map_filterMap]
  refine List.filterMap_congr fun pair _ => ?_
  have own : (t.forget places).column? d pair.1 = t.column? d pair.1 := rfl
  have other : (target.forget places).column? d pair.2 = target.column? d pair.2 := rfl
  rw [own, other]
  cases t.column? d pair.1 with
  | none => rfl
  | some a =>
    cases target.column? d pair.2 with
    | none => rfl
    | some b =>
      dsimp only
      split_ifs
      · rfl
      · exact congrArg some (Finding.forget_about fun kept => (e.place_forget kept).imp_right (congrArg some))

theorem resolve_forget (e : Placed) (k : ForeignKey) :
    ((t.forget places).resolve d (tables.map (Draft.forget places)) (e.forget places) k).map
        (fun r => (r.1, r.2.map (Finding.forget places))) =
      (t.resolve d tables e k).map fun r => (r.1, r.2.map (Finding.forget places)) := by
  have label : (t.forget places).label? = t.label? := rfl
  unfold resolve
  rw [label, find?_key_map (f := Draft.forget places) fun _ _ => rfl, map_bind_eq, map_bind_eq]
  refine bind_congr fun label => ?_
  cases tables.find? fun t => t.key == k.targetKey d with
  | none => rfl
  | some target =>
    have referred : ∀ what, (target.forget places).referredColumns d what k = target.referredColumns d what k := by
      intro what
      simp only [referredColumns, primaryKey?_forget]
      rfl
    have check : ∀ what referred, (target.forget places).checkKey what k referred = target.checkKey what k referred := by
      intro what referred
      simp only [checkKey, uniqueSets_forget]
      rfl
    have ref : (target.forget places).ref? = target.ref? := rfl
    simp only [Option.map_some, referred, check, ref, map_bind_eq]
    refine bind_congr fun referred => bind_congr fun _ => bind_congr fun ref => ?_
    exact congrArg (fun found => Except.ok (_, found)) (typeFindings_forget ..)

/-- what is found at a constraint depends on no places, but for its own -/
theorem keyFindings_forget (e : Placed) :
    ((t.forget places).keyFindings d (tables.map (Draft.forget places)) (e.forget places)).map (Finding.forget places) =
      (t.keyFindings d tables e).map (Finding.forget places) := by
  simp only [keyFindings, resolvePlaced, Placed.constraint_forget]
  cases e.constraint with
  | foreignKey k =>
    dsimp only
    rcases map_eq_map_iff.1 (@resolve_forget d places t tables e k) with
      ⟨failure, made', made⟩ | ⟨r', r, made', made, same⟩
    · rw [made, made']
      cases failure with
      | problem p => exact congrArg (fun f => [f]) (Problem.forget_finding e.place_forget p)
      | refused r => rfl
    · rw [made, made']
      exact (Prod.mk.inj same).2
  | _ => rfl

theorem resolutionFindings_forget :
    ((t.forget places).resolutionFindings d (tables.map (Draft.forget places))).map (Finding.forget places) =
      (t.resolutionFindings d tables).map (Finding.forget places) := by
  have constraints : (t.forget places).constraints = t.constraints.map (Placed.forget places) := rfl
  simp only [resolutionFindings, constraints, List.flatMap_map, List.map_flatMap, keyFindings_forget]

end Draft

namespace Workspace

variable {tables : List Draft}

theorem keylessFindings_forget (t : Draft) :
    (keylessFindings (t.forget places)).map (Finding.forget places) =
      (keylessFindings t).map (Finding.forget places) := by
  simp only [keylessFindings, Draft.primaryKey?_forget, Draft.toTable_forget]
  cases t.primaryKey? with
  | some _ => rfl
  | none =>
    refine congrArg (fun f => [f]) (Finding.forget_about fun kept => ?_)
    subst kept
    exact ⟨rfl, rfl⟩

theorem tableFindings_forget :
    (tableFindings d (tables.map (Draft.forget places))).map (Finding.forget places) =
      (tableFindings d tables).map (Finding.forget places) := by
  simp only [tableFindings, List.map_append, List.map_flatMap, List.flatMap_map, Draft.resolutionFindings_forget,
    keylessFindings_forget]

theorem resolvedTables_forget (w : Workspace) : (w.forget places).resolvedTables d = w.resolvedTables d := by
  have same : Constraint.resolved d (w.tables.map (Draft.forget places)) = Constraint.resolved d w.tables := by
    funext c
    cases c with
    | foreignKey k => rw [Constraint.resolved, Constraint.resolved, resolution?_map fun _ _ => Draft.sameTarget_forget]
    | _ => rfl
  simp only [resolvedTables, forget, List.map_map, Function.comp_def, Draft.toTable_resolved, Draft.toTable_forget, same]

theorem modelErrors_forget (findings : Findings) :
    Findings.modelErrors (findings.map (Finding.forget places)) = findings.modelErrors.map (Finding.forget places) := by
  rw [Findings.modelErrors, Findings.modelErrors, List.filter_map]
  congr 2
  funext f
  cases places <;> rfl

theorem named_perm {w w' : Workspace}
    (same : (w'.forget places).tables.Perm (w.forget places).tables) (named : w.Named) : w'.Named := by
  have origin : ∀ t' ∈ w'.tables, ∃ t ∈ w.tables, t.forget places = t'.forget places := fun t' ht' =>
    List.mem_map.1 (same.mem_iff.1 (List.mem_map_of_mem ht'))
  constructor
  · intro t' ht'
    obtain ⟨t, ht, alike⟩ := origin t' ht'
    rw [← Draft.congr_of_forget Draft.name (fun _ => rfl) alike]
    exact named.tables t ht
  · intro t' ht'
    obtain ⟨t, ht, alike⟩ := origin t' ht'
    rw [← Draft.congr_of_forget Draft.columns (fun _ => rfl) alike]
    exact named.columns t ht

end Workspace

end SchemaApi
