import SchemaApi.Proofs.Schema.Model
/-!
What is added to a table concerns that table only.

A declared table gets its columns and constraints one after the other, and so does a table that is altered by `ADD`
actions; only the places differ at which problems are recorded (`addTable_eq`, `alterActions_eq`). An addition reads
the table and the enum types and changes the table, so it comes to the same whatever other tables there are and
whatever was found before (`isLocal_add`).
-/

namespace SchemaApi

variable {d : Dialect}

/-! ## Additions -/

/-- what is added to a table -/
inductive Addition where
  | column (clause : ColumnClause)
  | constraint (clause : ConstraintClause)

namespace Addition

def position : Addition → Position
  | column clause => clause.position
  | constraint clause => clause.position

/-- the action of `ALTER TABLE` that says the same -/
def action : Addition → TableAction
  | column clause => .addColumn clause false
  | constraint clause => .addConstraint clause

/-- the addition to the table of a key -/
def change (d : Dialect) (key : String) (source : Option String) : Addition → Workspace.Change
  | column clause => Workspace.addColumn d key source clause
  | constraint clause => fun w => w.onTable key fun t => t.addConstraint d source clause

end Addition

/-- what a declaration adds to its table, in order -/
def CreateTable.additions (table : CreateTable) : List Addition :=
  table.columns.map .column ++ table.constraints.map .constraint

/-- to add a constraint or an index changes columns, constraints and indexes -/
theorem Draft.addConstraint_eq {source : Option String} {clause : ConstraintClause} {t t' : Draft}
    (added : t.addConstraint d source clause = .ok t') :
    t' = { t with columns := t'.columns, constraints := t'.constraints, indexes := t'.indexes } := by
  rcases addConstraint_eq_ok added with ⟨-, name, columns, position, rfl⟩ | ⟨c, position, -, rfl⟩ | ⟨index, rfl⟩
  · rw [requireValues_eq]
    rfl
  · rfl
  · rfl

namespace Workspace

/-- adds to the table of a key; a problem is recorded at the given place -/
def add (d : Dialect) (key : String) (w : Workspace) (placed : Addition × Site) : Except Refusal Workspace :=
  w.attempt placed.2.position placed.2.source (placed.1.change d key placed.2.source)

/-- the warning about a table that is declared without columns -/
def emptyFindings (d : Dialect) (st : Statement) (table : CreateTable) : Except Refusal Findings :=
  if table.columns.isEmpty then do
    let label ← (newDraft d st table 0).label?
    return [Finding.about .warning .model "EMPTY_TABLE" s!"Table '{label}' declares no columns" st.source
      (some st.position)]
  else return []

theorem modelErrors_emptyFindings {st : Statement} {table : CreateTable} {found : Findings}
    (run : emptyFindings d st table = .ok found) : found.modelErrors = [] := by
  unfold emptyFindings at run
  split_ifs at run
  · obtain ⟨label, -, made⟩ := bind_eq_ok_iff.1 run
    rw [← pure_eq_ok_iff.1 made]
    rfl
  · rw [← pure_eq_ok_iff.1 run]
    rfl

/-- a declaration adds to a new table, each part at its place -/
theorem addTable_eq (st : Statement) (table : CreateTable) (index : Nat) (w : Workspace) :
    addTable d st table index w =
      (table.additions.map fun a => (a, ⟨a.position, st.source⟩)).foldlM (add d (table.name.key d))
        { w with tables := w.tables ++ [newDraft d st table index] } >>= fun w =>
      (emptyFindings d st table).map fun found => { w with findings := w.findings ++ found } := by
  simp only [addTable, CreateTable.additions, List.map_append, List.map_map, List.foldlM_append, List.foldlM_map,
    bind_assoc]
  refine bind_congr fun w => bind_congr fun w => ?_
  unfold emptyFindings
  split_ifs
  · have label : (newDraft d st table index).label? = (newDraft d st table 0).label? := rfl
    rw [label]
    cases (newDraft d st table 0).label? <;> rfl
  · simp only [pure, Except.pure, Except.map, List.append_nil]

/-- so do the actions of `ALTER TABLE` that add, all of them at the place of the statement -/
theorem alterActions_eq (site : Site) (additions : List Addition) (w : Workspace) (key : String) :
    alterActions d site (additions.map Addition.action) w key =
      (additions.map fun a => (a, site)).foldlM (add d key) w := by
  induction additions generalizing w with
  | nil => rfl
  | cons a rest ih =>
    have step : alterAction d site key a.action w = (a.change d key site.source w).map (·, key) := by
      cases a <;> rfl
    rw [List.map_cons, List.map_cons, List.foldlM_cons, alterActions, step, add, attempt]
    cases a.change d key site.source w with
    | ok w' => exact ih w'
    | error failure =>
      cases failure with
      | problem p => exact ih _
      | refused r => rfl

/-! ## Surroundings -/

/-- what there is besides the tables of a workspace, and its own -/
structure Surroundings where
  left : List Draft
  right : List Draft
  enums : List (String × EnumType)
  views : List (String × View)
  findings : Findings
  errors : Findings

/-- a workspace among other tables, after other findings and errors -/
def within (c : Surroundings) (w : Workspace) : Workspace where
  tables := c.left ++ w.tables ++ c.right
  enums := c.enums
  views := c.views
  findings := c.findings ++ w.findings
  errors := c.errors ++ w.errors

/-- the surroundings have no table of a key, and the same enum types under all names -/
structure Surroundings.Suits (c : Surroundings) (key : String) (enums : List (String × EnumType)) : Prop where
  left : ∀ t ∈ c.left, t.key ≠ key
  right : ∀ t ∈ c.right, t.key ≠ key
  enums : ∀ name, c.enums.lookup name = enums.lookup name

/-- besides what its tables are made of, nothing changed in a workspace -/
structure SameOutline (w w' : Workspace) : Prop where
  keys : w'.tables.map (·.key) = w.tables.map (·.key)
  names : ∀ t' ∈ w'.tables, ∃ t ∈ w.tables, t'.name = t.name
  enums : w'.enums = w.enums
  views : w'.views = w.views

theorem SameOutline.of_tables {w w' : Workspace} (tables : w'.tables = w.tables) (enums : w'.enums = w.enums)
    (views : w'.views = w.views) : SameOutline w w' :=
  ⟨by rw [tables], fun t ht => ⟨t, tables ▸ ht, rfl⟩, enums, views⟩

theorem SameOutline.refl (w : Workspace) : SameOutline w w := .of_tables rfl rfl rfl

theorem SameOutline.trans {w w' w'' : Workspace} (first : SameOutline w w') (second : SameOutline w' w'') :
    SameOutline w w'' where
  keys := second.keys.trans first.keys
  names t'' ht'' := by
    obtain ⟨t', ht', same'⟩ := second.names t'' ht''
    obtain ⟨t, ht, same⟩ := first.names t' ht'
    exact ⟨t, ht, same'.trans same⟩
  enums := second.enums.trans first.enums
  views := second.views.trans first.views

/-- the change concerns the table of a key only -/
structure IsLocal {ε : Type} (key : String) (change : Workspace → Except ε Workspace) : Prop where
  frame : ∀ c : Surroundings, ∀ w, c.Suits key w.enums → change (w.within c) = (change w).map (within c)
  keeps : ∀ w w', change w = .ok w' → SameOutline w w'

section
variable {c : Surroundings} {key : String} {w : Workspace} {ε : Type}

theorem table?_within (suits : c.Suits key w.enums) : (w.within c).table? key = w.table? key := by
  have left : c.left.find? (fun t => t.key == key) = none :=
    List.find?_eq_none.2 fun t ht => by simpa using suits.left t ht
  have right : c.right.find? (fun t => t.key == key) = none :=
    List.find?_eq_none.2 fun t ht => by simpa using suits.right t ht
  rw [table?, within, List.find?_append, List.find?_append, left, right, Option.none_or, Option.or_none]
  rfl

/-- tables of other keys are not changed -/
theorem map_ite_of_key_ne {f : Draft → Draft} {l : List Draft} (others : ∀ t ∈ l, t.key ≠ key) :
    (l.map fun t => if t.key == key then f t else t) = l := by
  refine (List.map_congr_left fun t ht => ?_).trans (List.map_id l)
  exact if_neg (by simpa using others t ht)

theorem updateTable_within (suits : c.Suits key w.enums) (f : Draft → Draft) :
    (w.within c).updateTable key f = (w.updateTable key f).within c := by
  simp only [updateTable, within, List.map_append, map_ite_of_key_ne suits.left, map_ite_of_key_ne suits.right]

/-- a table may get other columns, constraints and indexes -/
theorem sameOutline_updateTable {f : Draft → Draft}
    (same : ∀ t ∈ w.tables, t.key = key → (f t).key = key ∧ ∃ x ∈ w.tables, (f t).name = x.name) :
    SameOutline w (w.updateTable key f) where
  keys := by
    rw [updateTable, List.map_map]
    refine List.map_congr_left fun t ht => ?_
    simp only [Function.comp_apply]
    split_ifs with own
    · rw [(same t ht (by simpa using own)).1, beq_iff_eq.1 own]
    · rfl
  names := by
    refine List.forall_mem_map.2 fun t ht => ?_
    split_ifs with own
    · exact (same t ht (by simpa using own)).2
    · exact ⟨t, ht, rfl⟩
  enums := rfl
  views := rfl

theorem report_within (severity : Severity) (code message : String) (position : Position) (source : Option String) :
    (w.within c).report severity code message position source =
      (w.report severity code message position source).within c := by
  simp only [report, within, List.append_assoc]

theorem reportType_within (type : Option TypeName) (reading : TypeReading) (place : String) (position : Position)
    (source : Option String) : (w.within c).reportType type reading place position source =
      (w.reportType type reading place position source).within c := by
  unfold reportType
  split_ifs
  · exact report_within ..
  · rfl

theorem sameOutline_reportType (type : Option TypeName) (reading : TypeReading) (place : String) (position : Position)
    (source : Option String) : SameOutline w (w.reportType type reading place position source) := by
  unfold reportType
  split_ifs <;> exact .of_tables rfl rfl rfl

theorem IsLocal.attempt {change : Change} (isLocal : IsLocal key change) (position : Position) (source : Option String) :
    IsLocal key fun w => w.attempt position source change where
  frame c w suits := by
    simp only [Workspace.attempt, isLocal.frame c w suits]
    cases change w with
    | ok w' => rfl
    | error failure =>
      cases failure with
      | problem p => simp only [Except.map, record, within, List.append_assoc]
      | refused r => rfl
  keeps w w' run := by
    simp only [Workspace.attempt] at run
    split at run
    · rename_i w₁ made
      rw [← Except.ok.inj run]
      exact isLocal.keeps w w₁ made
    · rw [← Except.ok.inj run]
      exact .of_tables rfl rfl rfl
    · simp at run

theorem IsLocal.foldlM {α : Type} {step : Workspace → α → Except ε Workspace} {l : List α}
    (each : ∀ a ∈ l, IsLocal key fun w => step w a) : IsLocal key fun w => l.foldlM step w where
  frame c w suits := by
    induction l generalizing w with
    | nil => rfl
    | cons a l ih =>
      have first := each a List.mem_cons_self
      simp only [List.foldlM_cons, first.frame c w suits]
      cases made : step w a with
      | error e => rfl
      | ok w' =>
        have kept := (first.keeps w w' made).enums
        exact ih (fun b hb => each b (List.mem_cons_of_mem a hb)) w' (kept.symm ▸ suits)
  keeps w w' run := by
    refine foldlM_keeps (P := SameOutline w) (fun a ha w₁ w₂ same made => ?_) (SameOutline.refl w) run
    exact same.trans ((each a ha).keeps w₁ w₂ made)

theorem IsLocal.settle {change : Workspace → Except Refusal Workspace} (isLocal : IsLocal key change) :
    IsLocal key fun w => Workspace.settle (change w) where
  frame c w suits := by
    simp only [isLocal.frame c w suits]
    cases change w <;> rfl
  keeps w w' run := isLocal.keeps w w' (settle_eq_ok_iff.1 run)

/-! ### What local changes are made of -/

theorem IsLocal.ok {f : Workspace → Workspace} (frame : ∀ c w, c.Suits key w.enums → f (w.within c) = (f w).within c)
    (keeps : ∀ w, SameOutline w (f w)) : IsLocal key fun w => (.ok (f w) : Except ε Workspace) where
  frame c w suits := congrArg Except.ok (frame c w suits)
  keeps w _ run := Except.ok.inj run ▸ keeps w

/-- what stops at once concerns no table -/
theorem IsLocal.stop {x : Except ε Workspace} (stops : ∀ w, x ≠ .ok w) : IsLocal key fun _ => x where
  frame c w _ := by
    cases made : x with
    | error e => rfl
    | ok w' => exact absurd made (stops w')
  keeps _ w' run := absurd run (stops w')

theorem IsLocal.bind {first second : Workspace → Except ε Workspace} (h : IsLocal key first)
    (h' : IsLocal key second) : IsLocal key fun w => first w >>= second where
  frame c w suits := by
    simp only [h.frame c w suits]
    cases made : first w with
    | error e => rfl
    | ok v => exact h'.frame c v ((h.keeps w v made).enums.symm ▸ suits)
  keeps w w' run := by
    obtain ⟨v, made, run⟩ := bind_eq_ok_iff.1 run
    exact (h.keeps w v made).trans (h'.keeps v w' run)

/-- what is read without the schema may decide what is done -/
theorem IsLocal.behind {α : Type} {x : Except ε α} {change : α → Workspace → Except ε Workspace}
    (each : ∀ a, IsLocal key (change a)) : IsLocal key fun w => x >>= fun a => change a w := by
  cases x with
  | error e => exact .stop fun _ run => by cases run
  | ok a => exact each a

/-- so may what the enum types say -/
theorem IsLocal.behindEnums {α : Type} {read : List (String × EnumType) → Except ε α}
    {change : α → Workspace → Except ε Workspace}
    (congr : ∀ enums enums' : List (String × EnumType), (∀ name, enums'.lookup name = enums.lookup name) →
      read enums' = read enums)
    (each : ∀ a, IsLocal key (change a)) : IsLocal key fun w => read w.enums >>= fun a => change a w where
  frame c w suits := by
    have same : read (w.within c).enums = read w.enums := congr w.enums c.enums suits.enums
    simp only [same]
    cases read w.enums with
    | error e => rfl
    | ok a => exact (each a).frame c w suits
  keeps w w' run := by
    obtain ⟨a, -, run⟩ := bind_eq_ok_iff.1 run
    exact (each a).keeps w w' run

/-- so may what the table of the key is -/
theorem IsLocal.atTable {absent : Workspace → Except ε Workspace} {present : Draft → Workspace → Except ε Workspace}
    (missing : IsLocal key absent) (there : ∀ t : Draft, t.key = key → IsLocal key (present t)) :
    IsLocal key fun w => match w.table? key with
      | none => absent w
      | some t => present t w where
  frame c w suits := by
    simp only [table?_within suits]
    cases found : w.table? key with
    | none => exact missing.frame c w suits
    | some t => exact (there t (table?_eq_some found).2).frame c w suits
  keeps w w' run := by
    split at run
    · exact missing.keeps w w' run
    · rename_i t found
      exact (there t (table?_eq_some found).2).keeps w w' run

theorem isLocal_self : IsLocal key fun w => (.ok w : Except ε Workspace) :=
  .ok (fun _ _ _ => rfl) SameOutline.refl

theorem isLocal_report (severity : Severity) (code message : String) (position : Position) (source : Option String) :
    IsLocal key fun w => (.ok (w.report severity code message position source) : Except ε Workspace) :=
  .ok (fun _ _ _ => report_within ..) fun _ => .of_tables rfl rfl rfl

theorem isLocal_reportType (type : Option TypeName) (reading : TypeReading) (place : String) (position : Position)
    (source : Option String) :
    IsLocal key fun w => (.ok (w.reportType type reading place position source) : Except ε Workspace) :=
  .ok (fun _ _ _ => reportType_within ..) fun _ => sameOutline_reportType ..

theorem isLocal_updateTable {f : Draft → Draft} (same : ∀ t, (f t).key = t.key ∧ (f t).name = t.name) :
    IsLocal key fun w => (.ok (w.updateTable key f) : Except ε Workspace) :=
  .ok (fun _ _ suits => updateTable_within suits f) fun _ =>
    sameOutline_updateTable fun t ht own => ⟨(same t).1.trans own, t, ht, (same t).2⟩

theorem isLocal_problem (t : Draft) (p : String → Problem) :
    IsLocal key fun _ => (t.problem p : Except Failure Workspace) :=
  .stop fun _ made => Draft.problem_eq_ok_iff.1 made

/-- the table of the key may be replaced by one of its key and name -/
theorem sameOutline_replace {t t' : Draft} (found : w.table? key = some t) (same : t'.key = t.key ∧ t'.name = t.name) :
    SameOutline w (w.updateTable key fun _ => t') := by
  obtain ⟨ht, own⟩ := table?_eq_some found
  exact sameOutline_updateTable fun x hx _ => ⟨same.1.trans own, t, ht, same.2⟩

theorem IsLocal.onTable {change : Draft → Except Failure Draft}
    (same : ∀ t t', change t = .ok t' → t'.key = t.key ∧ t'.name = t.name) :
    IsLocal key fun w => w.onTable key change where
  frame c w suits := by
    simp only [Workspace.onTable, table?_within suits]
    cases w.table? key with
    | none => rfl
    | some t =>
      cases made : change t with
      | error failure => simp only [made, Except.map]
      | ok t' => simp only [made, Except.map, updateTable_within suits]
  keeps w w' run := by
    simp only [Workspace.onTable] at run
    split at run
    · rw [← Except.ok.inj run]
      exact .refl w
    · rename_i t found
      obtain ⟨t', made, rfl⟩ := map_eq_ok_iff.1 run
      exact sameOutline_replace found (same t t' made)

/-! ### Additions are local -/

theorem isLocal_addConstraint (source : Option String) (clause : ConstraintClause) :
    IsLocal key fun w => w.onTable key fun t => t.addConstraint d source clause := by
  refine .onTable fun t t' added => ?_
  rw [Draft.addConstraint_eq added]
  exact ⟨rfl, rfl⟩

theorem isLocal_addConstraints (source : Option String) (clauses : List ConstraintClause) :
    IsLocal key fun w => w.addConstraints d key source clauses :=
  .foldlM fun clause _ => (isLocal_addConstraint source clause).attempt clause.position source

theorem readType?_congr {enums enums' : List (String × EnumType)} (same : ∀ name, enums'.lookup name = enums.lookup name)
    (type : Option TypeName) : readType? d enums' type = readType? d enums type := by
  cases type with
  | none => rfl
  | some t =>
    have rule : ruleFor d enums' t = ruleFor d enums t := by simp only [ruleFor, same]
    rw [readType?, readType?, readType, readType, rule]

/-- a type may be read and reported before the table is changed -/
theorem IsLocal.behindType {type : Option TypeName} {change : TypeReading → Change}
    (each : ∀ reading, IsLocal key (change reading)) :
    IsLocal key fun w => Workspace.settle (readType? d w.enums type) >>= fun reading => change reading w :=
  .behindEnums (fun _ _ same => congrArg Workspace.settle (readType?_congr same type)) each

theorem isLocal_addColumn (source : Option String) (clause : ColumnClause) :
    IsLocal key (addColumn d key source clause) := by
  refine .atTable isLocal_self fun t _ => ?_
  by_cases present : (t.column? d clause.name).isSome = true
  · simp only [if_pos present]
    exact isLocal_problem t _
  · simp only [if_neg present]
    refine .behind fun label => .behindType fun reading => ?_
    have reported : IsLocal key fun w => (.ok (w.reportType clause.type reading s!"{label}.{clause.name}"
        clause.position source) : Except Failure Workspace) := isLocal_reportType ..
    have extended : IsLocal key fun w => (.ok (w.updateTable key fun t =>
        { t with columns := t.columns ++ [clause.toColumn reading] }) : Except Failure Workspace) :=
      isLocal_updateTable fun _ => ⟨rfl, rfl⟩
    exact reported.bind (extended.bind (isLocal_addConstraints source clause.constraints).settle)

/-- an addition concerns its table only -/
theorem isLocal_add (placed : Addition × Site) : IsLocal key fun w => w.add d key placed := by
  obtain ⟨a, site⟩ := placed
  cases a with
  | column clause => exact (isLocal_addColumn site.source clause).attempt site.position site.source
  | constraint clause => exact (isLocal_addConstraint site.source clause).attempt site.position site.source

/-- so do any number of them -/
theorem isLocal_additions (additions : List (Addition × Site)) :
    IsLocal key fun w => additions.foldlM (add d key) w :=
  .foldlM fun placed _ => isLocal_add placed

theorem foldlM_add_within (suits : c.Suits key w.enums) (additions : List (Addition × Site)) :
    additions.foldlM (add d key) (w.within c) = (additions.foldlM (add d key) w).map (within c) :=
  (isLocal_additions additions).frame c w suits

/-- what was found before has no part in them -/
theorem foldlM_add_findings (additions : List (Addition × Site)) : additions.foldlM (add d key) w =
    (additions.foldlM (add d key) { w with findings := [], errors := [] }).map fun u =>
      { u with findings := w.findings ++ u.findings, errors := w.errors ++ u.errors } := by
  have framed : w = within ⟨[], [], w.enums, w.views, w.findings, w.errors⟩ { w with findings := [], errors := [] } := by
    simp only [within, List.nil_append, List.append_nil]
  conv_lhs => rw [framed, foldlM_add_within ⟨by simp, by simp, fun _ => rfl⟩]
  cases made : additions.foldlM (add d key) { w with findings := [], errors := [] } with
  | error r => rfl
  | ok u =>
    have kept := (isLocal_additions additions).keeps _ u made
    simp only [Except.map, within, kept.enums, kept.views, List.nil_append, List.append_nil]

end

end Workspace

end SchemaApi
