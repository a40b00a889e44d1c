import SchemaApi.Proofs.Schema.Agreement
import SchemaApi.Proofs.Schema.Regular
/-!
What model the tables of a schema come to.

Where all names are there, resolution is not refused, and the model is a function of the tables: each foreign key
becomes what it resolves to among them, if it does (`resolution?`), and everything else stays. So there is a model
exactly if all tables and columns have names (`exists_build_iff`), and it is valid exactly if no statement was an
error and every foreign key resolves (`isValid_iff`).
-/

namespace SchemaApi

variable {d : Dialect}

/-! ## One foreign key -/

namespace Draft

/-- the columns of a table that a foreign key refers to -/
def referred? (d : Dialect) (target : Draft) (k : ForeignKey) : Option (List String) :=
  if k.targetColumns.isEmpty then target.primaryKey?
  else k.targetColumns.mapM fun n => (target.column? d n).map (·.name)

end Draft

/-- the foreign key as it refers to one of the tables, if the columns that it refers to are a key of that table -/
def resolution? (d : Dialect) (tables : List Draft) (k : ForeignKey) : Option ForeignKey :=
  (tables.find? fun t => t.key == k.targetKey d).bind fun target =>
    (target.referred? d k).bind fun referred =>
      if referred.length = k.columns.length ∧ referred ∈ target.uniqueSets then
        some { k with target := target.toTable.ref, targetColumns := referred }
      else none

theorem resolution?_eq_some_iff {tables : List Draft} {k k' : ForeignKey} : resolution? d tables k = some k' ↔
    ∃ target referred, tables.find? (fun t => t.key == k.targetKey d) = some target ∧
      target.referred? d k = some referred ∧ referred.length = k.columns.length ∧ referred ∈ target.uniqueSets ∧
      k' = { k with target := target.toTable.ref, targetColumns := referred } := by
  simp only [resolution?, Option.bind_eq_some_iff, Option.ite_none_right_eq_some, Option.some.injEq]
  constructor
  · rintro ⟨target, found, referred, columns, ⟨lengths, known⟩, rfl⟩
    exact ⟨target, referred, found, columns, lengths, known, rfl⟩
  · rintro ⟨target, referred, found, columns, lengths, known, rfl⟩
    exact ⟨target, found, referred, columns, ⟨lengths, known⟩, rfl⟩

/-- what the columns of a foreign key are resolved to -/
theorem isSome_resolution?_iff {tables : List Draft} {k : ForeignKey} : (resolution? d tables k).isSome = true ↔
    ∃ target referred, tables.find? (fun t => t.key == k.targetKey d) = some target ∧
      target.referred? d k = some referred ∧ referred.length = k.columns.length ∧ referred ∈ target.uniqueSets := by
  rw [Option.isSome_iff_exists]
  constructor
  · rintro ⟨k', resolves⟩
    obtain ⟨target, referred, found, columns, lengths, known, -⟩ := resolution?_eq_some_iff.1 resolves
    exact ⟨target, referred, found, columns, lengths, known⟩
  · rintro ⟨target, referred, found, columns, lengths, known⟩
    exact ⟨_, resolution?_eq_some_iff.2 ⟨target, referred, found, columns, lengths, known, rfl⟩⟩

/-! ### Tables that are the same to refer to -/

namespace Draft

/-- the tables are the same to a foreign key that refers to one of them -/
structure SameTarget (t t' : Draft) : Prop where
  key : t'.key = t.key
  ref : t'.toTable.ref = t.toTable.ref
  columns : t'.columns = t.columns
  primaryKey : t'.primaryKey? = t.primaryKey?
  uniqueSets : t'.uniqueSets = t.uniqueSets

variable {t t' : Draft}

/-- a table is the same to refer to, whatever its foreign keys are -/
theorem sameTarget_of_constraints {cs : List Placed}
    (others : ∀ f : Constraint → Option (List String), (∀ k, f (.foreignKey k) = none) →
      (cs.map (·.constraint)).filterMap f = t.toTable.constraints.filterMap f) :
    SameTarget t { t with constraints := cs } := by
  have primary := others (·.primaryColumns?) fun _ => rfl
  have unique := others (·.uniqueColumns?) fun _ => rfl
  have key : primaryKey? { t with constraints := cs } = t.primaryKey? := by
    rw [primaryKey?, primaryKey?, Table.primaryKey?, Table.primaryKey?, ← List.head?_filterMap,
      ← List.head?_filterMap, ← primary]
    rfl
  refine ⟨rfl, rfl, rfl, key, ?_⟩
  simp only [primaryKey?] at key
  simp only [uniqueSets, Table.uniqueSets, Table.primaryColumns, key, Table.uniqueConstraints, ← unique]
  rfl

theorem SameTarget.referred? (same : SameTarget t t') (k : ForeignKey) : t'.referred? d k = t.referred? d k := by
  rw [Draft.referred?, Draft.referred?, same.primaryKey]
  simp only [column?, same.columns]

theorem sameTarget_dropForeignKeysTo (key : String) (column : Option String) :
    SameTarget t (t.dropForeignKeysTo d key column) := by
  refine sameTarget_of_constraints fun f other => ?_
  simp only [toTable, List.filterMap_map, List.filterMap_filter]
  refine List.filterMap_congr fun e _ => ?_
  cases isKey : e.constraint with
  | foreignKey k => simp [isKey, other k]
  | _ => simp [isKey]

theorem sameTarget_mapForeignKeys (f : ForeignKey → ForeignKey) : SameTarget t (t.mapForeignKeys f) := by
  refine sameTarget_of_constraints fun g other => ?_
  simp only [toTable, List.filterMap_map]
  refine List.filterMap_congr fun e _ => ?_
  cases isKey : e.constraint with
  | foreignKey k => simp [isKey, other]
  | _ => simp [isKey]

theorem find?_key_map {tables : List Draft} {f : Draft → Draft} (keys : ∀ t ∈ tables, (f t).key = t.key)
    (key : String) : (tables.map f).find? (fun t => t.key == key) = (tables.find? fun t => t.key == key).map f := by
  induction tables with
  | nil => rfl
  | cons t rest ih =>
    rw [List.map_cons, List.find?_cons, List.find?_cons, keys t List.mem_cons_self]
    split
    · rfl
    · exact ih fun t' ht' => keys t' (List.mem_cons_of_mem t ht')

end Draft

/-- foreign keys resolve to the same among tables that are the same to refer to -/
theorem resolution?_map {tables : List Draft} {f : Draft → Draft} (same : ∀ t ∈ tables, t.SameTarget (f t))
    (k : ForeignKey) : resolution? d (tables.map f) k = resolution? d tables k := by
  rw [resolution?, resolution?, Draft.find?_key_map fun t ht => (same t ht).key]
  cases found : tables.find? fun t => t.key == k.targetKey d with
  | none => rfl
  | some target =>
    have alike := same target (List.mem_of_find?_eq_some found)
    simp only [Option.map_some, Option.bind_some, alike.referred?, alike.ref, alike.uniqueSets]

/-- a constraint with its foreign key resolved, if it resolves -/
def Constraint.resolved (d : Dialect) (tables : List Draft) : Constraint → Constraint
  | .foreignKey k => .foreignKey ((resolution? d tables k).getD k)
  | c => c

theorem Constraint.eq_foreignKey {c : Constraint} {k : ForeignKey} (isKey : c.foreignKey? = some k) :
    c = .foreignKey k := by
  cases c with
  | foreignKey k' => rw [← Option.some.inj isKey]
  | _ => simp [Constraint.foreignKey?] at isKey

theorem Constraint.resolved_of_foreignKey?_eq_none {tables : List Draft} {c : Constraint}
    (other : c.foreignKey? = none) : c.resolved d tables = c := by
  cases c with
  | foreignKey k => simp [Constraint.foreignKey?] at other
  | _ => rfl

namespace Draft

variable {tables : List Draft} {t target : Draft}

/-- a table with its foreign keys resolved, as far as they resolve -/
def resolved (d : Dialect) (tables : List Draft) (t : Draft) : Draft :=
  { t with constraints := t.constraints.map fun e => { e with constraint := e.constraint.resolved d tables } }

theorem toTable_resolved : (t.resolved d tables).toTable =
    { t.toTable with constraints := t.toTable.constraints.map (Constraint.resolved d tables) } := by
  simp only [resolved, toTable, List.map_map]
  rfl

theorem sameTarget_resolved : SameTarget t (t.resolved d tables) := by
  refine sameTarget_of_constraints fun f other => ?_
  simp only [toTable, List.filterMap_map]
  refine List.filterMap_congr fun e _ => ?_
  cases isKey : e.constraint with
  | foreignKey k => simp [Constraint.resolved, isKey, other]
  | _ => simp [Constraint.resolved, isKey]

theorem ref?_eq (named : t.name ≠ "") : t.ref? = .ok t.toTable.ref := by
  rw [ref?, if_neg named]
  rfl

theorem label?_eq (named : t.name ≠ "") : t.label? = .ok t.toTable.ref.text := by
  rw [label?, ref?_eq named]
  rfl

theorem problem_eq {α : Type} (named : t.name ≠ "") (p : String → Problem) :
    (t.problem p : Except Failure α) = .error (.problem (p t.toTable.ref.text)) := by
  rw [problem, label?_eq named]

theorem requireColumn_eq (named : t.name ≠ "") (name what : String) : t.requireColumn d name what =
    match t.column? d name with
    | some c => .ok c
    | none => .error (.problem (.unknownColumn what t.toTable.ref.text name)) := by
  cases found : t.column? d name with
  | some c => simp only [requireColumn, found]
  | none => simp only [requireColumn, found, label?_eq named]

/-- names of columns are found as a whole, or one of them is a problem -/
theorem canonical_cases (named : t.name ≠ "") (names : List String) (what : String) :
    (∃ cols, names.mapM (fun n => (t.column? d n).map (·.name)) = some cols ∧
      t.canonical d names what = .ok cols) ∨
    (names.mapM (fun n => (t.column? d n).map (·.name)) = none ∧
      ∃ p, t.canonical d names what = .error (.problem p)) := by
  unfold canonical
  induction names with
  | nil => exact Or.inl ⟨[], rfl, rfl⟩
  | cons n rest ih =>
    simp only [List.mapM_cons, requireColumn_eq named]
    cases t.column? d n with
    | none => exact Or.inr ⟨rfl, _, rfl⟩
    | some c =>
      rcases ih with ⟨cols, found, read⟩ | ⟨missing, p, unread⟩
      · rw [found]
        simp only [requireColumn_eq named] at read
        rw [read]
        exact Or.inl ⟨_, rfl, rfl⟩
      · rw [missing]
        simp only [requireColumn_eq named] at unread
        rw [unread]
        exact Or.inr ⟨rfl, p, rfl⟩

theorem referredColumns_cases (named : target.name ≠ "") (what : String) (k : ForeignKey) :
    (∃ cols, target.referred? d k = some cols ∧ target.referredColumns d what k = .ok cols) ∨
    (target.referred? d k = none ∧ ∃ p, target.referredColumns d what k = .error (.problem p)) := by
  unfold referred? referredColumns
  split_ifs
  · cases target.primaryKey? with
    | none => exact Or.inr ⟨rfl, _, problem_eq named _⟩
    | some cols => exact Or.inl ⟨cols, rfl, rfl⟩
  · exact canonical_cases named ..

theorem checkKey_cases (named : target.name ≠ "") (what : String) (k : ForeignKey) (referred : List String) :
    (referred.length = k.columns.length ∧ referred ∈ target.uniqueSets ∧ target.checkKey what k referred = .ok ()) ∨
    (¬ (referred.length = k.columns.length ∧ referred ∈ target.uniqueSets) ∧
      ∃ p, target.checkKey what k referred = .error (.problem p)) := by
  unfold checkKey
  split_ifs with unlike known reordered
  · exact Or.inr ⟨fun h => unlike h.1, _, rfl⟩
  · exact Or.inl ⟨not_not.1 unlike, List.contains_iff_mem.1 known, rfl⟩
  · exact Or.inr ⟨fun h => known (List.contains_iff_mem.2 h.2), _, problem_eq named _⟩
  · exact Or.inr ⟨fun h => known (List.contains_iff_mem.2 h.2), _, problem_eq named _⟩

/-- where tables have names, a foreign key resolves or is a problem -/
theorem resolve_cases (named : t.name ≠ "") (all : ∀ x ∈ tables, x.name ≠ "") (e : Placed) (k : ForeignKey) :
    (∃ k' findings, resolution? d tables k = some k' ∧ t.resolve d tables e k = .ok (k', findings)) ∨
    (resolution? d tables k = none ∧ ∃ p, t.resolve d tables e k = .error (.problem p)) := by
  unfold resolution? resolve
  rw [label?_eq named]
  cases found : tables.find? fun t => t.key == k.targetKey d with
  | none => exact Or.inr ⟨rfl, _, rfl⟩
  | some target =>
    have there := all target (List.mem_of_find?_eq_some found)
    rcases referredColumns_cases (d := d) there (keyLabel t.toTable.ref.text k) k with
      ⟨cols, found, read⟩ | ⟨missing, p, unread⟩
    · rcases checkKey_cases there (keyLabel t.toTable.ref.text k) k cols with
        ⟨lengths, known, fine⟩ | ⟨unlike, p, wrong⟩
      · refine Or.inl ⟨{ k with target := target.toTable.ref, targetColumns := cols },
          typeFindings d t target (keyLabel t.toTable.ref.text k) target.toTable.ref.text e (k.columns.zip cols), ?_, ?_⟩
        · rw [Option.bind_some, found, Option.bind_some, if_pos ⟨lengths, known⟩]
        · simp only [Workspace.settle, Except.mapError, bind, Except.bind, read, fine, ref?_eq there, pure, Except.pure]
      · refine Or.inr ⟨?_, p, ?_⟩
        · rw [Option.bind_some, found, Option.bind_some, if_neg unlike]
        · simp only [Workspace.settle, Except.mapError, bind, Except.bind, read, wrong]
    · refine Or.inr ⟨?_, p, ?_⟩
      · rw [Option.bind_some, missing, Option.bind_none]
      · simp only [Workspace.settle, Except.mapError, bind, Except.bind, unread]

/-- what is reported when a constraint is resolved -/
def keyFindings (d : Dialect) (tables : List Draft) (t : Draft) (e : Placed) : Findings :=
  match t.resolvePlaced d tables e with
  | .ok (_, found) => found.findings
  | .error _ => []

/-- a constraint is resolved, or stays; the errors entered are those among what is reported -/
theorem resolvePlaced_eq (named : t.name ≠ "") (all : ∀ x ∈ tables, x.name ≠ "") (e : Placed) :
    t.resolvePlaced d tables e = .ok ({ e with constraint := e.constraint.resolved d tables },
      { findings := t.keyFindings d tables e, errors := (t.keyFindings d tables e).modelErrors }) := by
  have settled : ∃ found, t.resolvePlaced d tables e =
      .ok ({ e with constraint := e.constraint.resolved d tables }, found) := by
    unfold resolvePlaced
    split
    · rename_i k isKey
      rw [isKey, Constraint.resolved]
      rcases resolve_cases (d := d) named all e k with ⟨k', findings, found, run⟩ | ⟨missing, p, run⟩
      · rw [found, run]
        exact ⟨_, rfl⟩
      · rw [missing, run, Option.getD_none, ← isKey]
        exact ⟨_, rfl⟩
    · rename_i other
      refine ⟨{}, ?_⟩
      rw [Constraint.resolved_of_foreignKey?_eq_none]
      cases constraint : e.constraint with
      | foreignKey k => exact absurd constraint (other k)
      | _ => rfl
  obtain ⟨found, run⟩ := settled
  have tallied := (settled_of_resolvePlaced run).tallied
  rw [keyFindings, run]
  exact congrArg (fun errors => Except.ok (_, Ledger.mk found.findings errors)) tallied

/-- a constraint is no error if it is no foreign key, or one that resolves -/
theorem modelErrors_keyFindings_eq_nil_iff (named : t.name ≠ "") (all : ∀ x ∈ tables, x.name ≠ "") (e : Placed) :
    (t.keyFindings d tables e).modelErrors = [] ↔
      ∀ k, e.constraint.foreignKey? = some k → (resolution? d tables k).isSome = true := by
  have run := resolvePlaced_eq (d := d) named all e
  unfold resolvePlaced at run
  split at run
  · rename_i k isKey
    rw [isKey]
    simp only [Constraint.foreignKey?, Option.some.injEq, forall_eq']
    rcases resolve_cases (d := d) named all e k with ⟨k', findings, found, done⟩ | ⟨missing, p, done⟩
    · rw [done] at run
      have none := (Ledger.mk.inj (Prod.mk.inj (Except.ok.inj run)).2).2
      simp [← none, found]
    · rw [done] at run
      have recorded := (Ledger.mk.inj (Prod.mk.inj (Except.ok.inj run)).2).2
      simp [← recorded, missing]
  · rename_i other
    have none := (Ledger.mk.inj (Prod.mk.inj (Except.ok.inj run)).2).2
    rw [← none]
    refine ⟨fun _ k isKey => absurd isKey ?_, fun _ => rfl⟩
    cases constraint : e.constraint with
    | foreignKey k => exact absurd constraint (other k)
    | _ => simp [Constraint.foreignKey?]

/-- what is reported when a table is resolved -/
def resolutionFindings (d : Dialect) (tables : List Draft) (t : Draft) : Findings :=
  t.constraints.flatMap (t.keyFindings d tables)

theorem modelErrors_resolutionFindings (t : Draft) : (t.resolutionFindings d tables).modelErrors =
    t.constraints.flatMap fun e => (t.keyFindings d tables e).modelErrors :=
  List.filter_flatMap ..

theorem resolveTable_eq (named : t.name ≠ "") (all : ∀ x ∈ tables, x.name ≠ "") :
    t.resolveTable d tables = .ok (t.resolved d tables,
      { findings := t.resolutionFindings d tables, errors := (t.resolutionFindings d tables).modelErrors }) := by
  have run := mapM_eq_ok_of_forall fun e (_ : e ∈ t.constraints) => resolvePlaced_eq (d := d) named all e
  rw [resolveTable, run, modelErrors_resolutionFindings]
  simp only [bind, Except.bind, pure, Except.pure, List.map_map, List.flatMap_map]
  rfl

theorem modelErrors_resolutionFindings_eq_nil_iff (named : t.name ≠ "") (all : ∀ x ∈ tables, x.name ≠ "") :
    (t.resolutionFindings d tables).modelErrors = [] ↔
      ∀ k ∈ t.toTable.foreignKeys, (resolution? d tables k).isSome = true := by
  rw [modelErrors_resolutionFindings, List.flatMap_eq_nil_iff]
  simp only [modelErrors_keyFindings_eq_nil_iff named all, Table.foreignKeys, toTable, List.mem_filterMap,
    List.mem_map]
  constructor
  · rintro each k ⟨_, ⟨e, he, rfl⟩, isKey⟩
    exact each e he k isKey
  · intro each e he k isKey
    exact each k ⟨_, ⟨e, he, rfl⟩, isKey⟩

end Draft

/-! ## The model -/

namespace Workspace

/-- the model of a schema, restricted to a schema name if one is given -/
def build (d : Dialect) (schemaFilter : Option String) (w : Workspace) : Except Refusal Built := do
  let w ← w.resolveAll d
  let final ← finalFindings d w.tables
  let tables ← w.tables.mapM Draft.finish
  let (tables, leaving) :=
    match schemaFilter with
    | none => (tables, [])
    | some wanted => restrictTables d wanted tables
  let inFilter (schema : Option String) : Bool :=
    (schemaFilter.map (d.inSchema schema)).getD true
  let model : Model :=
    { dialect := d
      tables := tables
      relationships := deriveRelationships tables
      junctionTables := junctionTables tables
      views := (w.views.map (·.2)).filter fun v => inFilter v.schema
      enums := (w.enums.map (·.2)).filter fun e => inFilter e.schema
      errors := w.errors }
  return { model := model, findings := w.findings ++ final ++ leaving }

/-- a model is built of what the statements come to -/
theorem buildModel_eq (schemaFilter : Option String) (statements : List Statement) :
    buildModel d schemaFilter statements = applyAll d statements >>= build d schemaFilter := rfl

theorem exists_applied_of_buildModel {schemaFilter : Option String} {statements : List Statement} {b : Built}
    (built : buildModel d schemaFilter statements = .ok b) :
    ∃ w, applyAll d statements = .ok w ∧ w.build d schemaFilter = .ok b :=
  bind_eq_ok_iff.1 ((buildModel_eq schemaFilter statements).symm.trans built)

theorem buildModel_of_applied {statements : List Statement} {w : Workspace} (applied : applyAll d statements = .ok w)
    (schemaFilter : Option String) : buildModel d schemaFilter statements = w.build d schemaFilter := by
  rw [buildModel_eq, applied]
  rfl

/-- all tables and columns have names -/
structure Named (w : Workspace) : Prop where
  tables : ∀ t ∈ w.tables, t.name ≠ ""
  columns : ∀ t ∈ w.tables, ∀ c ∈ t.columns, c.name ≠ ""

/-- the tables with their foreign keys resolved -/
def resolvedTables (d : Dialect) (w : Workspace) : List Table :=
  w.tables.map fun t => (t.resolved d w.tables).toTable

/-- the tables of a model and the warnings about foreign keys that leave it -/
def shown (d : Dialect) (schemaFilter : Option String) (tables : List Table) : List Table × Findings :=
  match schemaFilter with
  | none => (tables, [])
  | some wanted => restrictTables d wanted tables

/-- the findings about a table without a primary key -/
def keylessFindings (t : Draft) : Findings :=
  match t.primaryKey? with
  | some _ => []
  | none => [Finding.about .warning .model "NO_PRIMARY_KEY" s!"Table '{t.toTable.ref.text}' has no primary key"
      t.source (some t.position)]

theorem primaryKeyFindings_eq {t : Draft} (named : t.name ≠ "") :
    primaryKeyFindings t = .ok (keylessFindings t) := by
  unfold primaryKeyFindings keylessFindings
  cases t.primaryKey? with
  | some _ => rfl
  | none => rw [Draft.label?_eq named]; rfl

/-- circles are reported as neither errors nor warnings -/
theorem cycleFinding_eq_ok {tables : List Draft} (all : ∀ t ∈ tables, t.name ≠ "") (members : List String) :
    ∃ findings, cycleFinding tables members = .ok findings ∧ ∀ f ∈ findings, f.severity = .info := by
  unfold cycleFinding
  cases inside : tables.filter fun t => members.contains t.key with
  | nil => exact ⟨[], rfl, by simp⟩
  | cons first others =>
    have named : ∀ t ∈ first :: others, t.label? = .ok t.toTable.ref.text := fun t ht =>
      Draft.label?_eq (all t (List.mem_of_mem_filter (inside ▸ ht)))
    simp only [mapM_eq_ok_of_forall named, bind, Except.bind, pure, Except.pure]
    exact ⟨_, rfl, fun f hf => by rw [List.mem_singleton.1 hf]; rfl⟩

theorem finalFindings_eq_ok {tables : List Draft} (all : ∀ t ∈ tables, t.name ≠ "") :
    ∃ circles, finalFindings d tables = .ok (tables.flatMap keylessFindings ++ circles) ∧
      ∀ f ∈ circles, f.severity = .info := by
  choose circle made quiet using @cycleFinding_eq_ok tables all
  refine ⟨((cycles d tables).map circle).flatten, ?_, fun f hf => ?_⟩
  · rw [finalFindings, mapM_eq_ok_of_forall fun t ht => primaryKeyFindings_eq (all t ht),
      mapM_eq_ok_of_forall fun members _ => made members]
    rfl
  · obtain ⟨fs, hfs, hf⟩ := List.mem_flatten.1 hf
    obtain ⟨members, -, rfl⟩ := List.mem_map.1 hfs
    exact quiet members f hf

theorem finish_eq {t : Draft} (named : t.name ≠ "") (columns : ∀ c ∈ t.columns, c.name ≠ "") :
    t.finish = .ok t.toTable := by
  have filled : ¬ t.columns.any (·.name = "") = true := by
    simpa using columns
  rw [Draft.finish, if_neg filled, if_neg named]

variable {w : Workspace} {schemaFilter : Option String} {b : Built}

theorem resolveAll_eq (h : w.Named) : w.resolveAll d = .ok { w with
    tables := w.tables.map fun t => t.resolved d w.tables
    findings := w.findings ++ w.tables.flatMap fun t => t.resolutionFindings d w.tables
    errors := w.errors ++ w.tables.flatMap fun t => (t.resolutionFindings d w.tables).modelErrors } := by
  have run := mapM_eq_ok_of_forall fun t ht => Draft.resolveTable_eq (d := d) (h.tables t ht) h.tables
  rw [resolveAll, run]
  simp only [bind, Except.bind, pure, Except.pure, List.map_map, List.flatMap_map]
  rfl

/-- what a model is made of, and that there is one, where all names are there -/
theorem build_eq_ok (h : w.Named) (schemaFilter : Option String) : ∃ circles : Findings,
    (∀ f ∈ circles, f.severity = .info) ∧ ∃ b, w.build d schemaFilter = .ok b ∧
      b.model.tables = (shown d schemaFilter (w.resolvedTables d)).1 ∧
      b.findings = w.findings ++ w.tables.flatMap (fun t => t.resolutionFindings d w.tables) ++
        (w.tables.flatMap keylessFindings ++ circles) ++ (shown d schemaFilter (w.resolvedTables d)).2 ∧
      b.model.errors = w.errors ++
        w.tables.flatMap (fun t => (t.resolutionFindings d w.tables).modelErrors) := by
  have resolvedNamed : ∀ t ∈ w.tables.map fun t => t.resolved d w.tables, t.name ≠ "" := by
    intro t ht
    obtain ⟨x, hx, rfl⟩ := List.mem_map.1 ht
    exact h.tables x hx
  have keyless : (w.tables.map fun t => t.resolved d w.tables).flatMap keylessFindings =
      w.tables.flatMap keylessFindings := by
    rw [List.flatMap_map]
    refine List.flatMap_congr fun t _ => ?_
    rw [keylessFindings, Draft.sameTarget_resolved.primaryKey]
    rfl
  obtain ⟨circles, finals, quiet⟩ := finalFindings_eq_ok (d := d) resolvedNamed
  rw [keyless] at finals
  have finished : (w.tables.map fun t => t.resolved d w.tables).mapM Draft.finish = .ok (w.resolvedTables d) := by
    have each : ∀ t ∈ w.tables.map fun t => t.resolved d w.tables, t.finish = .ok t.toTable := by
      intro t ht
      obtain ⟨x, hx, rfl⟩ := List.mem_map.1 ht
      exact finish_eq (h.tables x hx) (h.columns x hx)
    rw [mapM_eq_ok_of_forall each, List.map_map]
    rfl
  refine ⟨circles, quiet, ?_⟩
  simp only [build, resolveAll_eq h, finals, finished, bind, Except.bind, pure, Except.pure]
  refine ⟨_, rfl, ?_, ?_, ?_⟩
  · cases schemaFilter <;> rfl
  · cases schemaFilter <;> rfl
  · cases schemaFilter <;> rfl

/-- what is found in finished tables, but for circles -/
def tableFindings (d : Dialect) (tables : List Draft) : Findings :=
  tables.flatMap (fun t => t.resolutionFindings d tables) ++ tables.flatMap keylessFindings

/-- a warning about a model -/
def isModelWarning (f : Finding) : Bool := f.isWarning && f.stage == .model

/-- a model has the names that its tables and columns need -/
theorem named_of_build (built : w.build d schemaFilter = .ok b) : w.Named := by
  simp only [build, bind_eq_ok_iff] at built
  obtain ⟨w', resolution, final, -, tables, finished, -⟩ := built
  simp only [resolveAll, bind_eq_ok_iff, pure_eq_ok_iff] at resolution
  obtain ⟨resolved, run, rfl⟩ := resolution
  have named : ∀ t ∈ w.tables, t.name ≠ "" ∧ ∀ c ∈ t.columns, c.name ≠ "" := by
    intro t ht
    obtain ⟨r, hr, done⟩ := exists_of_mem_forall₂ (forall₂_of_mapM_eq_ok run).flip ht
    obtain ⟨placed, -, made, -⟩ := Draft.resolveTable_eq_ok done
    obtain ⟨table, -, made'⟩ := exists_of_mem_forall₂ (forall₂_of_mapM_eq_ok finished).flip (List.mem_map_of_mem hr)
    rw [made] at made'
    unfold Draft.finish at made'
    split_ifs at made' with unnamed nameless
    refine ⟨nameless, fun c hc e => unnamed ?_⟩
    exact List.any_eq_true.2 ⟨c, hc, by simpa using e⟩
  exact ⟨fun t ht => (named t ht).1, fun t ht => (named t ht).2⟩

theorem exists_build_iff (schemaFilter : Option String) : (∃ b, w.build d schemaFilter = .ok b) ↔ w.Named := by
  constructor
  · rintro ⟨b, built⟩
    exact named_of_build built
  · intro h
    obtain ⟨-, -, b, built, -⟩ := build_eq_ok (d := d) h schemaFilter
    exact ⟨b, built⟩

theorem tables_of_build (built : w.build d schemaFilter = .ok b) :
    b.model.tables = (shown d schemaFilter (w.resolvedTables d)).1 := by
  obtain ⟨-, -, b', built', tables, -⟩ := build_eq_ok (d := d) (named_of_build built) schemaFilter
  rw [Except.ok.inj (built.symm.trans built'), tables]

/-- the errors and warnings of a model are what the statements and the tables made, and what it leaves out -/
theorem findings_of_build (built : w.build d schemaFilter = .ok b) :
    b.model.errors = w.errors ++ (tableFindings d w.tables).modelErrors ∧
      b.findings.filter isModelWarning = (w.findings ++ tableFindings d w.tables).filter isModelWarning ++
        (shown d schemaFilter (w.resolvedTables d)).2.filter isModelWarning := by
  obtain ⟨circles, quiet, b', built', -, findings, errors⟩ := build_eq_ok (d := d) (named_of_build built) schemaFilter
  obtain rfl := Except.ok.inj (built.symm.trans built')
  have keyless : (w.tables.flatMap keylessFindings).filter Finding.isModelError = [] := by
    refine List.filter_eq_nil_iff.2 fun f hf => ?_
    obtain ⟨t, -, hf⟩ := List.mem_flatMap.1 hf
    unfold keylessFindings at hf
    split at hf
    · simp at hf
    · rw [List.mem_singleton.1 hf]
      exact Bool.false_ne_true
  have round : circles.filter isModelWarning = [] :=
    List.filter_eq_nil_iff.2 fun f hf => by simp [isModelWarning, Finding.isWarning, quiet f hf]
  refine ⟨?_, ?_⟩
  · simp only [errors, tableFindings, Findings.modelErrors, List.filter_append, keyless, List.append_nil,
      List.filter_flatMap]
  · simp only [findings, tableFindings, List.filter_append, round, List.nil_append, List.append_assoc]

theorem named_mapTables {f : Draft → Draft} (names : ∀ t ∈ w.tables, (f t).name ≠ "")
    (columns : ∀ t ∈ w.tables, ∀ c ∈ (f t).columns, c.name ≠ "") : Named { w with tables := w.tables.map f } where
  tables := List.forall_mem_map.2 names
  columns := List.forall_mem_map.2 columns

/-- each table of an unrestricted model is a table of the statements with its foreign keys resolved -/
theorem mem_tables_of_build (built : w.build d none = .ok b) {t : Table} :
    t ∈ b.model.tables ↔ ∃ x ∈ w.tables, (x.resolved d w.tables).toTable = t := by
  rw [tables_of_build built]
  exact List.mem_map

/-- a name of a table of a model means the table of the statements that it was -/
theorem exists_table?_of_build {limit : Nat} (regular : w.Regular d limit) (built : w.build d none = .ok b) {t : Table}
    (ht : t ∈ b.model.tables) {n : QualifiedName} (named : n.key d = t.key) :
    ∃ x ∈ w.tables, w.table? (n.key d) = some x ∧ (x.resolved d w.tables).toTable = t := by
  obtain ⟨x, hx, rfl⟩ := (mem_tables_of_build built).1 ht
  have key : n.key d = x.key := named
  exact ⟨x, hx, key ▸ regular.table?_key hx, rfl⟩

theorem keys_resolvedTables (d : Dialect) (w : Workspace) :
    (w.resolvedTables d).map (·.key) = w.tables.map (·.key) := by
  rw [resolvedTables, List.map_map]
  rfl

theorem keys_shown_sublist (schemaFilter : Option String) (tables : List Table) :
    ((shown d schemaFilter tables).1.map (·.key)).Sublist (tables.map (·.key)) := by
  cases schemaFilter with
  | none => exact List.Sublist.refl _
  | some wanted =>
    rw [shown, restrictTables, List.map_map]
    exact List.filter_sublist.map _

/-- but for its errors, a model is a function of its tables and of the views and enum types of the statements -/
theorem model_of_build (built : w.build d schemaFilter = .ok b) : b.model = {
    dialect := d
    tables := b.model.tables
    relationships := deriveRelationships b.model.tables
    junctionTables := junctionTables b.model.tables
    views := (w.views.map (·.2)).filter fun v => (schemaFilter.map (d.inSchema v.schema)).getD true
    enums := (w.enums.map (·.2)).filter fun e => (schemaFilter.map (d.inSchema e.schema)).getD true
    errors := b.model.errors } := by
  simp only [build, resolveAll_eq (named_of_build built), bind_eq_ok_iff, Except.ok.injEq, pure_eq_ok_iff] at built
  obtain ⟨w', rfl, final, -, tables, -, rfl⟩ := built
  rfl

/-- no statement was an error, and every foreign key resolves -/
structure Valid (d : Dialect) (w : Workspace) : Prop where
  quiet : w.errors = []
  resolves : ∀ t ∈ w.tables, ∀ k ∈ t.toTable.foreignKeys, (resolution? d w.tables k).isSome = true

theorem isValid_iff (built : w.build d schemaFilter = .ok b) : b.model.isValid = true ↔ w.Valid d := by
  have h := named_of_build built
  obtain ⟨-, -, b', built', -, -, errors⟩ := build_eq_ok (d := d) h schemaFilter
  have resolves : (∀ t ∈ w.tables, (t.resolutionFindings d w.tables).modelErrors = []) ↔
      ∀ t ∈ w.tables, ∀ k ∈ t.toTable.foreignKeys, (resolution? d w.tables k).isSome = true :=
    forall₂_congr fun t ht => Draft.modelErrors_resolutionFindings_eq_nil_iff (h.tables t ht) h.tables
  rw [Except.ok.inj (built.symm.trans built'), Model.isValid, List.isEmpty_iff, errors, List.append_eq_nil_iff,
    List.flatMap_eq_nil_iff, resolves]
  exact ⟨fun h => ⟨h.1, h.2⟩, fun h => ⟨h.quiet, h.resolves⟩⟩

end Workspace

/-! ## Changes at the end -/

/-- `ALTER TABLE` with one action -/
def Statement.alter (n : QualifiedName) (action : TableAction) (ifExists : Bool) (position : Position)
    (source : Option String) : Statement :=
  ⟨.alterTable { name := n, actions := [action], ifExists := ifExists }, position, source⟩

/-- the statement changes what others declare -/
def Statement.isChange (st : Statement) : Bool :=
  match st.body with
  | .createTable _ => false
  | .createView _ => false
  | .createEnum _ => false
  | _ => true

namespace Workspace

theorem droppedBetween_append {statements more : List Statement} {key : String} {first last : Nat}
    (inside : last ≤ statements.length) :
    droppedBetween d (statements ++ more) key first last = droppedBetween d statements key first last := by
  rw [droppedBetween, droppedBetween, List.take_append_of_le_length inside]

theorem enumPass_of_isChange {st : Statement} (change : st.isChange = true) (w : Workspace) :
    enumPass d w st = .ok w := by
  unfold Statement.isChange at change
  unfold enumPass
  split <;> simp_all

theorem declarationPass_of_isChange {statements : List Statement} {st : Statement} (change : st.isChange = true)
    (index : Nat) (w : Workspace) : declarationPass d statements w (st, index) = .ok w := by
  unfold Statement.isChange at change
  simp only [declarationPass]
  split <;> simp_all

theorem declarationPass_append {statements more : List Statement} {numbered : Statement × Nat}
    (inside : numbered.2 ≤ statements.length) (w : Workspace) :
    declarationPass d (statements ++ more) w numbered = declarationPass d statements w numbered := by
  obtain ⟨st, index⟩ := numbered
  simp only [declarationPass]
  cases st.body with
  | createTable table =>
    refine congrArg (w.attempt st.position st.source) (funext fun w => ?_)
    simp only [declareTable, droppedBetween_append inside]
  | _ => rfl

/-- changes behind all other statements are made last -/
theorem applyAll_append {statements more : List Statement} (changes : ∀ st ∈ more, st.isChange = true) :
    applyAll d (statements ++ more) =
      applyAll d statements >>= fun w => (more.zipIdx statements.length).foldlM (changePass d) w := by
  have enums : ∀ w, more.foldlM (enumPass d) w = .ok w := fun w =>
    foldlM_eq_ok_self fun st hst w => enumPass_of_isChange (changes st hst) w
  have declared : ∀ w, (more.zipIdx statements.length).foldlM (declarationPass d (statements ++ more)) w = .ok w :=
    fun w => foldlM_eq_ok_self fun numbered hn w =>
      declarationPass_of_isChange (changes _ (List.fst_mem_of_mem_zipIdx hn)) numbered.2 w
  have others : ∀ w, statements.zipIdx.foldlM (declarationPass d (statements ++ more)) w =
      statements.zipIdx.foldlM (declarationPass d statements) w := fun w =>
    foldlM_congr fun numbered hn w => declarationPass_append (Nat.le_of_lt (List.snd_lt_of_mem_zipIdx hn)) w
  simp only [applyAll, List.foldlM_append, List.zipIdx_append, Nat.zero_add, bind_assoc, others]
  refine bind_congr fun w => ?_
  simp only [enums, declared]
  rfl

/-- a change behind all other statements -/
theorem applyAll_concat {statements : List Statement} {st : Statement} (change : st.isChange = true) {w : Workspace}
    (applied : applyAll d statements = .ok w) :
    applyAll d (statements ++ [st]) = changePass d w (st, statements.length) := by
  rw [applyAll_append fun st' hst' => List.mem_singleton.1 hst' ▸ change, applied]
  exact bind_pure (changePass d w (st, statements.length))

/-- the model of a schema that is changed once more, in a way that leaves it with all its names -/
theorem exists_build_concat {statements : List Statement} {st : Statement} (change : st.isChange = true)
    {w w' : Workspace} (applied : applyAll d statements = .ok w)
    (changed : changePass d w (st, statements.length) = .ok w') (named : w'.Named) :
    ∃ b, buildModel d none (statements ++ [st]) = .ok b ∧ (b.model.isValid = true ↔ w'.Valid d) ∧
      b.model.tables = w'.resolvedTables d := by
  obtain ⟨b, built⟩ := (exists_build_iff (d := d) none).2 named
  refine ⟨b, ?_, isValid_iff built, tables_of_build built⟩
  rw [buildModel_of_applied ((applyAll_concat change applied).trans changed), built]

end Workspace

end SchemaApi
