import SchemaApi.Proofs.Schema.Lifetime
import SchemaApi.Proofs.Schema.Rename
/-!
Tables that get other names.

All tables of a script are declared before the first of them is renamed, so a name that a table gave up is still in use
when another table is declared. What a statement calls its tables is logged here as it is executed (`nameAll`). As long
as no table is created under a name that was given before, the two passes come to what the execution comes to; where one
is, an error is found or a table is missing.
-/

namespace SchemaApi

variable {d : Dialect}

/-! ## Tables without foreign keys -/

def ConstraintClause.isForeignKey : ConstraintClause → Bool
  | .foreignKey .. => true
  | _ => false

/-- no foreign key is declared, neither for the table nor at a column -/
def CreateTable.isUnlinked (table : CreateTable) : Bool :=
  (table.constraints ++ table.columns.flatMap (·.constraints)).all fun clause => !clause.isForeignKey

/-- the statement declares a table without foreign keys, or does nothing but rename one -/
def Statement.namesTable (st : Statement) : Bool :=
  match st.body with
  | .createTable table => table.isUnlinked
  | .alterTable alter => alter.actions.all TableAction.renamesTable
  | _ => false

theorem Statement.body_of_namesTable {st : Statement} (names : st.namesTable = true) :
    (∃ table, st.body = .createTable table ∧ table.isUnlinked = true) ∨
      ∃ alter, st.body = .alterTable alter ∧ ∀ a ∈ alter.actions, ∃ newName, a = .renameTable newName := by
  unfold namesTable at names
  cases body : st.body with
  | createTable table => exact Or.inl ⟨table, rfl, by simpa only [body] using names⟩
  | alterTable alter =>
    simp only [body, List.all_eq_true] at names
    refine Or.inr ⟨alter, rfl, fun a ha => ?_⟩
    have renames := names a ha
    cases a with
    | renameTable newName => exact ⟨newName, rfl⟩
    | _ => simp [TableAction.renamesTable] at renames
  | _ => simp [body] at names

namespace Draft

variable {t t' : Draft}

theorem foreignKeys_addConstraint {source : Option String} {clause : ConstraintClause}
    (plain : clause.isForeignKey = false) (added : t.addConstraint d source clause = .ok t') :
    t'.toTable.foreignKeys = t.toTable.foreignKeys := by
  have placed : ∀ (t : Draft) (c : Constraint) (position : Position), c.foreignKey? = none →
      (t.addPlaced c position source).toTable.foreignKeys = t.toTable.foreignKeys := by
    intro t c position other
    simp [toTable, addPlaced, Table.foreignKeys, other]
  cases clause with
  | primaryKey columns name position =>
    simp only [addConstraint, bind_eq_ok_iff] at added
    obtain ⟨cols, -, added⟩ := added
    split_ifs at added
    · exact absurd added (by simp [problem_eq_ok_iff])
    · simp only [bind_eq_ok_iff, pure_eq_ok_iff] at added
      obtain ⟨_, -, rfl⟩ := added
      rw [placed _ _ _ rfl, requireValues_eq]
      rfl
  | unique columns name position =>
    simp only [addConstraint, bind_eq_ok_iff, pure_eq_ok_iff] at added
    obtain ⟨cols, -, _, -, rfl⟩ := added
    exact placed _ _ _ rfl
  | foreignKey columns reference name position => simp [ConstraintClause.isForeignKey] at plain
  | check expression name own position =>
    simp only [addConstraint, bind_eq_ok_iff] at added
    obtain ⟨own, -, added⟩ := added
    split_ifs at added
    · simp [fmap_eq_ok_iff, throw_eq_ok_iff] at added
    · rw [← pure_eq_ok_iff.1 added]
      exact placed _ _ _ rfl
  | index elements name unique kind position =>
    obtain ⟨index, rfl⟩ := addIndex_eq_ok added
    rfl

/-- a table without foreign keys has none to change -/
theorem mapForeignKeys_eq_self (none : t.toTable.foreignKeys = []) (f : ForeignKey → ForeignKey) :
    t.mapForeignKeys f = t := by
  have same : ∀ e ∈ t.constraints, e.constraint.foreignKey? = Option.none := fun e he =>
    List.filterMap_eq_nil_iff.1 none e.constraint (List.mem_map_of_mem he)
  have kept : (t.mapForeignKeys f).constraints = t.constraints := by
    refine (List.map_congr_left fun e he => ?_).trans (List.map_id _)
    have other := same e he
    split
    · rename_i k isKey
      rw [isKey] at other
      simp [Constraint.foreignKey?] at other
    · rfl
  calc t.mapForeignKeys f = { t with constraints := (t.mapForeignKeys f).constraints } := rfl
    _ = t := by rw [kept]

theorem toTable_resolved_eq_self (none : t.toTable.foreignKeys = []) (tables : List Draft) :
    (t.resolved d tables).toTable = t.toTable := by
  have kept : t.toTable.constraints.map (Constraint.resolved d tables) = t.toTable.constraints := by
    refine (List.map_congr_left fun c hc => ?_).trans (List.map_id _)
    exact Constraint.resolved_of_foreignKey?_eq_none (List.filterMap_eq_nil_iff.1 none c hc)
  rw [toTable_resolved, kept]

end Draft

namespace Workspace

variable {w w' : Workspace}

/-- no table has a foreign key -/
def Unlinked (w : Workspace) : Prop := ∀ t ∈ w.tables, t.toTable.foreignKeys = []

theorem unlinked_onTable {key : String} {source : Option String} {clause : ConstraintClause}
    (plain : clause.isForeignKey = false) (h : w.Unlinked)
    (run : (w.onTable key fun t => t.addConstraint d source clause) = .ok w') : w'.Unlinked := by
  unfold onTable at run
  split at run
  · rwa [← Except.ok.inj run]
  · rename_i t found
    obtain ⟨t', added, rfl⟩ := map_eq_ok_iff.1 run
    have none : t'.toTable.foreignKeys = [] :=
      (Draft.foreignKeys_addConstraint plain added).trans (h t (table?_eq_some found).1)
    refine List.forall_mem_map.2 fun x hx => ?_
    split_ifs
    · exact none
    · exact h x hx

theorem unlinked_attempt {change : Change} {position : Position} {source : Option String}
    (keeps : ∀ w', change w = .ok w' → w'.Unlinked) (h : w.Unlinked)
    (run : w.attempt position source change = .ok w') : w'.Unlinked := by
  unfold attempt at run
  split at run
  · rename_i w₁ made
    rw [← Except.ok.inj run]
    exact keeps w₁ made
  · rw [← Except.ok.inj run]
    exact h
  · simp at run

theorem unlinked_addColumn {key : String} {source : Option String} {clause : ColumnClause}
    (plain : ∀ c ∈ clause.constraints, c.isForeignKey = false) (h : w.Unlinked)
    (run : addColumn d key source clause w = .ok w') : w'.Unlinked := by
  unfold addColumn at run
  split at run
  · rwa [← Except.ok.inj run]
  · split_ifs at run
    · exact absurd run (by simp [Draft.problem_eq_ok_iff])
    · simp only [bind_eq_ok_iff, settle_eq_ok_iff] at run
      obtain ⟨label, -, reading, -, run⟩ := run
      refine foldlM_keeps (P := Unlinked) (fun c hc v v' h made => ?_) ?_ run
      · exact unlinked_attempt (fun u => unlinked_onTable (plain c hc) h) h made
      · refine List.forall_mem_map.2 fun x hx => ?_
        rw [tables_reportType] at hx
        split_ifs <;> exact h x hx

theorem unlinked_addTable {st : Statement} {table : CreateTable} {index : Nat} (plain : table.isUnlinked = true)
    (h : w.Unlinked) (added : addTable d st table index w = .ok w') : w'.Unlinked := by
  simp only [CreateTable.isUnlinked, List.all_append, List.all_flatMap, Bool.and_eq_true, List.all_eq_true,
    Bool.not_eq_true'] at plain
  rw [addTable_eq, bind_eq_ok_iff] at added
  obtain ⟨v, run, added⟩ := added
  obtain ⟨found, -, rfl⟩ := map_eq_ok_iff.1 added
  have start : Unlinked { w with tables := w.tables ++ [newDraft d st table index] } := by
    intro t ht
    rcases List.mem_append.1 ht with ht | ht
    · exact h t ht
    · rw [List.mem_singleton.1 ht]
      rfl
  have complete : v.Unlinked := by
    refine foldlM_keeps (P := Unlinked) (fun placed hplaced u u' h made => ?_) start run
    obtain ⟨a, ha, rfl⟩ := List.mem_map.1 hplaced
    rcases List.mem_append.1 ha with ha | ha
    · obtain ⟨clause, hclause, rfl⟩ := List.mem_map.1 ha
      exact unlinked_attempt (fun _ => unlinked_addColumn (plain.2 clause hclause) h) h made
    · obtain ⟨clause, hclause, rfl⟩ := List.mem_map.1 ha
      exact unlinked_attempt (fun _ => unlinked_onTable (plain.1 clause hclause) h) h made
  exact complete

/-! ## Execution -/

/-- a key that a table gets, and whether the table is created under it or renamed -/
structure Naming where
  key : String
  creates : Bool
  deriving DecidableEq, Repr

/-- the actions of ALTER TABLE one by one, up to the first problem, and the keys that the table gets -/
def renameAll (d : Dialect) (site : Site) : List TableAction → Workspace → String →
    Except Failure (Workspace × List Naming)
  | [], w, _ => .ok (w, [])
  | action :: rest, w, key => do
    let (w, key) ← alterAction d site key action w
    let (w, later) ← renameAll d site rest w key
    return (w, ⟨key, false⟩ :: later)

/-- A statement executed on what the statements before it left. It is a problem to create a table under a name in use,
and to rename one that is missing. -/
def nameOne (d : Dialect) (w : Workspace) (numbered : Statement × Nat) : Except Failure (Workspace × List Naming) :=
  let (st, index) := numbered
  match st.body with
  | .createTable table =>
    match w.table? (table.name.key d) with
    | none => (settle (addTable d st table index w)).map (·, [⟨table.name.key d, true⟩])
    | some t => .error (.problem (.duplicateTable table.name.text t.position))
  | .alterTable alter =>
    match w.table? (alter.name.key d) with
    | none => .error (.problem (.unknownTable "ALTER TABLE" alter.name.text))
    | some t => renameAll d ⟨st.position, st.source⟩ alter.actions w t.key
  | _ => .ok (w, [])

/-- the statements executed one after the other, and the keys that tables get on the way -/
def nameAll (d : Dialect) : List (Statement × Nat) → Workspace → Except Failure (Workspace × List Naming)
  | [], w => .ok (w, [])
  | numbered :: rest, w => do
    let (w, first) ← nameOne d w numbered
    let (w, later) ← nameAll d rest w
    return (w, first ++ later)

/-- no table is created under a key that was given before -/
def FreshCreations (log : List Naming) : Prop :=
  log.Pairwise fun earlier later => later.creates = true → later.key ≠ earlier.key

instance (log : List Naming) : Decidable (FreshCreations log) :=
  inferInstanceAs (Decidable (List.Pairwise _ log))

variable {w₁ q q' : Workspace} {l : List (Statement × Nat)} {log : List Naming} {key key₁ : String} {site : Site}

theorem renameAll_cons_eq_ok {action : TableAction} {rest : List TableAction} :
    renameAll d site (action :: rest) w key = .ok (w', log) ↔ ∃ w₁ key₁ later,
      alterAction d site key action w = .ok (w₁, key₁) ∧ renameAll d site rest w₁ key₁ = .ok (w', later) ∧
        log = ⟨key₁, false⟩ :: later := by
  simp only [renameAll, bind_eq_ok_iff, pure_eq_ok_iff, Prod.exists, Prod.mk.injEq]
  constructor
  · rintro ⟨w₁, key₁, first, _, later, rest, rfl, rfl⟩
    exact ⟨w₁, key₁, later, first, rest, rfl⟩
  · rintro ⟨w₁, key₁, later, first, rest, rfl⟩
    exact ⟨w₁, key₁, first, w', later, rest, rfl, rfl⟩

theorem nameAll_cons_eq_ok {n : Statement × Nat} : nameAll d (n :: l) w = .ok (w', log) ↔ ∃ w₁ first later,
    nameOne d w n = .ok (w₁, first) ∧ nameAll d l w₁ = .ok (w', later) ∧ log = first ++ later := by
  simp only [nameAll, bind_eq_ok_iff, pure_eq_ok_iff, Prod.exists, Prod.mk.injEq]
  constructor
  · rintro ⟨w₁, first, run, _, later, rest, rfl, rfl⟩
    exact ⟨w₁, first, later, run, rest, rfl⟩
  · rintro ⟨w₁, first, later, run, rest, rfl⟩
    exact ⟨w₁, first, run, w', later, rest, rfl, rfl⟩

theorem creates_of_renameAll {actions : List TableAction} (run : renameAll d site actions w key = .ok (w', log)) :
    ∀ e ∈ log, e.creates = false := by
  induction actions generalizing w key log with
  | nil =>
    obtain ⟨-, rfl⟩ := Prod.mk.inj (Except.ok.inj run)
    simp
  | cons action rest ih =>
    obtain ⟨w₁, key₁, later, -, others, rfl⟩ := renameAll_cons_eq_ok.1 run
    exact List.forall_mem_cons.2 ⟨rfl, ih others⟩

/-! ### One table renamed -/

/-- where there are no foreign keys, only the table changes -/
theorem renameTable_of_unlinked (h : w.Unlinked) {t : Draft} (found : w.table? t.key = some t)
    (newName : QualifiedName) : renameTable d t.key newName w =
      if (w.table? (t.withName d (newName.refIn t.schema)).key).isSome ∧
          (t.withName d (newName.refIn t.schema)).key ≠ t.key then t.problem (.tableNameTaken · newName.text)
      else .ok (w.updateTable t.key (·.withName d (newName.refIn t.schema)),
        (t.withName d (newName.refIn t.schema)).key) := by
  have apart : w.tables.any (·.refersTo d t.key) = false := by
    refine List.any_eq_false.2 fun x hx => ?_
    rw [Draft.refersTo, Bool.not_eq_true, List.any_eq_false]
    intro e he
    rw [List.filterMap_eq_nil_iff.1 (h x hx) e.constraint (List.mem_map_of_mem he)]
    exact Bool.false_ne_true
  have same : w.refactor d t.key (·.withName d (newName.refIn t.schema)) (.retarget (newName.refIn t.schema)) =
      w.updateTable t.key (·.withName d (newName.refIn t.schema)) := by
    have kept : ((w.updateTable t.key (·.withName d (newName.refIn t.schema))).tables.map
        (·.mapKeysTo d t.key (.retarget (newName.refIn t.schema)))) =
        (w.updateTable t.key (·.withName d (newName.refIn t.schema))).tables := by
      refine (List.map_congr_left fun x hx => Draft.mapForeignKeys_eq_self ?_ _).trans (List.map_id _)
      obtain ⟨y, hy, rfl⟩ := List.mem_map.1 hx
      split_ifs <;> exact h y hy
    rw [refactor, kept]
    rfl
  rw [renameTable_eq found, same, apart]
  simp only [Bool.false_eq_true, and_false, if_false]
  rfl

/-- tables were renamed, and got keys -/
structure Renamed (w w' : Workspace) (keys : List String) : Prop where
  findings : w'.findings = w.findings
  enums : w'.enums = w.enums
  length : w'.tables.length = w.tables.length
  unlinked : w.Unlinked → w'.Unlinked
  keys : ∀ t ∈ w'.tables, t.key ∈ w.tables.map (·.key) ∨ t.key ∈ keys

theorem Renamed.refl (w : Workspace) (keys : List String) : Renamed w w keys :=
  ⟨rfl, rfl, rfl, id, fun _ ht => Or.inl (List.mem_map_of_mem ht)⟩

theorem Renamed.trans {keys later : List String} (h : Renamed w w₁ keys) (h' : Renamed w₁ w' later) :
    Renamed w w' (keys ++ later) where
  findings := h'.findings.trans h.findings
  enums := h'.enums.trans h.enums
  length := h'.length.trans h.length
  unlinked unlinked := h'.unlinked (h.unlinked unlinked)
  keys t ht := by
    rcases h'.keys t ht with old | new
    · obtain ⟨x, hx, same⟩ := List.mem_map.1 old
      rw [← same]
      exact (h.keys x hx).imp_right (List.mem_append_left later)
    · exact Or.inr (List.mem_append_right keys new)

theorem renamed_renameTable {newName : QualifiedName} (h : w.Unlinked)
    (run : renameTable d key newName w = .ok (w₁, key₁)) : Renamed w w₁ [key₁] := by
  cases found : w.table? key with
  | none =>
    rw [renameTable, found] at run
    obtain ⟨rfl, -⟩ := Prod.mk.inj (Except.ok.inj run)
    exact .refl w _
  | some t =>
    obtain ⟨ht, rfl⟩ := table?_eq_some found
    rw [renameTable_of_unlinked h found] at run
    split_ifs at run
    · exact absurd run (by simp [Draft.problem_eq_ok_iff])
    · obtain ⟨rfl, rfl⟩ := Prod.mk.inj (Except.ok.inj run)
      refine ⟨rfl, rfl, List.length_map .., fun h => ?_, ?_⟩
      · refine List.forall_mem_map.2 fun x hx => ?_
        split_ifs <;> exact h x hx
      · refine List.forall_mem_map.2 fun x hx => ?_
        split_ifs
        · exact Or.inr (List.mem_singleton.2 rfl)
        · exact Or.inl (List.mem_map_of_mem hx)

/-! ### Tables that are created later -/

variable {pending : List Draft}

theorem table?_pending (tables : q.tables = w.tables ++ pending) (apart : ∀ t ∈ pending, t.key ≠ key) :
    q.table? key = w.table? key := by
  have none : pending.find? (fun t => t.key == key) = none :=
    List.find?_eq_none.2 fun t ht => by simpa using apart t ht
  rw [table?, tables, List.find?_append, none, Option.or_none]
  rfl

/-- A table gets its name among tables that are created later, unless one of them has it. -/
theorem renameTable_pending {newName : QualifiedName} (h : w.Unlinked) (h' : ∀ t ∈ pending, t.toTable.foreignKeys = [])
    (tables : q.tables = w.tables ++ pending) (apart : ∀ t ∈ pending, t.key ≠ key)
    (run : renameTable d key newName w = .ok (w₁, key₁)) :
    ((∀ t ∈ pending, t.key ≠ key₁) →
      renameTable d key newName q = .ok ({ q with tables := w₁.tables ++ pending }, key₁)) ∧
    ((∃ t ∈ pending, t.key = key₁) → ∀ r, renameTable d key newName q ≠ .ok r) := by
  have same := table?_pending tables apart
  cases found : w.table? key with
  | none =>
    rw [renameTable, found] at run
    obtain ⟨rfl, rfl⟩ := Prod.mk.inj (Except.ok.inj run)
    constructor
    · intro _
      rw [renameTable, same, found, ← tables]
    · rintro ⟨t, ht, own⟩
      exact absurd own (apart t ht)
  | some t =>
    obtain ⟨ht, rfl⟩ := table?_eq_some found
    have unlinked : q.Unlinked := fun x hx => by
      rw [tables] at hx
      exact (List.mem_append.1 hx).elim (h x) (h' x)
    rw [renameTable_of_unlinked unlinked (same.trans found)]
    rw [renameTable_of_unlinked h found] at run
    split_ifs at run with taken
    · exact absurd run (by simp [Draft.problem_eq_ok_iff])
    · obtain ⟨rfl, rfl⟩ := Prod.mk.inj (Except.ok.inj run)
      constructor
      · intro free
        rw [table?_pending tables free, if_neg taken]
        have others : (pending.map fun x => if x.key == t.key then x.withName d (newName.refIn t.schema) else x) =
            pending := by
          refine (List.map_congr_left fun x hx => ?_).trans (List.map_id _)
          rw [if_neg (by simpa using apart x hx)]
          rfl
        rw [updateTable, tables, List.map_append, others]
        rfl
      · rintro ⟨x, hx, own⟩ r
        have present : (q.table? (t.withName d (newName.refIn t.schema)).key).isSome = true := by
          rw [table?, tables, List.find?_isSome]
          exact ⟨x, List.mem_append_right _ hx, by simpa using own⟩
        have other : (t.withName d (newName.refIn t.schema)).key ≠ t.key := own ▸ apart x hx
        rw [if_pos ⟨present, other⟩]
        simp [Draft.problem_eq_ok_iff]

theorem renamed_renameAll {actions : List TableAction} (renames : ∀ a ∈ actions, ∃ newName, a = .renameTable newName)
    (h : w.Unlinked) (run : renameAll d site actions w key = .ok (w', log)) : Renamed w w' (log.map (·.key)) := by
  induction actions generalizing w key log with
  | nil =>
    obtain ⟨rfl, rfl⟩ := Prod.mk.inj (Except.ok.inj run)
    exact .refl w _
  | cons action rest ih =>
    obtain ⟨newName, rfl⟩ := renames action List.mem_cons_self
    obtain ⟨w₁, key₁, later, first, others, rfl⟩ := renameAll_cons_eq_ok.1 run
    have renamed := renamed_renameTable h first
    exact renamed.trans (ih (fun a ha => renames a (List.mem_cons_of_mem _ ha)) (renamed.unlinked h) others)

/-- so do the actions of a statement, if no table that is created later has one of the names -/
theorem alterActions_pending {actions : List TableAction}
    (renames : ∀ a ∈ actions, ∃ newName, a = .renameTable newName) (h : w.Unlinked)
    (h' : ∀ t ∈ pending, t.toTable.foreignKeys = []) (tables : q.tables = w.tables ++ pending)
    (apart : ∀ t ∈ pending, t.key ≠ key) (run : renameAll d site actions w key = .ok (w', log))
    (free : ∀ e ∈ log, ∀ t ∈ pending, t.key ≠ e.key) :
    alterActions d site actions q key = .ok { q with tables := w'.tables ++ pending } := by
  induction actions generalizing w key log q with
  | nil =>
    obtain ⟨rfl, -⟩ := Prod.mk.inj (Except.ok.inj run)
    rw [alterActions, ← tables]
  | cons action rest ih =>
    obtain ⟨newName, rfl⟩ := renames action List.mem_cons_self
    obtain ⟨w₁, key₁, later, first, others, rfl⟩ := renameAll_cons_eq_ok.1 run
    obtain ⟨own, free⟩ := List.forall_mem_cons.1 free
    have later := fun a ha => renames a (List.mem_cons_of_mem (TableAction.renameTable newName) ha)
    have step : alterAction d site key (.renameTable newName) q =
        .ok ({ q with tables := w₁.tables ++ pending }, key₁) := (renameTable_pending h h' tables apart first).1 own
    rw [alterActions, step]
    exact ih later ((renamed_renameTable h first).unlinked h) rfl own others free

/-! ### Problems that are recorded -/

/-- no table was added or dropped, and what was found before is still there -/
structure Extends (q q' : Workspace) : Prop where
  length : q'.tables.length = q.tables.length
  findings : q.findings <+: q'.findings

theorem Extends.refl (q : Workspace) : Extends q q := ⟨rfl, List.prefix_refl _⟩

theorem Extends.trans {q₁ : Workspace} (h : Extends q q₁) (h' : Extends q₁ q') : Extends q q' :=
  ⟨h'.length.trans h.length, h.findings.trans h'.findings⟩

theorem Extends.errors (h : Extends q q') : q.findings.modelErrors <+: q'.findings.modelErrors := h.findings.filter _

/-- where there are no more errors in the end, there are none on the way -/
theorem Extends.errors_between {q₁ : Workspace} (h : Extends q q₁) (h' : Extends q₁ q')
    (same : q'.findings.modelErrors = q.findings.modelErrors) :
    q₁.findings.modelErrors = q.findings.modelErrors ∧ q'.findings.modelErrors = q₁.findings.modelErrors := by
  have first : q₁.findings.modelErrors = q.findings.modelErrors :=
    (h.errors.eq_of_length_le (same ▸ h'.errors.length_le)).symm
  exact ⟨first, same.trans first.symm⟩

theorem extends_record (q : Workspace) (p : Problem) (position : Position) (source : Option String) :
    Extends q (q.record p position source) :=
  ⟨rfl, List.prefix_append ..⟩

theorem extends_renameTable {newName : QualifiedName} {r : Workspace × String}
    (run : renameTable d key newName q = .ok r) : Extends q r.1 := by
  unfold renameTable at run
  split at run
  · rw [← Except.ok.inj run]
    exact .refl q
  · dsimp only at run
    split_ifs at run
    · exact absurd run (by simp [Draft.problem_eq_ok_iff])
    · rw [← Except.ok.inj run]
      exact ⟨by simp [updateTable], List.prefix_refl _⟩

theorem extends_alterActions {actions : List TableAction}
    (renames : ∀ a ∈ actions, ∃ newName, a = .renameTable newName)
    (run : alterActions d site actions q key = .ok q') : Extends q q' := by
  induction actions generalizing q key with
  | nil =>
    rw [← Except.ok.inj run]
    exact .refl q
  | cons action rest ih =>
    obtain ⟨newName, rfl⟩ := renames action List.mem_cons_self
    have later := fun a ha => renames a (List.mem_cons_of_mem (TableAction.renameTable newName) ha)
    rw [alterActions] at run
    split at run
    · rename_i q₁ key₁ made
      exact (extends_renameTable made).trans (ih later run)
    · exact (extends_record q _ _ _).trans (ih later run)
    · simp at run

/-- if no error is recorded, no table that is created later has one of the names -/
theorem free_of_alterActions {actions : List TableAction}
    (renames : ∀ a ∈ actions, ∃ newName, a = .renameTable newName) (h : w.Unlinked)
    (h' : ∀ t ∈ pending, t.toTable.foreignKeys = []) (tables : q.tables = w.tables ++ pending)
    (apart : ∀ t ∈ pending, t.key ≠ key) (run : renameAll d site actions w key = .ok (w', log))
    (recorded : alterActions d site actions q key = .ok q')
    (same : q'.findings.modelErrors = q.findings.modelErrors) : ∀ e ∈ log, ∀ t ∈ pending, t.key ≠ e.key := by
  induction actions generalizing w key log q with
  | nil =>
    obtain ⟨-, rfl⟩ := Prod.mk.inj (Except.ok.inj run)
    simp
  | cons action rest ih =>
    obtain ⟨newName, rfl⟩ := renames action List.mem_cons_self
    have later := fun a ha => renames a (List.mem_cons_of_mem (TableAction.renameTable newName) ha)
    obtain ⟨w₁, key₁, log', first, others, rfl⟩ := renameAll_cons_eq_ok.1 run
    obtain ⟨free, taken⟩ := renameTable_pending h h' tables apart first
    rw [alterActions, alterAction] at recorded
    by_cases own : ∀ t ∈ pending, t.key ≠ key₁
    · rw [free own] at recorded
      exact List.forall_mem_cons.2 ⟨own,
        ih later ((renamed_renameTable h first).unlinked h) rfl own others recorded same⟩
    · simp only [not_forall, not_not] at own
      obtain ⟨t, ht, own⟩ := own
      split at recorded
      · rename_i made
        exact absurd made (taken ⟨t, ht, own⟩ _)
      · have between := (extends_record q _ _ _).errors_between (extends_alterActions later recorded) same
        rw [modelErrors_record] at between
        exact absurd between.1 (by simp)
      · simp at recorded

/-! ### Statements -/

/-- the statements that declare tables -/
def created (l : List (Statement × Nat)) : List (Statement × Nat) := l.filter fun n => n.1.isDeclaration

/-- the keys that tables are declared under -/
def createdKeys (d : Dialect) (l : List (Statement × Nat)) : List String := l.filterMap fun n => n.1.tableKey? d

theorem created_cons (n : Statement × Nat) (l : List (Statement × Nat)) :
    created (n :: l) = if n.1.isDeclaration then n :: created l else created l :=
  List.filter_cons ..

theorem createdKeys_cons (n : Statement × Nat) (l : List (Statement × Nat)) :
    createdKeys d (n :: l) = (n.1.tableKey? d).toList ++ createdKeys d l := by
  rw [createdKeys, List.filterMap_cons]
  cases n.1.tableKey? d <;> rfl

theorem filterMap_created (l : List (Statement × Nat)) :
    ((created l).filterMap fun n => n.1.tableKey? d) = createdKeys d l := by
  rw [created, List.filterMap_filter, createdKeys]
  refine List.filterMap_congr fun n _ => ?_
  rw [Statement.isDeclaration, Statement.tableKey?]
  cases n.1.table? with
  | none => simp
  | some table => simp

/-- the tables of the statements that are left are there already, behind those that were executed -/
structure Ahead (d : Dialect) (l : List (Statement × Nat)) (w q : Workspace) : Prop where
  unlinked : w.Unlinked
  noEnums : w.enums = []
  pending : ∃ parts, (created l).mapM (alone d []) = .ok parts ∧ q.tables = w.tables ++ (concat parts).tables ∧
    ∀ t ∈ (concat parts).tables, t.toTable.foreignKeys = []
  apart : ∀ t ∈ w.tables, t.key ∉ createdKeys d l
  distinct : (createdKeys d l).Nodup

variable {n : Statement × Nat} {first later : List Naming}

theorem keys_pending {parts : List Workspace} (run : (created l).mapM (alone d []) = .ok parts) :
    (concat parts).tables.map (·.key) = createdKeys d l :=
  (keys_concat_parts (fun _ hn => (List.mem_filter.1 hn).2) run).trans (filterMap_created l)

/-- a table that is created is what its statement comes to by itself -/
theorem nameOne_createTable {st : Statement} {table : CreateTable} {index : Nat} (body : st.body = .createTable table)
    (plain : table.isUnlinked = true) (noEnums : w.enums = []) (run : nameOne d w (st, index) = .ok (w₁, first)) :
    ∃ part, alone d [] (st, index) = .ok part ∧ w₁ = w.append part ∧ part.Unlinked ∧
      first = [⟨table.name.key d, true⟩] := by
  simp only [nameOne, body] at run
  split at run
  · rename_i fresh
    obtain ⟨v, added, same⟩ := map_eq_ok_iff.1 run
    obtain ⟨rfl, rfl⟩ := Prod.mk.inj same
    have same : ∀ name, w.enums.lookup name = [].lookup name := fun _ => by rw [noEnums]
    rw [addTable_eq_append index (table?_eq_none fresh) same, ← alone_createTable body, settle_eq_ok_iff] at added
    obtain ⟨part, alone, rfl⟩ := map_eq_ok_iff.1 added
    refine ⟨part, alone, rfl, ?_, rfl⟩
    rw [alone_createTable body] at alone
    obtain ⟨u, first, rfl⟩ := map_eq_ok_iff.1 alone
    have unlinked : u.Unlinked := unlinked_addTable plain (w := {}) (fun t ht => absurd ht List.not_mem_nil) first
    exact unlinked
  · simp at run

theorem nameOne_alterTable {st : Statement} {alter : AlterTable} {index : Nat} (body : st.body = .alterTable alter)
    (run : nameOne d w (st, index) = .ok (w₁, first)) : ∃ t, w.table? (alter.name.key d) = some t ∧
      renameAll d ⟨st.position, st.source⟩ alter.actions w t.key = .ok (w₁, first) := by
  simp only [nameOne, body] at run
  split at run
  · simp at run
  · rename_i t found
    exact ⟨t, found, run⟩

theorem isDeclaration_createTable {st : Statement} {table : CreateTable} (body : st.body = .createTable table) :
    st.isDeclaration = true ∧ st.tableKey? d = some (table.name.key d) := by
  rw [Statement.isDeclaration, Statement.tableKey?, Statement.table?, body]
  exact ⟨rfl, rfl⟩

theorem isDeclaration_alterTable {st : Statement} {alter : AlterTable} (body : st.body = .alterTable alter) :
    st.isDeclaration = false ∧ st.tableKey? d = none := by
  rw [Statement.isDeclaration, Statement.tableKey?, Statement.table?, Statement.enum?, body]
  exact ⟨rfl, rfl⟩

/-- what the execution of statements comes to, as far as what each of them creates by itself -/
structure Sums (d : Dialect) (l : List (Statement × Nat)) (w w' : Workspace) (parts : List Workspace) : Prop where
  each : (created l).mapM (alone d []) = .ok parts
  pending : ∀ t ∈ (concat parts).tables, t.toTable.foreignKeys = []
  findings : w'.findings = w.findings ++ (concat parts).findings
  length : w'.tables.length = w.tables.length + (concat parts).tables.length
  unlinked : w'.Unlinked

theorem exists_sums (names : ∀ n ∈ l, n.1.namesTable = true) (h : w.Unlinked) (noEnums : w.enums = [])
    (run : nameAll d l w = .ok (w', log)) : ∃ parts, Sums d l w w' parts := by
  induction l generalizing w log with
  | nil =>
    obtain ⟨rfl, rfl⟩ := Prod.mk.inj (Except.ok.inj run)
    exact ⟨[], rfl, by simp [concat], by simp [concat], by simp [concat], h⟩
  | cons n l ih =>
    obtain ⟨st, index⟩ := n
    have rest := fun m hm => names m (List.mem_cons_of_mem _ hm)
    obtain ⟨w₁, first, later, step, others, rfl⟩ := nameAll_cons_eq_ok.1 run
    have own : st.namesTable = true := names _ List.mem_cons_self
    rcases Statement.body_of_namesTable own with
      ⟨table, body, plain⟩ | ⟨alter, body, renames⟩
    · obtain ⟨declares, -⟩ := isDeclaration_createTable (d := d) body
      obtain ⟨part, alone, rfl, unlinked, rfl⟩ := nameOne_createTable body plain noEnums step
      have unlinked' : (w.append part).Unlinked := fun t ht => (List.mem_append.1 ht).elim (h t) (unlinked t)
      have noEnums' : (w.append part).enums = [] := by
        rw [append, noEnums, (enums_of_alone alone).1]
        rfl
      obtain ⟨parts, s⟩ := ih rest unlinked' noEnums' others
      refine ⟨part :: parts, ?_, ?_, ?_, ?_, s.unlinked⟩
      · rw [created_cons, if_pos declares, List.mapM_cons, alone, s.each]
        rfl
      · rw [concat, List.flatMap_cons]
        exact fun t ht => (List.mem_append.1 ht).elim (unlinked t) (s.pending t)
      · rw [s.findings, append, List.append_assoc]
        rfl
      · rw [s.length, append, List.length_append, Nat.add_assoc, ← List.length_append]
        rfl
    · obtain ⟨plain, -⟩ := isDeclaration_alterTable (d := d) body
      obtain ⟨t, -, step⟩ := nameOne_alterTable body step
      have renamed := renamed_renameAll renames h step
      obtain ⟨parts, s⟩ := ih rest (renamed.unlinked h) (renamed.enums.trans noEnums) others
      refine ⟨parts, ?_, s.pending, ?_, ?_, s.unlinked⟩
      · rw [created_cons, if_neg (by simpa using plain), s.each]
      · rw [s.findings, renamed.findings]
      · rw [s.length, renamed.length]

/-- the keys that tables get are not those that others are created under later -/
def Free (d : Dialect) (log : List Naming) (l : List (Statement × Nat)) : Prop :=
  ∀ e ∈ log, e.key ∉ createdKeys d l

theorem Ahead.tables (h : Ahead d [] w q) : q.tables = w.tables := by
  obtain ⟨parts, run, tables, -⟩ := h.pending
  rw [tables, ← Except.ok.inj run]
  exact List.append_nil _

/-- a table is created where it is already -/
theorem Ahead.create {st : Statement} {table : CreateTable} {index : Nat} (h : Ahead d ((st, index) :: l) w q)
    (body : st.body = .createTable table) (plain : table.isUnlinked = true)
    (run : nameOne d w (st, index) = .ok (w₁, first)) : Ahead d l w₁ q ∧ Free d first l := by
  obtain ⟨declares, key⟩ := isDeclaration_createTable (d := d) body
  obtain ⟨part, alone, rfl, unlinked, rfl⟩ := nameOne_createTable body plain h.noEnums run
  obtain ⟨parts, run, tables, pending⟩ := h.pending
  rw [created_cons, if_pos declares, List.mapM_cons] at run
  simp only [alone, bind_eq_ok_iff, pure_eq_ok_iff, Except.ok.injEq, exists_eq_left'] at run
  obtain ⟨parts, run, rfl⟩ := run
  have distinct := h.distinct
  rw [createdKeys_cons, key, Option.toList_some, List.singleton_append, List.nodup_cons] at distinct
  have ownKey : part.tables.map (·.key) = [table.name.key d] := by
    rw [keys_of_alone declares alone, key]
    rfl
  refine ⟨⟨?_, ?_, ⟨parts, run, ?_, ?_⟩, ?_, distinct.2⟩, ?_⟩
  · exact fun t ht => (List.mem_append.1 ht).elim (h.unlinked t) (unlinked t)
  · rw [append, h.noEnums, (enums_of_alone alone).1]
    rfl
  · rw [tables, append, List.append_assoc]
    rfl
  · exact fun t ht => pending t (List.mem_append_right part.tables ht)
  · intro t ht
    rcases List.mem_append.1 ht with ht | ht
    · have apart := h.apart t ht
      rw [createdKeys_cons, List.mem_append, not_or] at apart
      exact apart.2
    · have own : t.key ∈ [table.name.key d] := ownKey ▸ List.mem_map_of_mem ht
      rw [List.mem_singleton.1 own]
      exact distinct.1
  · exact List.forall_mem_singleton.2 distinct.1

/-- a table is renamed among those that are created later -/
theorem Ahead.rename {st : Statement} {alter : AlterTable} {index : Nat} (h : Ahead d ((st, index) :: l) w q)
    (body : st.body = .alterTable alter) (renames : ∀ a ∈ alter.actions, ∃ newName, a = .renameTable newName)
    (run : nameOne d w (st, index) = .ok (w₁, first)) :
    (Free d first l → ∃ q₁, changePass d q (st, index) = .ok q₁ ∧ q₁.findings = q.findings ∧ Ahead d l w₁ q₁) ∧
    (∀ q₁, changePass d q (st, index) = .ok q₁ → q₁.findings.modelErrors = q.findings.modelErrors →
      Free d first l) := by
  obtain ⟨declares, none⟩ := isDeclaration_alterTable (d := d) body
  obtain ⟨t, found, run⟩ := nameOne_alterTable body run
  have renamed := renamed_renameAll renames h.unlinked run
  obtain ⟨parts, made, tables, pending⟩ := h.pending
  rw [created_cons, if_neg (by simpa using declares)] at made
  have apart := h.apart
  have distinct := h.distinct
  simp only [createdKeys_cons, none, Option.toList_none, List.nil_append] at apart distinct
  have keys := keys_pending made
  have mem_keys : ∀ key, key ∉ createdKeys d l ↔ ∀ x ∈ (concat parts).tables, x.key ≠ key := by
    intro key
    rw [← keys, List.mem_map]
    exact ⟨fun free x hx own => free ⟨x, hx, own⟩, fun free ⟨x, hx, own⟩ => free x hx own⟩
  obtain ⟨ht, own⟩ := table?_eq_some found
  have free := (mem_keys t.key).1 (apart t ht)
  have found' : q.table? (alter.name.key d) = some t := by
    rw [← own, table?_pending tables free, own, found]
  have step : changePass d q (st, index) = alterActions d ⟨st.position, st.source⟩ alter.actions q t.key := by
    simp only [changePass, body, attempt, alterTable, found', settle]
    cases alterActions d ⟨st.position, st.source⟩ alter.actions q t.key <;> rfl
  constructor
  · intro others
    refine ⟨_, step.trans (alterActions_pending renames h.unlinked pending tables free run fun e he =>
      (mem_keys e.key).1 (others e he)), rfl, ?_⟩
    refine ⟨renamed.unlinked h.unlinked, renamed.enums.trans h.noEnums, ⟨parts, made, rfl, pending⟩, ?_, distinct⟩
    intro x hx
    rcases renamed.keys x hx with old | new
    · obtain ⟨y, hy, same⟩ := List.mem_map.1 old
      rw [← same]
      exact apart y hy
    · obtain ⟨e, he, same⟩ := List.mem_map.1 new
      rw [← same]
      exact others e he
  · intro q₁ recorded same e he
    exact (mem_keys e.key).2
      (free_of_alterActions renames h.unlinked pending tables free run (step.symm.trans recorded) same e he)

/-- a name is new to all that are created later exactly if those are new after it -/
theorem freshCreations_append (alone : FreshCreations first)
    (keys : ((later.filter (·.creates)).map (·.key)) = createdKeys d l) :
    FreshCreations (first ++ later) ↔ Free d first l ∧ FreshCreations later := by
  have free : Free d first l ↔ ∀ e ∈ first, ∀ e' ∈ later, e'.creates = true → e'.key ≠ e.key := by
    simp only [Free, ← keys, List.mem_map, List.mem_filter, not_exists, not_and]
    exact ⟨fun h e he e' he' creates own => h e he e' ⟨he', creates⟩ own,
      fun h e he e' he' own => h e he e' he'.1 he'.2 own⟩
  rw [FreshCreations, List.pairwise_append, free]
  exact ⟨fun h => ⟨h.2.2, h.2.1⟩, fun h => ⟨alone, h.2, h.1⟩⟩

theorem freshCreations_nameOne (run : nameOne d w n = .ok (w₁, first)) :
    FreshCreations first ∧ ((first.filter (·.creates)).map (·.key)) = (n.1.tableKey? d).toList := by
  obtain ⟨st, index⟩ := n
  rw [Statement.tableKey?, Statement.table?]
  cases body : st.body with
  | createTable table =>
    simp only [nameOne, body] at run
    split at run
    · obtain ⟨v, -, same⟩ := map_eq_ok_iff.1 run
      rw [← (Prod.mk.inj same).2]
      exact ⟨List.pairwise_singleton .., rfl⟩
    · simp at run
  | alterTable alter =>
    obtain ⟨t, -, run⟩ := nameOne_alterTable body run
    have noneCreated := creates_of_renameAll run
    refine ⟨List.pairwise_of_forall_mem_list fun _ _ e he creates => ?_, ?_⟩
    · exact absurd creates (by simp [noneCreated e he])
    · have none : first.filter (·.creates) = [] := List.filter_eq_nil_iff.2 fun e he => by simp [noneCreated e he]
      rw [none]
      rfl
  | _ =>
    simp only [nameOne, body] at run
    rw [← (Prod.mk.inj (Except.ok.inj run)).2]
    exact ⟨List.Pairwise.nil, rfl⟩

/-- the keys that tables are created under are those of their statements -/
theorem keys_of_nameAll (run : nameAll d l w = .ok (w', log)) :
    ((log.filter (·.creates)).map (·.key)) = createdKeys d l := by
  induction l generalizing w log with
  | nil =>
    obtain ⟨-, rfl⟩ := Prod.mk.inj (Except.ok.inj run)
    rfl
  | cons n l ih =>
    obtain ⟨w₁, first, later, made, others, rfl⟩ := nameAll_cons_eq_ok.1 run
    rw [List.filter_append, List.map_append, (freshCreations_nameOne made).2, ih others, createdKeys_cons]

/-! ### Runs -/

theorem extends_changePass (names : n.1.namesTable = true) (run : changePass d q n = .ok q') : Extends q q' := by
  obtain ⟨st, index⟩ := n
  have own : st.namesTable = true := names
  rcases Statement.body_of_namesTable own with ⟨table, body, -⟩ | ⟨alter, body, renames⟩
  · simp only [changePass, body, Except.ok.injEq] at run
    exact run ▸ .refl q
  · simp only [changePass, body, attempt] at run
    split at run
    · rename_i q₁ made
      rw [← Except.ok.inj run]
      unfold alterTable at made
      split at made
      · exact extends_alterActions renames (settle_eq_ok_iff.1 made)
      · split_ifs at made
        rw [← Except.ok.inj made]
        exact ⟨rfl, List.prefix_append ..⟩
    · rw [← Except.ok.inj run]
      exact extends_record ..
    · simp at run

theorem extends_changes (names : ∀ n ∈ l, n.1.namesTable = true) (run : l.foldlM (changePass d) q = .ok q') :
    Extends q q' :=
  foldlM_keeps (P := Extends q) (fun n hn _ _ h made => h.trans (extends_changePass (names n hn) made)) (.refl q) run

/-- The pass that renames comes to what the execution comes to exactly if no error is found in it, and that is if no
table is created under a name that was given before. -/
theorem Ahead.run (h : Ahead d l w q) (names : ∀ n ∈ l, n.1.namesTable = true)
    (run : nameAll d l w = .ok (w', log)) :
    (FreshCreations log → ∃ q', l.foldlM (changePass d) q = .ok q' ∧ q'.findings = q.findings ∧ q'.tables = w'.tables) ∧
    (∀ q', l.foldlM (changePass d) q = .ok q' → q'.findings.modelErrors = q.findings.modelErrors →
      FreshCreations log) := by
  induction l generalizing w q log with
  | nil =>
    obtain ⟨rfl, rfl⟩ := Prod.mk.inj (Except.ok.inj run)
    exact ⟨fun _ => ⟨q, rfl, rfl, h.tables⟩, fun _ _ _ => List.Pairwise.nil⟩
  | cons n l ih =>
    obtain ⟨st, index⟩ := n
    have own : st.namesTable = true := names _ List.mem_cons_self
    have rest := fun m hm => names m (List.mem_cons_of_mem _ hm)
    obtain ⟨w₁, first, later, made, others, rfl⟩ := nameAll_cons_eq_ok.1 run
    have step : (Free d first l → ∃ q₁, changePass d q (st, index) = .ok q₁ ∧ q₁.findings = q.findings ∧
          Ahead d l w₁ q₁) ∧
        (∀ q₁, changePass d q (st, index) = .ok q₁ → q₁.findings.modelErrors = q.findings.modelErrors →
          Free d first l) := by
      rcases Statement.body_of_namesTable own with ⟨table, body, plain⟩ | ⟨alter, body, renames⟩
      · obtain ⟨ahead, free⟩ := h.create body plain made
        exact ⟨fun _ => ⟨q, by simp only [changePass, body], rfl, ahead⟩, fun _ _ _ => free⟩
      · exact h.rename body renames made
    have fresh := freshCreations_append (freshCreations_nameOne made).1 (keys_of_nameAll others)
    rw [fresh, List.foldlM_cons]
    constructor
    · rintro ⟨free, fresh⟩
      obtain ⟨q₁, changed, same, ahead⟩ := step.1 free
      obtain ⟨q', changes, same', tables⟩ := (ih ahead rest others).1 fresh
      rw [changed]
      exact ⟨q', changes, same'.trans same, tables⟩
    · intro q' changes same
      obtain ⟨q₁, changed, changes⟩ := bind_eq_ok_iff.1 changes
      obtain ⟨before, after⟩ := (extends_changePass own changed).errors_between (extends_changes rest changes) same
      have free := step.2 q₁ changed before
      obtain ⟨q₂, changed', -, ahead⟩ := step.1 free
      obtain rfl := Except.ok.inj (changed.symm.trans changed')
      exact ⟨free, (ih ahead rest others).2 q' changes after⟩

variable {S : List Statement} {p : Workspace}

/-- Of tables that are declared under one key, the first is kept. -/
theorem keys_declared (names : ∀ n ∈ l, n.1.namesTable = true)
    (noDrops : ∀ key first last, droppedBetween d S key first last = false) (distinct : q.Distinct)
    (run : l.foldlM (declarationPass d S) q = .ok p) : p.Distinct ∧
      ∃ kept, kept.Sublist (createdKeys d l) ∧ p.tables.map (·.key) = q.tables.map (·.key) ++ kept := by
  induction l generalizing q with
  | nil =>
    rw [← Except.ok.inj run]
    exact ⟨distinct, [], .slnil, (List.append_nil _).symm⟩
  | cons n l ih =>
    obtain ⟨st, index⟩ := n
    have rest := fun m hm => names m (List.mem_cons_of_mem _ hm)
    obtain ⟨q₁, first, later⟩ := bind_eq_ok_iff.1 ((List.foldlM_cons ..).symm.trans run)
    have step : q₁.Distinct ∧ ∃ kept, kept.Sublist (st.tableKey? d).toList ∧
        q₁.tables.map (·.key) = q.tables.map (·.key) ++ kept := by
      have passed : q₁.tables = q.tables → q₁.Distinct ∧ ∃ kept, kept.Sublist (st.tableKey? d).toList ∧
          q₁.tables.map (·.key) = q.tables.map (·.key) ++ kept := fun same =>
        ⟨by rwa [Distinct, same], [], List.nil_sublist _, by rw [same, List.append_nil]⟩
      have own : st.namesTable = true := names _ List.mem_cons_self
      rcases Statement.body_of_namesTable own with
        ⟨table, body, -⟩ | ⟨alter, body, -⟩
      · cases found : q.table? (table.name.key d) with
        | none =>
          rw [declarationPass_createTable body found] at first
          have keys : q₁.tables.map (·.key) = q.tables.map (·.key) ++ [table.name.key d] := by
            rw [(sameOutline_addTable first).keys, List.map_append]
            rfl
          refine ⟨?_, [table.name.key d], ?_, keys⟩
          · rw [Distinct, keys, List.nodup_append]
            refine ⟨distinct, List.nodup_singleton _, fun a ha b hb same => ?_⟩
            rw [List.mem_singleton.1 hb] at same
            exact table?_eq_none_iff.1 found (same ▸ ha)
          · rw [(isDeclaration_createTable (d := d) body).2]
            exact List.Sublist.refl _
        | some t =>
          simp only [declarationPass, body, attempt, declareTable, found, noDrops, Bool.false_eq_true,
            if_false] at first
          split_ifs at first
          · exact passed (by rw [← Except.ok.inj first]; rfl)
          · exact passed (by rw [← Except.ok.inj first]; rfl)
      · simp only [declarationPass, body] at first
        exact passed (by rw [← Except.ok.inj first])
    obtain ⟨distinct₁, kept₁, sublist₁, keys₁⟩ := step
    obtain ⟨distinct', kept, sublist, keys⟩ := ih rest distinct₁ later
    refine ⟨distinct', kept₁ ++ kept, ?_, ?_⟩
    · rw [createdKeys_cons]
      exact sublist₁.append sublist
    · rw [keys, keys₁, List.append_assoc]

/-- Under different keys, each table is what its statement comes to by itself. -/
theorem foldlM_declared (names : ∀ n ∈ l, n.1.namesTable = true) (distinct : (createdKeys d l).Nodup) :
    l.foldlM (declarationPass d S) {} = ((created l).mapM (alone d [])).map concat := by
  have skipped : l.foldlM (declarationPass d S) {} = (created l).foldlM (declarationPass d S) {} := by
    rw [created, List.foldlM_filter]
    refine foldlM_congr fun n hn w => ?_
    obtain ⟨st, index⟩ := n
    have own : st.namesTable = true := names _ hn
    rcases Statement.body_of_namesTable own with ⟨table, body, -⟩ | ⟨alter, body, -⟩
    · rw [if_pos (isDeclaration_createTable (d := d) body).1]
    · rw [if_neg (by simp [(isDeclaration_alterTable (d := d) body).1])]
      simp only [declarationPass, body]
      rfl
  have new : (([] : List String) ++ (created l).filterMap fun n => n.1.tableKey? d).Nodup := by
    rw [List.nil_append, filterMap_created]
    exact distinct
  exact skipped.trans (foldlM_declarationPass (w := {}) (fun n hn => (List.mem_filter.1 hn).2) new)

theorem droppedBetween_of_namesTable (names : ∀ st ∈ S, st.namesTable = true) (key : String) (first last : Nat) :
    droppedBetween d S key first last = false := by
  refine List.any_eq_false.2 fun st hst => ?_
  have mem : st ∈ S := List.mem_of_mem_take (List.mem_of_mem_drop hst)
  rcases Statement.body_of_namesTable (names st mem) with ⟨table, body, -⟩ | ⟨alter, body, -⟩
  · simp [dropsTable, body]
  · simp [dropsTable, body]

theorem enumPass_of_namesTable {st : Statement} (names : st.namesTable = true) : enumPass d w st = .ok w := by
  rcases Statement.body_of_namesTable names with ⟨table, body, -⟩ | ⟨alter, body, -⟩
  · simp only [enumPass, body]
  · simp only [enumPass, body]

/-- without foreign keys, there is nothing to resolve -/
theorem build_of_unlinked (h : w.Unlinked) {b : Built} (built : w.build d none = .ok b) :
    b.model.tables = w.tables.map Draft.toTable ∧ b.model.errors = w.errors := by
  have named := named_of_build built
  obtain ⟨-, -, b', built', tables, -, errors⟩ := build_eq_ok (d := d) named none
  obtain rfl := Except.ok.inj (built.symm.trans built')
  refine ⟨tables.trans ?_, ?_⟩
  · exact List.map_congr_left fun t ht => Draft.toTable_resolved_eq_self (h t ht) w.tables
  · have resolved : (w.tables.flatMap fun t => (t.resolutionFindings d w.tables).modelErrors) = [] :=
      List.flatMap_eq_nil_iff.2 fun t ht =>
        (Draft.modelErrors_resolutionFindings_eq_nil_iff (named.tables t ht) named.tables).2
          fun k hk => absurd hk (by rw [h t ht]; exact List.not_mem_nil)
    rw [errors, resolved, List.append_nil]

/-- names of which none is given again are given to one table each -/
theorem nodup_createdKeys (run : nameAll d l w = .ok (w', log)) (fresh : FreshCreations log) :
    (createdKeys d l).Nodup := by
  rw [← keys_of_nameAll run, List.nodup_iff_pairwise_ne, List.pairwise_map]
  refine (fresh.sublist List.filter_sublist).imp_of_mem fun _ later h => ?_
  exact fun same => h (List.mem_filter.1 later).2 same.symm

/-- the pass that declares the tables, where no two are created under one key -/
theorem ahead_of_sums {w : Workspace} {parts : List Workspace} (names : ∀ n ∈ l, n.1.namesTable = true)
    (s : Sums d l {} w parts) (distinct : (createdKeys d l).Nodup) :
    l.foldlM (declarationPass d S) {} = .ok (concat parts) ∧ Ahead d l {} (concat parts) := by
  constructor
  · rw [foldlM_declared names distinct, s.each]
    rfl
  · exact ⟨fun t ht => absurd ht List.not_mem_nil, rfl, ⟨parts, s.each, rfl, s.pending⟩,
      fun t ht => absurd ht List.not_mem_nil, distinct⟩

/-- Where as many tables are left as were created, no two of them were created under one key. -/
theorem nodup_of_length {w v : Workspace} {parts : List Workspace} (names : ∀ st ∈ S, st.namesTable = true)
    (s : Sums d S.zipIdx {} w parts) (declared : S.zipIdx.foldlM (declarationPass d S) {} = .ok p)
    (grown : Extends p v) (length : v.tables.length = w.tables.length) : (createdKeys d S.zipIdx).Nodup := by
  obtain ⟨distinct, kept, sublist, keys⟩ := keys_declared (q := {})
    (fun n hn => names n.1 (List.fst_mem_of_mem_zipIdx hn)) (droppedBetween_of_namesTable names) List.nodup_nil declared
  rw [List.map_nil, List.nil_append] at keys
  have count : p.tables.length = (createdKeys d S.zipIdx).length := by
    rw [← keys_pending s.each, List.length_map, ← grown.length, length]
    simpa using s.length
  have all : kept = createdKeys d S.zipIdx := sublist.eq_of_length (by rw [← count, ← keys, List.length_map])
  rwa [Distinct, keys, all] at distinct

theorem applyAll_of_namesTable (names : ∀ st ∈ S, st.namesTable = true) : applyAll d S =
    S.zipIdx.foldlM (declarationPass d S) {} >>= S.zipIdx.foldlM (changePass d) := by
  have enums : S.foldlM (enumPass d) {} = .ok {} :=
    foldlM_eq_ok_self fun st hst w => enumPass_of_namesTable (names st hst)
  rw [applyAll, enums]
  rfl

end Workspace

/-! ## The model -/

/-- Where an execution in order meets no problem, there is a model with its tables and no more errors exactly if no
table is created under a name that was given before, and if all names are there. -/
theorem model_of_renamings_iff {S : List Statement} (names : ∀ st ∈ S, st.namesTable = true) {w : Workspace}
    {log : List Workspace.Naming} (run : Workspace.nameAll d S.zipIdx {} = .ok (w, log)) :
    (∃ b, buildModel d none S = .ok b ∧ b.model.tables = w.tables.map Draft.toTable ∧
      b.model.errors = w.findings.modelErrors) ↔ w.Named ∧ Workspace.FreshCreations log := by
  have each : ∀ n ∈ S.zipIdx, n.1.namesTable = true := fun n hn => names n.1 (List.fst_mem_of_mem_zipIdx hn)
  obtain ⟨parts, s⟩ := Workspace.exists_sums each (fun t ht => absurd ht List.not_mem_nil) rfl run
  have found : (Workspace.concat parts).findings = w.findings := s.findings.symm
  constructor
  · rintro ⟨b, built, tables, errors⟩
    obtain ⟨v, applied, built⟩ := Workspace.exists_applied_of_buildModel built
    have named := Workspace.named_of_build built
    have tallied := Workspace.tallied_of_applyAll applied
    rw [Workspace.applyAll_of_namesTable names, bind_eq_ok_iff] at applied
    obtain ⟨p, declared, changed⟩ := applied
    obtain ⟨-, -, b', built', tables', -, errors'⟩ := Workspace.build_eq_ok (d := d) named none
    obtain rfl := Except.ok.inj (built.symm.trans built')
    have grown := Workspace.extends_changes each changed
    -- the model has as many tables as were created, so each of them was kept
    have length : v.tables.length = w.tables.length := by
      have lengths := congrArg List.length (tables'.symm.trans tables)
      simpa [Workspace.shown, Workspace.resolvedTables] using lengths
    obtain ⟨declared', ahead⟩ := Workspace.ahead_of_sums each s
      (Workspace.nodup_of_length names s declared grown length)
    obtain rfl := Except.ok.inj (declared.symm.trans declared')
    -- the errors of the model are those of the first pass, so the second one has found none
    have quiet : v.findings.modelErrors = (Workspace.concat parts).findings.modelErrors := by
      refine (grown.errors.eq_of_length_le ?_).symm
      rw [found, ← errors, errors', tallied, List.length_append]
      exact Nat.le_add_right ..
    have fresh := (ahead.run each run).2 v changed quiet
    obtain ⟨v', changed', -, same⟩ := (ahead.run each run).1 fresh
    obtain rfl := Except.ok.inj (changed.symm.trans changed')
    exact ⟨⟨same ▸ named.tables, same ▸ named.columns⟩, fresh⟩
  · rintro ⟨named, fresh⟩
    obtain ⟨declared, ahead⟩ := Workspace.ahead_of_sums each s (Workspace.nodup_createdKeys run fresh)
    obtain ⟨v, changed, same, tables⟩ := (ahead.run each run).1 fresh
    have applied : Workspace.applyAll d S = .ok v := by
      rw [Workspace.applyAll_of_namesTable names, declared]
      exact changed
    obtain ⟨b, built⟩ := (Workspace.exists_build_iff (d := d) (w := v) none).2
      ⟨tables.symm ▸ named.tables, tables.symm ▸ named.columns⟩
    have unlinked : v.Unlinked := fun t ht => s.unlinked t (tables ▸ ht)
    obtain ⟨shown, errors⟩ := Workspace.build_of_unlinked unlinked built
    refine ⟨b, (Workspace.buildModel_of_applied applied none).trans built, ?_, ?_⟩
    · rw [shown, tables]
    · rw [errors, Workspace.tallied_of_applyAll applied, same, found]

/-- a table is renamed -/
def renamedAs (name newName : String) (line : Nat) : Statement :=
  ⟨.alterTable { name := ⟨name, none⟩, actions := [.renameTable ⟨newName, none⟩] }, ⟨line, 1, 0⟩, none⟩

/-- two tables that change their names -/
def exchanged : List Statement :=
  [declaredAs "a" "x" 1, renamedAs "a" "t" 2, declaredAs "b" "y" 3, renamedAs "B" "a" 4, renamedAs "T" "B" 5]

theorem model_of_renamings_exchanged : ∃ w log b, Workspace.nameAll .sqlite exchanged.zipIdx {} = .ok (w, log) ∧
    buildModel .sqlite none exchanged = .ok b ∧ b.model.tables = w.tables.map Draft.toTable ∧ b.model.errors = [] ∧
    w.tables.map (fun t => (t.name, t.columns.map (·.name))) = [("B", ["x"]), ("a", ["y"])] := by
  have shape : (Workspace.nameAll .sqlite exchanged.zipIdx {}).toOption.map (fun r =>
      (decide (Workspace.FreshCreations r.2) && r.1.tables.all (fun t => t.name != "" && t.columns.all (·.name != "")),
        r.1.findings.modelErrors, r.1.tables.map fun t => (t.name, t.columns.map (·.name)))) =
      some (true, [], [("B", ["x"]), ("a", ["y"])]) := by
    decide +kernel
  obtain ⟨⟨w, log⟩, run, same⟩ := Option.map_eq_some_iff.1 shape
  have run := toOption_eq_some_iff.1 run
  simp only [Prod.mk.injEq, List.all_eq_true, Bool.and_eq_true, bne_iff_ne, decide_eq_true_eq] at same
  obtain ⟨⟨fresh, filled⟩, quiet, tables⟩ := same
  have named : w.Named := ⟨fun t ht => (filled t ht).1, fun t ht => (filled t ht).2⟩
  obtain ⟨b, built, shown, errors⟩ :=
    (model_of_renamings_iff (d := .sqlite) (S := exchanged) (by decide) run).2 ⟨named, fresh⟩
  exact ⟨w, log, b, run, built, shown, errors.trans quiet, tables⟩

/-- A name that a table gave up is not free for the next one: a second declaration under it is lost, and a table that
is declared under it later is in the way of the renaming before. -/
theorem name_not_free_after_renaming :
    let again : List Statement := [declaredAs "t" "a" 1, renamedAs "t" "s" 2, declaredAs "t" "c" 3]
    let inTheWay : List Statement :=
      [declaredAs "a" "x" 1, renamedAs "a" "b" 2, renamedAs "b" "c" 3, declaredAs "b" "y" 4]
    let executed (S : List Statement) := (Workspace.nameAll .sqlite S.zipIdx {}).toOption.map fun r =>
      (r.1.tables.map (·.name), r.1.findings.modelErrors)
    let built (S : List Statement) := (buildModel .sqlite none S).toOption.map fun b =>
      (b.model.tables.map (·.name), b.model.errors.map (·.code))
    (∀ S ∈ [again, inTheWay], ∀ st ∈ S, st.namesTable = true) ∧
    executed again = some (["s", "t"], []) ∧ built again = some (["s"], ["DUPLICATE_TABLE"]) ∧
    executed inTheWay = some (["c", "b"], []) ∧ built inTheWay = some (["a", "c"], ["DUPLICATE_TABLE"]) := by
  decide +kernel

end SchemaApi
