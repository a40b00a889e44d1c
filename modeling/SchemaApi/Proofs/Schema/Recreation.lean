import SchemaApi.Proofs.Schema.Idle
/-!
Tables that are dropped and declared again.

When the changes of a script are made, all its tables are declared, and of a table that is dropped and declared again
there is only the last declaration. What the first one added is gone. But the changes that were written for the first
table find the second one, as if it had been there all the time: `ALTER TABLE`, `CREATE INDEX` and `COMMENT ON` do
not ask, as `DROP TABLE` does, whether the table was declared before them.
-/

namespace SchemaApi

variable {d : Dialect} {key : String}

/-! ## Statements about a table -/

namespace Statement

/-- the statement alters a table, adds an index to it or comments on it -/
def changes (d : Dialect) (key : String) (st : Statement) : Bool :=
  match st.body with
  | .alterTable alter => alter.name.key d == key
  | .createIndex index => index.table.key d == key
  | .commentOn comment => comment.table.key d == key
  | _ => false

/-- a statement in the place of another one that does nothing -/
def idle (st : Statement) : Statement := { st with body := .dropTable { names := [] } }

/-- the statement, unless it changes a table -/
def unchanging (d : Dialect) (key : String) (st : Statement) : Statement := if st.changes d key then st.idle else st

/-- the statement without a table that it declares or drops -/
def without (d : Dialect) (key : String) (st : Statement) : Statement :=
  match st.body with
  | .createTable table => if table.name.key d = key then st.idle else st
  | .dropTable drop => { st with body := .dropTable { drop with names := drop.names.filter (·.key d != key) } }
  | _ => st

variable {st : Statement}

/-- a statement stays, declares a table, or drops tables -/
theorem without_cases (d : Dialect) (key : String) (st : Statement) :
    (st.without d key = st ∧ ∀ drop, st.body ≠ .dropTable drop) ∨
    (∃ table, st.body = .createTable table ∧ table.name.key d = key ∧ st.without d key = st.idle) ∨
    ∃ drop, st.body = .dropTable drop ∧
      st.without d key = { st with body := .dropTable { drop with names := drop.names.filter (·.key d != key) } } := by
  unfold without
  cases body : st.body with
  | createTable table =>
    by_cases own : table.name.key d = key
    · exact Or.inr (Or.inl ⟨table, rfl, own, if_pos own⟩)
    · exact Or.inl ⟨if_neg own, by simp⟩
  | dropTable drop => exact Or.inr (Or.inr ⟨drop, rfl, rfl⟩)
  | _ => exact Or.inl ⟨rfl, by simp⟩

theorem body_of_tableKey? {other : String} (declares : st.tableKey? d = some other) :
    ∃ table, st.body = .createTable table ∧ table.name.key d = other := by
  obtain ⟨table, declared, own⟩ := Option.map_eq_some_iff.1 declares
  unfold table? at declared
  split at declared
  · rename_i table' body
    exact ⟨table', body, Option.some.inj declared ▸ own⟩
  · simp at declared

theorem renamesTable_unchanging (plain : st.renamesTable = false) : (st.unchanging d key).renamesTable = false := by
  unfold unchanging
  split_ifs
  · rfl
  · exact plain

theorem renamesTable_without (plain : st.renamesTable = false) : (st.without d key).renamesTable = false := by
  rcases without_cases d key st with ⟨same, -⟩ | ⟨table, -, -, same⟩ | ⟨drop, -, same⟩
  · rw [same, plain]
  · rw [same]
    rfl
  · rw [same]
    rfl

/-- a statement that changes a table declares none and drops none -/
theorem body_of_changes (changing : st.changes d key = true) : st.table? = none ∧
    (∀ drop, st.body ≠ .dropTable drop) ∧ (∀ view, st.body ≠ .createView view) ∧ st.enum? = none := by
  unfold changes at changing
  rw [table?, enum?]
  cases body : st.body <;> simp_all

theorem without_of_changes (changing : st.changes d key = true) : st.without d key = st := by
  obtain ⟨noTable, noDrop, -, -⟩ := body_of_changes changing
  rcases without_cases d key st with ⟨same, -⟩ | ⟨table, body, -, -⟩ | ⟨drop, body, -⟩
  · exact same
  · simp [table?, body] at noTable
  · exact absurd body (noDrop drop)

theorem changes_without : (st.without d key).changes d key = st.changes d key := by
  rcases without_cases d key st with ⟨same, -⟩ | ⟨table, body, -, same⟩ | ⟨drop, body, same⟩
  · rw [same]
  · rw [same, changes, changes, idle, body]
  · rw [same, changes, changes, body]

theorem without_unchanging : (st.unchanging d key).without d key = (st.without d key).unchanging d key := by
  rw [unchanging, unchanging, changes_without]
  split_ifs with changing
  · rw [without_of_changes changing]
    rfl
  · rfl

end Statement

/-- the statements but for those that change a table -/
def unchanged (d : Dialect) (key : String) (S : List Statement) : List Statement := S.filter (!·.changes d key)

/-- the statements without the declarations of a table and without its drops -/
def undeclared (d : Dialect) (key : String) (S : List Statement) : List Statement :=
  (S.map (·.without d key)).filter (!·.isIdle)

theorem isIdle_idle (st : Statement) : st.idle.isIdle = true := rfl

theorem isIdle_without_idle (st : Statement) : (st.idle.without d key).isIdle = true := rfl

theorem filter_unchanged (S : List Statement) :
    (unchanged d key S).filter (!·.isIdle) = (S.map (·.unchanging d key)).filter (!·.isIdle) := by
  induction S with
  | nil => rfl
  | cons st S ih =>
    rw [unchanged, List.map_cons, Statement.unchanging]
    by_cases changing : st.changes d key = true
    · rw [List.filter_cons_of_neg (by simpa using changing), if_pos changing,
        List.filter_cons_of_neg (by simp [isIdle_idle]), ← ih]
      rfl
    · rw [List.filter_cons_of_pos (by simpa using changing), if_neg changing, List.filter_cons, List.filter_cons, ← ih]
      rfl

theorem undeclared_unchanged (S : List Statement) :
    undeclared d key (unchanged d key S) = undeclared d key (S.map (·.unchanging d key)) := by
  induction S with
  | nil => rfl
  | cons st S ih =>
    have rest : undeclared d key (S.filter fun st => !st.changes d key) =
        undeclared d key (S.map (·.unchanging d key)) := ih
    rw [unchanged, List.map_cons, Statement.unchanging]
    by_cases changing : st.changes d key = true
    · rw [List.filter_cons_of_neg (by simpa using changing), if_pos changing, rest, undeclared, undeclared,
        List.map_cons, List.filter_cons_of_neg (by simp [isIdle_without_idle])]
    · rw [List.filter_cons_of_pos (by simpa using changing), if_neg changing, undeclared, undeclared, List.map_cons,
        List.map_cons, List.filter_cons, List.filter_cons, ← undeclared, ← undeclared, rest]

namespace Workspace

variable {w w' v : Workspace} {S S' F later : List Statement} {st : Statement} {index limit : Nat}

/-! ## Tables are declared -/

theorem droppedBetween_congr {other : String} (same : S'.map (dropsTable d other) = S.map (dropsTable d other))
    (first last : Nat) : droppedBetween d S' other first last = droppedBetween d S other first last := by
  have read : ∀ S : List Statement, droppedBetween d S other first last =
      (((S.map (dropsTable d other)).take last).drop (first + 1)).any id := fun S => by
    rw [droppedBetween, ← List.map_take, ← List.map_drop, List.any_map]
    rfl
  rw [read, read, same]

/-- between later statements, those before have no part in it -/
theorem droppedBetween_behind {first : Nat} (behind : F.length ≤ first + 1) (other : String) (last : Nat) :
    droppedBetween d (F ++ later) other first last =
      ((later.drop (first + 1 - F.length)).take (last - (first + 1))).any (dropsTable d other) := by
  rw [droppedBetween, List.drop_take, List.drop_append, List.drop_eq_nil_of_le behind, List.nil_append]

theorem declarationPass_congr
    (same : ∀ other first last, droppedBetween d S' other first last = droppedBetween d S other first last)
    (w : Workspace) (n : Statement × Nat) : declarationPass d S' w n = declarationPass d S w n := by
  have declared : ∀ st table index, declareTable d S' st table index = declareTable d S st table index :=
    fun st table index => funext fun w => by simp only [declareTable, same]
  simp only [declarationPass, declared]

theorem dropsTable_unchanging (other : String) : dropsTable d other (st.unchanging d key) = dropsTable d other st := by
  rw [Statement.unchanging]
  split_ifs with changing
  · obtain ⟨-, noDrop, -, -⟩ := Statement.body_of_changes changing
    rw [dropsTable, dropsTable, Statement.idle]
    cases body : st.body with
    | dropTable drop => exact absurd body (noDrop drop)
    | _ => rfl
  · rfl

theorem dropsTable_without {other : String} (different : other ≠ key) :
    dropsTable d other (st.without d key) = dropsTable d other st := by
  rcases Statement.without_cases d key st with ⟨same, -⟩ | ⟨table, body, -, same⟩ | ⟨drop, body, same⟩
  · rw [same]
  · rw [same, dropsTable, dropsTable, Statement.idle, body]
    rfl
  · rw [same, dropsTable, dropsTable, body]
    simp only [List.any_filter]
    congr 1
    funext n
    by_cases own : n.key d = other
    · simp [own, different]
    · simp [own]

theorem enumPass_unchanging : enumPass d w (st.unchanging d key) = enumPass d w st := by
  rw [Statement.unchanging]
  split_ifs with changing
  · obtain ⟨-, -, -, noEnum⟩ := Statement.body_of_changes changing
    rw [enumPass, enumPass, Statement.idle]
    cases body : st.body with
    | createEnum enum => simp [Statement.enum?, body] at noEnum
    | _ => rfl
  · rfl

theorem enumPass_without : enumPass d w (st.without d key) = enumPass d w st := by
  rcases Statement.without_cases d key st with ⟨same, -⟩ | ⟨table, body, -, same⟩ | ⟨drop, body, same⟩
  · rw [same]
  · rw [same, enumPass, enumPass, Statement.idle, body]
  · rw [same, enumPass, enumPass, body]

theorem foldlM_enumPass_map {g : Statement → Statement} (same : ∀ st w, enumPass d w (g st) = enumPass d w st) :
    (F.map g ++ later).foldlM (enumPass d) w = (F ++ later).foldlM (enumPass d) w := by
  rw [List.foldlM_append, List.foldlM_append, List.foldlM_map]
  simp only [same]

/-- what only changes a table has no part in the declarations -/
theorem declarations_unchanging : (F.map (·.unchanging d key) ++ later).zipIdx.foldlM
      (declarationPass d (F.map (·.unchanging d key) ++ later)) w =
    (F ++ later).zipIdx.foldlM (declarationPass d (F ++ later)) w := by
  have dropped : ∀ other first last, droppedBetween d (F.map (·.unchanging d key) ++ later) other first last =
      droppedBetween d (F ++ later) other first last := fun other => droppedBetween_congr (by
    simp only [List.map_append, List.map_map, Function.comp_def, dropsTable_unchanging])
  have own : ∀ (w : Workspace) (n : Statement × Nat),
      declarationPass d (F ++ later) w (Prod.map (·.unchanging d key) id n) = declarationPass d (F ++ later) w n := by
    rintro w ⟨st, index⟩
    simp only [Prod.map, id, Statement.unchanging]
    split_ifs with changing
    · obtain ⟨noTable, -, noView, -⟩ := Statement.body_of_changes changing
      simp only [declarationPass, Statement.idle]
      cases body : st.body with
      | createTable table => simp [Statement.table?, body] at noTable
      | createView view => exact absurd body (noView view)
      | _ => rfl
    · rfl
  have each : declarationPass d (F.map (·.unchanging d key) ++ later) = declarationPass d (F ++ later) :=
    funext fun w => funext fun n => declarationPass_congr dropped w n
  rw [each, List.zipIdx_append, List.zipIdx_append, List.zipIdx_map, List.foldlM_append, List.foldlM_append,
    List.foldlM_map, List.length_map]
  simp only [own]

/-! ### A table is declared again -/

variable {table : CreateTable}

/-- what is found if a table is declared that there is already -/
def secondDeclaration (st : Statement) (table : CreateTable) (first : Position) : Ledger :=
  if table.ifNotExists then
    { findings := [Finding.about .warning .model "DUPLICATE_TABLE"
        (s!"Table '{table.name.text}' is declared again with IF NOT EXISTS; " ++ "the first declaration is kept")
        st.source (some st.position)] }
  else
    let finding := (Problem.duplicateTable table.name.text first).finding st.position st.source
    { findings := [finding], errors := [finding] }

/-- a declaration counts if there is no table of its key, or no longer -/
theorem declarationPass_of_gone (body : st.body = .createTable table)
    (gone : ∀ t, w.table? (table.name.key d) = some t →
      droppedBetween d S (table.name.key d) t.declaredBy index = true) :
    declarationPass d S w (st, index) =
      (alone d w.enums (st, index)).map (w.dropTable (table.name.key d)).append := by
  have fresh : ∀ t ∈ (w.dropTable (table.name.key d)).tables, t.key ≠ table.name.key d := fun t ht =>
    bne_iff_ne.1 (List.mem_filter.1 ht).2
  have same : ∀ name, (w.dropTable (table.name.key d)).enums.lookup name = w.enums.lookup name := fun _ => rfl
  rw [alone_createTable body]
  simp only [declarationPass, body, attempt, declareTable_of_dropped gone, addTable_eq_append index fresh same]
  cases (addTable d st table index { enums := w.enums }) <;> rfl

/-- a declaration that does not count is reported -/
theorem declarationPass_of_kept (body : st.body = .createTable table) {t : Draft}
    (found : w.table? (table.name.key d) = some t)
    (kept : droppedBetween d S (table.name.key d) t.declaredBy index = false) : declarationPass d S w (st, index) =
      .ok (w.enter (secondDeclaration st table t.position)) := by
  simp only [declarationPass, body, attempt, declareTable, found, kept, Bool.false_eq_true, if_false, secondDeclaration]
  split_ifs
  · simp only [enter, List.append_nil]
    rfl
  · rfl

theorem tables_of_alone {enums : List (String × EnumType)} {part : Workspace} (body : st.body = .createTable table)
    (run : alone d enums (st, index) = .ok part) :
    ∃ t : Draft, part.tables = [t] ∧ t.key = table.name.key d ∧ t.declaredBy = index := by
  rw [alone_createTable body] at run
  obtain ⟨u, added, rfl⟩ := map_eq_ok_iff.1 run
  obtain ⟨t, tables, own⟩ := tables_of_addTable added
  exact ⟨t, tables, own⟩

/-- a statement that declares no table has nothing to do with tables -/
theorem declarationPass_of_noTable (noTable : st.table? = none) (run : declarationPass d S w (st, index) = .ok v) :
    ∃ views found, v = { w.enter found with views := views } ∧
      ∀ (S' : List Statement) (w' : Workspace), w'.views = w.views → declarationPass d S' w' (st, index) =
        .ok { w'.enter found with views := views } := by
  have idle : ∀ (u : Workspace) views, { u.enter {} with views := views } = { u with views := views } := fun u views => by
    rw [enter_empty]
  cases body : st.body with
  | createTable table => simp [Statement.table?, body] at noTable
  | createView view =>
    simp only [declarationPass, body, attempt, declareView] at run ⊢
    split_ifs at run with again unnamed
    · let finding := (Problem.duplicateView view.name.text).finding st.position st.source
      refine ⟨w.views, { findings := [finding], errors := [finding] }, (Except.ok.inj run).symm, fun S' w' same => ?_⟩
      simp only [same, if_pos again]
      rw [← same]
      rfl
    · refine ⟨_, {}, (Except.ok.inj run).symm.trans (idle w _).symm, fun S' w' same => ?_⟩
      simp only [same, if_neg again, if_neg unnamed, idle]
  | _ =>
    simp only [declarationPass, body] at run ⊢
    exact ⟨w.views, {}, (Except.ok.inj run).symm.trans (idle w _).symm, fun S' w' same => by rw [← same, idle]⟩

/-- what is declared is the same to two schemas that have the same table of its key -/
theorem declarationPass_of_table (body : st.body = .createTable table) (enums : w'.enums = w.enums)
    (alike : w'.table? (table.name.key d) = w.table? (table.name.key d))
    (dropped : ∀ t, w.table? (table.name.key d) = some t →
      droppedBetween d S' (table.name.key d) t.declaredBy index =
        droppedBetween d S (table.name.key d) t.declaredBy index)
    (run : declarationPass d S w (st, index) = .ok v) :
    (∃ part, alone d w.enums (st, index) = .ok part ∧ v = (w.dropTable (table.name.key d)).append part ∧
      declarationPass d S' w' (st, index) = .ok ((w'.dropTable (table.name.key d)).append part)) ∨
    ∃ found, v = w.enter found ∧ declarationPass d S' w' (st, index) = .ok (w'.enter found) := by
  by_cases gone : ∀ t, w.table? (table.name.key d) = some t →
      droppedBetween d S (table.name.key d) t.declaredBy index = true
  · have gone' : ∀ t, w'.table? (table.name.key d) = some t →
        droppedBetween d S' (table.name.key d) t.declaredBy index = true :=
      fun t found => (dropped t (alike ▸ found)).trans (gone t (alike ▸ found))
    rw [declarationPass_of_gone body gone] at run
    obtain ⟨part, made, rfl⟩ := map_eq_ok_iff.1 run
    refine Or.inl ⟨part, made, rfl, ?_⟩
    rw [declarationPass_of_gone body gone', enums, made]
    rfl
  · push Not at gone
    obtain ⟨t, found, kept⟩ := gone
    rw [ne_eq, Bool.not_eq_true] at kept
    rw [declarationPass_of_kept body found kept] at run
    exact Or.inr ⟨_, (Except.ok.inj run).symm,
      declarationPass_of_kept body (alike.trans found) ((dropped t found).trans kept)⟩

theorem Distinct.replace (distinct : w.Distinct) {part : Workspace} {t : Draft} (tables : part.tables = [t]) :
    ((w.dropTable t.key).append part).Distinct := by
  rw [Distinct, append, tables, List.map_append, List.nodup_append]
  refine ⟨distinct.filter rfl, List.nodup_singleton _, fun a ha b hb => ?_⟩
  obtain ⟨x, hx, rfl⟩ := List.mem_map.1 ha
  rw [List.mem_singleton.1 hb]
  exact bne_iff_ne.1 (List.mem_filter.1 hx).2

/-! ### Declarations without those of a table -/

/-- The statements drop the same tables at the same places, but for one table: the second ones do not drop it up to a
number, and the first ones do so there. -/
structure SameDrops (d : Dialect) (key : String) (limit : Nat) (S S' : List Statement) : Prop where
  other : ∀ other, other ≠ key → ∀ first last,
    droppedBetween d S' other first last = droppedBetween d S other first last
  late : ∀ first last, limit < first → droppedBetween d S' key first last = droppedBetween d S key first last
  between : ∀ first last, first < limit → limit < last → droppedBetween d S key first last = true

theorem sameDrops {former : List Statement} {drop : Statement} (dropped : dropsTable d key drop = true) :
    SameDrops d key former.length (former ++ [drop] ++ later) ((former ++ [drop]).map (·.without d key) ++ later) where
  other other different := droppedBetween_congr (by
    simp only [List.map_append, List.map_map, Function.comp_def, dropsTable_without different])
  late first last after := by
    have behind : (former ++ [drop]).length ≤ first + 1 := by
      rw [List.length_append, List.length_singleton]
      omega
    rw [droppedBetween_behind behind, droppedBetween_behind (by rwa [List.length_map]), List.length_map]
  between first last before after := droppedBetween_iff.2 ⟨former.length, drop, before, after, by
    rw [List.append_assoc, List.getElem?_append_right (Nat.le_refl _), Nat.sub_self]
    rfl, dropped⟩

/-- besides the tables there is the same, with fewer errors -/
structure FewerErrors (w w' : Workspace) : Prop where
  enums : w'.enums = w.enums
  views : w'.views = w.views
  errors : w'.errors.Sublist w.errors

theorem FewerErrors.add (h : FewerErrors w w') {views views' : List (String × View)} (same : views' = views)
    (found : Ledger) : FewerErrors { w.enter found with views := views } { w'.enter found with views := views' } :=
  ⟨h.enums, same, h.errors.append_right _⟩

theorem FewerErrors.append (h : FewerErrors w w') (other : String) (part : Workspace) :
    FewerErrors ((w.dropTable other).append part) ((w'.dropTable other).append part) :=
  ⟨congrArg (· ++ part.enums) h.enums, congrArg (· ++ part.views) h.views, h.errors.append_right _⟩

theorem FewerErrors.of_more (h : FewerErrors w w') (enums : v.enums = w.enums) (views : v.views = w.views)
    (found : Findings) (more : v.errors = w.errors ++ found) : FewerErrors v w' := by
  refine ⟨h.enums.trans enums.symm, h.views.trans views.symm, ?_⟩
  rw [more]
  exact h.errors.trans (List.sublist_append_left ..)

/-- one schema is the other one without a table that an early statement declared -/
structure Lacking (key : String) (limit : Nat) (w w' : Workspace) : Prop extends FewerErrors w w' where
  tables : w'.tables = w.tables.filter fun t => t.key != key
  early : ∀ t ∈ w.tables, t.key = key → t.declaredBy < limit
  distinct : w.Distinct

/-- a late statement declared the table of a key -/
structure Late (key : String) (limit : Nat) (w : Workspace) : Prop where
  distinct : w.Distinct
  table : ∃ t ∈ w.tables, t.key = key ∧ limit < t.declaredBy

theorem Distinct.late (distinct : w.Distinct) {part : Workspace} {t : Draft} (tables : part.tables = [t])
    (isKey : t.key = key) (late : limit < t.declaredBy) : Late key limit ((w.dropTable t.key).append part) where
  distinct := distinct.replace tables
  table := by
    refine ⟨t, List.mem_append_right _ ?_, isKey, late⟩
    rw [tables]
    exact List.mem_singleton_self t

/-- the schemas have the same tables, one of which a late statement declared -/
structure Renewed (key : String) (limit : Nat) (w w' : Workspace) : Prop
    extends FewerErrors w w', Late key limit w where
  tables : w'.tables = w.tables

/-- another statement is the same to a schema without the table -/
theorem Lacking.step (same : SameDrops d key limit S S') (h : Lacking key limit w w')
    (apart : st.tableKey? d ≠ some key) (run : declarationPass d S w (st, index) = .ok v) :
    ∃ v', declarationPass d S' w' (st, index) = .ok v' ∧ Lacking key limit v v' := by
  cases declares : st.tableKey? d with
  | none =>
    obtain ⟨views, found, rfl, again⟩ := declarationPass_of_noTable (Option.map_eq_none_iff.1 declares) run
    exact ⟨_, again S' w' h.views, { h.add rfl found, h with }⟩
  | some other =>
    obtain ⟨table, body, rfl⟩ := Statement.body_of_tableKey? declares
    have different : table.name.key d ≠ key := fun own => apart (own ▸ declares)
    have alike : w'.table? (table.name.key d) = w.table? (table.name.key d) := by
      rw [table?, table?, h.tables, List.find?_filter]
      congr 1
      funext t
      by_cases own : t.key = table.name.key d
      · simp [own, different]
      · simp [own]
    obtain ⟨part, made, rfl, run'⟩ | ⟨found, rfl, run'⟩ :=
      declarationPass_of_table body h.enums alike (fun t _ => same.other _ different ..) run
    · obtain ⟨t, tables, own, -⟩ := tables_of_alone body made
      rw [← own] at different run' ⊢
      refine ⟨_, run', h.append _ part, ?_, fun x hx isKey => ?_, h.distinct.replace tables⟩
      · simp only [append, dropTable, tables, h.tables, List.filter_append, List.filter_filter]
        simp [different, Bool.and_comm]
      · rcases List.mem_append.1 hx with hx | hx
        · exact h.early x (List.mem_of_mem_filter hx) isKey
        · rw [tables, List.mem_singleton] at hx
          exact absurd (hx ▸ isKey) different
    · exact ⟨_, run', { h.add h.views found, h with }⟩

/-- an early declaration of the table is left out -/
theorem Lacking.declared (h : Lacking key limit w w') (declares : st.tableKey? d = some key) (early : index < limit)
    (run : declarationPass d S w (st, index) = .ok v) : Lacking key limit v w' := by
  obtain ⟨table, body, rfl⟩ := Statement.body_of_tableKey? declares
  obtain ⟨part, made, rfl, -⟩ | ⟨found, rfl, -⟩ := declarationPass_of_table body rfl rfl (fun _ _ => rfl) run
  · obtain ⟨t, tables, own, number⟩ := tables_of_alone body made
    obtain ⟨enums, views⟩ := enums_of_alone made
    refine ⟨h.of_more ?_ ?_ part.errors rfl, ?_, fun x hx isKey => ?_, own ▸ h.distinct.replace tables⟩
    · rw [append, enums, List.append_nil]
      rfl
    · rw [append, views, List.append_nil]
      rfl
    · rw [append, tables, dropTable, List.filter_append, List.filter_filter, h.tables]
      simp [own]
    · rcases List.mem_append.1 hx with hx | hx
      · exact h.early x (List.mem_of_mem_filter hx) isKey
      · rw [tables, List.mem_singleton] at hx
        rw [hx, number]
        exact early
  · exact ⟨h.of_more rfl rfl found.errors rfl, h.tables, h.early, h.distinct⟩

/-- a statement in the place of one that may declare or drop the table -/
theorem Lacking.step_without (same : SameDrops d key limit S S') (h : Lacking key limit w w')
    (early : st.tableKey? d = some key → index < limit) (run : declarationPass d S w (st, index) = .ok v) :
    ∃ v', declarationPass d S' w' (st.without d key, index) = .ok v' ∧ Lacking key limit v v' := by
  by_cases declares : st.tableKey? d = some key
  · obtain ⟨table, body, own⟩ := Statement.body_of_tableKey? declares
    have left : st.without d key = st.idle := by
      rw [Statement.without, body]
      exact if_pos own
    exact ⟨w', by rw [left]; rfl, h.declared declares (early declares) run⟩
  · have stays : declarationPass d S' w' (st.without d key, index) = declarationPass d S' w' (st, index) := by
      rcases Statement.without_cases d key st with ⟨stays, -⟩ | ⟨table, body, own, -⟩ | ⟨drop, body, stays⟩
      · rw [stays]
      · refine absurd ?_ declares
        rw [Statement.tableKey?, Statement.table?, body, ← own]
        rfl
      · simp only [stays, declarationPass, body]
    rw [stays]
    exact h.step same declares run

/-- the first late declaration of the table replaces the early one -/
theorem Lacking.renew (same : SameDrops d key limit S S') (h : Lacking key limit w w')
    (declares : st.tableKey? d = some key) (late : limit < index) (run : declarationPass d S w (st, index) = .ok v) :
    ∃ v', declarationPass d S' w' (st, index) = .ok v' ∧ Renewed key limit v v' := by
  obtain ⟨table, body, rfl⟩ := Statement.body_of_tableKey? declares
  have absent : w'.table? (table.name.key d) = none := by
    refine List.find?_eq_none.2 fun t ht own => ?_
    rw [h.tables] at ht
    exact bne_iff_ne.1 (List.mem_filter.1 ht).2 (beq_iff_eq.1 own)
  -- an early table of the key is dropped in between, so the declaration counts in both lists
  rw [declarationPass_of_gone body fun t found =>
    same.between _ _ (h.early t (table?_eq_some found).1 (table?_eq_some found).2) late] at run
  obtain ⟨part, made, rfl⟩ := map_eq_ok_iff.1 run
  obtain ⟨t, tables, own, number⟩ := tables_of_alone body made
  have new : Late (table.name.key d) limit ((w.dropTable (table.name.key d)).append part) := by
    rw [← own]
    exact h.distinct.late tables rfl (number ▸ late)
  refine ⟨(w'.dropTable (table.name.key d)).append part, ?_, h.append _ part, new, ?_⟩
  · rw [declarationPass_of_gone body fun t found => absurd (absent.symm.trans found) nofun, h.enums, made]
    rfl
  · rw [append, append, dropTable, dropTable, h.tables, List.filter_filter]
    simp only [Bool.and_self]

/-- once the table is renewed, the rest is the same -/
theorem Renewed.step (same : SameDrops d key limit S S') (h : Renewed key limit w w') (late : limit < index)
    (run : declarationPass d S w (st, index) = .ok v) :
    ∃ v', declarationPass d S' w' (st, index) = .ok v' ∧ Renewed key limit v v' := by
  cases declares : st.tableKey? d with
  | none =>
    obtain ⟨views, found, rfl, again⟩ := declarationPass_of_noTable (Option.map_eq_none_iff.1 declares) run
    exact ⟨_, again S' w' h.views, { h.add rfl found, h with }⟩
  | some other =>
    obtain ⟨table, body, rfl⟩ := Statement.body_of_tableKey? declares
    obtain ⟨x, hx, isKey, lateTable⟩ := h.table
    have alike : w'.table? (table.name.key d) = w.table? (table.name.key d) := by rw [table?, table?, h.tables]
    have dropped : ∀ t, w.table? (table.name.key d) = some t →
        droppedBetween d S' (table.name.key d) t.declaredBy index =
          droppedBetween d S (table.name.key d) t.declaredBy index := by
      intro t found
      by_cases own : table.name.key d = key
      · obtain ⟨ht, isOwn⟩ := table?_eq_some found
        rw [h.distinct.eq_of_key ht hx (isOwn.trans (own.trans isKey.symm)), own]
        exact same.late _ _ lateTable
      · exact same.other _ own ..
    obtain ⟨part, made, rfl, run'⟩ | ⟨found, rfl, run'⟩ := declarationPass_of_table body h.enums alike dropped run
    · obtain ⟨t, tables, own, number⟩ := tables_of_alone body made
      rw [← own] at run' ⊢
      refine ⟨_, run', h.append _ part, ?_, ?_⟩
      · by_cases again : t.key = key
        · exact h.distinct.late tables again (number ▸ late)
        · have apart : x.key ≠ t.key := fun same => again (same.symm.trans isKey)
          have left : x ∈ (w.dropTable t.key).tables := List.mem_filter.2 ⟨hx, bne_iff_ne.2 apart⟩
          exact ⟨h.distinct.replace tables, x, List.mem_append_left _ left, isKey, lateTable⟩
      · rw [append, append, dropTable, dropTable, h.tables]
    · exact ⟨_, run', { h.add h.views found, h with }⟩

/-- runs whose steps keep a relation -/
theorem exists_foldlM {R : Workspace → Workspace → Prop} {α : Type} {l : List α}
    {step step' : Workspace → α → Except Refusal Workspace}
    (each : ∀ a ∈ l, ∀ w w' v, R w w' → step w a = .ok v → ∃ v', step' w' a = .ok v' ∧ R v v')
    (related : R w w') (run : l.foldlM step w = .ok v) : ∃ v', l.foldlM step' w' = .ok v' ∧ R v v' := by
  induction l generalizing w w' with
  | nil => exact ⟨w', rfl, (Except.ok.inj run) ▸ related⟩
  | cons a l ih =>
    rw [List.foldlM_cons, bind_eq_ok_iff] at run
    obtain ⟨w₁, first, rest⟩ := run
    obtain ⟨w₁', first', related'⟩ := each a List.mem_cons_self w w' w₁ related first
    obtain ⟨v', rest', last⟩ := ih (fun b hb => each b (List.mem_cons_of_mem a hb)) related' rest
    exact ⟨v', by rw [List.foldlM_cons, first']; exact rest', last⟩

/-- up to the statement that drops it, the table is what the schemas differ in -/
theorem exists_lacking {former : List Statement} {drop : Statement} (dropped : dropsTable d key drop = true)
    (same : SameDrops d key former.length S S') (h : Lacking key former.length w w')
    (run : (former ++ [drop]).zipIdx.foldlM (declarationPass d S) w = .ok v) :
    ∃ v', ((former ++ [drop]).map (·.without d key)).zipIdx.foldlM (declarationPass d S') w' = .ok v' ∧
      Lacking key former.length v v' := by
  rw [List.zipIdx_map, List.foldlM_map]
  refine exists_foldlM (fun n hn u u' v related made => related.step_without same (fun declares => ?_) made) h run
  rw [zipIdx_concat, List.mem_append, List.mem_singleton] at hn
  rcases hn with hn | rfl
  · exact List.snd_lt_of_mem_zipIdx hn
  · obtain ⟨table, body, -⟩ := Statement.body_of_tableKey? declares
    rw [dropsTable, show drop.body = .createTable table from body] at dropped
    exact absurd dropped Bool.false_ne_true

/-- the first late declaration of the table renews it, and it stays renewed -/
theorem exists_renewed_behind (same : SameDrops d key limit S S') (again : ∃ st ∈ later, st.tableKey? d = some key)
    {start : Nat} (behind : limit < start) (h : Lacking key limit w w')
    (run : (later.zipIdx start).foldlM (declarationPass d S) w = .ok v) :
    ∃ v', (later.zipIdx start).foldlM (declarationPass d S') w' = .ok v' ∧ Renewed key limit v v' := by
  induction later generalizing start w w' with
  | nil => simp at again
  | cons st rest ih =>
    rw [List.zipIdx_cons, List.foldlM_cons, bind_eq_ok_iff] at run
    rw [List.zipIdx_cons, List.foldlM_cons]
    obtain ⟨w₁, first, run⟩ := run
    by_cases declares : st.tableKey? d = some key
    · obtain ⟨w₁', first', renewed⟩ := h.renew same declares behind first
      rw [first']
      exact exists_foldlM (fun n hn u u' v related made =>
        related.step same (by have := List.le_snd_of_mem_zipIdx hn; omega) made) renewed run
    · obtain ⟨w₁', first', lacking⟩ := h.step same declares first
      rw [first']
      have later : ∃ x ∈ rest, x.tableKey? d = some key := by
        obtain ⟨x, hx, declares'⟩ := again
        rcases List.mem_cons.1 hx with rfl | hx
        · exact absurd declares' declares
        · exact ⟨x, hx, declares'⟩
      exact ih later (Nat.lt_succ_of_lt behind) lacking run

/-- After all declarations there are the same tables, as if the table was not declared before it was dropped. -/
theorem exists_renewed {former : List Statement} {drop : Statement} (dropped : dropsTable d key drop = true)
    (again : ∃ st ∈ later, st.tableKey? d = some key) (empty : w.tables = [])
    (run : (former ++ [drop] ++ later).zipIdx.foldlM (declarationPass d (former ++ [drop] ++ later)) w = .ok v) :
    ∃ v', ((former ++ [drop]).map (·.without d key) ++ later).zipIdx.foldlM
        (declarationPass d ((former ++ [drop]).map (·.without d key) ++ later)) w = .ok v' ∧
      Renewed key former.length v v' := by
  have same : SameDrops d key former.length (former ++ [drop] ++ later)
    ((former ++ [drop]).map (·.without d key) ++ later) := sameDrops dropped
  have start : Lacking key former.length w w :=
    ⟨⟨rfl, rfl, .refl _⟩, by rw [empty]; rfl, by simp [empty], by rw [Distinct, empty]; exact List.nodup_nil⟩
  rw [List.zipIdx_append, List.foldlM_append, bind_eq_ok_iff] at run
  obtain ⟨w₁, first, rest⟩ := run
  obtain ⟨w₁', first', lacking⟩ := exists_lacking dropped same start first
  have behind : former.length < 0 + (former ++ [drop]).length := by simp
  obtain ⟨v', rest', renewed⟩ := exists_renewed_behind same again behind lacking rest
  refine ⟨v', ?_, renewed⟩
  rw [List.zipIdx_append, List.foldlM_append, first', List.length_map]
  exact rest'

/-! ## Tables are changed -/

theorem Late.of_numbers (h : Late key limit w) (same : w'.numbers = w.numbers) : Late key limit w' := by
  obtain ⟨t, ht, isKey, late⟩ := h.table
  have there : (t.key, t.declaredBy) ∈ w'.numbers := by
    rw [same]
    exact List.mem_map_of_mem ht
  obtain ⟨t', ht', mark⟩ := List.mem_map.1 there
  obtain ⟨key', number⟩ := Prod.mk.inj mark
  exact ⟨h.distinct.of_numbers same, t', ht', key'.trans isKey, number ▸ late⟩

/-- an early statement does not drop the table -/
theorem Late.dropTableNamed {drop : DropTable} {name : QualifiedName} (h : Late key limit w) (early : index ≤ limit)
    (run : dropTableNamed d st drop index name w = .ok v) : Late key limit v := by
  simp only [Workspace.dropTableNamed] at run
  split at run
  · rename_i x found
    obtain ⟨hx, own⟩ := table?_eq_some found
    obtain ⟨t, ht, isKey, late⟩ := h.table
    by_cases older : x.declaredBy < index
    · have apart : t.key ≠ name.key d := by
        intro same
        rw [h.distinct.eq_of_key hx ht (own.trans same.symm)] at older
        omega
      have left : Late key limit (w.dropTable (name.key d)) :=
        ⟨h.distinct.filter rfl, t, List.mem_filter.2 ⟨ht, bne_iff_ne.2 apart⟩, isKey, late⟩
      rw [if_pos older] at run
      split_ifs at run
      · rw [← Except.ok.inj run]
        exact left.of_numbers (numbers_mapTables fun t _ => ⟨rfl, rfl⟩)
      · exact Except.ok.inj run ▸ left
    · rw [if_neg older] at run
      exact Except.ok.inj run ▸ h.of_numbers rfl
  · split_ifs at run
    exact Except.ok.inj run ▸ h.of_numbers rfl

theorem Late.changePass (h : Late key limit w) (plain : st.renamesTable = false) (early : index ≤ limit)
    (run : changePass d w (st, index) = .ok v) : Late key limit v := by
  by_cases drops : ∃ drop, st.body = .dropTable drop
  · obtain ⟨drop, body⟩ := drops
    simp only [Workspace.changePass, body] at run
    generalize drop.names = names at run
    induction names generalizing w with
    | nil => exact Except.ok.inj run ▸ h
    | cons name rest ih =>
      simp only [forNames] at run
      split at run
      · rename_i w₁ made
        exact ih (h.dropTableNamed early made) run
      · exact Except.ok.inj run ▸ h.of_numbers rfl
      · simp at run
  · have unnumbered := unnumbered_changePass (d := d) (fun drop body => drops ⟨drop, body⟩) plain index
    exact h.of_numbers (unnumbered.keeps w v h.distinct run)

/-! ### Errors -/

/-- the schema with its errors, and nothing else that was found -/
def quiet (w : Workspace) : Workspace := { w with findings := [] }

/-- the schema with nothing found -/
def unreported (w : Workspace) : Workspace := { w with findings := [], errors := [] }

theorem renumber_id (before : Ledger) : w.renumber id before =
    { w with findings := before.findings ++ w.findings, errors := before.errors ++ w.errors } := by
  rw [renumber, show Draft.renumber id = id from rfl, List.map_id]

theorem renumber_unreported : w.unreported.renumber id w.ledger = w := by
  rw [renumber_id, unreported, List.append_nil, List.append_nil]
  rfl

theorem quiet_record (same : w'.quiet = w.quiet) (p : Problem) (position : Position) (source : Option String) :
    (w'.record p position source).quiet = (w.record p position source).quiet :=
  congrArg (fun v => { v with errors := v.errors ++ [p.finding position source] }) same

/-- a change that does not look at what was found finds the same errors -/
theorem map_quiet_congr {ε : Type} (change : Workspace → Except ε Workspace)
    (frame : ∀ before w, change (w.renumber id before) = (change w).map (renumber id before))
    (same : w'.quiet = w.quiet) : (change w').map quiet = (change w).map quiet := by
  have split : ∀ w : Workspace, (change w).map quiet =
      (change w.unreported).map fun v => { v with findings := [], errors := w.errors ++ v.errors } := by
    intro w
    conv_lhs => rw [← renumber_unreported (w := w), frame]
    cases change w.unreported with
    | error r => rfl
    | ok v => simp only [Except.map, renumber_id, quiet, ledger]
  have rest : w'.quiet.unreported = w.quiet.unreported := congrArg unreported same
  have errors : w'.quiet.errors = w.quiet.errors := congrArg Workspace.errors same
  change w'.unreported = w.unreported at rest
  change w'.errors = w.errors at errors
  rw [split w', split w, rest, errors]

theorem changePass_quiet (plain : st.renamesTable = false) (same : w'.quiet = w.quiet) :
    (changePass d w' (st, index)).map quiet = (changePass d w (st, index)).map quiet :=
  map_quiet_congr (fun w => changePass d w (st, index)) (fun _ w => changePass_renumber Iff.rfl plain w) same

/-- runs whose steps find the same errors -/
theorem foldlM_quiet {α : Type} {step step' : Workspace → α → Except Refusal Workspace} {l : List α}
    {P : Workspace → Prop}
    (each : ∀ a ∈ l, ∀ w w', P w → w'.quiet = w.quiet → (step' w' a).map quiet = (step w a).map quiet)
    (keeps : ∀ a ∈ l, ∀ w v, P w → step w a = .ok v → P v) (h : P w) (same : w'.quiet = w.quiet) :
    (l.foldlM step' w').map quiet = (l.foldlM step w).map quiet := by
  induction l generalizing w w' with
  | nil => exact congrArg Except.ok same
  | cons a l ih =>
    rw [List.foldlM_cons, List.foldlM_cons]
    have first := each a List.mem_cons_self w w' h same
    rcases map_eq_map_iff.1 first with ⟨r, made', made⟩ | ⟨v', v, made', made, same'⟩
    · rw [made', made]
      rfl
    · rw [made', made]
      exact ih (fun b hb => each b (List.mem_cons_of_mem a hb)) (fun b hb => keeps b (List.mem_cons_of_mem a hb))
        (keeps a List.mem_cons_self w v h made) same'

/-! ### Changes without the drops of a table -/

/-- an early statement that drops the table with others comes to the same as if it dropped the others alone -/
theorem forNames_filter {drop : DropTable} (h : Late key limit w) (early : index ≤ limit) (same : w'.quiet = w.quiet)
    (body : StatementBody) (names : List QualifiedName) :
    (forNames { st with body } (dropTableNamed d st drop index) (names.filter (·.key d != key)) w').map quiet =
      (forNames st (dropTableNamed d st drop index) names w).map quiet := by
  induction names generalizing w w' with
  | nil => exact congrArg Except.ok same
  | cons name rest ih =>
    by_cases own : name.key d = key
    · -- the table is there, but a later statement declared it, so the drop passes it over
      obtain ⟨t, ht, isKey, late⟩ := h.table
      have found : w.table? (name.key d) = some t := by
        cases found : w.table? (name.key d) with
        | none => exact absurd (isKey.trans own.symm) (table?_eq_none found t ht)
        | some x =>
          obtain ⟨hx, isOwn⟩ := table?_eq_some found
          rw [h.distinct.eq_of_key hx ht (isOwn.trans (own.trans isKey.symm))]
      have passed : dropTableNamed d st drop index name w = .ok (w.report .info "DROP_SKIPPED"
          s!"DROP TABLE: '{name.text}' does not exist at this point" st.position st.source) := by
        simp only [dropTableNamed, found, if_neg (show ¬ t.declaredBy < index by omega)]
      rw [List.filter_cons_of_neg (by simp [own]), forNames, passed]
      exact ih (h.of_numbers rfl) same
    · rw [List.filter_cons_of_pos (by simp [own])]
      have alike : (dropTableNamed d st drop index name w').map quiet =
          (dropTableNamed d st drop index name w).map quiet :=
        map_quiet_congr _ (fun _ w => dropTableNamed_renumber Iff.rfl drop name w) same
      simp only [forNames]
      rcases map_eq_map_iff.1 alike with ⟨failure, made', made⟩ | ⟨v', v, made', made, same'⟩
      · simp only [made', made]
        cases failure with
        | problem p => exact congrArg Except.ok (quiet_record same p ..)
        | refused r => rfl
      · simp only [made', made]
        exact ih (h.dropTableNamed early made) same'

theorem changePass_without (plain : st.renamesTable = false) (h : Late key limit w) (early : index ≤ limit)
    (same : w'.quiet = w.quiet) :
    (changePass d w' (st.without d key, index)).map quiet = (changePass d w (st, index)).map quiet := by
  rcases Statement.without_cases d key st with ⟨stays, -⟩ | ⟨table, body, -, stays⟩ | ⟨drop, body, stays⟩
  · rw [stays]
    exact changePass_quiet plain same
  · simp only [stays, changePass, body]
    exact congrArg Except.ok same
  · simp only [stays, changePass, body]
    exact forNames_filter h early same _ drop.names

/-- Where a late statement declared the table, all changes come to the same without the early drops of it. -/
theorem changes_without (plain : ∀ st ∈ F ++ later, st.renamesTable = false) (early : F.length ≤ limit + 1)
    (h : Late key limit w) : ((F.map (·.without d key) ++ later).zipIdx.foldlM (changePass d) w).map quiet =
      ((F ++ later).zipIdx.foldlM (changePass d) w).map quiet := by
  have former : ((F.map (·.without d key)).zipIdx.foldlM (changePass d) w).map quiet =
      (F.zipIdx.foldlM (changePass d) w).map quiet := by
    rw [List.zipIdx_map, List.foldlM_map]
    have own : ∀ n ∈ F.zipIdx, n.1.renamesTable = false ∧ n.2 ≤ limit := fun n hn =>
      ⟨plain n.1 (List.mem_append_left _ (List.fst_mem_of_mem_zipIdx hn)), by
        have := List.snd_lt_of_mem_zipIdx hn
        omega⟩
    exact foldlM_quiet (fun n hn w w' late same => changePass_without (own n hn).1 late (own n hn).2 same)
      (fun n hn w v late made => late.changePass (own n hn).1 (own n hn).2 made) h rfl
  rw [List.zipIdx_append, List.zipIdx_append, List.foldlM_append, List.foldlM_append, List.length_map]
  refine map_bind_congr former fun v' v same => ?_
  refine foldlM_quiet (P := fun _ => True) (fun n hn w w' _ same => changePass_quiet ?_ same)
    (fun _ _ _ _ _ _ => trivial) trivial same
  exact plain n.1 (List.mem_append_right _ (List.fst_mem_of_mem_zipIdx hn))

/-! ## Models -/

/-- the schema after all declarations -/
def declared (d : Dialect) (S : List Statement) : Except Refusal Workspace :=
  S.foldlM (enumPass d) {} >>= S.zipIdx.foldlM (declarationPass d S)

theorem applyAll_eq_declared (S : List Statement) : applyAll d S = declared d S >>= S.zipIdx.foldlM (changePass d) := by
  simp only [applyAll, declared, bind_assoc]

theorem declared_unchanging : declared d (F.map (·.unchanging d key) ++ later) = declared d (F ++ later) := by
  rw [declared, declared, foldlM_enumPass_map fun st w => enumPass_unchanging]
  exact bind_congr fun w => declarations_unchanging

theorem exists_declared_without {former : List Statement} {drop : Statement} (dropped : dropsTable d key drop = true)
    (again : ∃ st ∈ later, st.tableKey? d = some key) (run : declared d (former ++ [drop] ++ later) = .ok v) :
    ∃ v', declared d ((former ++ [drop]).map (·.without d key) ++ later) = .ok v' ∧
      Renewed key former.length v v' := by
  rw [declared, bind_eq_ok_iff] at run
  obtain ⟨w, enums, run⟩ := run
  have empty : w.tables = [] := foldlM_keeps (P := fun w : Workspace => w.tables = [])
    (fun _ _ _ _ none made => (tables_enumPass made).trans none) rfl enums
  obtain ⟨v', run', renewed⟩ := exists_renewed dropped again empty run
  refine ⟨v', ?_, renewed⟩
  rw [declared, foldlM_enumPass_map fun st w => enumPass_without, enums]
  exact run'

theorem read_quiet : read d w.quiet = read d w := by
  by_cases named : w.Named
  · have named' : w.quiet.Named := ⟨named.tables, named.columns⟩
    rw [read_of_named named, read_of_named named']
    rfl
  · have unnamed : ¬ w.quiet.Named := fun named' => named ⟨named'.tables, named'.columns⟩
    rw [read_of_not_named named, read_of_not_named unnamed]

/-- what the changes of declared tables come to, without the errors of the declarations -/
def changed (d : Dialect) (S : List Statement) (w : Workspace) : Option (List Table × Findings) :=
  ((S.zipIdx.foldlM (changePass d) w.unreported).map quiet).toOption.bind (read d)

theorem Renewed.unreported (h : Renewed key limit w w') : w'.unreported = w.unreported := by
  simp only [Workspace.unreported, h.tables, h.enums, h.views]

/-- Once a table is renewed, its early declarations and drops have no part in the changes. -/
theorem changed_without (plain : ∀ st ∈ F ++ later, st.renamesTable = false) (early : F.length ≤ limit + 1)
    (h : Renewed key limit w w') : changed d (F.map (·.without d key) ++ later) w' = changed d (F ++ later) w := by
  have late : Late key limit w.unreported := h.toLate.of_numbers rfl
  rw [changed, changed, h.unreported, changes_without plain early late]

theorem outcome_of_declared (plain : ∀ st ∈ S, st.renamesTable = false) (made : declared d S = .ok w) :
    outcome d S = (changed d S w).map (Prod.map id (w.errors ++ ·)) := by
  have run : S.zipIdx.foldlM (changePass d) w =
      (S.zipIdx.foldlM (changePass d) w.unreported).map (renumber id w.ledger) := by
    conv_lhs => rw [← renumber_unreported (w := w)]
    exact foldlM_renumber (fun n hn w => changePass_renumber Iff.rfl (plain n.1 (List.fst_mem_of_mem_zipIdx hn)) w) _
  rw [outcome_eq, applyAll_eq_declared, made, changed]
  simp only [bind, Except.bind, run]
  cases S.zipIdx.foldlM (changePass d) w.unreported with
  | error r => rfl
  | ok v =>
    have same : read d v.quiet = read d v := read_quiet
    simp only [Except.map, Except.toOption, Option.bind_some, read_renumber, same]
    rfl

end Workspace

/-- the table of a key in the model of statements, and the errors of the model -/
def outcomeOf (d : Dialect) (key : String) (S : List Statement) : Option (Option Table × Findings) :=
  (outcome d S).map fun r => (r.1.find? (·.key == key), r.2)

section
variable {former later F : List Statement} {drop : Statement}

theorem renamesTable_of_mem_map {g : Statement → Statement}
    (keeps : ∀ st, st.renamesTable = false → (g st).renamesTable = false)
    (plain : ∀ st ∈ F ++ later, st.renamesTable = false) : ∀ st ∈ F.map g ++ later, st.renamesTable = false := by
  intro st hst
  rcases List.mem_append.1 hst with hst | hst
  · obtain ⟨x, hx, rfl⟩ := List.mem_map.1 hst
    exact keeps x (plain x (List.mem_append_left _ hx))
  · exact plain st (List.mem_append_right _ hst)

theorem outcome_unchanged (plain : ∀ st ∈ F ++ later, st.renamesTable = false) :
    outcome d (unchanged d key F ++ later) = outcome d (F.map (·.unchanging d key) ++ later) := by
  have kept : ∀ st ∈ unchanged d key F ++ later, st.renamesTable = false := fun st hst => plain st
    (List.mem_append.2 ((List.mem_append.1 hst).imp_left List.mem_of_mem_filter))
  have left : outcome d ((unchanged d key F).filter (!·.isIdle) ++ later) = outcome d (unchanged d key F ++ later) :=
    outcome_filter (A := []) kept
  rw [← left, filter_unchanged]
  exact outcome_filter (A := []) (renamesTable_of_mem_map (fun _ => Statement.renamesTable_unchanging) plain)

theorem outcome_undeclared (plain : ∀ st ∈ F ++ later, st.renamesTable = false) :
    outcome d (undeclared d key F ++ later) = outcome d (F.map (·.without d key) ++ later) :=
  outcome_filter (A := []) (renamesTable_of_mem_map (fun _ => Statement.renamesTable_without) plain)

/-- the errors of the declarations do not matter where outcomes are compared -/
theorem outcomeOf_eq_iff {S S' : List Statement} {changed changed' : Option (List Table × Findings)}
    {before : Findings} (same : outcome d S = changed.map (Prod.map id (before ++ ·)))
    (same' : outcome d S' = changed'.map (Prod.map id (before ++ ·))) :
    outcomeOf d key S = outcomeOf d key S' ↔ (changed.map fun r => (r.1.find? (·.key == key), r.2)) =
      changed'.map fun r => (r.1.find? (·.key == key), r.2) := by
  have first : ∀ c : Option (List Table × Findings),
      ((c.map (Prod.map id (before ++ ·))).map fun r => (r.1.find? (·.key == key), r.2)) =
        (c.map fun r => (r.1.find? (·.key == key), r.2)).map (Prod.map id (before ++ ·)) := fun c => by
    rw [Option.map_map, Option.map_map]
    rfl
  have cancel : Function.Injective
      (Prod.map (id : Option Table → Option Table) (before ++ · : Findings → Findings)) := by
    rintro ⟨t, e⟩ ⟨t', e'⟩ same
    obtain ⟨table, errors⟩ := Prod.mk.inj same
    exact Prod.ext table (List.append_cancel_left errors)
  rw [outcomeOf, outcomeOf, same, same', first, first]
  exact (Option.map_injective cancel).eq_iff

/-- What the four lists of statements come to: with and without what changes the table before it is dropped, and with
and without the early declarations of the table. -/
theorem exists_outcomes (plain : ∀ st ∈ former ++ [drop] ++ later, st.renamesTable = false)
    (dropped : Workspace.dropsTable d key drop = true) (again : ∃ st ∈ later, st.tableKey? d = some key) {w : Workspace}
    (made : Workspace.declared d (former ++ [drop] ++ later) = .ok w) :
    ∃ (before before' : Findings) (changed changed' : Option (List Table × Findings)), before'.Sublist before ∧
      outcome d (former ++ [drop] ++ later) = changed.map (Prod.map id (before ++ ·)) ∧
      outcome d (unchanged d key (former ++ [drop]) ++ later) = changed'.map (Prod.map id (before ++ ·)) ∧
      outcome d (undeclared d key (former ++ [drop]) ++ later) = changed.map (Prod.map id (before' ++ ·)) ∧
      outcome d (undeclared d key (unchanged d key (former ++ [drop])) ++ later) =
        changed'.map (Prod.map id (before' ++ ·)) := by
  obtain ⟨w', made', renewed⟩ := Workspace.exists_declared_without dropped again made
  have early : (former ++ [drop]).length ≤ former.length + 1 := by simp
  generalize former ++ [drop] = F at plain made made' early
  have unchanging : ∀ st ∈ F.map (·.unchanging d key) ++ later, st.renamesTable = false :=
    renamesTable_of_mem_map (fun _ => Statement.renamesTable_unchanging) plain
  have without : ∀ F, (∀ st ∈ F ++ later, st.renamesTable = false) →
      ∀ st ∈ F.map (·.without d key) ++ later, st.renamesTable = false :=
    fun _ => renamesTable_of_mem_map fun _ => Statement.renamesTable_without
  have lengths : (F.map (·.unchanging d key)).length ≤ former.length + 1 := by rwa [List.length_map]
  refine ⟨_, _, Workspace.changed d (F ++ later) w,
    Workspace.changed d (F.map (·.unchanging d key) ++ later) w, renewed.errors, ?_, ?_, ?_, ?_⟩
  · exact Workspace.outcome_of_declared plain made
  · rw [outcome_unchanged plain]
    exact Workspace.outcome_of_declared unchanging (Workspace.declared_unchanging.trans made)
  · rw [outcome_undeclared plain, ← Workspace.changed_without plain early renewed]
    exact Workspace.outcome_of_declared (without F plain) made'
  · rw [undeclared_unchanged, outcome_undeclared unchanging, ← Workspace.changed_without unchanging lengths renewed]
    refine Workspace.outcome_of_declared (without _ unchanging) ?_
    have swap : (F.map (·.unchanging d key)).map (·.without d key) =
        (F.map (·.without d key)).map (·.unchanging d key) := by
      simp only [List.map_map, Function.comp_def, Statement.without_unchanging]
    rw [swap]
    exact Workspace.declared_unchanging.trans made'

/-- A table that is dropped and declared again has everything that was added to the first one, as if only the last one
had been declared. So it starts fresh just in case these changes make no difference to it. -/
theorem recreated_iff (key : String) (plain : ∀ st ∈ former ++ drop :: later, st.renamesTable = false)
    (dropped : Workspace.dropsTable d key drop = true) (again : ∃ st ∈ later, st.tableKey? d = some key) {b : Built}
    (built : buildModel d none (former ++ drop :: later) = .ok b) :
    (∃ b', buildModel d none (undeclared d key (former ++ [drop]) ++ later) = .ok b' ∧
      b'.model.tables = b.model.tables ∧ b'.model.errors.Sublist b.model.errors) ∧
    (outcomeOf d key (former ++ drop :: later) = outcomeOf d key (unchanged d key former ++ drop :: later) ↔
      outcomeOf d key (undeclared d key (former ++ [drop]) ++ later) =
        outcomeOf d key (undeclared d key (unchanged d key former ++ [drop]) ++ later)) := by
  have stays : drop.changes d key = false := by
    cases body : drop.body with
    | dropTable names => rw [Statement.changes, body]
    | _ => simp [Workspace.dropsTable, body] at dropped
  have own : unchanged d key former ++ [drop] = unchanged d key (former ++ [drop]) := by
    rw [unchanged, unchanged, List.filter_append, List.filter_cons_of_pos (by simp [stays]), List.filter_nil]
  have assoc : ∀ F, F ++ drop :: later = F ++ [drop] ++ later := fun F => by simp
  rw [assoc, assoc, own]
  rw [assoc] at plain built
  obtain ⟨v, applied, -⟩ := Workspace.exists_applied_of_buildModel built
  rw [Workspace.applyAll_eq_declared] at applied
  obtain ⟨w, made, -⟩ := bind_eq_ok_iff.1 applied
  obtain ⟨before, before', changed, changed', fewer, all, kept, last, keptLast⟩ :=
    exists_outcomes plain dropped again made
  constructor
  · have found : outcome d (former ++ [drop] ++ later) = some (b.model.tables, b.model.errors) := by
      rw [outcome, built]
      rfl
    obtain ⟨r, isChanged, same⟩ := Option.map_eq_some_iff.1 (all.symm.trans found)
    obtain ⟨tables, errors⟩ := Prod.mk.inj same
    rw [isChanged, Option.map_some, outcome, Option.map_eq_some_iff] at last
    obtain ⟨b', built', same'⟩ := last
    obtain ⟨tables', errors'⟩ := Prod.mk.inj same'
    refine ⟨b', toOption_eq_some_iff.1 built', tables'.trans tables, ?_⟩
    rw [errors', ← errors]
    exact fewer.append_right r.2
  · rw [outcomeOf_eq_iff all kept, outcomeOf_eq_iff last keptLast]

end

/-- a table gets a comment -/
def commentedWith (name text : String) (line : Nat) : Statement :=
  ⟨.commentOn { table := ⟨name, none⟩, text := some text }, ⟨line, 1, 0⟩, none⟩

def droppedAt (name : String) (line : Nat) : Statement :=
  ⟨.dropTable { names := [⟨name, none⟩] }, ⟨line, 1, 0⟩, none⟩

/-- a table that is commented on, dropped, declared again and commented on once more -/
theorem recreated_iff_commented :
    let former := [declaredAs "t" "a" 1, commentedWith "t" "first" 2]
    let later := [declaredAs "T" "c" 4, commentedWith "t" "second" 5]
    ∃ b b', buildModel .sqlite none (former ++ droppedAt "t" 3 :: later) = .ok b ∧
      buildModel .sqlite none (undeclared .sqlite "main.t" (former ++ [droppedAt "t" 3]) ++ later) = .ok b' ∧
      b'.model.tables = b.model.tables ∧ b.model.tables.map (fun t => (t.name, t.comment)) = [("T", some "second")] ∧
      outcomeOf .sqlite "main.t" (former ++ droppedAt "t" 3 :: later) =
        outcomeOf .sqlite "main.t" (unchanged .sqlite "main.t" former ++ droppedAt "t" 3 :: later) := by
  intro former later
  have shape : (buildModel .sqlite none (former ++ droppedAt "t" 3 :: later)).toOption.map
      (fun b => b.model.tables.map fun t => (t.name, t.comment)) = some [("T", some "second")] := by
    decide +kernel
  obtain ⟨b, built, tables⟩ := Option.map_eq_some_iff.1 shape
  have built := toOption_eq_some_iff.1 built
  obtain ⟨⟨b', built', same, -⟩, fresh⟩ := recreated_iff "main.t" (by decide +kernel) (by decide +kernel)
    (by decide +kernel) built
  exact ⟨b, b', built, built', same, tables, fresh.2 (by decide +kernel)⟩

/-- A column that was added to a table is there again in the one that is declared after it was dropped. -/
theorem not_fresh_after_drop :
    let added : ColumnClause := { name := "b", type := none, position := ⟨2, 1, 0⟩ }
    let former : List Statement := [declaredAs "t" "a" 1,
      ⟨.alterTable { name := ⟨"t", none⟩, actions := [.addColumn added false] }, ⟨2, 1, 0⟩, none⟩]
    let S := former ++ droppedAt "t" 3 :: [declaredAs "t" "c" 4]
    let S' := unchanged .sqlite "main.t" former ++ droppedAt "t" 3 :: [declaredAs "t" "c" 4]
    let columns (S : List Statement) := (buildModel .sqlite none S).toOption.map fun b =>
      (b.model.tables.map fun t => t.columns.map (·.name), b.model.errors)
    columns former = some ([["a", "b"]], []) ∧ columns S = some ([["c", "b"]], []) ∧
      columns S' = some ([["c"]], []) := by
  decide +kernel

end SchemaApi
