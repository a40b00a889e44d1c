import SchemaApi.Proofs.Schema.Change
/-!
Statements keep a schema well-formed.

The passes over the statements are folds of one step, so what every step keeps holds after any
number of statements (`afterDeclarations`, `afterChanges`). What comes then, the resolution of
foreign keys, changes only what they refer to.
-/

namespace SchemaApi

/-! ## Declarations -/

/-- the key of a declared name is the key of what is declared, unless its schema is empty -/
theorem tableKey_declaredSchema {d : Dialect} {n : QualifiedName} (qualified : n.schema ≠ some "") :
    d.tableKey (declaredSchema d n) n.name = n.key d := by
  unfold declaredSchema QualifiedName.key
  cases schema : n.schema with
  | none => cases d <;> rfl
  | some s =>
    have filled : s ≠ "" := fun e => qualified (by rw [schema, e])
    simp only [if_neg filled]

namespace Workspace

variable {d : Dialect} {w w' : Workspace}

theorem newDraft_wellFormed {st : Statement} {table : CreateTable} {index : Nat}
    (qualified : table.name.schema ≠ some "") : (newDraft d st table index).toTable.WellFormed d where
  keyed := (tableKey_declaredSchema qualified).symm
  distinct := List.nodup_nil
  onePrimaryKey := Nat.zero_le 1
  named _ hm := absurd hm List.not_mem_nil
  filled _ hm := absurd hm List.not_mem_nil
  indexed _ hm := absurd hm List.not_mem_nil
  required _ _ hm := absurd hm List.not_mem_nil

theorem addTable_wellFormed (h : w.WellFormed d) {st : Statement} {table : CreateTable} {index : Nat}
    (qualified : table.name.schema ≠ some "") (new : ∀ t ∈ w.tables, t.key ≠ table.name.key d)
    (run : w.addTable d st table index = .ok w') : w'.WellFormed d := by
  simp only [addTable, bind_eq_ok_iff] at run
  obtain ⟨w₁, columns, w₂, constraints, run⟩ := run
  have started : WellFormed d { w with tables := w.tables ++ [newDraft d st table index] } := by
    refine wellFormed_of_drafts (fun t ht => ?_) ?_
    · rcases List.mem_append.1 ht with ht | ht
      · exact h.draft ht
      · rw [List.mem_singleton.1 ht]; exact newDraft_wellFormed qualified
    · rw [List.map_append, List.nodup_append]
      refine ⟨h.distinctKeys, List.nodup_singleton _, fun a ha b hb => ?_⟩
      obtain ⟨t, ht, rfl⟩ := List.mem_map.1 ha
      rw [List.mem_singleton.1 hb]; exact new t ht
  have withColumns : w₁.WellFormed d := foldlM_keeps (P := Workspace.WellFormed d)
    (fun _ _ _ _ sound added => attempt_wellFormed (addColumn_keeps _ _ _) sound added) started columns
  have complete := addConstraints_wellFormed withColumns constraints
  split_ifs at run
  · simp only [bind_eq_ok_iff, pure_eq_ok_iff] at run
    obtain ⟨_, _, rfl⟩ := run
    exact complete.of_tables rfl
  · rw [← pure_eq_ok_iff.1 run]; exact complete

theorem declareTable_keeps {statements : List Statement} {st : Statement} {table : CreateTable} {index : Nat}
    (qualified : table.name.schema ≠ some "") : Keeps d (declareTable d statements st table index) := by
  intro w w' h run
  simp only [declareTable] at run
  split at run
  · rename_i absent
    exact addTable_wellFormed h qualified (table?_eq_none absent) (settle_eq_ok_iff.1 run)
  · split_ifs at run
    · refine addTable_wellFormed (h.dropTable _) qualified (fun t ht => ?_) (settle_eq_ok_iff.1 run)
      simpa using (List.mem_filter.1 ht).2
    · rw [← Except.ok.inj run]; exact h.of_tables rfl

theorem declareEnum_keeps (st : Statement) (enum : CreateEnum) : Keeps d (declareEnum d st enum) := by
  intro w w' h run
  simp only [declareEnum] at run
  split_ifs at run
  all_goals rw [← Except.ok.inj run]; exact h.of_tables rfl

theorem declareView_keeps (view : CreateView) : Keeps d (declareView d view) := by
  intro w w' h run
  simp only [declareView] at run
  split_ifs at run
  rw [← Except.ok.inj run]; exact h.of_tables rfl

/-! ## Other statements -/

theorem alterTable_keeps {st : Statement} {alter : AlterTable}
    (replaces : ∀ a ∈ alter.actions, replacesColumn a = true → d.caseSensitive = true) :
    Keeps d (alterTable d st alter) := by
  intro w w' h run
  unfold alterTable at run
  split at run
  · exact alterActions_wellFormed h replaces (settle_eq_ok_iff.1 run)
  · split_ifs at run
    rw [← Except.ok.inj run]; exact h.of_tables rfl

theorem addIndex_keeps {key : String} {elements : List IndexElement} {name : Option String} {unique : Bool}
    {method condition : Option String} :
    Keeps d fun w => w.onTable key fun t => t.addIndex d elements name unique method condition :=
  onTable_keeps fun _ _ sound added => Draft.addIndex_wellFormed sound added

theorem createIndex_keeps (index : CreateIndex) : Keeps d (createIndex d index) := by
  intro w w' h run
  simp only [createIndex, bind_eq_ok_iff] at run
  obtain ⟨t, _, run⟩ := run
  split at run
  · exact addIndex_keeps w w' h run
  · split_ifs at run
    · rw [← pure_eq_ok_iff.1 run]; exact h
    · exact absurd run (by simp [Draft.problem_eq_ok_iff])
    · exact addIndex_keeps w w' h run

/-- what is done for one name after the other keeps what it keeps for each -/
theorem forNames_wellFormed {st : Statement} {change : QualifiedName → Change} {names : List QualifiedName}
    (keeps : ∀ n, Keeps d (change n)) (h : w.WellFormed d) (run : forNames st change names w = .ok w') :
    w'.WellFormed d := by
  induction names generalizing w with
  | nil => rw [← Except.ok.inj run]; exact h
  | cons n rest ih =>
    unfold forNames at run
    split at run
    · rename_i w₁ done
      exact ih (keeps n w w₁ h done) run
    · rw [← Except.ok.inj run]; exact h.of_tables rfl
    · simp at run

theorem dropTableNamed_keeps (st : Statement) (drop : DropTable) (index : Nat) (name : QualifiedName) :
    Keeps d (dropTableNamed d st drop index name) := by
  intro w w' h run
  simp only [dropTableNamed] at run
  split at run
  · split_ifs at run
    · rw [← Except.ok.inj run]; exact dropForeignKeysTo_wellFormed (h.dropTable _) _ none
    · rw [← Except.ok.inj run]; exact h.dropTable _
    · rw [← Except.ok.inj run]; exact h.of_tables rfl
  · split_ifs at run
    rw [← Except.ok.inj run]; exact h.of_tables rfl

theorem dropIndexNamed_keeps (st : Statement) (drop : DropIndex) (table : Option String) (name : QualifiedName) :
    Keeps d (dropIndexNamed d st drop table name) := by
  intro w w' h run
  simp only [dropIndexNamed] at run
  split at run
  · rw [← Except.ok.inj run]
    refine h.mapTables fun t _ sound => ?_
    split_ifs
    · cases dropped : t.eraseIndex? d name.name with
      | none => simpa [dropped] using sound
      | some t' => simpa [dropped] using (Draft.loses_eraseIndex? dropped).wellFormed sound
    · exact ⟨sound, rfl⟩
  · split_ifs at run
    rw [← Except.ok.inj run]; exact h.of_tables rfl

theorem dropViewNamed_keeps (st : Statement) (drop : DropView) (name : QualifiedName) :
    Keeps d (dropViewNamed d st drop name) := by
  intro w w' h run
  simp only [dropViewNamed] at run
  split_ifs at run
  all_goals rw [← Except.ok.inj run]; exact h.of_tables rfl

theorem commentOn_keeps (st : Statement) (comment : CommentOn) : Keeps d (commentOn d st comment) := by
  intro w w' h run
  unfold commentOn at run
  split at run
  · rw [← Except.ok.inj run]; exact h.of_tables rfl
  · split at run
    · rw [← Except.ok.inj run]
      refine h.mapTables fun t _ sound => ?_
      split_ifs
      · exact ⟨{ sound with }, rfl⟩
      · exact ⟨sound, rfl⟩
    · split_ifs at run
      · rw [← Except.ok.inj run]
        refine h.mapTables fun t _ sound => ?_
        split_ifs
        · exact ⟨Draft.updateColumn_wellFormed sound (fun _ _ _ => rfl) fun _ _ _ _ _ _ _ hnull => hnull, rfl⟩
        · exact ⟨sound, rfl⟩
      · simp only [bind_eq_ok_iff, pure_eq_ok_iff] at run
        obtain ⟨_, _, rfl⟩ := run
        exact h.of_tables rfl

/-! ## Passes -/

/-- Statements that name tables and columns in one way only: no table is declared in a schema of an
empty name, and columns are replaced only where case counts. -/
structure Unambiguous (d : Dialect) (statements : List Statement) : Prop where
  qualified : ∀ st ∈ statements, ∀ table, st.body = .createTable table → table.name.schema ≠ some ""
  replaces : ∀ st ∈ statements, ∀ alter, st.body = .alterTable alter →
    ∀ a ∈ alter.actions, replacesColumn a = true → d.caseSensitive = true

/-- the schema after so many statements of the pass that declares tables and views -/
def afterDeclarations (d : Dialect) (statements : List Statement) (n : Nat) : Except Refusal Workspace := do
  let w ← statements.foldlM (enumPass d) {}
  (statements.zipIdx.take n).foldlM (declarationPass d statements) w

/-- the schema after so many statements of the pass that changes them -/
def afterChanges (d : Dialect) (statements : List Statement) (n : Nat) : Except Refusal Workspace := do
  let w ← afterDeclarations d statements statements.length
  (statements.zipIdx.take n).foldlM (changePass d) w

theorem applyAll_eq_afterChanges (d : Dialect) (statements : List Statement) :
    applyAll d statements = afterChanges d statements statements.length := by
  have all : statements.zipIdx.take statements.length = statements.zipIdx :=
    List.take_of_length_le (by simp)
  simp only [applyAll, afterChanges, afterDeclarations, all, bind_assoc]

theorem enumPass_wellFormed {st : Statement} (h : w.WellFormed d) (run : enumPass d w st = .ok w') :
    w'.WellFormed d := by
  unfold enumPass at run
  split at run
  · exact attempt_wellFormed (declareEnum_keeps st _) h run
  · rw [← Except.ok.inj run]; exact h

theorem declarationPass_wellFormed {statements : List Statement} {numbered : Statement × Nat}
    (qualified : ∀ table, numbered.1.body = .createTable table → table.name.schema ≠ some "")
    (h : w.WellFormed d) (run : declarationPass d statements w numbered = .ok w') : w'.WellFormed d := by
  obtain ⟨st, index⟩ := numbered
  simp only [declarationPass] at run
  split at run
  · rename_i table isTable
    exact attempt_wellFormed (declareTable_keeps (qualified table isTable)) h run
  · exact attempt_wellFormed (declareView_keeps _) h run
  · rw [← Except.ok.inj run]; exact h

theorem changePass_wellFormed {numbered : Statement × Nat}
    (replaces : ∀ alter, numbered.1.body = .alterTable alter →
      ∀ a ∈ alter.actions, replacesColumn a = true → d.caseSensitive = true)
    (h : w.WellFormed d) (run : changePass d w numbered = .ok w') : w'.WellFormed d := by
  obtain ⟨st, index⟩ := numbered
  simp only [changePass] at run
  split at run
  · rename_i alter isAlter
    exact attempt_wellFormed (alterTable_keeps (replaces alter isAlter)) h run
  · exact attempt_wellFormed (createIndex_keeps _) h run
  · exact forNames_wellFormed (dropTableNamed_keeps st _ index) h run
  · split at run
    · exact forNames_wellFormed (dropIndexNamed_keeps st _ none) h run
    · split at run
      · exact forNames_wellFormed (dropIndexNamed_keeps st _ _) h run
      · rw [← Except.ok.inj run]; exact h.of_tables rfl
      · simp at run
  · exact forNames_wellFormed (dropViewNamed_keeps st _) h run
  · exact attempt_wellFormed (commentOn_keeps st _) h run
  · rw [← Except.ok.inj run]; exact h

theorem empty_wellFormed : Workspace.WellFormed d {} := wellFormed_of_drafts (by simp) List.nodup_nil

theorem afterDeclarations_wellFormed {statements : List Statement} (clear : Unambiguous d statements) {n : Nat}
    (run : afterDeclarations d statements n = .ok w) : w.WellFormed d := by
  simp only [afterDeclarations, bind_eq_ok_iff] at run
  obtain ⟨w₁, enums, run⟩ := run
  have enumsKept : w₁.WellFormed d := foldlM_keeps (P := Workspace.WellFormed d)
    (fun _ _ _ _ => enumPass_wellFormed) empty_wellFormed enums
  refine foldlM_keeps (P := Workspace.WellFormed d) (fun numbered hn _ _ => ?_) enumsKept run
  exact declarationPass_wellFormed fun table =>
    clear.qualified _ (List.fst_mem_of_mem_zipIdx (List.mem_of_mem_take hn)) table

theorem afterChanges_wellFormed {statements : List Statement} (clear : Unambiguous d statements) {n : Nat}
    (run : afterChanges d statements n = .ok w) : w.WellFormed d := by
  simp only [afterChanges, bind_eq_ok_iff] at run
  obtain ⟨w₁, declared, run⟩ := run
  refine foldlM_keeps (P := Workspace.WellFormed d) (fun numbered hn _ _ => ?_)
    (afterDeclarations_wellFormed clear declared) run
  exact changePass_wellFormed fun alter =>
    clear.replaces _ (List.fst_mem_of_mem_zipIdx (List.mem_of_mem_take hn)) alter

theorem applyAll_wellFormed {statements : List Statement} (clear : Unambiguous d statements)
    (run : applyAll d statements = .ok w) : w.WellFormed d := by
  rw [applyAll_eq_afterChanges] at run
  exact afterChanges_wellFormed clear run

end Workspace

end SchemaApi
