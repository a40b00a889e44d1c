import Mathlib.Data.List.Induction
import SchemaApi.Proofs.Schema.Number
/-!
Tables that are declared and dropped.

All tables of a script are declared before the first of them is dropped. A second declaration counts if the table is
dropped in between, and a drop passes over a table of a later statement. So where an execution in order meets no
problem, the same tables are left in the same order, each of them from the same statement, and none
is reported as missing or as declared twice.
-/

namespace SchemaApi

variable {d : Dialect}

/-! ## Problems with whole tables -/

/-- a table is missing, or there is one already -/
def Problem.concernsTable (p : Problem) : Bool := p.code == "DUPLICATE_TABLE" || p.code == "UNKNOWN_TABLE"

def Finding.concernsTable (f : Finding) : Bool := f.code == "DUPLICATE_TABLE" || f.code == "UNKNOWN_TABLE"

theorem Problem.concernsTable_finding (p : Problem) (position : Position) (source : Option String) :
    (p.finding position source).concernsTable = p.concernsTable := by
  cases p <;> rfl

/-- no whole table stands in the way -/
def Clear {α : Type} (x : Except Failure α) : Prop := ∀ p, x = .error (.problem p) → p.concernsTable = false

section
variable {α β : Type}

theorem Clear.bind {x : Except Failure α} {g : α → Except Failure β} (h : Clear x) (h' : ∀ a, x = .ok a → Clear (g a)) :
    Clear (x >>= g) := by
  intro p run
  rcases bind_eq_error_iff.1 run with run | ⟨a, made, run⟩
  · exact h p run
  · exact h' a made p run

theorem Clear.map {x : Except Failure α} (h : Clear x) (g : α → β) : Clear (x.map g) :=
  fun p run => h p (map_eq_error_iff.1 run)

theorem Clear.mapM {g : α → Except Failure β} (h : ∀ a, Clear (g a)) (l : List α) : Clear (l.mapM g) := by
  intro p run
  obtain ⟨before, a, after, -, -, run⟩ := mapM_eq_error_iff.1 run
  exact h a p run

theorem clear_ok (a : α) : Clear (.ok a : Except Failure α) := fun p run => by simp at run

theorem clear_refused (r : Refusal) : Clear (.error (.refused r) : Except Failure α) := fun p run => by simp at run

theorem clear_settle (x : Except Refusal α) : Clear (Workspace.settle x) := by
  intro p run
  obtain ⟨r, -, same⟩ := mapError_eq_error_iff.1 run
  simp at same

namespace Draft

variable {t : Draft}

theorem clear_problem {p : String → Problem} (clear : ∀ label, (p label).concernsTable = false) :
    Clear (t.problem p : Except Failure α) := by
  intro p' run
  unfold problem at run
  split at run
  · rename_i label _
    rw [← Failure.problem.inj (Except.error.inj run)]
    exact clear label
  · simp at run

theorem clear_requireColumn (name what : String) : Clear (t.requireColumn d name what) := by
  unfold requireColumn
  split
  · exact clear_ok _
  · split
    · intro p run
      rw [← Failure.problem.inj (Except.error.inj run)]
      rfl
    · exact clear_refused _

theorem clear_canonical (names : List String) (what : String) : Clear (t.canonical d names what) :=
  .mapM (fun _ => (clear_requireColumn _ what).map _) names

theorem clear_someColumns (record : String) (columns : List String) : Clear (someColumns record columns) := by
  unfold someColumns
  split_ifs
  · exact clear_refused _
  · exact clear_ok _

theorem clear_addIndex (elements : List IndexElement) (name : Option String) (unique : Bool)
    (method condition : Option String) : Clear (t.addIndex d elements name unique method condition) := by
  have element : ∀ e, Clear (t.elementColumn d e) := by
    intro e
    unfold elementColumn
    split
    · exact clear_ok _
    · exact (clear_requireColumn _ _).map _
  exact (Clear.mapM element elements).bind fun _ _ => (clear_someColumns _ _).bind fun _ _ => clear_ok _

theorem clear_addConstraint (source : Option String) (clause : ConstraintClause) :
    Clear (t.addConstraint d source clause) := by
  cases clause with
  | primaryKey columns name position =>
    refine (clear_canonical _ _).bind fun _ _ => ?_
    split_ifs
    · exact clear_problem fun _ => rfl
    · exact (clear_someColumns _ _).bind fun _ _ => clear_ok _
  | unique columns name position =>
    exact (clear_canonical _ _).bind fun _ _ => (clear_someColumns _ _).bind fun _ _ => clear_ok _
  | foreignKey columns reference name position =>
    refine (clear_canonical _ _).bind fun _ _ => ?_
    split_ifs
    · exact clear_refused _
    · exact (clear_someColumns _ _).bind fun _ _ => clear_ok _
  | check expression name own position =>
    refine Clear.bind ?_ fun _ _ => ?_
    · cases own with
      | none => exact clear_ok _
      | some c => exact ((clear_requireColumn c _).map _).map _
    · split_ifs
      · exact clear_refused _
      · exact clear_ok _
  | index elements name unique kind position => exact clear_addIndex _ _ _ _ _

/-- a foreign key that does not resolve is no problem with a whole table of a statement -/
theorem clear_resolve (tables : List Draft) (e : Placed) (k : ForeignKey) : Clear (t.resolve d tables e k) := by
  refine (clear_settle _).bind fun label _ => ?_
  dsimp only
  split
  · intro p run
    rw [← Failure.problem.inj (Except.error.inj run)]
    rfl
  · rename_i target _
    refine Clear.bind ?_ fun referred _ => Clear.bind ?_ fun _ _ => (clear_settle _).bind fun _ _ => clear_ok _
    · unfold referredColumns
      split_ifs
      · split
        · exact clear_ok _
        · exact clear_problem fun _ => rfl
      · exact clear_canonical _ _
    · unfold checkKey
      split_ifs
      · intro p run
        rw [← Failure.problem.inj (Except.error.inj run)]
        rfl
      · exact clear_ok _
      · exact clear_problem fun _ => rfl
      · exact clear_problem fun _ => rfl

end Draft

end

namespace Workspace

variable {w w' : Workspace} {st : Statement} {S : List Statement}

/-- no error is about a whole table -/
def NoTableErrors (w : Workspace) : Prop := ∀ f ∈ w.findings.modelErrors, f.concernsTable = false

theorem NoTableErrors.of_errors (h : w.NoTableErrors) (same : w'.findings.modelErrors = w.findings.modelErrors) :
    w'.NoTableErrors :=
  fun f hf => h f (same ▸ hf)

theorem modelErrors_reportType (type : Option TypeName) (reading : TypeReading) (place : String) (position : Position)
    (source : Option String) :
    (w.reportType type reading place position source).findings.modelErrors = w.findings.modelErrors := by
  unfold reportType
  split_ifs
  · exact modelErrors_report (by decide) ..
  · rfl

theorem errors_reportType (type : Option TypeName) (reading : TypeReading) (place : String) (position : Position)
    (source : Option String) : (w.reportType type reading place position source).errors = w.errors := by
  unfold reportType
  split_ifs <;> rfl

/-- what is added to a table is no problem with a whole table -/
theorem noTableErrors_attempt {change : Change} {position : Position} {source : Option String}
    (clear : Clear (change w)) (keeps : ∀ w', change w = .ok w' → w'.NoTableErrors) (h : w.NoTableErrors)
    (run : w.attempt position source change = .ok w') : w'.NoTableErrors := by
  unfold attempt at run
  split at run
  · rename_i w₁ made
    rw [← Except.ok.inj run]
    exact keeps w₁ made
  · rename_i p made
    rw [← Except.ok.inj run]
    intro f hf
    rw [record, Findings.modelErrors, List.filter_append, List.mem_append] at hf
    rcases hf with hf | hf
    · exact h f hf
    · rw [List.mem_singleton.1 (List.mem_of_mem_filter hf)]
      rw [Problem.concernsTable_finding]
      exact clear p made
  · simp at run

theorem onTable_addConstraint {key : String} {source : Option String} {clause : ConstraintClause} :
    Clear (w.onTable key fun t => t.addConstraint d source clause) ∧
      ∀ w', (w.onTable key fun t => t.addConstraint d source clause) = .ok w' → w'.findings = w.findings := by
  unfold onTable
  split
  · exact ⟨clear_ok _, fun w' run => by rw [← Except.ok.inj run]⟩
  · refine ⟨(Draft.clear_addConstraint source clause).map _, fun w' run => ?_⟩
    obtain ⟨t', -, rfl⟩ := map_eq_ok_iff.1 run
    rfl

theorem noTableErrors_addConstraints {key : String} {source : Option String} {clauses : List ConstraintClause}
    (h : w.NoTableErrors) (run : w.addConstraints d key source clauses = .ok w') : w'.NoTableErrors := by
  refine foldlM_keeps (P := NoTableErrors) (fun clause _ v v' h made => ?_) h run
  exact noTableErrors_attempt onTable_addConstraint.1
    (fun u made => h.of_errors (by rw [onTable_addConstraint.2 u made])) h made

theorem clear_addColumn {key : String} {source : Option String} {clause : ColumnClause} :
    Clear (addColumn d key source clause w) := by
  unfold addColumn
  split
  · exact clear_ok _
  · split_ifs
    · exact Draft.clear_problem fun _ => rfl
    · exact (clear_settle _).bind fun _ _ => (clear_settle _).bind fun _ _ => clear_settle _

theorem noTableErrors_addColumn {key : String} {source : Option String} {clause : ColumnClause} (h : w.NoTableErrors)
    (run : addColumn d key source clause w = .ok w') : w'.NoTableErrors := by
  unfold addColumn at run
  split at run
  · rw [← Except.ok.inj run]
    exact h
  · split_ifs at run
    · exact absurd run (by simp [Draft.problem_eq_ok_iff])
    · simp only [bind_eq_ok_iff, settle_eq_ok_iff] at run
      obtain ⟨label, -, reading, -, run⟩ := run
      refine noTableErrors_addConstraints (h.of_errors ?_) run
      exact modelErrors_reportType ..

theorem noTableErrors_addTable {table : CreateTable} {index : Nat} (h : w.NoTableErrors)
    (run : addTable d st table index w = .ok w') : w'.NoTableErrors := by
  rw [addTable_eq, bind_eq_ok_iff] at run
  obtain ⟨v, added, run⟩ := run
  obtain ⟨found, empty, rfl⟩ := map_eq_ok_iff.1 run
  have start : NoTableErrors { w with tables := w.tables ++ [newDraft d st table index] } := h.of_errors rfl
  have complete : v.NoTableErrors := by
    refine foldlM_keeps (P := NoTableErrors) (fun placed _ u u' h made => ?_) start added
    obtain ⟨a, site⟩ := placed
    cases a with
    | column clause => exact noTableErrors_attempt clear_addColumn (fun _ => noTableErrors_addColumn h) h made
    | constraint clause =>
      exact noTableErrors_attempt onTable_addConstraint.1
        (fun u made => h.of_errors (by rw [onTable_addConstraint.2 u made])) h made
  refine complete.of_errors ?_
  have none := modelErrors_emptyFindings empty
  rw [Findings.modelErrors] at none
  simp only [Findings.modelErrors, List.filter_append, none, List.append_nil]

/-- what is found in finished tables is no problem with a whole table of a statement -/
theorem concernsTable_of_mem_tableFindings {tables : List Draft} {f : Finding}
    (hf : f ∈ (tableFindings d tables).modelErrors) : f.concernsTable = false := by
  obtain ⟨hf, isError⟩ := List.mem_filter.1 hf
  rcases List.mem_append.1 hf with hf | hf
  · obtain ⟨t, -, hf⟩ := List.mem_flatMap.1 hf
    obtain ⟨e, -, hf⟩ := List.mem_flatMap.1 hf
    unfold Draft.keyFindings at hf
    split at hf
    · rename_i run
      cases Draft.settled_of_resolvePlaced run with
      | plain => simp at hf
      | resolved _ found =>
        obtain ⟨_, _, -, -, -, -, quiet⟩ := Draft.resolve_eq_ok found
        have error := List.mem_filter.2 ⟨hf, isError⟩
        rw [← Findings.modelErrors, quiet] at error
        simp at error
      | @failed k p _ missing =>
        rw [List.mem_singleton.1 hf, Problem.concernsTable_finding]
        exact Draft.clear_resolve tables e k p missing
    · simp at hf
  · obtain ⟨t, -, hf⟩ := List.mem_flatMap.1 hf
    unfold keylessFindings at hf
    split at hf
    · simp at hf
    · rw [List.mem_singleton.1 hf]
      rfl

/-! ## Dropped tables -/

/-- the table is not dropped: it has another key, or a later statement declared it -/
def outlives (d : Dialect) (names : List QualifiedName) (index : Nat) (t : Draft) : Bool :=
  !((names.any fun n => n.key d == t.key) && decide (t.declaredBy < index))

/-- besides the tables, there is the same -/
structure SameBesideTables (w w' : Workspace) : Prop where
  enums : w'.enums = w.enums
  errors : w'.findings.modelErrors = w.findings.modelErrors

theorem SameBesideTables.refl (w : Workspace) : SameBesideTables w w := ⟨rfl, rfl⟩

theorem SameBesideTables.trans {w w' w'' : Workspace} (first : SameBesideTables w w')
    (second : SameBesideTables w' w'') : SameBesideTables w w'' :=
  ⟨second.enums.trans first.enums, second.errors.trans first.errors⟩

theorem table?_eq_none_iff {key : String} : w.table? key = none ↔ key ∉ w.tables.map (·.key) := by
  constructor
  · intro absent there
    obtain ⟨t, ht, own⟩ := List.mem_map.1 there
    exact table?_eq_none absent t ht own
  · intro absent
    exact List.find?_eq_none.2 fun t ht own => absent (beq_iff_eq.1 own ▸ List.mem_map_of_mem ht)

variable {drop : DropTable} {name : QualifiedName} {names : List QualifiedName} {index : Nat}

/-- a table that is dropped is there, or may be missing -/
theorem exists_dropTableNamed_iff : (∃ w', dropTableNamed d st drop index name w = .ok w') ↔
    drop.ifExists = true ∨ name.key d ∈ w.tables.map (·.key) := by
  simp only [dropTableNamed]
  cases found : w.table? (name.key d) with
  | some t =>
    obtain ⟨ht, own⟩ := table?_eq_some found
    refine iff_of_true ?_ (Or.inr (own ▸ List.mem_map_of_mem ht))
    simp only
    split_ifs <;> exact ⟨_, rfl⟩
  | none =>
    simp only [table?_eq_none_iff.1 found, or_false]
    split_ifs with missing <;> simp [missing]

theorem dropTableNamed_eq_ok (plain : drop.cascade = false) (distinct : w.Distinct)
    (run : dropTableNamed d st drop index name w = .ok w') :
    w'.tables = w.tables.filter (outlives d [name] index) ∧ SameBesideTables w w' := by
  have outlives_iff : ∀ t : Draft, outlives d [name] index t = true ↔ t.key = name.key d → index ≤ t.declaredBy := by
    intro t
    simp only [outlives, List.any_cons, List.any_nil, Bool.or_false, Bool.not_eq_true', Bool.and_eq_false_imp,
      beq_iff_eq, decide_eq_false_iff_not, Nat.not_lt]
    exact ⟨fun h own => h own.symm, fun h own => h own.symm⟩
  simp only [dropTableNamed, plain] at run
  cases found : w.table? (name.key d) with
  | some t =>
    obtain ⟨ht, own⟩ := table?_eq_some found
    simp only [found, Bool.false_eq_true, if_false] at run
    split_ifs at run with older
    · rw [← Except.ok.inj run]
      refine ⟨List.filter_congr fun x hx => ?_, rfl, rfl⟩
      rw [Bool.eq_iff_iff, outlives_iff, bne_iff_ne]
      refine ⟨fun other same => absurd same other, fun late same => ?_⟩
      rw [distinct.eq_of_key hx ht (same.trans own.symm)] at late
      exact absurd (late own) (by omega)
    · rw [← Except.ok.inj run]
      refine ⟨(List.filter_eq_self.2 fun x hx => ?_).symm, rfl, modelErrors_report (by decide) ..⟩
      rw [outlives_iff]
      intro same
      rw [distinct.eq_of_key hx ht (same.trans own.symm)]
      omega
  | none =>
    simp only [found] at run
    split_ifs at run
    rw [← Except.ok.inj run]
    refine ⟨(List.filter_eq_self.2 fun x hx => ?_).symm, rfl, modelErrors_report (by decide) ..⟩
    rw [outlives_iff]
    exact fun same => absurd same (table?_eq_none found x hx)

theorem Distinct.filter (distinct : w.Distinct) {p : Draft → Bool} (tables : w'.tables = w.tables.filter p) :
    w'.Distinct := by
  rw [Distinct, tables]
  exact distinct.sublist (List.filter_sublist.map _)

/-- The tables of a statement that is carried out are gone, but for those that later statements declare. -/
theorem eachName_dropTableNamed_eq_ok (plain : drop.cascade = false) (distinct : w.Distinct)
    (run : eachName (dropTableNamed d st drop index) names w = .ok w') :
    w'.tables = w.tables.filter (outlives d names index) ∧ SameBesideTables w w' := by
  induction names generalizing w with
  | nil =>
    rw [← Except.ok.inj run]
    exact ⟨(List.filter_eq_self.2 fun _ _ => rfl).symm, .refl w⟩
  | cons name rest ih =>
    obtain ⟨w₁, first, later⟩ := bind_eq_ok_iff.1 ((List.foldlM_cons ..).symm.trans run)
    obtain ⟨tables, same⟩ := dropTableNamed_eq_ok plain distinct first
    obtain ⟨tables', same'⟩ := ih (distinct.filter tables) later
    refine ⟨?_, same.trans same'⟩
    rw [tables', tables, List.filter_filter]
    refine List.filter_congr fun t _ => ?_
    simp only [outlives, List.any_cons, List.any_nil, Bool.or_false]
    cases name.key d == t.key <;> cases (rest.any fun n => n.key d == t.key) <;> cases decide (t.declaredBy < index) <;>
      rfl

end Workspace

/-! ## Statements about tables -/

/-- the statement declares a table, or drops tables but nothing with them -/
def Statement.isOfTables (st : Statement) : Bool :=
  match st.body with
  | .createTable _ => true
  | .dropTable drop => !drop.cascade
  | _ => false

theorem Statement.body_of_isOfTables {st : Statement} (ofTables : st.isOfTables = true) :
    (∃ table, st.body = .createTable table) ∨ ∃ drop, st.body = .dropTable drop ∧ drop.cascade = false := by
  unfold isOfTables at ofTables
  cases body : st.body with
  | createTable table => exact Or.inl ⟨table, rfl⟩
  | dropTable drop =>
    simp only [body, Bool.not_eq_true'] at ofTables
    exact Or.inr ⟨drop, rfl, ofTables⟩
  | _ => simp [body] at ofTables

theorem Statement.declaresOrDrops_of_isOfTables {st : Statement} (ofTables : st.isOfTables = true) :
    st.declaresOrDrops = true := by
  rcases body_of_isOfTables ofTables with ⟨table, body⟩ | ⟨drop, body, -⟩
  · rw [declaresOrDrops, body]
  · rw [declaresOrDrops, body]

namespace Workspace

variable {w w' v : Workspace} {S : List Statement} {l : List (Statement × Nat)}

/-- the tables that are left are those that no later statement drops -/
theorem tables_of_dropped (ofTables : ∀ n ∈ l, n.1.isOfTables = true) (distinct : w.Distinct)
    (run : l.foldlM (strictDrop d) w = .ok w') :
    w'.tables = (w.tables.filter fun t => !l.any fun n => dropsTable d t.key n.1 && decide (t.declaredBy < n.2)) ∧
      SameBesideTables w w' := by
  induction l generalizing w with
  | nil =>
    rw [← Except.ok.inj run]
    exact ⟨(List.filter_eq_self.2 fun _ _ => rfl).symm, .refl w⟩
  | cons n l ih =>
    obtain ⟨w₁, first, later⟩ := bind_eq_ok_iff.1 ((List.foldlM_cons ..).symm.trans run)
    have rest := fun m hm => ofTables m (List.mem_cons_of_mem n hm)
    rcases Statement.body_of_isOfTables (ofTables n List.mem_cons_self) with ⟨table, body⟩ | ⟨drop, body, plain⟩
    · simp only [strictDrop, body, Except.ok.injEq] at first
      subst first
      have idle : ∀ key, dropsTable d key n.1 = false := fun key => by rw [dropsTable, body]
      simp only [List.any_cons, idle, Bool.false_and, Bool.false_or]
      exact ih rest distinct later
    · simp only [strictDrop, body] at first
      obtain ⟨tables, same⟩ := eachName_dropTableNamed_eq_ok plain distinct first
      obtain ⟨tables', same'⟩ := ih rest (distinct.filter tables) later
      refine ⟨?_, same.trans same'⟩
      rw [tables', tables, List.filter_filter]
      refine List.filter_congr fun t _ => ?_
      rw [List.any_cons, Bool.not_or, Bool.and_comm]
      have own : dropsTable d t.key n.1 = drop.names.any fun m => m.key d == t.key := by rw [dropsTable, body]
      rw [own]
      rfl

theorem any_zipIdx (p : Statement → Bool) (S : List Statement) (first start : Nat) :
    ((S.zipIdx start).any fun n => p n.1 && decide (first < n.2)) = (S.drop (first + 1 - start)).any p := by
  induction S generalizing start with
  | nil => simp
  | cons st S ih =>
    rw [List.zipIdx_cons, List.any_cons, ih]
    by_cases early : first < start
    · have all : first + 1 - start = 0 ∧ first + 1 - (start + 1) = 0 := by omega
      rw [all.1, all.2, List.drop_zero, List.drop_zero, List.any_cons, decide_eq_true early, Bool.and_true]
    · have next : first + 1 - start = first + 1 - (start + 1) + 1 := by omega
      rw [next, List.drop_succ_cons, decide_eq_false early, Bool.and_false, Bool.false_or]

theorem any_zipIdx_dropsTable (S : List Statement) (key : String) (first : Nat) :
    (S.zipIdx.any fun n => dropsTable d key n.1 && decide (first < n.2)) = droppedBetween d S key first S.length := by
  rw [any_zipIdx, droppedBetween, List.take_length, Nat.sub_zero]

/-! ### Other tables beside -/

/-- Tables turn into others, so that what earlier statements find they still find, and drop it just as well. -/
structure Robust (d : Dialect) (limit : Nat) (g : List Draft → List Draft) : Prop where
  keys : ∀ tables, ∀ key ∈ tables.map (·.key), key ∈ (g tables).map (·.key)
  distinct : ∀ tables, (tables.map (·.key)).Nodup → ((g tables).map (·.key)).Nodup
  filter : ∀ tables names index, index < limit →
    (g tables).filter (outlives d names index) = g (tables.filter (outlives d names index))

theorem robust_id (limit : Nat) : Robust d limit id := ⟨fun _ _ h => h, fun _ h => h, fun _ _ _ _ => rfl⟩

/-- a table of a later statement in the place of an earlier one -/
theorem robust_replace {t : Draft} {limit : Nat} (late : limit ≤ t.declaredBy) :
    Robust d limit fun tables => (tables.filter fun x => x.key != t.key) ++ [t] where
  keys tables key there := by
    obtain ⟨x, hx, rfl⟩ := List.mem_map.1 there
    rw [List.map_append, List.mem_append]
    by_cases own : x.key = t.key
    · exact Or.inr (by rw [own]; exact List.mem_singleton.2 rfl)
    · exact Or.inl (List.mem_map_of_mem (List.mem_filter.2 ⟨hx, bne_iff_ne.2 own⟩))
  distinct tables distinct := by
    rw [List.map_append, List.nodup_append]
    refine ⟨distinct.sublist (List.filter_sublist.map _), List.nodup_singleton _, fun a ha b hb => ?_⟩
    obtain ⟨x, hx, rfl⟩ := List.mem_map.1 ha
    rw [List.mem_singleton.1 hb]
    exact bne_iff_ne.1 (List.mem_filter.1 hx).2
  filter tables names index inside := by
    have stays : outlives d names index t = true := by
      rw [outlives, decide_eq_false (by omega), Bool.and_false]
      rfl
    rw [List.filter_append, List.filter_filter, List.filter_filter, List.filter_singleton, stays, cond_true]
    refine congrArg (· ++ [t]) (List.filter_congr fun x _ => Bool.and_comm ..)

variable {limit : Nat} {g : List Draft → List Draft}

theorem eachName_robust (h : Robust d limit g) {st : Statement} {drop : DropTable} (plain : drop.cascade = false)
    {names : List QualifiedName} {index : Nat} (inside : index < limit) (distinct : w.Distinct)
    (run : eachName (dropTableNamed d st drop index) names w = .ok w') (same : v.tables = g w.tables) :
    ∃ v', eachName (dropTableNamed d st drop index) names v = .ok v' ∧ v'.tables = g w'.tables := by
  induction names generalizing w v with
  | nil => exact ⟨v, rfl, by rw [same, Except.ok.inj run]⟩
  | cons name rest ih =>
    obtain ⟨w₁, first, later⟩ := bind_eq_ok_iff.1 ((List.foldlM_cons ..).symm.trans run)
    obtain ⟨v₁, first'⟩ : ∃ v₁, dropTableNamed d st drop index name v = .ok v₁ :=
      exists_dropTableNamed_iff.2 ((exists_dropTableNamed_iff.1 ⟨w₁, first⟩).imp_right fun there => by
        rw [same]
        exact h.keys _ _ there)
    have distinct' : v.Distinct := by
      rw [Distinct, same]
      exact h.distinct _ distinct
    have tables := (dropTableNamed_eq_ok plain distinct first).1
    have tables' := (dropTableNamed_eq_ok plain distinct' first').1
    rw [same, h.filter _ _ _ inside, ← tables] at tables'
    obtain ⟨v', later', same'⟩ := ih (distinct.filter tables) later tables'
    exact ⟨v', bind_eq_ok_iff.2 ⟨v₁, first', later'⟩, same'⟩

theorem strictDrop_robust (h : Robust d limit g) {n : Statement × Nat} (ofTables : n.1.isOfTables = true)
    (inside : n.2 < limit) (distinct : w.Distinct) (run : strictDrop d w n = .ok w') (same : v.tables = g w.tables) :
    ∃ v', strictDrop d v n = .ok v' ∧ v'.tables = g w'.tables := by
  rcases Statement.body_of_isOfTables ofTables with ⟨table, body⟩ | ⟨drop, body, plain⟩
  · simp only [strictDrop, body, Except.ok.injEq] at run ⊢
    exact ⟨v, rfl, by rw [same, run]⟩
  · simp only [strictDrop, body] at run ⊢
    exact eachName_robust h plain inside distinct run same

theorem foldlM_strictDrop_robust (h : Robust d limit g) (ofTables : ∀ n ∈ l, n.1.isOfTables = true)
    (inside : ∀ n ∈ l, n.2 < limit) (distinct : w.Distinct) (run : l.foldlM (strictDrop d) w = .ok w')
    (same : v.tables = g w.tables) : ∃ v', l.foldlM (strictDrop d) v = .ok v' ∧ v'.tables = g w'.tables := by
  induction l generalizing w v with
  | nil => exact ⟨v, rfl, by rw [same, Except.ok.inj run]⟩
  | cons n l ih =>
    obtain ⟨w₁, first, later⟩ := bind_eq_ok_iff.1 ((List.foldlM_cons ..).symm.trans run)
    obtain ⟨v₁, first', same₁⟩ :=
      strictDrop_robust h (ofTables n List.mem_cons_self) (inside n List.mem_cons_self) distinct first same
    have single : [n].foldlM (strictDrop d) w = .ok w₁ := by
      rw [List.foldlM_cons, first]
      rfl
    have tables := (tables_of_dropped (fun m hm => ofTables m (by simp_all)) distinct single).1
    obtain ⟨v', later', same'⟩ := ih (fun m hm => ofTables m (List.mem_cons_of_mem n hm))
      (fun m hm => inside m (List.mem_cons_of_mem n hm)) (distinct.filter tables) later same₁
    exact ⟨v', bind_eq_ok_iff.2 ⟨v₁, first', later'⟩, same'⟩

/-! ### Declarations -/

theorem strictDeclaration_append {more : List Statement} {n : Statement × Nat} (inside : n.2 ≤ S.length)
    (w : Workspace) : strictDeclaration d (S ++ more) w n = strictDeclaration d S w n := by
  obtain ⟨st, index⟩ := n
  simp only [strictDeclaration]
  cases st.body with
  | createTable table => simp only [declareTable, droppedBetween_append inside]
  | _ => rfl

variable {st : Statement} {table : CreateTable} {index : Nat}

/-- a declaration with nothing in sight adds a table that is not there, or passes over one that is -/
theorem declareTable_nil_eq_ok (run : declareTable d [] st table index w = .ok w') :
    (w.table? (table.name.key d) = none ∧ addTable d st table index w = .ok w') ∨
    ∃ t, w.table? (table.name.key d) = some t ∧ table.ifNotExists = true ∧ w'.tables = w.tables ∧
      SameBesideTables w w' := by
  have never : ∀ key first, droppedBetween d [] key first index = false := fun _ _ => by simp [droppedBetween]
  simp only [declareTable, never, Bool.false_eq_true, if_false] at run
  split at run
  · rename_i absent
    exact Or.inl ⟨absent, settle_eq_ok_iff.1 run⟩
  · rename_i t found
    split_ifs at run with again
    rw [← Except.ok.inj run]
    exact Or.inr ⟨t, found, again, rfl, rfl, modelErrors_report (by decide) ..⟩

/-- a declaration counts if an earlier table of its key is dropped in between -/
theorem declareTable_of_dropped (gone : ∀ t, w.table? (table.name.key d) = some t →
      droppedBetween d S (table.name.key d) t.declaredBy index = true) :
    declareTable d S st table index w = settle (addTable d st table index (w.dropTable (table.name.key d))) := by
  simp only [declareTable]
  split
  · rename_i absent
    have same : w.dropTable (table.name.key d) = w := by
      rw [dropTable, List.filter_eq_self.2 fun t ht => bne_iff_ne.2 (table?_eq_none absent t ht)]
    rw [same]
  · rename_i t found
    rw [if_pos (gone t found)]

/-- with IF NOT EXISTS, a declaration is passed over if there is a table of its key -/
theorem declareTable_of_kept (again : table.ifNotExists = true) {t : Draft}
    (found : w.table? (table.name.key d) = some t) (kept : droppedBetween d S t.key t.declaredBy index = false) :
    ∃ w', declareTable d S st table index w = .ok w' ∧ w'.tables = w.tables ∧ SameBesideTables w w' := by
  rw [(table?_eq_some found).2] at kept
  simp only [declareTable, found, kept, again, Bool.false_eq_true, if_false, if_true]
  exact ⟨_, rfl, rfl, rfl, modelErrors_report (by decide) ..⟩

/-- what a declaration adds is one table -/
theorem tables_of_addTable {u : Workspace} {enums : List (String × EnumType)}
    (added : addTable d st table index { enums := enums } = .ok u) :
    ∃ t : Draft, u.tables = [t] ∧ t.key = table.name.key d ∧ t.declaredBy = index := by
  have numbers : u.numbers = [(table.name.key d, index)] :=
    numbers_addTable (w := { enums := enums }) List.nodup_nil (fun t ht => absurd ht List.not_mem_nil) added
  obtain ⟨t, tables, mark⟩ := List.map_eq_singleton_iff.1 numbers
  exact ⟨t, tables, (Prod.mk.inj mark).1, (Prod.mk.inj mark).2⟩

/-- it is the same table to all schemas that have none of its key -/
theorem exists_part (fresh : w.table? (table.name.key d) = none) (noEnums : w.enums = [])
    (added : addTable d st table index w = .ok w') : ∃ (part : Workspace) (t : Draft), part.tables = [t] ∧
      t.key = table.name.key d ∧ t.declaredBy = index ∧ part.enums = [] ∧ w' = w.append part ∧
      ∀ q : Workspace, q.table? (table.name.key d) = none → q.enums = [] →
        addTable d st table index q = .ok (q.append part) := by
  have apart : ∀ q : Workspace, q.table? (table.name.key d) = none → q.enums = [] →
      addTable d st table index q = ((addTable d st table index {}).map fun v =>
        { v with enums := [], views := [] }).map q.append := fun q fresh noEnums =>
    addTable_eq_append index (table?_eq_none fresh) fun _ => by rw [noEnums]
  rw [apart w fresh noEnums] at added
  obtain ⟨part, made, rfl⟩ := map_eq_ok_iff.1 added
  have made' := made
  obtain ⟨v, alone, rfl⟩ := map_eq_ok_iff.1 made
  obtain ⟨t, tables, key, number⟩ := tables_of_addTable alone
  refine ⟨{ v with enums := [], views := [] }, t, tables, key, number, rfl, rfl, fun q fresh noEnums => ?_⟩
  rw [apart q fresh noEnums, made']
  rfl

/-! ### Execution -/

/-- Both passes come to what the execution comes to. -/
structure Mirrors (d : Dialect) (S : List Statement) (w p v : Workspace) : Prop where
  declared : S.zipIdx.foldlM (strictDeclaration d S) {} = .ok p
  dropped : S.zipIdx.foldlM (strictDrop d) p = .ok v
  tables : v.tables = w.tables
  noEnums : w.enums = [] ∧ p.enums = []
  distinct : p.Distinct
  inside : ∀ t ∈ p.tables, t.declaredBy < S.length
  noTableErrors : p.NoTableErrors

variable {p : Workspace}

theorem zipIdx_concat (S : List Statement) (st : Statement) : (S ++ [st]).zipIdx = S.zipIdx ++ [(st, S.length)] := by
  rw [List.zipIdx_append, Nat.zero_add]
  rfl

theorem foldlM_concat {ε α : Type} {step : Workspace → α → Except ε Workspace} {l : List α} {a : α}
    (run : l.foldlM step w = .ok w') : (l ++ [a]).foldlM step w = step w' a := by
  rw [List.foldlM_append, run]
  exact bind_pure (step w' a)

/-- what is declared first does not depend on what comes later -/
theorem Mirrors.declared_concat (h : Mirrors d S w p v) (st : Statement) :
    (S ++ [st]).zipIdx.foldlM (strictDeclaration d (S ++ [st])) {} =
      strictDeclaration d (S ++ [st]) p (st, S.length) := by
  rw [zipIdx_concat]
  refine foldlM_concat ?_
  rw [← h.declared]
  exact foldlM_congr fun n hn w => strictDeclaration_append (Nat.le_of_lt (List.snd_lt_of_mem_zipIdx hn)) w

/-- tables are left if no later statement drops them -/
theorem Mirrors.tables_eq (h : Mirrors d S w p v) (ofTables : ∀ st ∈ S, st.isOfTables = true) :
    v.tables = p.tables.filter fun t => !droppedBetween d S t.key t.declaredBy S.length := by
  rw [(tables_of_dropped (fun n hn => ofTables n.1 (List.fst_mem_of_mem_zipIdx hn)) h.distinct h.dropped).1]
  simp only [any_zipIdx_dropsTable]

/-- a statement that drops tables -/
theorem Mirrors.drop (h : Mirrors d S w p v) (ofTables : ∀ st ∈ S, st.isOfTables = true) {st : Statement}
    {drop : DropTable} (body : st.body = .dropTable drop) (plain : drop.cascade = false)
    (run : execute d w (st, S.length) = .ok w') : ∃ v', Mirrors d (S ++ [st]) w' p v' := by
  simp only [execute, strictDeclaration, body, bind_eq_ok_iff, Except.ok.injEq, exists_eq_left'] at run
  have own : st.isOfTables = true := by
    rw [Statement.isOfTables, body]
    simp [plain]
  have distinct : w.Distinct := by
    rw [Distinct, ← h.tables, h.tables_eq ofTables]
    exact h.distinct.sublist (List.filter_sublist.map _)
  obtain ⟨v', dropped, tables⟩ := strictDrop_robust (robust_id (S.length + 1)) own (Nat.lt_succ_self _) distinct run
    h.tables
  have enums : w'.enums = w.enums := by
    simp only [strictDrop, body] at run
    exact (eachName_dropTableNamed_eq_ok plain distinct run).2.enums
  refine ⟨v', ?_, ?_, tables, ⟨enums.trans h.noEnums.1, h.noEnums.2⟩, h.distinct, fun t ht => ?_, h.noTableErrors⟩
  · rw [h.declared_concat]
    simp only [strictDeclaration, body]
  · rw [zipIdx_concat, foldlM_concat h.dropped, dropped]
  · rw [List.length_append]
    exact Nat.lt_add_right _ (h.inside t ht)

/-- a declaration of a table that is there -/
theorem Mirrors.pass (h : Mirrors d S w p v) (ofTables : ∀ st ∈ S, st.isOfTables = true) {st : Statement}
    {table : CreateTable} (body : st.body = .createTable table) {t : Draft}
    (found : w.table? (table.name.key d) = some t) (again : table.ifNotExists = true) (tables : w'.tables = w.tables)
    (same : SameBesideTables w w') : ∃ p' v', Mirrors d (S ++ [st]) w' p' v' := by
  obtain ⟨ht, own⟩ := table?_eq_some found
  rw [← h.tables, h.tables_eq ofTables, List.mem_filter, Bool.not_eq_true'] at ht
  have found' : p.table? (table.name.key d) = some t := by
    cases there : p.table? (table.name.key d) with
    | none => exact absurd own (table?_eq_none there t ht.1)
    | some t' =>
      obtain ⟨ht', own'⟩ := table?_eq_some there
      rw [h.distinct.eq_of_key ht' ht.1 (own'.trans own.symm)]
  have kept : droppedBetween d (S ++ [st]) t.key t.declaredBy S.length = false := by
    rw [droppedBetween_append (Nat.le_refl _)]
    exact ht.2
  obtain ⟨p', declared, tables', same'⟩ : ∃ p', declareTable d (S ++ [st]) st table S.length p = .ok p' ∧
      p'.tables = p.tables ∧ SameBesideTables p p' := declareTable_of_kept again found' kept
  have ofTables' : ∀ n ∈ S.zipIdx, n.1.isOfTables = true := fun n hn => ofTables n.1 (List.fst_mem_of_mem_zipIdx hn)
  obtain ⟨v', dropped, tables''⟩ := foldlM_strictDrop_robust (robust_id S.length) ofTables'
    (fun n hn => List.snd_lt_of_mem_zipIdx hn) h.distinct h.dropped tables'
  refine ⟨p', v', ?_, ?_, ?_, ⟨same.enums.trans h.noEnums.1, same'.enums.trans h.noEnums.2⟩, ?_, ?_, ?_⟩
  · rw [h.declared_concat]
    simp only [strictDeclaration, body]
    exact declared
  · rw [zipIdx_concat, foldlM_concat dropped]
    simp only [strictDrop, body]
  · rw [tables'', tables]
    exact h.tables
  · rw [Distinct, tables']
    exact h.distinct
  · rw [tables', List.length_append]
    exact fun t ht => Nat.lt_add_right _ (h.inside t ht)
  · exact h.noTableErrors.of_errors same'.errors

/-- a declaration of a table that is not there -/
theorem Mirrors.declare (h : Mirrors d S w p v) (ofTables : ∀ st ∈ S, st.isOfTables = true) {st : Statement}
    {table : CreateTable} (body : st.body = .createTable table) (absent : w.table? (table.name.key d) = none)
    (added : addTable d st table S.length w = .ok w') : ∃ p' v', Mirrors d (S ++ [st]) w' p' v' := by
  have gone : ∀ t, p.table? (table.name.key d) = some t →
      droppedBetween d (S ++ [st]) (table.name.key d) t.declaredBy S.length = true := by
    intro t found
    obtain ⟨ht, own⟩ := table?_eq_some found
    rw [← own, droppedBetween_append (Nat.le_refl _)]
    by_contra kept
    refine table?_eq_none absent t ?_ own
    rw [← h.tables, h.tables_eq ofTables]
    exact List.mem_filter.2 ⟨ht, by simpa using kept⟩
  obtain ⟨part, t, tables, key, number, noEnums, rfl, elsewhere⟩ := exists_part absent h.noEnums.1 added
  have free : (p.dropTable (table.name.key d)).table? (table.name.key d) = none := by
    rw [table?_eq_none_iff]
    intro there
    obtain ⟨x, hx, own⟩ := List.mem_map.1 there
    exact bne_iff_ne.1 (List.mem_filter.1 hx).2 own
  have declared : strictDeclaration d (S ++ [st]) p (st, S.length) =
      .ok ((p.dropTable (table.name.key d)).append part) := by
    simp only [strictDeclaration, body]
    rw [declareTable_of_dropped gone, elsewhere _ free h.noEnums.2]
    rfl
  have ofTables' : ∀ n ∈ S.zipIdx, n.1.isOfTables = true := fun n hn => ofTables n.1 (List.fst_mem_of_mem_zipIdx hn)
  have replaced : ((p.dropTable (table.name.key d)).append part).tables =
      (p.tables.filter fun x => x.key != t.key) ++ [t] := by
    rw [append, tables, key]
    rfl
  have robust : Robust d S.length fun tables => (tables.filter fun x => x.key != t.key) ++ [t] :=
    robust_replace (Nat.le_of_eq number.symm)
  obtain ⟨v', dropped, tables'⟩ := foldlM_strictDrop_robust robust ofTables'
    (fun n hn => List.snd_lt_of_mem_zipIdx hn) h.distinct h.dropped replaced
  refine ⟨_, v', h.declared_concat st |>.trans declared, ?_, ?_, ⟨?_, ?_⟩, ?_, ?_, ?_⟩
  · rw [zipIdx_concat, foldlM_concat dropped]
    simp only [strictDrop, body]
  · have others : (w.tables.filter fun x => x.key != t.key) = w.tables :=
      List.filter_eq_self.2 fun x hx => bne_iff_ne.2 (key ▸ table?_eq_none absent x hx)
    rw [tables', h.tables, others, append, tables]
  · rw [append, h.noEnums.1, noEnums]
    rfl
  · rw [append, noEnums, List.append_nil]
    exact h.noEnums.2
  · rw [Distinct, replaced]
    exact robust.distinct _ h.distinct
  · rw [replaced, List.length_append, List.length_singleton]
    intro x hx
    rcases List.mem_append.1 hx with hx | hx
    · exact Nat.lt_succ_of_lt (h.inside x (List.mem_of_mem_filter hx))
    · rw [List.mem_singleton.1 hx, number]
      exact Nat.lt_succ_self _
  · have start : (p.dropTable (table.name.key d)).NoTableErrors := h.noTableErrors.of_errors rfl
    exact noTableErrors_addTable start (elsewhere _ free h.noEnums.2)

/-- where an execution meets no problem, the passes come to the same tables -/
theorem exists_mirrors (ofTables : ∀ st ∈ S, st.isOfTables = true) (run : S.zipIdx.foldlM (execute d) {} = .ok w) :
    ∃ p v, Mirrors d S w p v := by
  induction S using List.reverseRecOn generalizing w with
  | nil =>
    rw [← Except.ok.inj run]
    exact ⟨{}, {}, rfl, rfl, rfl, ⟨rfl, rfl⟩, List.nodup_nil, by simp, by simp [NoTableErrors, Findings.modelErrors]⟩
  | append_singleton S st ih =>
    have first : ∀ st ∈ S, st.isOfTables = true := fun st hst => ofTables st (List.mem_append_left _ hst)
    rw [zipIdx_concat, List.foldlM_append] at run
    obtain ⟨w₁, before, last⟩ := bind_eq_ok_iff.1 run
    obtain ⟨p, v, h⟩ := ih first before
    have last : execute d w₁ (st, S.length) = .ok w := (bind_pure (execute d w₁ (st, S.length))).symm.trans last
    rcases Statement.body_of_isOfTables (ofTables st (List.mem_append_right _ List.mem_cons_self)) with
      ⟨table, body⟩ | ⟨drop, body, plain⟩
    · have declared : declareTable d [] st table S.length w₁ = .ok w := by
        simpa only [execute, strictDeclaration, strictDrop, body, bind_eq_ok_iff, Except.ok.injEq, exists_eq_right] using
          last
      rcases declareTable_nil_eq_ok declared with ⟨absent, added⟩ | ⟨t, found, again, tables, same⟩
      · exact h.declare first body absent added
      · exact h.pass first body found again tables same
    · obtain ⟨v', h'⟩ := h.drop first body plain last
      exact ⟨p, v', h'⟩

end Workspace

/-! ## The model -/

/-- Where an execution of declarations and drops meets no problem, the tables that it leaves are the tables of the
statements: the same ones in the same order, each of the same statement. There is a model if they have all their names,
and no error says that a table is missing or is there already. -/
theorem tables_of_executed {S : List Statement} (ofTables : ∀ st ∈ S, st.isOfTables = true) {w : Workspace}
    (run : S.zipIdx.foldlM (Workspace.execute d) {} = .ok w) :
    (∃ v, Workspace.applyAll d S = .ok v ∧ v.tables = w.tables) ∧
      ((∃ b, buildModel d none S = .ok b) ↔ w.Named) ∧
      ∀ b, buildModel d none S = .ok b → b.model.tables = w.resolvedTables d ∧
        ∀ f ∈ b.model.errors, f.code ≠ "DUPLICATE_TABLE" ∧ f.code ≠ "UNKNOWN_TABLE" := by
  obtain ⟨p, v, h⟩ := Workspace.exists_mirrors ofTables run
  have applied : Workspace.applyAll d S = .ok v := Workspace.applyAll_of_strict
    (fun st hst => Statement.declaresOrDrops_of_isOfTables (ofTables st hst)) h.declared h.dropped
  have same := (Workspace.tables_of_dropped (fun n hn => ofTables n.1 (List.fst_mem_of_mem_zipIdx hn)) h.distinct
    h.dropped).2
  have built : buildModel d none S = v.build d none := Workspace.buildModel_of_applied applied none
  refine ⟨⟨v, applied, h.tables⟩, ?_, fun b made => ⟨?_, fun f hf => ?_⟩⟩
  · rw [built, Workspace.exists_build_iff]
    exact ⟨fun named => ⟨h.tables ▸ named.tables, h.tables ▸ named.columns⟩,
      fun named => ⟨h.tables.symm ▸ named.tables, h.tables.symm ▸ named.columns⟩⟩
  · rw [Workspace.tables_of_build (built.symm.trans made), Workspace.resolvedTables, Workspace.resolvedTables, h.tables]
    rfl
  · rw [(Workspace.findings_of_build (built.symm.trans made)).1, Workspace.tallied_of_applyAll applied,
      List.mem_append] at hf
    have clear : f.concernsTable = false := by
      rcases hf with hf | hf
      · exact h.noTableErrors.of_errors same.errors f hf
      · exact Workspace.concernsTable_of_mem_tableFindings hf
    simpa [Finding.concernsTable] using clear

/-- a table with one column is declared -/
def declaredAs (name column : String) (line : Nat) : Statement :=
  ⟨.createTable { name := ⟨name, none⟩, columns := [{ name := column, type := none, position := ⟨line, 1, 0⟩ }] },
    ⟨line, 1, 0⟩, none⟩

/-- tables that are dropped before they are there, declared again, and passed over -/
def droppedAndDeclaredAgain : List Statement :=
  let declare (name column : String) (ifNotExists : Bool) : StatementBody := .createTable
    { name := ⟨name, none⟩, columns := [{ name := column, type := none, position := ⟨1, 1, 0⟩ }]
      ifNotExists := ifNotExists }
  [⟨.dropTable { names := [⟨"a", none⟩, ⟨"b", none⟩], ifExists := true }, ⟨1, 1, 0⟩, none⟩,
    ⟨declare "a" "x" false, ⟨2, 1, 0⟩, none⟩,
    ⟨declare "b" "x" false, ⟨3, 1, 0⟩, none⟩,
    ⟨.dropTable { names := [⟨"a", some "public"⟩] }, ⟨4, 1, 0⟩, none⟩,
    ⟨declare "b" "y" true, ⟨5, 1, 0⟩, none⟩,
    ⟨declare "a" "y" true, ⟨6, 1, 0⟩, none⟩]

theorem tables_of_droppedAndDeclaredAgain : ∃ w b,
    droppedAndDeclaredAgain.zipIdx.foldlM (Workspace.execute .postgresql) {} = .ok w ∧
    buildModel .postgresql none droppedAndDeclaredAgain = .ok b ∧ b.model.tables = w.resolvedTables .postgresql ∧
    w.numbers = [("public.b", 2), ("public.a", 5)] := by
  have shape : (droppedAndDeclaredAgain.zipIdx.foldlM (Workspace.execute .postgresql) {}).toOption.map
      (fun w => (w.numbers, w.tables.map (·.name), w.tables.flatMap (·.columns.map (·.name)))) =
      some ([("public.b", 2), ("public.a", 5)], ["b", "a"], ["x", "y"]) := by
    decide +kernel
  obtain ⟨w, run, same⟩ := Option.map_eq_some_iff.1 shape
  have run := toOption_eq_some_iff.1 run
  obtain ⟨numbers, same⟩ := Prod.mk.inj same
  obtain ⟨names, columns⟩ := Prod.mk.inj same
  obtain ⟨-, built, tables⟩ := tables_of_executed (by decide) run
  have named : w.Named := by
    constructor
    · intro t ht e
      have there : t.name ∈ ["b", "a"] := names ▸ List.mem_map_of_mem ht
      exact absurd (e ▸ there) (by decide)
    · intro t ht c hc e
      have there : c.name ∈ ["x", "y"] := columns ▸ List.mem_flatMap.2 ⟨t, ht, List.mem_map_of_mem hc⟩
      exact absurd (e ▸ there) (by decide)
  obtain ⟨b, made⟩ := built.2 named
  exact ⟨w, b, run, made, (tables b made).1, numbers⟩

end SchemaApi
