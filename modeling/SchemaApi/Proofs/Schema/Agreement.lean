import SchemaApi.Proofs.Schema.Resolution
import SchemaApi.Schema.Relationship
/-!
The resolution of foreign keys agrees with what is later read from the model.

While a model is built, a foreign key finds its target by key and folded names; in the model it finds
it by its exact reference and columns (`resolvedTarget`). A foreign key is an error of the model
exactly if it finds nothing there: a resolved one has exact names of its target, and one that already
had them resolves to itself.
-/

namespace SchemaApi

variable {d : Dialect}

/-! ## Lookups -/

/-- the keys of a table; an empty list is no primary key -/
theorem Table.mem_uniqueSets {t : Table} {cols : List String} :
    cols ∈ t.uniqueSets ↔ t.primaryKey? = some cols ∧ cols ≠ [] ∨ cols ∈ t.uniqueConstraints ∨
      ∃ i ∈ t.indexes, i.isFullUnique = true ∧ i.columns = cols := by
  have key : cols ∈ (if t.primaryColumns.isEmpty then [] else [t.primaryColumns]) ↔
      t.primaryKey? = some cols ∧ cols ≠ [] := by
    unfold Table.primaryColumns
    cases t.primaryKey? with
    | none => simp
    | some own =>
      cases own with
      | nil => simp
      | cons c cs =>
        rw [Option.getD_some, if_neg (by simp), List.mem_singleton, Option.some.injEq, eq_comm, iff_self_and]
        rintro rfl
        exact List.cons_ne_nil c cs
  simp only [Table.uniqueSets, List.mem_append, List.mem_map, List.mem_filter, key, or_assoc, and_assoc]

theorem mem_uniqueSets_iff {t : Table} {cols : List String} (filled : cols ≠ []) :
    cols ∈ t.uniqueSets ↔ t.primaryKey? = some cols ∨ cols ∈ t.uniqueConstraints ∨
      ∃ i ∈ t.indexes, i.isFullUnique = true ∧ i.columns = cols := by
  rw [Table.mem_uniqueSets, and_iff_left filled]

/-- unique sets hold exact names of columns -/
theorem Table.WellFormed.mem_columnNames {t : Table} (h : t.WellFormed d) {cols : List String}
    (known : cols ∈ t.uniqueSets) : ∀ n ∈ cols, n ∈ t.columnNames := by
  intro n hn
  rcases (mem_uniqueSets_iff (List.ne_nil_of_mem hn)).1 known with key | unique | ⟨i, hi, full, rfl⟩
  · obtain ⟨c, hc, e⟩ := List.exists_of_findSome?_eq_some key
    refine h.named c hc n ?_
    cases c with
    | primaryKey => rw [← Option.some.inj e] at hn; exact hn
    | _ => simp [Constraint.primaryColumns?] at e
  · obtain ⟨c, hc, e⟩ := List.mem_filterMap.1 unique
    refine h.named c hc n ?_
    cases c with
    | unique => rw [← Option.some.inj e] at hn; exact hn
    | _ => simp [Constraint.uniqueColumns?] at e
  · refine h.indexed i hi ?_ n hn
    simp only [Index.isFullUnique, Bool.and_eq_true, Bool.not_eq_true'] at full
    exact full.1.2

theorem tableOf_eq_some_iff {tables : List Table} (refs : (tables.map (·.ref)).Nodup) {ref : TableRef}
    {t : Table} : tableOf tables ref = some t ↔ t ∈ tables ∧ t.ref = ref := by
  constructor
  · intro found
    exact ⟨List.mem_reverse.1 (List.mem_of_find?_eq_some found), by simpa using List.find?_some found⟩
  · rintro ⟨ht, rfl⟩
    cases found : tableOf tables t.ref with
    | none => exact absurd (beq_self_eq_true t.ref) (List.find?_eq_none.1 found t (List.mem_reverse.2 ht))
    | some t' =>
      have same : t'.ref = t.ref := by simpa using List.find?_some found
      rw [List.inj_on_of_nodup_map refs (List.mem_reverse.1 (List.mem_of_find?_eq_some found)) ht same]

theorem resolvedTarget_eq_some_iff {tables : List Table} (refs : (tables.map (·.ref)).Nodup) {k : ForeignKey}
    {t : Table} : resolvedTarget tables k = some t ↔ t ∈ tables ∧ t.ref = k.target ∧ k.targetColumns ≠ [] ∧
      k.targetColumns.length = k.columns.length ∧ k.targetColumns ∈ t.uniqueSets := by
  have pair := @tableOf_eq_some_iff tables refs k.target
  unfold resolvedTarget
  cases found : tableOf tables k.target with
  | none =>
    have absent : ¬ (t ∈ tables ∧ t.ref = k.target) := fun h => by simpa [found] using pair.2 h
    simp only [reduceCtorEq, false_iff]
    exact fun h => absent ⟨h.1, h.2.1⟩
  | some t' =>
    have present := pair.1 found
    have same : t ∈ tables ∧ t.ref = k.target ↔ t' = t := by
      rw [← pair, found, Option.some.injEq]
    rw [← and_assoc, same]
    simp only [Bool.or_eq_true, List.isEmpty_iff, bne_iff_ne, List.contains_iff_mem]
    split_ifs with unlike known
    · simp only [false_iff]
      rintro ⟨-, filled, lengths, -⟩
      exact unlike.elim filled (· lengths)
    · rw [not_or, not_not] at unlike
      simp only [Option.some.injEq]
      exact ⟨fun e => ⟨e, unlike.1, unlike.2, e ▸ known⟩, fun h => h.1⟩
    · simp only [false_iff]
      rintro ⟨rfl, -, -, member⟩
      exact known member

theorem Workspace.WellFormed.find?_key {w : Workspace} (h : w.WellFormed d) {t : Draft} (ht : t ∈ w.tables)
    {key : String} (own : t.key = key) : w.tables.find? (fun t => t.key == key) = some t := by
  cases found : w.tables.find? (fun t => t.key == key) with
  | none => exact absurd (beq_iff_eq.2 own) (List.find?_eq_none.1 found t ht)
  | some t' =>
    have same : t'.key = key := by simpa using List.find?_some found
    rw [h.eq_of_key (List.mem_of_find?_eq_some found) ht (same.trans own.symm)]

/-- exact names of columns mean themselves -/
theorem Draft.canonical_eq_self {t : Draft} (h : t.toTable.WellFormed d) {names : List String} {what : String}
    (named : ∀ n ∈ names, n ∈ t.toTable.columnNames) : t.canonical d names what = .ok names := by
  have own : ∀ n ∈ names, (t.requireColumn d n what).map (·.name) = .ok n := by
    intro n hn
    cases found : t.column? d n with
    | none =>
      obtain ⟨c, hc, rfl⟩ := List.mem_map.1 (named n hn)
      exact absurd rfl (column?_eq_none found c hc)
    | some c =>
      rw [requireColumn_eq_ok_iff.2 found]
      obtain ⟨hc, same⟩ := column?_eq_some found
      exact congrArg Except.ok (h.eq_of_fold (List.mem_map_of_mem hc) (named n hn) same)
  unfold canonical
  induction names with
  | nil => rfl
  | cons n rest ih =>
    rw [List.mapM_cons, own n List.mem_cons_self,
      ih (fun m hm => named m (List.mem_cons_of_mem n hm)) fun m hm => own m (List.mem_cons_of_mem n hm)]
    rfl

theorem uniqueSets_retarget {t : Table} {cs : List Constraint}
    (alike : List.Forall₂ Constraint.Retargeted t.constraints cs) :
    Table.uniqueSets { t with constraints := cs } = t.uniqueSets := by
  have same : ∀ c c', Constraint.Retargeted c c' →
      c.primaryColumns? = c'.primaryColumns? ∧ c.uniqueColumns? = c'.uniqueColumns? := by
    intro c c' like
    cases like <;> exact ⟨rfl, rfl⟩
  have key : t.constraints.map (·.primaryColumns?) = cs.map (·.primaryColumns?) :=
    map_eq_map_of_forall₂ (alike.imp fun c c' like => (same c c' like).1)
  have unique : t.constraints.map (·.uniqueColumns?) = cs.map (·.uniqueColumns?) :=
    map_eq_map_of_forall₂ (alike.imp fun c c' like => (same c c' like).2)
  have found : ∀ l : List Constraint, l.findSome? (·.primaryColumns?) = (l.map (·.primaryColumns?)).findSome? id :=
    fun l => by rw [List.findSome?_map]; rfl
  have kept : ∀ l : List Constraint, l.filterMap (·.uniqueColumns?) = (l.map (·.uniqueColumns?)).filterMap id :=
    fun l => by rw [List.filterMap_map]; rfl
  simp only [Table.uniqueSets, Table.primaryColumns, Table.primaryKey?, Table.uniqueConstraints, found, kept,
    key, unique]

/-! ## Agreement -/

section
variable {w : Workspace} {resolved : List (Draft × Ledger)}
  (run : List.Forall₂ (fun t r => t.resolveTable d w.tables = .ok r) w.tables resolved)
include run

theorem exists_resolved {t : Draft} (ht : t ∈ w.tables) : ∃ table ∈ resolved.map (·.1.toTable),
    table.ref = t.toTable.ref ∧ table.uniqueSets = t.uniqueSets := by
  obtain ⟨r, hr, done⟩ := exists_of_mem_forall₂ run.flip ht
  obtain ⟨cs, alike, same⟩ := Draft.resolveTable_retargeted done
  refine ⟨r.1.toTable, List.mem_map_of_mem hr, ?_⟩
  rw [same]; exact ⟨rfl, uniqueSets_retarget alike⟩

theorem exists_draft {table : Table} (ht : table ∈ resolved.map (·.1.toTable)) : ∃ t ∈ w.tables,
    table.ref = t.toTable.ref ∧ table.uniqueSets = t.uniqueSets := by
  obtain ⟨r, hr, rfl⟩ := List.mem_map.1 ht
  obtain ⟨t, ht, done⟩ := exists_of_mem_forall₂ run hr
  obtain ⟨cs, alike, same⟩ := Draft.resolveTable_retargeted done
  refine ⟨t, ht, ?_⟩
  rw [same]; exact ⟨rfl, uniqueSets_retarget alike⟩

/-- a foreign key that resolves finds its target in the model -/
theorem resolvedTarget_of_resolve (h : w.WellFormed d) {t : Draft} {e : Placed} {k k' : ForeignKey}
    {findings : Findings} (filled : k.columns ≠ []) (found : t.resolve d w.tables e k = .ok (k', findings)) :
    ∃ table, resolvedTarget (resolved.map (·.1.toTable)) k' = some table := by
  obtain ⟨target, referred, there, lengths, known, rfl, -⟩ := Draft.resolve_eq_ok found
  obtain ⟨table, ht, ref, sets⟩ := exists_resolved run (List.mem_of_find?_eq_some there)
  refine ⟨table, (resolvedTarget_eq_some_iff (wellFormedTables_resolved h run).refs).2 ⟨ht, ref, ?_, lengths, ?_⟩⟩
  · intro empty
    rw [show referred = [] from empty] at lengths
    exact filled (List.length_eq_zero_iff.1 lengths.symm)
  · rw [sets]; exact known

/-- a foreign key that finds its target in the model as it is resolves to it -/
theorem resolve_ne_problem (h : w.WellFormed d) {t : Draft} {e : Placed} {k : ForeignKey} {table : Table}
    (found : resolvedTarget (resolved.map (·.1.toTable)) k = some table) (p : Problem) :
    t.resolve d w.tables e k ≠ .error (.problem p) := by
  obtain ⟨ht, ref, filled, lengths, known⟩ :=
    (resolvedTarget_eq_some_iff (wellFormedTables_resolved h run).refs).1 found
  obtain ⟨target, htarget, same, sets⟩ := exists_draft run ht
  rw [sets] at known
  have sound := h.draft htarget
  have own : target.key = k.targetKey d := by
    have keyed : target.key = d.tableKey target.schema target.name := sound.keyed
    rw [ref] at same
    rw [keyed, ForeignKey.targetKey, same]; rfl
  have columns : ∀ what, target.referredColumns d what k = .ok k.targetColumns := by
    intro what
    rw [Draft.referredColumns, if_neg (by simpa using filled)]
    exact Draft.canonical_eq_self sound (sound.mem_columnNames known)
  have checked : ∀ what, target.checkKey what k k.targetColumns = .ok () :=
    fun what => Draft.checkKey_eq_ok_iff.2 ⟨lengths, known⟩
  unfold Draft.resolve
  cases t.label? with
  | error r => simp [Workspace.settle, Except.mapError, bind, Except.bind]
  | ok label =>
    rw [h.find?_key htarget own]
    simp only [columns, checked, Workspace.settle, Except.mapError, bind, Except.bind, pure, Except.pure]
    cases target.ref? <;> simp

/-- there is an error for a foreign key exactly if it has no target in the model -/
theorem keyErrors_ne_nil_iff (h : w.WellFormed d) {t : Draft} (ht : t ∈ w.tables) {e e' : Placed}
    {found : Ledger} (he : e ∈ t.constraints) (done : t.resolvePlaced d w.tables e = .ok (e', found))
    {k : ForeignKey} (isKey : e'.constraint = .foreignKey k) :
    t.keyErrors d w.tables e ≠ [] ↔ resolvedTarget (resolved.map (·.1.toTable)) k = none := by
  rw [Draft.keyErrors_eq done]
  cases Draft.settled_of_resolvePlaced done with
  | plain other => rw [isKey] at other; simp [Constraint.foreignKey?] at other
  | @resolved k₀ k' _ was found =>
    obtain rfl : k' = k := Constraint.foreignKey.inj isKey
    have filled : k₀.columns ≠ [] := (h.draft ht).filled k₀ <|
      List.mem_filterMap.2 ⟨_, List.mem_map_of_mem he, by rw [was]; rfl⟩
    obtain ⟨table, there⟩ := resolvedTarget_of_resolve run h filled found
    simp [there]
  | @failed k₀ p was missing =>
    obtain rfl : k₀ = k := Constraint.foreignKey.inj (was.symm.trans isKey)
    simp only [ne_eq, List.cons_ne_nil, not_false_eq_true, true_iff]
    cases there : resolvedTarget (resolved.map (·.1.toTable)) k₀ with
    | none => rfl
    | some table => exact absurd missing (resolve_ne_problem run h there p)

/-- the keys of the statements stand beside the keys of the model, and find their targets or are errors -/
theorem constraints_agree (h : w.WellFormed d) :
    List.Forall₂ (fun t table => List.Forall₂ (fun e c => e.constraint.Retargeted c ∧
        ∀ k, c = .foreignKey k →
          (t.keyErrors d w.tables e ≠ [] ↔ resolvedTarget (resolved.map (·.1.toTable)) k = none))
      t.constraints table.constraints) w.tables (resolved.map (·.1.toTable)) := by
  rw [List.forall₂_map_right_iff]
  have within := (List.forall₂_and_left w.tables resolved).2 ⟨fun t ht => ht, run⟩
  refine within.imp ?_
  rintro t r ⟨ht, done⟩
  obtain ⟨placed, settled, made, -⟩ := Draft.resolveTable_eq_ok done
  rw [made]
  simp only [Draft.toTable, List.forall₂_map_right_iff]
  have within := (List.forall₂_and_left t.constraints placed).2 ⟨fun e he => he, settled⟩
  refine within.imp ?_
  rintro e e' ⟨he, done⟩
  refine ⟨(Draft.settled_of_resolvePlaced done).retargeted, fun k isKey => ?_⟩
  exact keyErrors_ne_nil_iff run h ht he done isKey

end

/-- Table by table and constraint by constraint, a foreign key of the model is one of the statements,
and was recorded as an error exactly if it has no target in the model. So in a model without errors each
foreign key refers, in their order, to the columns of a primary key, a unique constraint or a full unique
index of an existing table. -/
theorem foreignKeys_agree {statements : List Statement} {b : Built}
    (clear : Workspace.Unambiguous d statements) (built : buildModel d none statements = .ok b) :
    ∃ w, Workspace.applyAll d statements = .ok w ∧
      List.Forall₂ (fun t table => List.Forall₂ (fun e c => e.constraint.Retargeted c ∧
          ∀ k, c = .foreignKey k →
            (t.keyErrors d w.tables e ≠ [] ↔ resolvedTarget b.model.tables k = none))
        t.constraints table.constraints) w.tables b.model.tables ∧
      b.model.errors = w.findings.modelErrors ++
        w.tables.flatMap (fun t => t.constraints.flatMap (t.keyErrors d w.tables)) ∧
      (b.model.isValid = true → ∀ table ∈ b.model.tables, ∀ k ∈ table.foreignKeys,
        ∃ target ∈ b.model.tables, target.ref = k.target ∧ k.targetColumns.length = k.columns.length ∧
          (target.primaryKey? = some k.targetColumns ∨ k.targetColumns ∈ target.uniqueConstraints ∨
            ∃ i ∈ target.indexes, i.isFullUnique = true ∧ i.columns = k.targetColumns)) := by
  obtain ⟨w, resolved, applied, run, tables, errors⟩ := buildModel_eq_ok built
  have h := Workspace.applyAll_wellFormed clear applied
  have agree := constraints_agree run h
  rw [← tables] at agree
  refine ⟨w, applied, agree, by rw [errors, errors_resolved run], fun valid table htable k hk => ?_⟩
  obtain ⟨t, ht, within⟩ := exists_of_mem_forall₂ agree htable
  obtain ⟨c, hc, isKey⟩ := List.mem_filterMap.1 hk
  obtain ⟨e, he, -, recorded⟩ := exists_of_mem_forall₂ within hc
  have quiet : t.keyErrors d w.tables e = [] := by
    rw [Model.isValid, List.isEmpty_iff, errors, errors_resolved run, List.append_eq_nil_iff] at valid
    exact List.flatMap_eq_nil_iff.1 (List.flatMap_eq_nil_iff.1 valid.2 t ht) e he
  have keyIs : c = .foreignKey k := by
    cases c <;> simp_all [Constraint.foreignKey?]
  cases there : resolvedTarget b.model.tables k with
  | none => exact absurd quiet ((recorded k keyIs).2 there)
  | some target =>
    have refs := (wellFormedTables_resolved h run).refs
    rw [← tables] at refs
    obtain ⟨htarget, ref, filled, lengths, known⟩ := (resolvedTarget_eq_some_iff refs).1 there
    exact ⟨target, htarget, ref, lengths, (mem_uniqueSets_iff filled).1 known⟩

theorem foreignKeys_agree_authorsAndBooks : ∃ b, buildModel .sqlite none authorsAndBooks = .ok b ∧
    ∀ table ∈ b.model.tables, ∀ k ∈ table.foreignKeys, ∃ target ∈ b.model.tables, target.ref = k.target := by
  have complete : (buildModel .sqlite none authorsAndBooks).toOption.map (·.model.isValid) = some true := by
    decide +kernel
  obtain ⟨b, built, valid⟩ := Option.map_eq_some_iff.1 complete
  have built := toOption_eq_some_iff.1 built
  obtain ⟨w, -, -, -, resolved⟩ := foreignKeys_agree unambiguous_authorsAndBooks built
  refine ⟨b, built, fun table htable k hk => ?_⟩
  obtain ⟨target, htarget, ref, -⟩ := resolved valid table htable k hk
  exact ⟨target, htarget, ref⟩

end SchemaApi
