import SchemaApi.Proofs.Schema.Ledger
/-!
What the resolution of foreign keys finds, and what a built model is.

A foreign key that resolves gets the exact reference and columns of its target; one that does not is
left as it was, with one error. Tables and their other constraints never change, so well-formed
tables are well-formed in the model too.
-/

namespace SchemaApi

/-! ## One foreign key -/

namespace Draft

variable {d : Dialect} {tables : List Draft} {t : Draft}

theorem checkKey_eq_ok_iff {target : Draft} {what : String} {k : ForeignKey} {referred : List String} {u : Unit} :
    target.checkKey what k referred = .ok u ↔
      referred.length = k.columns.length ∧ referred ∈ target.uniqueSets := by
  unfold checkKey
  split_ifs with lengths known reordered
  · simp [lengths]
  · simp only [List.contains_iff_mem] at known
    simp [known, not_not.1 lengths]
  · simp only [List.contains_iff_mem] at known
    simp [problem_eq_ok_iff, known]
  · simp only [List.contains_iff_mem] at known
    simp [problem_eq_ok_iff, known]

theorem ref?_eq_ok {ref : TableRef} (h : t.ref? = .ok ref) : ref = t.toTable.ref := by
  unfold ref? at h
  split_ifs at h
  exact (Except.ok.inj h).symm

/-- types that do not match are no errors -/
theorem modelErrors_typeFindings (target : Draft) (what label : String) (e : Placed)
    (pairs : List (String × String)) : (t.typeFindings d target what label e pairs).modelErrors = [] := by
  unfold Findings.modelErrors typeFindings
  rw [List.filter_eq_nil_iff]
  intro f hf
  obtain ⟨⟨own, other⟩, -, made⟩ := List.mem_filterMap.1 hf
  simp only at made
  split at made
  · split_ifs at made
    rw [← Option.some.inj made]
    exact Bool.false_ne_true
  · simp at made

/-- a foreign key that resolves refers to a unique set of its target, by the target's own name -/
theorem resolve_eq_ok {e : Placed} {k k' : ForeignKey} {findings : Findings}
    (h : t.resolve d tables e k = .ok (k', findings)) :
    ∃ target referred, tables.find? (fun t => t.key == k.targetKey d) = some target ∧
      referred.length = k.columns.length ∧ referred ∈ target.uniqueSets ∧
      k' = { k with target := target.toTable.ref, targetColumns := referred } ∧ findings.modelErrors = [] := by
  simp only [resolve, bind_eq_ok_iff] at h
  obtain ⟨label, -, h⟩ := h
  split at h
  · simp [throw_eq_ok_iff] at h
  · rename_i target found
    simp only [bind_eq_ok_iff, pure_eq_ok_iff, checkKey_eq_ok_iff, Workspace.settle_eq_ok_iff] at h
    obtain ⟨referred, -, _, ⟨lengths, known⟩, ref, named, made⟩ := h
    obtain ⟨rfl, rfl⟩ := Prod.mk.inj made
    refine ⟨target, referred, found, lengths, known, ?_, modelErrors_typeFindings ..⟩
    rw [ref?_eq_ok named]

/-- what becomes of a constraint: a foreign key resolves or is an error and stays, and every other
constraint stays -/
inductive Settled (d : Dialect) (tables : List Draft) (t : Draft) (e : Placed) : Placed → Ledger → Prop where
  | plain (other : e.constraint.foreignKey? = none) : Settled d tables t e e {}
  | resolved {k k' : ForeignKey} {findings : Findings} (isKey : e.constraint = .foreignKey k)
      (found : t.resolve d tables e k = .ok (k', findings)) :
      Settled d tables t e { e with constraint := .foreignKey k' } { findings := findings }
  | failed {k : ForeignKey} {p : Problem} (isKey : e.constraint = .foreignKey k)
      (missing : t.resolve d tables e k = .error (.problem p)) :
      Settled d tables t e e
        { findings := [p.finding e.position e.source], errors := [p.finding e.position e.source] }

theorem settled_of_resolvePlaced {e e' : Placed} {found : Ledger}
    (h : t.resolvePlaced d tables e = .ok (e', found)) : Settled d tables t e e' found := by
  unfold resolvePlaced at h
  split at h
  · rename_i k isKey
    split at h
    · rename_i k' found resolved
      obtain ⟨rfl, rfl⟩ := Prod.mk.inj (Except.ok.inj h)
      exact .resolved isKey resolved
    · rename_i p missing
      obtain ⟨rfl, rfl⟩ := Prod.mk.inj (Except.ok.inj h)
      exact .failed isKey missing
    · simp at h
  · rename_i other
    obtain ⟨rfl, rfl⟩ := Prod.mk.inj (Except.ok.inj h)
    refine .plain ?_
    cases constraint : e.constraint with
    | foreignKey k => exact absurd constraint (other k)
    | _ => rfl

theorem Settled.retargeted {e e' : Placed} {found : Ledger} (h : Settled d tables t e e' found) :
    e.constraint.Retargeted e'.constraint := by
  cases h with
  | plain => exact .same _
  | resolved isKey found =>
    obtain ⟨_, _, -, -, -, rfl, -⟩ := resolve_eq_ok found
    rw [isKey]; exact .foreignKey rfl
  | failed => exact .same _

/-- what is found when a constraint is resolved is entered in both ledgers in step -/
theorem Settled.tallied {e e' : Placed} {found : Ledger} (h : Settled d tables t e e' found) : found.Tallied := by
  cases h with
  | plain => exact Ledger.tallied_empty
  | resolved _ made =>
    obtain ⟨_, _, -, -, -, -, quiet⟩ := resolve_eq_ok made
    exact Ledger.tallied_findings quiet
  | failed => exact Ledger.tallied_problem ..

/-- the errors recorded when a constraint is resolved -/
def keyErrors (d : Dialect) (tables : List Draft) (t : Draft) (e : Placed) : Findings :=
  match t.resolvePlaced d tables e with
  | .ok (_, found) => found.errors
  | .error _ => []

theorem keyErrors_eq {e e' : Placed} {found : Ledger} (h : t.resolvePlaced d tables e = .ok (e', found)) :
    t.keyErrors d tables e = found.errors := by
  rw [keyErrors, h]

/-- a table is resolved constraint by constraint -/
theorem resolveTable_eq_ok {t' : Draft} {found : Ledger} (h : t.resolveTable d tables = .ok (t', found)) :
    ∃ placed, List.Forall₂ (fun e r => t.resolvePlaced d tables e = .ok r) t.constraints placed ∧
      t' = { t with constraints := placed.map (·.1) } ∧
      found = { findings := placed.flatMap (·.2.findings), errors := placed.flatMap (·.2.errors) } := by
  simp only [resolveTable, bind_eq_ok_iff, pure_eq_ok_iff] at h
  obtain ⟨placed, run, made⟩ := h
  obtain ⟨rfl, rfl⟩ := Prod.mk.inj made
  exact ⟨placed, forall₂_of_mapM_eq_ok run, rfl, rfl⟩

theorem resolveTable_retargeted {t' : Draft} {found : Ledger} (h : t.resolveTable d tables = .ok (t', found)) :
    ∃ cs, List.Forall₂ Constraint.Retargeted t.toTable.constraints cs ∧
      t'.toTable = { t.toTable with constraints := cs } := by
  obtain ⟨placed, settled, rfl, -⟩ := resolveTable_eq_ok h
  refine ⟨placed.map (·.1.constraint), ?_, by simp [toTable]⟩
  simp only [toTable, List.forall₂_map_left_iff, List.forall₂_map_right_iff]
  exact settled.imp fun _ _ run => (settled_of_resolvePlaced run).retargeted

theorem tallied_of_resolveTable {t' : Draft} {found : Ledger} (h : t.resolveTable d tables = .ok (t', found)) :
    found.Tallied := by
  obtain ⟨placed, settled, -, rfl⟩ := resolveTable_eq_ok h
  refine Ledger.tallied_flatMap fun ⟨e', part⟩ hp => ?_
  obtain ⟨e, -, run⟩ := exists_of_mem_forall₂ settled hp
  exact (settled_of_resolvePlaced run).tallied

theorem errors_settled {es : List Placed} {placed : List (Placed × Ledger)}
    (settled : List.Forall₂ (fun e r => t.resolvePlaced d tables e = .ok r) es placed) :
    placed.flatMap (·.2.errors) = es.flatMap (t.keyErrors d tables) := by
  induction settled with
  | nil => rfl
  | cons first _ ih => rw [List.flatMap_cons, List.flatMap_cons, keyErrors_eq first, ih]

theorem errors_resolveTable {t' : Draft} {found : Ledger} (h : t.resolveTable d tables = .ok (t', found)) :
    found.errors = t.constraints.flatMap (t.keyErrors d tables) := by
  obtain ⟨placed, settled, -, rfl⟩ := resolveTable_eq_ok h
  exact errors_settled settled

theorem finish_eq_ok {table : Table} (h : t.finish = .ok table) : table = t.toTable := by
  unfold finish at h
  split_ifs at h
  exact (Except.ok.inj h).symm

end Draft

/-! ## The model -/

variable {d : Dialect} {statements : List Statement} {b : Built}

theorem modelErrors_primaryKeyFindings {t : Draft} {findings : Findings}
    (h : Workspace.primaryKeyFindings t = .ok findings) : findings.modelErrors = [] := by
  unfold Workspace.primaryKeyFindings at h
  split at h
  · rw [← Except.ok.inj h]; rfl
  · simp only [bind_eq_ok_iff, pure_eq_ok_iff] at h
    obtain ⟨_, -, rfl⟩ := h
    rfl

theorem modelErrors_cycleFinding {tables : List Draft} {members : List String} {findings : Findings}
    (h : cycleFinding tables members = .ok findings) : findings.modelErrors = [] := by
  unfold cycleFinding at h
  split at h
  · rw [← Except.ok.inj h]; rfl
  · simp only [bind_eq_ok_iff, pure_eq_ok_iff] at h
    obtain ⟨_, -, rfl⟩ := h
    rfl

theorem modelErrors_flatten {parts : List Findings} (each : ∀ fs ∈ parts, fs.modelErrors = []) :
    Findings.modelErrors parts.flatten = [] := by
  unfold Findings.modelErrors
  rw [List.filter_eq_nil_iff]
  intro f hf
  obtain ⟨fs, hfs, hmem⟩ := List.mem_flatten.1 hf
  exact List.filter_eq_nil_iff.1 (each fs hfs) f hmem

/-- what is reported about the finished tables is no error -/
theorem modelErrors_finalFindings {tables : List Draft} {findings : Findings}
    (h : Workspace.finalFindings d tables = .ok findings) : findings.modelErrors = [] := by
  simp only [Workspace.finalFindings, bind_eq_ok_iff, pure_eq_ok_iff] at h
  obtain ⟨keys, keysMade, circles, circlesMade, rfl⟩ := h
  have noKeys : Findings.modelErrors keys.flatten = [] := modelErrors_flatten fun fs hfs => by
    obtain ⟨t, -, made⟩ := exists_of_mem_mapM keysMade hfs
    exact modelErrors_primaryKeyFindings made
  have noCircles : Findings.modelErrors circles.flatten = [] := modelErrors_flatten fun fs hfs => by
    obtain ⟨members, -, made⟩ := exists_of_mem_mapM circlesMade hfs
    exact modelErrors_cycleFinding made
  exact (List.filter_append ..).trans (by rw [← Findings.modelErrors, ← Findings.modelErrors, noKeys, noCircles]; rfl)

/-- where the ledgers were in step, they are so when all foreign keys are resolved -/
theorem Workspace.tallied_of_resolveAll {w w' : Workspace} (h : w.ledger.Tallied) (run : w.resolveAll d = .ok w') :
    w'.ledger.Tallied := by
  simp only [resolveAll, bind_eq_ok_iff, pure_eq_ok_iff] at run
  obtain ⟨resolved, run, rfl⟩ := run
  refine h.append (Ledger.tallied_flatMap fun part hp => ?_)
  obtain ⟨t, -, done⟩ := exists_of_mem_mapM run hp
  exact Draft.tallied_of_resolveTable done

/-- a model of all tables holds the tables as resolved, and the errors of the statements before those of
the foreign keys -/
theorem buildModel_eq_ok (built : buildModel d none statements = .ok b) :
    ∃ w resolved, Workspace.applyAll d statements = .ok w ∧
      List.Forall₂ (fun t r => t.resolveTable d w.tables = .ok r) w.tables resolved ∧
      b.model.tables = resolved.map (·.1.toTable) ∧
      b.model.errors = w.findings.modelErrors ++ resolved.flatMap (·.2.errors) := by
  simp only [buildModel, bind_eq_ok_iff, pure_eq_ok_iff] at built
  obtain ⟨w, applied, r, resolution, final, -, tables, finished, rfl⟩ := built
  simp only [Workspace.resolveAll, bind_eq_ok_iff, pure_eq_ok_iff] at resolution
  obtain ⟨resolved, run, rfl⟩ := resolution
  refine ⟨w, resolved, applied, forall₂_of_mapM_eq_ok run, ?_, ?_⟩
  · have same := map_eq_map_of_forall₂ (g := id)
      ((forall₂_of_mapM_eq_ok finished).imp fun t table done => (Draft.finish_eq_ok done).symm)
    rw [List.map_id, List.map_map] at same
    exact same.symm
  · rw [← Workspace.tallied_of_applyAll applied]

/-- the errors of resolved tables are those of their constraints, in order -/
theorem errors_resolved {tables ts : List Draft} {resolved : List (Draft × Ledger)}
    (run : List.Forall₂ (fun t r => t.resolveTable d tables = .ok r) ts resolved) :
    resolved.flatMap (·.2.errors) = ts.flatMap fun t => t.constraints.flatMap (t.keyErrors d tables) := by
  induction run with
  | nil => rfl
  | cons first _ ih => rw [List.flatMap_cons, List.flatMap_cons, ← Draft.errors_resolveTable first, ih]

/-- the tables of a model are well-formed where those of the statements are -/
theorem wellFormedTables_resolved {w : Workspace} {resolved : List (Draft × Ledger)} (h : w.WellFormed d)
    (run : List.Forall₂ (fun t r => t.resolveTable d w.tables = .ok r) w.tables resolved) :
    WellFormedTables d (resolved.map (·.1.toTable)) where
  each table ht := by
    obtain ⟨r, hr, rfl⟩ := List.mem_map.1 ht
    obtain ⟨t, ht, done⟩ := exists_of_mem_forall₂ run hr
    obtain ⟨cs, alike, same⟩ := Draft.resolveTable_retargeted done
    rw [same]; exact (h.draft ht).retarget alike
  keys := by
    have same : w.tables.map (·.key) = resolved.map (·.1.key) :=
      map_eq_map_of_forall₂ (run.imp fun t r done => by
        obtain ⟨_, -, made, -⟩ := Draft.resolveTable_eq_ok done
        rw [made])
    have keys := h.distinctKeys
    rw [same] at keys
    rwa [List.map_map]

/-- Tables are well-formed after any number of statements, and no two of them have the same name and
schema. The same holds of the model. -/
theorem tables_wellFormed (clear : Workspace.Unambiguous d statements) :
    (∀ n w, Workspace.afterDeclarations d statements n = .ok w →
      w.WellFormed d ∧ (w.tables.map (·.toTable.ref)).Nodup) ∧
    (∀ n w, Workspace.afterChanges d statements n = .ok w →
      w.WellFormed d ∧ (w.tables.map (·.toTable.ref)).Nodup) ∧
    ∀ b, buildModel d none statements = .ok b →
      WellFormedTables d b.model.tables ∧ (b.model.tables.map (·.ref)).Nodup := by
  have refs : ∀ w : Workspace, w.WellFormed d → w.WellFormed d ∧ (w.tables.map (·.toTable.ref)).Nodup := by
    intro w h
    have distinct := WellFormedTables.refs h
    rw [List.map_map] at distinct
    exact ⟨h, distinct⟩
  refine ⟨fun n w run => refs w (Workspace.afterDeclarations_wellFormed clear run),
    fun n w run => refs w (Workspace.afterChanges_wellFormed clear run), fun b built => ?_⟩
  obtain ⟨w, resolved, applied, run, tables, -⟩ := buildModel_eq_ok built
  have sound := wellFormedTables_resolved (Workspace.applyAll_wellFormed clear applied) run
  rw [tables]; exact ⟨sound, sound.refs⟩

/-- a table, a table that refers to it in another spelling, and a column of both renamed -/
def authorsAndBooks : List Statement := [
  ⟨.createTable
    { name := ⟨"author", none⟩
      columns := [{ name := "no", type := none, position := ⟨1, 1, 0⟩ }]
      constraints := [.primaryKey ["NO"] none ⟨1, 1, 0⟩] }, ⟨1, 1, 0⟩, none⟩,
  ⟨.createTable
    { name := ⟨"book", none⟩
      columns := [{ name := "writer", type := none, position := ⟨2, 1, 0⟩ }]
      constraints := [.foreignKey ["Writer"] { table := ⟨"AUTHOR", none⟩, columns := ["No"] } none ⟨2, 1, 0⟩] },
    ⟨2, 1, 0⟩, none⟩,
  ⟨.alterTable { name := ⟨"Author", none⟩, actions := [.renameColumn "No" "id"] }, ⟨3, 1, 0⟩, none⟩,
  ⟨.alterTable { name := ⟨"book", none⟩, actions := [.renameColumn "WRITER" "author"] }, ⟨4, 1, 0⟩, none⟩]

theorem unambiguous_authorsAndBooks : Workspace.Unambiguous .sqlite authorsAndBooks where
  qualified := by
    simp [authorsAndBooks]
  replaces := by
    simp [authorsAndBooks, Workspace.replacesColumn]

theorem tables_wellFormed_authorsAndBooks : ∃ b, buildModel .sqlite none authorsAndBooks = .ok b ∧
    b.model.tables.map (·.columnNames) = [["id"], ["author"]] ∧ WellFormedTables .sqlite b.model.tables := by
  have names : ((buildModel .sqlite none authorsAndBooks).toOption.map (·.model.tables.map (·.columnNames))) =
      some [["id"], ["author"]] := by decide +kernel
  obtain ⟨b, built, same⟩ := Option.map_eq_some_iff.1 names
  have built := toOption_eq_some_iff.1 built
  exact ⟨b, built, same, ((tables_wellFormed unambiguous_authorsAndBooks).2.2 b built).1⟩

end SchemaApi
