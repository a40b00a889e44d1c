import SchemaApi.Proofs.Schema.Resolution
import SchemaApi.Proofs.Schema.Step
/-!
What is found when a model is built.

Every finding is of the model stage, and one that is an error is what a problem is reported as: a statement that
cannot be applied, or a foreign key that does not resolve. The errors of a model are taken from a ledger of their own.
Nothing behind the last foreign key is entered there, and nothing found there is an error: neither a table without a key,
nor a circle, nor what is left out by the name of a schema. So the errors of a model are the errors among all that was
found (`findings_of_buildModel`).
-/

namespace SchemaApi

/-- the finding is about a model, and an error only where there is a problem -/
structure Finding.OfModel (f : Finding) : Prop where
  stage : f.stage = .model
  problem : f.isError = true → ∃ (p : Problem) (position : Position) (source : Option String),
    f = p.finding position source

theorem Problem.finding_ofModel (p : Problem) (position : Position) (source : Option String) :
    (p.finding position source).OfModel :=
  ⟨rfl, fun _ => ⟨p, position, source, rfl⟩⟩

/-- a finding about a model that is no error -/
theorem Finding.about_ofModel {severity : Severity} (noError : severity ≠ .error) (code message : String)
    (source : Option String) (position : Option Position) :
    (Finding.about severity .model code message source position).OfModel :=
  ⟨rfl, fun error => absurd (beq_iff_eq.1 error) noError⟩

/-- all findings are about a model -/
def Findings.OfModel (fs : Findings) : Prop := ∀ f ∈ fs, f.OfModel

namespace Findings

theorem ofModel_nil : OfModel [] := fun _ none => absurd none List.not_mem_nil

theorem ofModel_append {fs gs : Findings} (h : OfModel fs) (h' : OfModel gs) : OfModel (fs ++ gs) :=
  fun f hf => (List.mem_append.1 hf).elim (h f) (h' f)

theorem ofModel_singleton {f : Finding} (h : f.OfModel) : OfModel [f] :=
  fun _ hf => List.mem_singleton.1 hf ▸ h

theorem ofModel_flatMap {α : Type} {l : List α} {g : α → Findings} (each : ∀ a ∈ l, OfModel (g a)) :
    OfModel (l.flatMap g) := by
  intro f hf
  obtain ⟨a, ha, hf⟩ := List.mem_flatMap.1 hf
  exact each a ha f hf

end Findings

variable {d : Dialect}

/-! ## Statements -/

theorem Workspace.ofModel_step {w w' : Workspace} (step : w.Step d w') (h : w.findings.OfModel) :
    w'.findings.OfModel := by
  cases step with
  | tables | create | declare => exact h
  | report f stage noError =>
    refine Findings.ofModel_append h (Findings.ofModel_singleton ⟨stage, fun error => ?_⟩)
    exact absurd error (by rw [noError]; exact Bool.false_ne_true)
  | record p position source =>
    exact Findings.ofModel_append h (Findings.ofModel_singleton (p.finding_ofModel position source))

theorem Workspace.ofModel_applyAll {statements : List Statement} {w : Workspace}
    (run : applyAll d statements = .ok w) : w.findings.OfModel := by
  have steps := steps_applyAll run
  clear run
  induction steps with
  | refl => exact Findings.ofModel_nil
  | tail _ step ih => exact ofModel_step step ih

/-! ## Foreign keys and finished tables -/

namespace Draft

variable {tables : List Draft} {t t' : Draft}

theorem ofModel_typeFindings (target : Draft) (what label : String) (e : Placed) (pairs : List (String × String)) :
    (t.typeFindings d target what label e pairs).OfModel := by
  intro f hf
  obtain ⟨⟨own, other⟩, -, made⟩ := List.mem_filterMap.1 hf
  simp only at made
  split at made
  · split_ifs at made
    rw [← Option.some.inj made]
    exact Finding.about_ofModel (by decide) ..
  · simp at made

theorem ofModel_resolve {e : Placed} {k k' : ForeignKey} {findings : Findings}
    (h : t.resolve d tables e k = .ok (k', findings)) : findings.OfModel := by
  simp only [resolve, bind_eq_ok_iff] at h
  obtain ⟨label, -, h⟩ := h
  split at h
  · simp [throw_eq_ok_iff] at h
  · simp only [bind_eq_ok_iff, pure_eq_ok_iff] at h
    obtain ⟨referred, -, _, -, ref, -, made⟩ := h
    obtain ⟨-, rfl⟩ := Prod.mk.inj made
    exact ofModel_typeFindings _ _ _ e _

theorem ofModel_resolveTable {found : Ledger} (h : t.resolveTable d tables = .ok (t', found)) :
    found.findings.OfModel := by
  obtain ⟨placed, settled, -, rfl⟩ := resolveTable_eq_ok h
  refine Findings.ofModel_flatMap fun ⟨e', part⟩ hr => ?_
  obtain ⟨e, -, run⟩ := exists_of_mem_forall₂ settled hr
  cases settled_of_resolvePlaced run with
  | plain => exact Findings.ofModel_nil
  | resolved _ found => exact ofModel_resolve found
  | failed => exact Findings.ofModel_singleton (Problem.finding_ofModel ..)

end Draft

theorem ofModel_primaryKeyFindings {t : Draft} {findings : Findings}
    (h : Workspace.primaryKeyFindings t = .ok findings) : findings.OfModel := by
  unfold Workspace.primaryKeyFindings at h
  split at h
  · rw [← Except.ok.inj h]; exact Findings.ofModel_nil
  · simp only [bind_eq_ok_iff, pure_eq_ok_iff] at h
    obtain ⟨_, -, rfl⟩ := h
    exact Findings.ofModel_singleton (Finding.about_ofModel (by decide) ..)

theorem ofModel_cycleFinding {tables : List Draft} {members : List String} {findings : Findings}
    (h : cycleFinding tables members = .ok findings) : findings.OfModel := by
  unfold cycleFinding at h
  split at h
  · rw [← Except.ok.inj h]; exact Findings.ofModel_nil
  · simp only [bind_eq_ok_iff, pure_eq_ok_iff] at h
    obtain ⟨_, -, rfl⟩ := h
    exact Findings.ofModel_singleton (Finding.about_ofModel (by decide) ..)

theorem ofModel_finalFindings {tables : List Draft} {findings : Findings}
    (h : Workspace.finalFindings d tables = .ok findings) : findings.OfModel := by
  simp only [Workspace.finalFindings, bind_eq_ok_iff, pure_eq_ok_iff] at h
  obtain ⟨keys, keysMade, circles, circlesMade, rfl⟩ := h
  intro f hf
  simp only [List.mem_append, List.mem_flatten] at hf
  rcases hf with ⟨fs, hfs, hf⟩ | ⟨fs, hfs, hf⟩
  · obtain ⟨t, -, made⟩ := exists_of_mem_mapM keysMade hfs
    exact ofModel_primaryKeyFindings made f hf
  · obtain ⟨members, -, made⟩ := exists_of_mem_mapM circlesMade hfs
    exact ofModel_cycleFinding made f hf

/-! ## Models -/

/-- the warnings about foreign keys that leave a schema -/
theorem severity_of_mem_restrictTables {wanted : String} {tables : List Table} {f : Finding}
    (h : f ∈ (restrictTables d wanted tables).2) : f.severity = .warning ∧ f.OfModel := by
  obtain ⟨t, -, hf⟩ := List.mem_flatMap.1 h
  obtain ⟨k, -, rfl⟩ := List.mem_map.1 hf
  exact ⟨rfl, Finding.about_ofModel (by decide) ..⟩

theorem Workspace.ofModel_resolveAll {w w' : Workspace} (h : w.findings.OfModel) (run : w.resolveAll d = .ok w') :
    w'.findings.OfModel := by
  simp only [resolveAll, bind_eq_ok_iff, pure_eq_ok_iff] at run
  obtain ⟨resolved, run, rfl⟩ := run
  refine Findings.ofModel_append h (Findings.ofModel_flatMap fun part hp => ?_)
  obtain ⟨t, -, done⟩ := exists_of_mem_mapM run hp
  exact Draft.ofModel_resolveTable done

/-- Whatever is found when a model is built is about the model. The errors among it are what was recorded, in the order
of the recording: they are the errors of the model. -/
theorem findings_of_buildModel {schemaFilter : Option String} {statements : List Statement} {b : Built}
    (built : buildModel d schemaFilter statements = .ok b) :
    b.findings.OfModel ∧ b.findings.modelErrors = b.model.errors := by
  simp only [buildModel, bind_eq_ok_iff, pure_eq_ok_iff] at built
  obtain ⟨w, applied, w', resolved, final, finals, tables, -, rfl⟩ := built
  have made := Findings.ofModel_append (Workspace.ofModel_resolveAll (Workspace.ofModel_applyAll applied) resolved)
    (ofModel_finalFindings finals)
  -- both ledgers are in step after the last foreign key, and what is found in finished tables is no error
  have tallied : w'.errors = w'.findings.modelErrors :=
    Workspace.tallied_of_resolveAll (Workspace.tallied_of_applyAll applied) resolved
  have whole : (w'.findings ++ final).modelErrors = w'.errors := by
    calc (w'.findings ++ final).modelErrors = w'.findings.modelErrors ++ final.modelErrors := List.filter_append ..
      _ = w'.errors := by rw [modelErrors_finalFindings finals, List.append_nil, tallied]
  cases schemaFilter with
  | none =>
    simp only [List.append_nil]
    exact ⟨made, whole⟩
  | some wanted =>
    refine ⟨Findings.ofModel_append made fun f hf => (severity_of_mem_restrictTables hf).2, ?_⟩
    have leaving : Findings.modelErrors (restrictTables d wanted tables).2 = [] := by
      refine List.filter_eq_nil_iff.2 fun f hf => ?_
      simp [Finding.isModelError, Finding.isError, (severity_of_mem_restrictTables hf).1]
    calc Findings.modelErrors (w'.findings ++ final ++ (restrictTables d wanted tables).2)
        = (w'.findings ++ final).modelErrors ++ Findings.modelErrors (restrictTables d wanted tables).2 :=
          List.filter_append ..
      _ = w'.errors := by rw [whole, leaving, List.append_nil]

end SchemaApi
