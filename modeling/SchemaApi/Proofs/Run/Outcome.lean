import SchemaApi.CommandLine.Execution
import SchemaApi.Proofs.Reading.Report
import SchemaApi.Proofs.Schema.Report
/-!
How a run ends.

All stages report to one list of findings. Each stage reports under its own name: what is found in a script is of
the lex and parse stages, what is found in a model of the model stage, and inference only warns. So the errors of
the model stage are exactly those that the model keeps for itself, and what a run is said to have come to depends on
nothing but which stages found an error.
-/

namespace SchemaApi

/-! ## Inference -/

namespace Api

/-- all findings are warnings -/
def OnlyWarnings (fs : Findings) : Prop := ∀ f ∈ fs, f.severity = .warning

theorem OnlyWarnings.append {fs gs : Findings} (h : OnlyWarnings fs) (h' : OnlyWarnings gs) : OnlyWarnings (fs ++ gs) :=
  fun f hf => (List.mem_append.1 hf).elim (h f) (h' f)

theorem OnlyWarnings.add {fs : Findings} (h : OnlyWarnings fs) {f : Finding} (warns : f.severity = .warning) :
    OnlyWarnings (fs ++ [f]) :=
  h.append fun _ hf => List.mem_singleton.1 hf ▸ warns

theorem onlyWarnings_nil : OnlyWarnings [] := fun _ none => absurd none List.not_mem_nil

theorem resourceNames_onlyWarnings (strategy : NamingStrategy) (tables : List Table) :
    OnlyWarnings (resourceNames strategy tables).findings := by
  unfold resourceNames
  refine List.foldlRecOn (motive := fun state : NamesSoFar => OnlyWarnings state.findings) _ _
    onlyWarnings_nil ?_
  intro state before item _
  simp only [nameTable]
  split_ifs
  · exact before
  · exact before.add rfl

theorem bindings_onlyWarnings (m : Model) (mode : RelationshipMode) (names : List (TableRef × String)) :
    OnlyWarnings (bindings m mode names).findings := by
  unfold bindings
  refine List.foldlRecOn (motive := fun state : BindingsSoFar => OnlyWarnings state.findings) _ _
    onlyWarnings_nil ?_
  intro state before r _
  unfold bindRelationship
  split
  · exact before
  · exact before.add rfl
  · exact before.add rfl

theorem conditionRules_onlyWarnings {d : Dialect} {columns : List String} {expression : String}
    {column table : Option String} {answer : ConditionRules}
    (h : conditionRules d columns expression column table = .ok answer) : OnlyWarnings answer.warning.toList := by
  unfold conditionRules at h
  split at h
  · rw [← Except.ok.inj h]
    exact onlyWarnings_nil
  · contradiction
  · rw [← Except.ok.inj h]
    exact fun f hf => List.mem_singleton.1 hf ▸ rfl

theorem validationRules_onlyWarnings {d : Dialect} {t : Table} {rules : List ValidationRule} {findings : Findings}
    (h : validationRules d t = .ok (rules, findings)) : OnlyWarnings findings := by
  simp only [validationRules, bind_eq_ok_iff, pure_eq_ok_iff] at h
  obtain ⟨checks, made, h⟩ := h
  obtain ⟨-, rfl⟩ := Prod.mk.inj h
  intro f hf
  obtain ⟨answer, ha, warning⟩ := List.mem_filterMap.1 hf
  obtain ⟨_, -, run⟩ := exists_of_mem_mapM made ha
  exact conditionRules_onlyWarnings run f (Option.mem_toList.2 warning)

theorem resource_onlyWarnings {s : Settings} {d : Dialect} {names : List (TableRef × String)}
    {bound : List (TableRef × Binding)} {t : Table} {r : Resource} {findings : Findings}
    (h : resource s d names bound t = .ok (r, findings)) : OnlyWarnings findings := by
  unfold resource at h
  simp only [bind_eq_ok_iff] at h
  obtain ⟨parameters, -, ⟨rules, warnings⟩, made, h⟩ := h
  by_cases nameless : (nameOf? names t.ref).getD "" = ""
  · simp only [nameless, if_true, bind_eq_ok_iff, throw_eq_ok_iff, false_and, exists_false] at h
  · simp only [if_neg nameless] at h
    obtain ⟨-, rfl⟩ := Prod.mk.inj (pure_eq_ok_iff.1 h)
    have before := validationRules_onlyWarnings made
    split_ifs
    · exact List.forall_mem_cons.2 ⟨rfl, before⟩
    · exact before

/-- deriving an interface reports warnings only -/
theorem infer_onlyWarnings {s : Settings} {m : Model} {description : Description} {findings : Findings}
    (h : infer s m = .ok (description, findings)) : OnlyWarnings findings := by
  unfold infer at h
  split_ifs at h
  split at h
  · rename_i rs found derived
    obtain ⟨-, rfl⟩ := Prod.mk.inj (Except.ok.inj h)
    simp only [resources, bind_eq_ok_iff, pure_eq_ok_iff] at derived
    obtain ⟨built, made, derived⟩ := derived
    obtain ⟨-, rfl⟩ := Prod.mk.inj derived
    refine .append (.append (resourceNames_onlyWarnings _ _) (bindings_onlyWarnings _ _ _)) fun f hf => ?_
    obtain ⟨⟨r, own⟩, hr, hf⟩ := List.mem_flatMap.1 hf
    obtain ⟨t, -, run⟩ := exists_of_mem_mapM made hr
    exact resource_onlyWarnings run f hf
  · contradiction

end Api

namespace Run

variable {s : Settings} {d : Dialect} {found : Findings} {sources : List (String × String)} {r : Run}

/-! ## Scripts -/

theorem readSource_findings {state state' : Statements} {source : String × String}
    (h : readSource d state source = .ok state') :
    ∀ f ∈ state'.findings, f ∈ state.findings ∨ f.stage = .lex ∨ f.stage = .parse := by
  obtain ⟨name, text⟩ := source
  have parsed : ∀ f ∈ (parseScript d (some name) text).findings, f.stage = .parse := fun _ => stage_of_mem_parseScript
  simp only [readSource] at h
  intro f hf
  split at h
  · rw [← Except.ok.inj h] at hf
    exact (List.mem_append.1 hf).imp id fun here => Or.inr (parsed f here)
  · contradiction
  · rw [← Except.ok.inj h] at hf
    rcases List.mem_append.1 hf with before | broken
    · exact (List.mem_append.1 before).imp id fun here => Or.inr (parsed f here)
    · exact Or.inr (Or.inl (List.mem_singleton.1 broken ▸ rfl))

/-- what is found in scripts is of the stages that split and parse them -/
theorem readSources_findings {state : Statements} (h : readSources d found sources = .ok state) :
    ∀ f ∈ state.findings, f ∈ found ∨ f.stage = .lex ∨ f.stage = .parse := by
  refine foldlM_keeps (P := fun state => ∀ f ∈ state.findings, f ∈ found ∨ f.stage = .lex ∨ f.stage = .parse)
    (fun source _ before after kept read f hf => ?_) (fun f hf => Or.inl hf) h
  exact (readSource_findings read f hf).elim (kept f) Or.inr

/-! ## The outcome -/

/-- an error of a stage was found -/
def HasError (r : Run) (stage : Stage) : Prop := ∃ f ∈ r.findings, f.isError = true ∧ f.stage = stage

instance (stage : Stage) : Decidable (r.HasError stage) :=
  inferInstanceAs (Decidable (∃ f ∈ r.findings, f.isError = true ∧ f.stage = stage))

theorem any_isInputError : r.findings.any isInputError = true ↔ r.HasError .input := by
  simp [HasError, isInputError]

theorem any_isSyntaxError : r.findings.any isSyntaxError = true ↔ r.HasError .lex ∨ r.HasError .parse := by
  simp only [HasError, isSyntaxError, List.any_eq_true, Bool.and_eq_true, Bool.or_eq_true, beq_iff_eq]
  constructor
  · rintro ⟨f, hf, error, lexed | parsed⟩
    · exact Or.inl ⟨f, hf, error, lexed⟩
    · exact Or.inr ⟨f, hf, error, parsed⟩
  · rintro (⟨f, hf, error, lexed⟩ | ⟨f, hf, error, parsed⟩)
    · exact ⟨f, hf, error, Or.inl lexed⟩
    · exact ⟨f, hf, error, Or.inr parsed⟩

theorem modelErrors_ne_nil : r.findings.modelErrors ≠ [] ↔ r.HasError .model := by
  simp [HasError, Findings.modelErrors, List.filter_eq_nil_iff, Finding.isModelError]

/-- there is a description, or the model has errors -/
theorem describe_eq_ok {m : Model} {description : Option Description} {inferred : Findings}
    (h : describe s m = .ok (description, inferred)) :
    (description = none ↔ m.errors ≠ []) ∧ Api.OnlyWarnings inferred := by
  have valid : m.isValid = true ↔ m.errors = [] := List.isEmpty_iff
  unfold describe at h
  split at h
  · rename_i given findings made
    obtain ⟨rfl, rfl⟩ := Prod.mk.inj (Except.ok.inj h)
    refine ⟨?_, Api.infer_onlyWarnings made⟩
    have usable : m.isValid = true := by
      by_contra invalid
      rw [Api.infer, if_neg invalid] at made
      contradiction
    simp [valid.1 usable]
  · contradiction
  · rename_i errors made
    obtain ⟨rfl, rfl⟩ := Prod.mk.inj (Except.ok.inj h)
    refine ⟨?_, Api.onlyWarnings_nil⟩
    have broken : ¬ m.isValid = true := by
      intro usable
      rw [Api.infer, if_pos usable] at made
      split at made <;> simp at made
    simpa using fun none => broken (valid.2 none)

/-- what a run consists of: the errors of the model stage are those of the model, every other error is older or one of
the scripts, and there is a description where the model has no errors -/
theorem runScripts_eq_ok (before : ∀ f ∈ found, f.isError = true → f.stage = .input)
    (run : runScripts s found sources = .ok r) :
    r.findings.modelErrors = r.model.errors ∧
      (∀ f ∈ r.findings, f.isError = true → f.stage = .input ∨ f.stage = .lex ∨ f.stage = .parse ∨ f.stage = .model) ∧
      (∀ f ∈ r.model.errors, ∃ (p : Problem) (position : Position) (source : Option String),
        f = p.finding position source) ∧
      (r.description = none ↔ r.model.errors ≠ []) := by
  simp only [runScripts, bind_eq_ok_iff, pure_eq_ok_iff] at run
  obtain ⟨state, read, b, built, ⟨description, inferred⟩, described, rfl⟩ := run
  obtain ⟨ofModel, errors⟩ := findings_of_buildModel built
  obtain ⟨missing, warnings⟩ := describe_eq_ok described
  have scripts : ∀ f ∈ state.findings, f.isError = true → f.stage = .input ∨ f.stage = .lex ∨ f.stage = .parse :=
    fun f hf error => (readSources_findings read f hf).imp (fun old => before f old error) id
  have noWarning : ∀ f ∈ inferred, f.isError = false := fun f hf => by rw [Finding.isError, warnings f hf]; rfl
  refine ⟨?_, ?_, ?_, missing⟩
  · have fromScripts : state.findings.filter Finding.isModelError = [] := by
      refine List.filter_eq_nil_iff.2 fun f hf isModel => ?_
      obtain ⟨error, stage⟩ := Bool.and_eq_true_iff.1 isModel
      have stage := beq_iff_eq.1 stage
      rcases scripts f hf error with input | lexed | parsed <;> simp_all
    have fromInference : inferred.filter Finding.isModelError = [] :=
      List.filter_eq_nil_iff.2 fun f hf => by simp [Finding.isModelError, noWarning f hf]
    rw [← errors]
    simp only [Findings.modelErrors, List.filter_append, fromScripts, fromInference, List.nil_append, List.append_nil]
  · intro f hf error
    rcases List.mem_append.1 hf with hf | hf
    · rcases List.mem_append.1 hf with hf | hf
      · rcases scripts f hf error with input | lexed | parsed
        · exact Or.inl input
        · exact Or.inr (Or.inl lexed)
        · exact Or.inr (Or.inr (Or.inl parsed))
      · exact Or.inr (Or.inr (Or.inr (ofModel f hf).stage))
    · exact absurd error (by rw [noWarning f hf]; exact Bool.false_ne_true)
  · intro f hf
    rw [← errors] at hf
    obtain ⟨hf, isModel⟩ := List.mem_filter.1 hf
    exact (ofModel f hf).problem (Bool.and_eq_true_iff.1 isModel).1

/-- The errors that the model stage reported are, in their order, the errors of the model, each of them a problem. The
description is missing exactly if there is one of them; a run is a success exactly if its exit status is 0; and that is
4, 2 or 1 by the first of the stages to have found an error. -/
theorem runScripts_outcome (before : ∀ f ∈ found, f.isError = true → f.stage = .input)
    (run : runScripts s found sources = .ok r) :
    r.findings.modelErrors = r.model.errors ∧
      (∀ f ∈ r.model.errors, ∃ (p : Problem) (position : Position) (source : Option String),
        f = p.finding position source) ∧
      (r.description = none ↔ r.HasError .model) ∧
      (r.success = true ↔ r.exitStatus false = 0) ∧
      r.exitStatus false =
        if r.HasError .input then 4
        else if r.HasError .lex ∨ r.HasError .parse then 2
        else if r.HasError .model then 1
        else 0 := by
  obtain ⟨errors, stages, problems, missing⟩ := runScripts_eq_ok before run
  rw [← errors, modelErrors_ne_nil] at missing
  have valid : r.model.isValid = true ↔ ¬ r.HasError .model := by
    rw [← modelErrors_ne_nil, errors, not_not]
    exact List.isEmpty_iff
  have any : Findings.hasErrors r.findings = true ↔
      r.HasError .input ∨ r.HasError .lex ∨ r.HasError .parse ∨ r.HasError .model := by
    rw [Findings.hasErrors, List.any_eq_true]
    constructor
    · rintro ⟨f, hf, error⟩
      rcases stages f hf error with stage | stage | stage | stage
      · exact Or.inl ⟨f, hf, error, stage⟩
      · exact Or.inr (Or.inl ⟨f, hf, error, stage⟩)
      · exact Or.inr (Or.inr (Or.inl ⟨f, hf, error, stage⟩))
      · exact Or.inr (Or.inr (Or.inr ⟨f, hf, error, stage⟩))
    · rintro (⟨f, hf, error, -⟩ | ⟨f, hf, error, -⟩ | ⟨f, hf, error, -⟩ | ⟨f, hf, error, -⟩)
      all_goals exact ⟨f, hf, error⟩
  have status : r.exitStatus false =
      if r.HasError .input then 4
      else if r.HasError .lex ∨ r.HasError .parse then 2
      else if r.HasError .model then 1
      else 0 := by
    simp only [exitStatus, any_isInputError, any_isSyntaxError, Bool.or_eq_true, any, Bool.not_eq_true', Bool.false_and,
      Bool.false_eq_true, if_false, ← Bool.not_eq_true, valid, not_not]
    split_ifs <;> simp_all
  have clean : r.exitStatus false = 0 ↔
      ¬ (r.HasError .input ∨ r.HasError .lex ∨ r.HasError .parse ∨ r.HasError .model) := by
    rw [status]
    split_ifs <;> grind
  refine ⟨errors, problems, missing, ?_, status⟩
  rw [clean, success, Bool.and_eq_true, Bool.not_eq_true', ← Bool.not_eq_true, any, Option.isSome_iff_ne_none, ne_eq,
    missing]
  exact ⟨fun h => h.1, fun none => ⟨none, fun one => none (Or.inr (Or.inr (Or.inr one)))⟩⟩

/-- a script whose foreign key refers to nothing: one problem, no description, and the exit status of an invalid
model -/
theorem runScripts_outcome_ownerless : ∃ r,
    runScripts .defaults []
      [("pets.sql", "CREATE TABLE pet (id INT PRIMARY KEY, owner INT REFERENCES owner)")] = .ok r ∧
      r.findings.modelErrors.map (·.code) = ["UNKNOWN_REFERENCED_TABLE"] ∧ r.description = none ∧
      r.success = false ∧ r.exitStatus false = 1 := by
  have ends : ((runScripts .defaults []
      [("pets.sql", "CREATE TABLE pet (id INT PRIMARY KEY, owner INT REFERENCES owner)")]).toOption.map fun r =>
        (r.model.errors.map (·.code), r.exitStatus false)) = some (["UNKNOWN_REFERENCED_TABLE"], 1) := by decide +kernel
  obtain ⟨r, run, same⟩ := Option.map_eq_some_iff.1 ends
  obtain ⟨codes, status⟩ := Prod.mk.inj same
  have run := toOption_eq_some_iff.1 run
  obtain ⟨errors, -, missing, success, -⟩ :=
    runScripts_outcome (fun _ none => absurd none List.not_mem_nil) run
  refine ⟨r, run, errors ▸ codes, missing.2 (modelErrors_ne_nil.1 fun none => ?_), ?_, status⟩
  · rw [← errors, none] at codes
    simp at codes
  · rw [Bool.eq_false_iff, Ne, success, status]
    exact Nat.one_ne_zero

end Run

/-! ## Command lines -/

namespace CommandLine

/-- what is found when scripts are fetched is that one of them cannot be read, so a command line starts a run with
errors of the input stage only -/
theorem stage_of_mem_fetch {read : Path → Reading} {stdin : String} {inputs : List String} {f : Finding}
    (h : f ∈ (fetch read stdin inputs).findings) : f.stage = .input := by
  have add : ∀ fs : Findings, (∀ f ∈ fs, f.stage = .input) → ∀ source,
      ∀ f ∈ fs ++ [unreadable source], f.stage = .input :=
    fun fs before source f hf => (List.mem_append.1 hf).elim (before f) fun new => List.mem_singleton.1 new ▸ rfl
  unfold fetch at h
  split_ifs at h
  · refine List.foldlRecOn (motive := fun state : Fetched × String => ∀ f ∈ state.1.findings, f.stage = .input)
      inputs _ (fun _ none => absurd none List.not_mem_nil) ?_ f h
    intro state before name _
    simp only [fetchInput]
    split_ifs
    · exact before
    · split
      · exact before
      · exact add _ before name
  · refine List.foldlRecOn (motive := fun state : Fetched => ∀ f ∈ state.findings, f.stage = .input)
      inputs _ (fun _ none => absurd none List.not_mem_nil) ?_ f h
    intro state before name _
    simp only [fetchFile]
    split
    · exact before
    · exact add _ before _

end CommandLine

end SchemaApi
