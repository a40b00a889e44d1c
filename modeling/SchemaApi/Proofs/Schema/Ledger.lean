import SchemaApi.Proofs.Schema.Edit
/-!
The two ledgers of a schema.

A problem is entered twice: among the findings, where warnings and notes stand beside it, and in the ledger of errors,
which becomes the errors of the model. Whatever is less than an error is entered among the findings only. So at every
time the errors are the findings that are errors of a model, in the same order (`Ledger.Tallied`). Each edit of a schema
keeps the ledgers in step (`Edit.tallied`), and by induction so does every run of statements (`tallied_of_applyAll`).
-/

namespace SchemaApi

/-- an error of the model is made of a problem -/
theorem Problem.isModelError_finding (p : Problem) (position : Position) (source : Option String) :
    (p.finding position source).isModelError = true := rfl

namespace Ledger

/-- the errors are the findings that are errors of a model, in the same order -/
def Tallied (l : Ledger) : Prop := l.errors = l.findings.modelErrors

theorem tallied_empty : Tallied {} := rfl

/-- what is less than an error is entered among the findings only -/
theorem tallied_findings {found : Findings} (quiet : found.modelErrors = []) : Tallied { findings := found } :=
  quiet.symm

/-- a problem is entered in both -/
theorem tallied_problem (p : Problem) (position : Position) (source : Option String) :
    Tallied { findings := [p.finding position source], errors := [p.finding position source] } := rfl

/-- one ledger continued with another -/
instance : Append Ledger := ⟨fun l l' => ⟨l.findings ++ l'.findings, l.errors ++ l'.errors⟩⟩

theorem Tallied.append {l l' : Ledger} (h : l.Tallied) (h' : l'.Tallied) : (l ++ l').Tallied := by
  calc (l ++ l').errors = l.findings.modelErrors ++ l'.findings.modelErrors := congrArg₂ (· ++ ·) h h'
    _ = (l ++ l').findings.modelErrors := (List.filter_append ..).symm

/-- ledgers in step stay so when they are joined -/
theorem tallied_flatMap {α : Type} {l : List α} {part : α → Ledger} (each : ∀ a ∈ l, (part a).Tallied) :
    Tallied { findings := l.flatMap fun a => (part a).findings, errors := l.flatMap fun a => (part a).errors } := by
  induction l with
  | nil => exact tallied_empty
  | cons a l ih =>
    exact (each a List.mem_cons_self).append (ih fun b hb => each b (List.mem_cons_of_mem a hb))

end Ledger

namespace Workspace

variable {d : Dialect} {replaces : Prop} {creates : Draft → Prop} {statements : List Statement} {w w' : Workspace}

/-- the findings made and the problems recorded so far -/
def ledger (w : Workspace) : Ledger := ⟨w.findings, w.errors⟩

/-- the schema with more entered in its ledgers -/
def enter (w : Workspace) (found : Ledger) : Workspace :=
  { w with findings := w.findings ++ found.findings, errors := w.errors ++ found.errors }

theorem enter_empty : w.enter {} = w := by
  rw [enter, List.append_nil, List.append_nil]

/-- what is reported as less than an error is no error of the model -/
theorem modelErrors_report {severity : Severity} (mild : severity ≠ .error) (code message : String) (position : Position)
    (source : Option String) :
    (w.report severity code message position source).findings.modelErrors = w.findings.modelErrors := by
  rw [report, Findings.modelErrors, List.filter_append]
  have none : [Finding.about severity .model code message source (some position)].filter Finding.isModelError = [] := by
    cases severity with
    | error => exact absurd rfl mild
    | warning => rfl
    | info => rfl
  rw [none, List.append_nil]
  rfl

/-- what is recorded is an error of the model -/
theorem modelErrors_record (p : Problem) (position : Position) (source : Option String) :
    (w.record p position source).findings.modelErrors = w.findings.modelErrors ++ [p.finding position source] := by
  rw [record, Findings.modelErrors, List.filter_append, List.filter_singleton, p.isModelError_finding, cond_true]
  rfl

/-! ## Every run -/

theorem tallied_record (h : w.ledger.Tallied) (p : Problem) (position : Position) (source : Option String) :
    (w.record p position source).ledger.Tallied :=
  h.append (Ledger.tallied_problem p position source)

/-- whatever is done to a schema, its ledgers stay in step -/
theorem Edit.tallied (h : w.ledger.Tallied) (edit : w.Edit d replaces creates w') : w'.ledger.Tallied := by
  cases edit with
  | tables | create | declare => exact h
  | report f _ noError =>
    have quiet : Findings.modelErrors [f] = [] := by
      simp [Findings.modelErrors, Finding.isModelError, noError]
    have entered := h.append (Ledger.tallied_findings quiet)
    exact (List.append_nil w.errors).symm.trans entered
  | record p position source => exact tallied_record h p position source

/-- from the empty schema on, the ledgers are in step -/
theorem Edits.tallied (edits : Edits d replaces creates {} w) : w.ledger.Tallied := by
  induction edits with
  | refl => exact Ledger.tallied_empty
  | tail _ edit ih => exact edit.tallied ih

/-- after so many statements of the last pass, both ledgers hold the same errors -/
theorem tallied_of_afterChanges {n : Nat} (run : afterChanges d statements n = .ok w) : w.ledger.Tallied := by
  have edits : Edits d True (fun _ => True) {} w :=
    edits_afterChanges (fun _ _ _ _ _ _ _ => trivial) (fun _ _ _ _ _ => trivial) run
  exact edits.tallied

theorem tallied_of_applyAll (run : applyAll d statements = .ok w) : w.errors = w.findings.modelErrors := by
  rw [applyAll_eq_afterChanges] at run
  exact tallied_of_afterChanges run

end Workspace

end SchemaApi
