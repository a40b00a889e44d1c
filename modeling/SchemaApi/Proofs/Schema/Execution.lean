import SchemaApi.Proofs.Schema.Declarations
/-!
Statements executed one after the other.

A model is built in passes: all tables and views are declared before the first of them is dropped. `execute` does with
a statement what both passes do with it, but at once, so the statement finds what those before it left, and looks
ahead to nothing. Here a problem ends the execution, and so it does in the strict form of a pass: where no problem
turns up, a strict pass is the pass itself (`applyAll_of_strict`).
-/

namespace SchemaApi

variable {d : Dialect}

/-- the statement declares or drops tables or views -/
def Statement.declaresOrDrops (st : Statement) : Bool :=
  match st.body with
  | .createTable _ => true
  | .createView _ => true
  | .dropTable _ => true
  | .dropView _ => true
  | _ => false

namespace Workspace

variable {w w' : Workspace} {statements : List Statement}

/-- something is done for each name in turn, up to the first problem -/
def eachName (change : QualifiedName → Change) (names : List QualifiedName) : Change :=
  fun w => names.foldlM (fun w name => change name w) w

/-- a statement of the second pass, which a problem ends -/
def strictDeclaration (d : Dialect) (statements : List Statement) (w : Workspace) (numbered : Statement × Nat) :
    Except Failure Workspace :=
  let (st, index) := numbered
  match st.body with
  | .createTable table => declareTable d statements st table index w
  | .createView view => declareView d view w
  | _ => .ok w

/-- a statement of the third pass that drops tables or views, which a problem ends -/
def strictDrop (d : Dialect) (w : Workspace) (numbered : Statement × Nat) : Except Failure Workspace :=
  let (st, index) := numbered
  match st.body with
  | .dropTable drop => eachName (dropTableNamed d st drop index) drop.names w
  | .dropView drop => eachName (dropViewNamed d st drop) drop.names w
  | _ => .ok w

/-- A statement executed on what the statements before it left. With no other statements in sight, a declared table is
there already or it is not. -/
def execute (d : Dialect) (w : Workspace) (numbered : Statement × Nat) : Except Failure Workspace := do
  strictDrop d (← strictDeclaration d [] w numbered) numbered

/-! ## Without problems -/

theorem attempt_of_ok {position : Position} {source : Option String} {change : Change} (done : change w = .ok w') :
    w.attempt position source change = .ok w' := by
  rw [attempt, done]

theorem forNames_of_eachName {st : Statement} {change : QualifiedName → Change} {names : List QualifiedName}
    (done : eachName change names w = .ok w') : forNames st change names w = .ok w' := by
  induction names generalizing w with
  | nil => exact congrArg Except.ok (Except.ok.inj done)
  | cons name rest ih =>
    obtain ⟨w₁, first, later⟩ := bind_eq_ok_iff.1 ((List.foldlM_cons ..).symm.trans done)
    rw [forNames, first]
    exact ih later

theorem declarationPass_of_strict {n : Statement × Nat} (done : strictDeclaration d statements w n = .ok w') :
    declarationPass d statements w n = .ok w' := by
  obtain ⟨st, index⟩ := n
  simp only [strictDeclaration] at done
  simp only [declarationPass]
  cases body : st.body with
  | createTable table => exact attempt_of_ok (by simpa only [body] using done)
  | createView view => exact attempt_of_ok (by simpa only [body] using done)
  | _ => exact congrArg Except.ok (Except.ok.inj (by simpa only [body] using done))

theorem changePass_of_strict {n : Statement × Nat} (plain : n.1.declaresOrDrops = true)
    (done : strictDrop d w n = .ok w') : changePass d w n = .ok w' := by
  obtain ⟨st, index⟩ := n
  simp only [Statement.declaresOrDrops] at plain
  simp only [strictDrop] at done
  simp only [changePass]
  cases body : st.body with
  | dropTable drop => exact forNames_of_eachName (by simpa only [body] using done)
  | dropView drop => exact forNames_of_eachName (by simpa only [body] using done)
  | createTable table => exact congrArg Except.ok (Except.ok.inj (by simpa only [body] using done))
  | createView view => exact congrArg Except.ok (Except.ok.inj (by simpa only [body] using done))
  | _ => simp [body] at plain

/-- steps that come to what other steps come to where these succeed -/
theorem foldlM_eq_ok_of_steps {α ε ε' : Type} {step : Workspace → α → Except ε Workspace}
    {strict : Workspace → α → Except ε' Workspace} {l : List α}
    (each : ∀ a ∈ l, ∀ w w', strict w a = .ok w' → step w a = .ok w') (run : l.foldlM strict w = .ok w') :
    l.foldlM step w = .ok w' := by
  induction l generalizing w with
  | nil => exact congrArg Except.ok (Except.ok.inj run)
  | cons a l ih =>
    obtain ⟨w₁, first, later⟩ := bind_eq_ok_iff.1 ((List.foldlM_cons ..).symm.trans run)
    rw [List.foldlM_cons, each a List.mem_cons_self w w₁ first]
    exact ih (fun b hb => each b (List.mem_cons_of_mem a hb)) later

theorem enumPass_of_declaresOrDrops {st : Statement} (plain : st.declaresOrDrops = true) :
    enumPass d w st = .ok w := by
  unfold Statement.declaresOrDrops at plain
  unfold enumPass
  split <;> simp_all

/-- where the strict passes come to an end, the passes come to the same -/
theorem applyAll_of_strict (plain : ∀ st ∈ statements, st.declaresOrDrops = true)
    (declared : statements.zipIdx.foldlM (strictDeclaration d statements) {} = .ok w)
    (dropped : statements.zipIdx.foldlM (strictDrop d) w = .ok w') : applyAll d statements = .ok w' := by
  have enums : statements.foldlM (enumPass d) {} = .ok {} :=
    foldlM_eq_ok_self fun st hst w => enumPass_of_declaresOrDrops (plain st hst)
  have declarations : statements.zipIdx.foldlM (declarationPass d statements) {} = .ok w :=
    foldlM_eq_ok_of_steps (fun n _ w w' => declarationPass_of_strict) declared
  have changes : statements.zipIdx.foldlM (changePass d) w = .ok w' :=
    foldlM_eq_ok_of_steps (fun n hn w w' => changePass_of_strict (plain n.1 (List.fst_mem_of_mem_zipIdx hn))) dropped
  simp only [applyAll, enums, bind, Except.bind, declarations, changes]

end Workspace

end SchemaApi
