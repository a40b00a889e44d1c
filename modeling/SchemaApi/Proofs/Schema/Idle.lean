import SchemaApi.Proofs.Schema.Lifetime
import SchemaApi.Proofs.Schema.Order
/-!
Statements that do nothing.

A `DROP TABLE` of no table does nothing but count: the statements behind it have greater numbers. Tables are compared
with statements by these numbers, and the order stays the same, so all passes come to the same but for the numbers
(`applyAll_insert`), and a model has none (`outcome_filter`). No table may be renamed, for a renamed one takes its
number to another key.
-/

namespace SchemaApi

variable {d : Dialect}

/-- the statement drops no table -/
def Statement.isIdle (st : Statement) : Bool :=
  match st.body with
  | .dropTable drop => drop.names.isEmpty
  | _ => false

theorem Statement.body_of_isIdle {st : Statement} (idle : st.isIdle = true) :
    ∃ drop, st.body = .dropTable drop ∧ drop.names = [] := by
  unfold isIdle at idle
  cases body : st.body with
  | dropTable drop => exact ⟨drop, rfl, by simpa [body] using idle⟩
  | _ => simp [body] at idle

/-! ## Numbers -/

/-- the number of a statement, if there is one more in front of those from a number on -/
def shiftFrom (limit i : Nat) : Nat := if i < limit then i else i + 1

theorem shiftFrom_lt_iff {limit a b : Nat} : shiftFrom limit a < shiftFrom limit b ↔ a < b := by
  unfold shiftFrom
  split_ifs <;> omega

theorem getElem?_insert {α : Type} (A B : List α) (x : α) (k : Nat) :
    (A ++ x :: B)[shiftFrom A.length k]? = (A ++ B)[k]? := by
  unfold shiftFrom
  split_ifs with early
  · rw [List.getElem?_append_left early, List.getElem?_append_left early]
  · rw [List.getElem?_append_right (by omega), List.getElem?_append_right (by omega),
      show k + 1 - A.length = k - A.length + 1 by omega, List.getElem?_cons_succ]

theorem zipIdx_insert {α : Type} (A B : List α) (x : α) : (A ++ x :: B).zipIdx =
    A.zipIdx ++ (x, A.length) :: B.zipIdx (A.length + 1) := by
  rw [List.zipIdx_append, List.zipIdx_cons, Nat.zero_add]

theorem map_zipIdx_append {α : Type} (A B : List α) :
    ((A ++ B).zipIdx.map fun n => (n.1, shiftFrom A.length n.2)) = A.zipIdx ++ B.zipIdx (A.length + 1) := by
  rw [List.zipIdx_append, List.map_append, Nat.zero_add, List.zipIdx_succ]
  congr 1
  · refine (List.map_congr_left fun n hn => ?_).trans (List.map_id _)
    have early : n.2 < A.length := List.snd_lt_of_mem_zipIdx hn
    rw [shiftFrom, if_pos early]
    rfl
  · refine List.map_congr_left fun n hn => ?_
    rw [shiftFrom, if_neg (Nat.not_lt.2 (List.le_snd_of_mem_zipIdx hn))]

namespace Workspace

/-- a table is dropped between two statements if one of those between them drops it -/
theorem droppedBetween_iff {S : List Statement} {key : String} {first last : Nat} :
    droppedBetween d S key first last = true ↔
      ∃ k st, first < k ∧ k < last ∧ S[k]? = some st ∧ dropsTable d key st = true := by
  rw [droppedBetween, List.any_eq_true]
  constructor
  · rintro ⟨st, hst, drops⟩
    obtain ⟨k, there⟩ := List.mem_iff_getElem?.1 hst
    rw [List.getElem?_drop, List.getElem?_take] at there
    split_ifs at there with inside
    exact ⟨first + 1 + k, st, by omega, inside, there, drops⟩
  · rintro ⟨k, st, after, inside, there, drops⟩
    refine ⟨st, List.mem_iff_getElem?.2 ⟨k - (first + 1), ?_⟩, drops⟩
    rw [List.getElem?_drop, List.getElem?_take, show first + 1 + (k - (first + 1)) = k by omega, if_pos inside]
    exact there

variable {A B : List Statement} {st : Statement} {w : Workspace} {f : Nat → Nat} {before : Ledger} {index : Nat}

theorem dropsTable_of_isIdle (idle : st.isIdle = true) (key : String) : dropsTable d key st = false := by
  obtain ⟨drop, body, none⟩ := Statement.body_of_isIdle idle
  rw [dropsTable, body]
  simp [none]

/-- a statement that does nothing drops nothing -/
theorem droppedBetween_insert (idle : st.isIdle = true) (key : String) (first last : Nat) :
    droppedBetween d (A ++ st :: B) key (shiftFrom A.length first) (shiftFrom A.length last) =
      droppedBetween d (A ++ B) key first last := by
  rw [Bool.eq_iff_iff, droppedBetween_iff, droppedBetween_iff]
  constructor
  · rintro ⟨k, x, after, inside, there, drops⟩
    have other : k ≠ A.length := by
      rintro rfl
      rw [List.getElem?_append_right (Nat.le_refl _), Nat.sub_self, List.getElem?_cons_zero, Option.some.injEq] at there
      rw [← there, dropsTable_of_isIdle idle] at drops
      exact Bool.noConfusion drops
    -- the number of the same statement without the one that does nothing
    obtain ⟨k, rfl⟩ : ∃ k', shiftFrom A.length k' = k := by
      rcases Nat.lt_or_gt_of_ne other with early | late
      · exact ⟨k, if_pos early⟩
      · exact ⟨k - 1, by rw [shiftFrom, if_neg (by omega)]; omega⟩
    rw [getElem?_insert] at there
    exact ⟨k, x, shiftFrom_lt_iff.1 after, shiftFrom_lt_iff.1 inside, there, drops⟩
  · rintro ⟨k, x, after, inside, there, drops⟩
    exact ⟨shiftFrom A.length k, x, shiftFrom_lt_iff.2 after, shiftFrom_lt_iff.2 inside,
      (getElem?_insert A B st k).trans there, drops⟩

/-! ## Statements counted otherwise -/

theorem renumber_empty (w : Workspace) (none : w.tables = []) : w.renumber f {} = w := by
  rw [renumber, none]
  obtain ⟨tables, enums, views, findings⟩ := w
  subst none
  rfl

theorem tables_enumPass {w' : Workspace} (run : enumPass d w st = .ok w') : w'.tables = w.tables := by
  unfold enumPass at run
  split at run
  · unfold attempt at run
    split at run
    · rename_i made
      simp only [declareEnum] at made
      split_ifs at made
      · rw [← Except.ok.inj run, ← Except.ok.inj made]
      · rw [← Except.ok.inj run, ← Except.ok.inj made]
        rfl
    · rw [← Except.ok.inj run]
      rfl
    · simp at run
  · rw [← Except.ok.inj run]

theorem dropTable_renumber (key : String) :
    (w.renumber f before).dropTable key = (w.dropTable key).renumber f before := by
  simp only [dropTable, renumber, List.filter_map]
  rfl

theorem declareTable_renumber {S S' : List Statement} {table : CreateTable}
    (dropped : ∀ key first, droppedBetween d S' key (f first) (f index) = droppedBetween d S key first index) :
    declareTable d S' st table (f index) (w.renumber f before) =
      (declareTable d S st table index w).map (renumber f before) := by
  have settled : ∀ x : Except Refusal Workspace, settle (x.map (renumber f before)) =
      (settle x).map (renumber f before) := fun x => by cases x <;> rfl
  simp only [declareTable, table?_renumber]
  cases w.table? (table.name.key d) with
  | none => rw [Option.map_none, addTable_renumber, settled]
  | some first =>
    have number : (first.renumber f).declaredBy = f first.declaredBy := rfl
    simp only [Option.map_some, number, dropped]
    split_ifs
    · rw [dropTable_renumber, addTable_renumber, settled]
    · exact congrArg Except.ok (report_renumber ..)
    · rfl

theorem declarationPass_renumber {S S' : List Statement}
    (dropped : ∀ key first, droppedBetween d S' key (f first) (f index) = droppedBetween d S key first index) :
    declarationPass d S' (w.renumber f before) (st, f index) =
      (declarationPass d S w (st, index)).map (renumber f before) := by
  simp only [declarationPass]
  cases st.body with
  | createTable table => exact attempt_renumber (declareTable_renumber dropped) st.position st.source
  | createView view => exact attempt_renumber ((unnumbered_declareView view).frame f before w) st.position st.source
  | _ => rfl

theorem dropTableNamed_renumber (mono : ∀ {a b}, f a < f b ↔ a < b) (drop : DropTable) (name : QualifiedName)
    (w : Workspace) : dropTableNamed d st drop (f index) name (w.renumber f before) =
      (dropTableNamed d st drop index name w).map (renumber f before) := by
  simp only [dropTableNamed, table?_renumber]
  cases w.table? (name.key d) with
  | none =>
    simp only [Option.map_none]
    split_ifs
    · exact congrArg Except.ok (report_renumber ..)
    · rfl
  | some t =>
    have number : (t.renumber f).declaredBy = f t.declaredBy := rfl
    simp only [Option.map_some, number, mono, dropTable_renumber]
    split_ifs
    · exact congrArg Except.ok (mapTables_renumber (g := (·.dropForeignKeysTo d (name.key d) none)) fun _ => rfl)
    · rfl
    · exact congrArg Except.ok (report_renumber ..)

theorem changePass_renumber (mono : ∀ {a b}, f a < f b ↔ a < b) (plain : st.renamesTable = false) (w : Workspace) :
    changePass d (w.renumber f before) (st, f index) = (changePass d w (st, index)).map (renumber f before) := by
  by_cases drops : ∃ drop, st.body = .dropTable drop
  · obtain ⟨drop, body⟩ := drops
    simp only [changePass, body]
    exact forNames_renumber (dropTableNamed_renumber mono drop) st drop.names w
  · have noDrop : ∀ drop, st.body ≠ .dropTable drop := fun drop body => drops ⟨drop, body⟩
    have counted : changePass d w (st, index) = changePass d w (st, f index) := by
      simp only [changePass]
      cases body : st.body with
      | dropTable drop => exact absurd body (noDrop drop)
      | _ => rfl
    rw [counted]
    exact (unnumbered_changePass noDrop plain (f index)).frame f before w

/-! ## Statements that do nothing -/

theorem changePass_of_isIdle (idle : st.isIdle = true) (w : Workspace) : changePass d w (st, index) = .ok w := by
  obtain ⟨drop, body, none⟩ := Statement.body_of_isIdle idle
  simp only [changePass, body, none, forNames]

theorem declarationPass_of_isIdle (idle : st.isIdle = true) {S : List Statement} (w : Workspace) :
    declarationPass d S w (st, index) = .ok w := by
  obtain ⟨drop, body, -⟩ := Statement.body_of_isIdle idle
  simp only [declarationPass, body]

theorem enumPass_of_isIdle (idle : st.isIdle = true) (w : Workspace) : enumPass d w st = .ok w := by
  obtain ⟨drop, body, -⟩ := Statement.body_of_isIdle idle
  simp only [enumPass, body]

/-- a pass with one more statement in it, which does nothing -/
theorem foldlM_insert {step step' : Workspace → Statement × Nat → Except Refusal Workspace}
    (idle : ∀ w, step w (st, A.length) = .ok w)
    (each : ∀ n ∈ (A ++ B).zipIdx, ∀ w : Workspace, step (w.renumber (shiftFrom A.length) before)
      (n.1, shiftFrom A.length n.2) = (step' w n).map (renumber (shiftFrom A.length) before)) (w : Workspace) :
    (A ++ st :: B).zipIdx.foldlM step (w.renumber (shiftFrom A.length) before) =
      ((A ++ B).zipIdx.foldlM step' w).map (renumber (shiftFrom A.length) before) := by
  have skipped : ∀ w, (A ++ st :: B).zipIdx.foldlM step w =
      ((A ++ B).zipIdx.map fun n => (n.1, shiftFrom A.length n.2)).foldlM step w := by
    intro w
    rw [zipIdx_insert, map_zipIdx_append, List.foldlM_append, List.foldlM_append]
    refine bind_congr fun v => ?_
    rw [List.foldlM_cons, idle]
    rfl
  rw [skipped, List.foldlM_map]
  exact foldlM_renumber each w

theorem applyAll_insert (plain : ∀ x ∈ A ++ B, x.renamesTable = false) (idle : st.isIdle = true) :
    applyAll d (A ++ st :: B) = (applyAll d (A ++ B)).map (renumber (shiftFrom A.length) {}) := by
  have enums : (A ++ st :: B).foldlM (enumPass d) {} = (A ++ B).foldlM (enumPass d) {} := by
    rw [List.foldlM_append, List.foldlM_append]
    refine bind_congr fun v => ?_
    rw [List.foldlM_cons, enumPass_of_isIdle idle]
    rfl
  have noTables : ∀ v, (A ++ B).foldlM (enumPass d) {} = .ok v → v.tables = [] := fun v run =>
    foldlM_keeps (P := fun v : Workspace => v.tables = []) (fun _ _ _ _ none made => (tables_enumPass made).trans none)
      rfl run
  rw [applyAll, applyAll, enums, map_bind_eq]
  cases run : (A ++ B).foldlM (enumPass d) {} with
  | error r => rfl
  | ok v =>
    have declared : (A ++ st :: B).zipIdx.foldlM (declarationPass d (A ++ st :: B))
          (v.renumber (shiftFrom A.length) {}) =
        ((A ++ B).zipIdx.foldlM (declarationPass d (A ++ B)) v).map (renumber (shiftFrom A.length) {}) :=
      foldlM_insert (declarationPass_of_isIdle idle)
        (fun n _ w => declarationPass_renumber (droppedBetween_insert idle · · n.2)) v
    rw [renumber_empty v (noTables v run)] at declared
    simp only [bind, Except.bind, declared]
    cases (A ++ B).zipIdx.foldlM (declarationPass d (A ++ B)) v with
    | error r => rfl
    | ok p =>
      exact foldlM_insert (changePass_of_isIdle idle) (fun n hn w =>
        changePass_renumber shiftFrom_lt_iff (plain n.1 (List.fst_mem_of_mem_zipIdx hn)) w) p

/-! ## Models -/

/-- the tables and errors of the model of a schema, if there is one -/
def read (d : Dialect) (w : Workspace) : Option (List Table × Findings) :=
  (w.build d none).toOption.map fun b => (b.model.tables, b.model.errors)

theorem read_of_named (named : w.Named) :
    read d w = some (w.resolvedTables d, w.errors ++ (tableFindings d w.tables).modelErrors) := by
  obtain ⟨b, built⟩ := (exists_build_iff (d := d) none).2 named
  rw [read, toOption_eq_some_iff.2 built, Option.map_some, tables_of_build built, (findings_of_build built).1]
  rfl

theorem read_of_not_named (unnamed : ¬ w.Named) : read d w = none := by
  cases built : w.build d none with
  | error r => rw [read, built]; rfl
  | ok b => exact absurd (named_of_build built) unnamed

/-- a model has no numbers, and its errors begin with those that were found before -/
theorem read_renumber : read d (w.renumber f before) = (read d w).map fun r => (r.1, before.errors ++ r.2) := by
  have alike : ((w.renumber f before).forget false).tables = (w.forget false).tables := by
    simp only [forget, renumber, List.map_map]
    rfl
  have named_iff : (w.renumber f before).Named ↔ w.Named :=
    ⟨named_perm (.of_eq alike.symm), named_perm (.of_eq alike)⟩
  by_cases named : w.Named
  · have tables : (w.renumber f before).resolvedTables d = w.resolvedTables d := by
      have forgotten : ∀ v : Workspace, (v.forget false).resolvedTables d = v.resolvedTables d :=
        resolvedTables_forget
      rw [← forgotten, resolvedTables, alike, ← resolvedTables, forgotten]
    have found : ∀ v : Workspace, tableFindings d (v.forget false).tables = tableFindings d v.tables := fun v => by
      have same := @tableFindings_forget d false v.tables
      rwa [map_forget_false, map_forget_false] at same
    rw [read_of_named named, read_of_named (named_iff.2 named), tables, ← found, alike, found]
    simp only [renumber, List.append_assoc, Option.map_some]
  · rw [read_of_not_named named, read_of_not_named (mt named_iff.1 named)]
    rfl

end Workspace

/-- the tables and errors of the model of statements, if there is one -/
def outcome (d : Dialect) (S : List Statement) : Option (List Table × Findings) :=
  (buildModel d none S).toOption.map fun b => (b.model.tables, b.model.errors)

theorem outcome_eq (S : List Statement) : outcome d S = (Workspace.applyAll d S).toOption.bind (Workspace.read d) := by
  rw [outcome, Workspace.buildModel_eq]
  cases Workspace.applyAll d S with
  | error r => rfl
  | ok w => rfl

theorem outcome_insert {A B : List Statement} {st : Statement} (plain : ∀ x ∈ A ++ B, x.renamesTable = false)
    (idle : st.isIdle = true) : outcome d (A ++ st :: B) = outcome d (A ++ B) := by
  rw [outcome_eq, outcome_eq, Workspace.applyAll_insert plain idle]
  cases Workspace.applyAll d (A ++ B) with
  | error r => rfl
  | ok w =>
    have same : Workspace.read d (w.renumber (shiftFrom A.length) {}) = Workspace.read d w := by
      rw [Workspace.read_renumber]
      cases Workspace.read d w <;> rfl
    exact same

/-- Where no table is renamed, statements that do nothing do not matter. -/
theorem outcome_filter {A B C : List Statement} (plain : ∀ x ∈ A ++ B ++ C, x.renamesTable = false) :
    outcome d (A ++ B.filter (!·.isIdle) ++ C) = outcome d (A ++ B ++ C) := by
  induction B generalizing A with
  | nil => rfl
  | cons st B ih =>
    have split : A ++ st :: B ++ C = A ++ [st] ++ B ++ C := by simp
    by_cases idle : st.isIdle = true
    · have rest : ∀ x ∈ A ++ B ++ C, x.renamesTable = false := fun x hx => plain x (by simp at hx ⊢; tauto)
      rw [List.filter_cons_of_neg (by simpa using idle), ih rest, List.append_assoc, List.append_assoc,
        List.cons_append, outcome_insert (by rwa [← List.append_assoc]) idle]
    · rw [List.filter_cons_of_pos (by simpa using idle), split]
      have split' : A ++ st :: B.filter (!·.isIdle) ++ C = A ++ [st] ++ B.filter (!·.isIdle) ++ C := by simp
      rw [split', ih (by rwa [← split])]

end SchemaApi
