import SchemaApi.Proofs.Schema.OneTable
import SchemaApi.Proofs.Schema.Recreation
/-!
Changes of different tables commute.

Two neighbouring statements that concern different tables may change places among any others (`buildModel_swap`). Where
they stand, they leave the same schema in either order, but for the order in which things were found
(`IsLocal.swap`). No statement looks at what was found before (`changePass_renumber_id`), so what stands behind them
comes to the same. What stands in front of them are declarations as well, and these look at statements behind them, but
only at those that drop tables.
-/

namespace SchemaApi

variable {d : Dialect}

namespace Workspace

variable {w w' : Workspace} {f : Nat → Nat} {before : Ledger} {key key' : String}

/-! ## What was found before -/

theorem renameTable_renumber (newName : QualifiedName) : renameTable d key newName (w.renumber f before) =
    (renameTable d key newName w).map fun r => (r.1.renumber f before, r.2) := by
  unfold renameTable
  rw [table?_renumber]
  cases w.table? key with
  | none => rfl
  | some t =>
    have referred : (w.renumber f before).tables.any (·.refersTo d key) = w.tables.any (·.refersTo d key) :=
      List.any_map
    have title : (t.renumber f).schema = t.schema := rfl
    have titled (schema : Option String) (newKey : String) : (w.renumber f before).updateTable key
          (fun t => { t with name := newName.name, schema := schema, key := newKey }) =
        (w.updateTable key fun t => { t with name := newName.name, schema := schema, key := newKey }).renumber f before :=
      updateTable_renumber fun _ => rfl
    have retargeted (v : Workspace) (ref : TableRef) : ({ v.renumber f before with
          tables := (v.renumber f before).tables.map (·.retarget d key ref) } : Workspace) =
        renumber f before { v with tables := v.tables.map (·.retarget d key ref) } :=
      mapTables_renumber fun _ => rfl
    simp only [Option.map_some, table?_renumber, Option.isSome_map, referred, title, titled, retargeted]
    split_ifs
    · exact (Draft.map_problem _ t _).symm
    · rfl
    · rfl

theorem alterAction_renumber (site : Site) (action : TableAction) (w : Workspace) :
    alterAction d site key action (w.renumber f before) =
      (alterAction d site key action w).map fun r => (r.1.renumber f before, r.2) := by
  cases plain : action.renamesTable with
  | true =>
    cases action with
    | renameTable newName => exact renameTable_renumber newName
    | _ => simp [TableAction.renamesTable] at plain
  | false =>
    rw [alterAction_eq plain, alterAction_eq plain, (unnumbered_actionChange plain site).frame f before w]
    cases actionChange d site key action w <;> rfl

theorem alterActions_renumber (site : Site) (actions : List TableAction) (w : Workspace) (key : String) :
    alterActions d site actions (w.renumber f before) key =
      (alterActions d site actions w key).map (renumber f before) := by
  induction actions generalizing w key with
  | nil => rfl
  | cons a rest ih =>
    simp only [alterActions, alterAction_renumber]
    cases alterAction d site key a w with
    | ok r => exact ih r.1 r.2
    | error failure =>
      cases failure with
      | problem p =>
        simp only [Except.map, record_renumber]
        exact ih _ key
      | refused r => rfl

theorem alterTable_renumber (st : Statement) (alter : AlterTable) (w : Workspace) :
    alterTable d st alter (w.renumber f before) = (alterTable d st alter w).map (renumber f before) := by
  unfold alterTable
  rw [table?_renumber]
  cases w.table? (alter.name.key d) with
  | some t =>
    have own : (t.renumber f).key = t.key := rfl
    simp only [Option.map_some, own, alterActions_renumber]
    cases alterActions d ⟨st.position, st.source⟩ alter.actions w t.key <;> rfl
  | none =>
    simp only [Option.map_none]
    split_ifs
    · exact congrArg Except.ok (report_renumber ..)
    · rfl

/-- no statement looks at what was found before -/
theorem changePass_renumber_id (numbered : Statement × Nat) (w : Workspace) :
    changePass d (w.renumber id before) numbered = (changePass d w numbered).map (renumber id before) := by
  obtain ⟨st, index⟩ := numbered
  cases plain : st.renamesTable with
  | false => exact changePass_renumber Iff.rfl plain w
  | true =>
    cases body : st.body with
    | alterTable alter =>
      simp only [changePass, body]
      exact attempt_renumber (alterTable_renumber st alter w) st.position st.source
    | _ => simp [Statement.renamesTable, body] at plain

/-- what does not look at what was found comes to the same if errors were found in another order -/
theorem tally_congr {ε : Type} (change : Workspace → Except ε Workspace)
    (frame : ∀ before w, change (w.renumber id before) = (change w).map (renumber id before))
    (same : w'.tally = w.tally) : (change w').toOption.map tally = (change w).toOption.map tally := by
  have rest : w'.unreported = w.unreported := congrArg Prod.fst same
  have errors : w'.errors.Perm w.errors := Multiset.coe_eq_coe.1 (congrArg Prod.snd same)
  rw [← renumber_unreported (w := w'), ← renumber_unreported (w := w), frame, frame, rest]
  cases change w.unreported with
  | error e => rfl
  | ok v =>
    simp only [Except.map, Except.toOption, Option.map_some, tally, renumber_id]
    exact congrArg some (Prod.ext rfl (Multiset.coe_eq_coe.2 (errors.append_right v.errors)))

/-! ## Two statements in the middle -/

/-- statements that a pass skips may be left out of it -/
theorem foldlM_skip {ε α : Type} {step : Workspace → α → Except ε Workspace} {a b : α} (ha : ∀ w, step w a = .ok w)
    (hb : ∀ w, step w b = .ok w) (A B : List α) (w : Workspace) :
    (A ++ a :: b :: B).foldlM step w = A.foldlM step w >>= fun v => B.foldlM step v := by
  rw [List.foldlM_append]
  refine bind_congr fun v => ?_
  rw [List.foldlM_cons, ha]
  change (b :: B).foldlM step v = _
  rw [List.foldlM_cons, hb]
  rfl

section

variable {A B : List Statement} {x y : Statement}

theorem isChange_of_onlyTable? (only : x.onlyTable? d = some key) : x.isChange = true := by
  unfold Statement.onlyTable? at only
  unfold Statement.isChange
  split <;> simp_all

theorem dropsTable_of_onlyTable? (only : x.onlyTable? d = some key) (other : String) :
    dropsTable d other x = false := by
  unfold Statement.onlyTable? at only
  unfold dropsTable
  split <;> simp_all

/-- two statements that drop no table may change places among those between two others -/
theorem droppedBetween_swap (hx : ∀ key, dropsTable d key x = false) (hy : ∀ key, dropsTable d key y = false)
    (key : String) (first last : Nat) :
    droppedBetween d (A ++ x :: y :: B) key first last = droppedBetween d (A ++ y :: x :: B) key first last := by
  have byDrops (S : List Statement) : droppedBetween d S key first last =
      (((S.map (dropsTable d key)).take last).drop (first + 1)).any id := by
    rw [droppedBetween, ← List.map_take, ← List.map_drop, List.any_map]
    rfl
  rw [byDrops, byDrops]
  simp only [List.map_append, List.map_cons, hx, hy]

theorem declarationPass_swap (hx : ∀ key, dropsTable d key x = false) (hy : ∀ key, dropsTable d key y = false)
    (w : Workspace) (numbered : Statement × Nat) :
    declarationPass d (A ++ x :: y :: B) w numbered = declarationPass d (A ++ y :: x :: B) w numbered := by
  obtain ⟨st, index⟩ := numbered
  simp only [declarationPass]
  cases st.body with
  | createTable table =>
    refine congrArg (w.attempt st.position st.source) (funext fun w => ?_)
    simp only [declareTable, droppedBetween_swap hx hy]
  | _ => rfl

theorem zipIdx_middle {α : Type} (A B : List α) (a b : α) : (A ++ a :: b :: B).zipIdx =
    A.zipIdx ++ (a, A.length) :: (b, A.length + 1) :: B.zipIdx (A.length + 2) := by
  rw [List.zipIdx_append, List.zipIdx_cons, List.zipIdx_cons, Nat.zero_add]

/-- the schema that two statements in the middle find -/
theorem afterChanges_swap (hx : x.onlyTable? d = some key) (hy : y.onlyTable? d = some key') :
    afterChanges d (A ++ x :: y :: B) A.length = afterChanges d (A ++ y :: x :: B) A.length := by
  have early (a b : Statement) : (A ++ a :: b :: B).zipIdx.take A.length = A.zipIdx := by
    rw [zipIdx_middle, List.take_left' (by simp)]
  have declared (a b : Statement) (ha : a.isChange = true) (hb : b.isChange = true) :
      afterDeclarations d (A ++ a :: b :: B) (A ++ a :: b :: B).length =
        (A.foldlM (enumPass d) {} >>= fun w => B.foldlM (enumPass d) w) >>= fun w =>
          A.zipIdx.foldlM (declarationPass d (A ++ a :: b :: B)) w >>= fun w =>
            (B.zipIdx (A.length + 2)).foldlM (declarationPass d (A ++ a :: b :: B)) w := by
    rw [afterDeclarations, List.take_of_length_le (by simp),
      foldlM_skip (fun w => enumPass_of_isChange ha w) (fun w => enumPass_of_isChange hb w)]
    refine bind_congr fun w => ?_
    rw [zipIdx_middle, foldlM_skip (fun w => declarationPass_of_isChange ha _ w) fun w =>
      declarationPass_of_isChange hb _ w]
  have changeX := isChange_of_onlyTable? hx
  have changeY := isChange_of_onlyTable? hy
  have pass : declarationPass d (A ++ x :: y :: B) = declarationPass d (A ++ y :: x :: B) :=
    funext fun w => funext fun numbered =>
      declarationPass_swap (dropsTable_of_onlyTable? hx) (dropsTable_of_onlyTable? hy) w numbered
  rw [afterChanges, afterChanges, early, early, declared x y changeX changeY, declared y x changeY changeX, pass]

theorem applyAll_middle (a b : Statement) : applyAll d (A ++ a :: b :: B) =
    afterChanges d (A ++ a :: b :: B) A.length >>= fun w =>
      (changePass d w (a, A.length) >>= fun w => changePass d w (b, A.length + 1)) >>= fun w =>
        (B.zipIdx (A.length + 2)).foldlM (changePass d) w := by
  have early : (A ++ a :: b :: B).zipIdx.take A.length = A.zipIdx := by
    rw [zipIdx_middle, List.take_left' (by simp)]
  have all : (A ++ a :: b :: B).zipIdx.take (A ++ a :: b :: B).length = (A ++ a :: b :: B).zipIdx :=
    List.take_of_length_le (by simp)
  rw [applyAll_eq_afterChanges, afterChanges, afterChanges, all, early, bind_assoc]
  refine bind_congr fun w => ?_
  rw [zipIdx_middle, List.foldlM_append]
  refine bind_congr fun w => ?_
  rw [List.foldlM_cons, bind_assoc]
  rfl

/-- a statement that concerns one table does not look at its number -/
theorem changePass_number (only : x.onlyTable? d = some key) (i j : Nat) :
    changePass d w (x, i) = changePass d w (x, j) := by
  unfold Statement.onlyTable? at only
  simp only [changePass]
  split <;> simp_all

/-- neighbouring statements that concern different tables may change places -/
theorem applyAll_swap (hx : x.onlyTable? d = some key) (hy : y.onlyTable? d = some key') (other : key ≠ key') :
    (applyAll d (A ++ x :: y :: B)).toOption.map tally = (applyAll d (A ++ y :: x :: B)).toOption.map tally := by
  rw [applyAll_middle, applyAll_middle, afterChanges_swap hx hy]
  cases run : afterChanges d (A ++ y :: x :: B) A.length with
  | error r => rfl
  | ok w =>
    have distinct : w.Distinct := (afterChanges_regular run).keys
    have swapped : (changePass d w (x, A.length) >>= fun w => changePass d w (y, A.length + 1)).toOption.map tally =
        (changePass d w (y, A.length) >>= fun w => changePass d w (x, A.length + 1)).toOption.map tally := by
      simp only [changePass_number hx (A.length + 1) A.length, changePass_number hy A.length (A.length + 1)]
      exact (isLocal_changePass hx A.length).swap (isLocal_changePass hy (A.length + 1)) other distinct
    have found (k : Workspace → Except Refusal Workspace) : ((.ok w : Except Refusal Workspace) >>= k) = k w := rfl
    rw [found, found]
    exact toOption_bind_congr swapped fun _ _ same => tally_congr
      (fun w => (B.zipIdx (A.length + 2)).foldlM (changePass d) w)
      (fun before w => foldlM_renumber (fun n _ w => changePass_renumber_id n w) w) same

end

end Workspace

/-! ## Models -/

/-- the model, with its errors in no order -/
def Built.unordered (b : Built) : Model × Multiset Finding := ({ b.model with errors := [] }, b.model.errors)

/-- a model does not depend on the order in which things were found, but for the order of its errors -/
theorem Workspace.build_congr {w w' : Workspace} (same : w.tally = w'.tally) (schemaFilter : Option String) :
    (w.build d schemaFilter).toOption.map Built.unordered = (w'.build d schemaFilter).toOption.map Built.unordered := by
  have tables : w.tables = w'.tables := congrArg (·.1.tables) same
  have enums : w.enums = w'.enums := congrArg (·.1.enums) same
  have views : w.views = w'.views := congrArg (·.1.views) same
  have errors : w.errors.Perm w'.errors := Multiset.coe_eq_coe.1 (congrArg Prod.snd same)
  by_cases named : w.Named
  · have named' : w'.Named := ⟨tables ▸ named.tables, tables ▸ named.columns⟩
    obtain ⟨b, built⟩ := (exists_build_iff (d := d) schemaFilter).2 named
    obtain ⟨b', built'⟩ := (exists_build_iff (d := d) schemaFilter).2 named'
    have shownTables : b.model.tables = b'.model.tables := by
      rw [tables_of_build built, tables_of_build built', resolvedTables, resolvedTables, tables]
    rw [built, built']
    refine congrArg some (Prod.ext ?_ (Multiset.coe_eq_coe.2 ?_))
    · simp only [Built.unordered]
      rw [model_of_build built, model_of_build built', shownTables, enums, views]
    · rw [(findings_of_build built).1, (findings_of_build built').1, tables]
      exact errors.append_right _
  · have refused (v : Workspace) (unnamed : ¬ v.Named) : (v.build d schemaFilter).toOption = none := by
      cases built : v.build d schemaFilter with
      | error r => rfl
      | ok b => exact absurd (named_of_build built) unnamed
    rw [refused w named, refused w' fun h => named ⟨tables ▸ h.tables, tables ▸ h.columns⟩]

/-- Neighbouring statements that concern different tables may change places among any others: either both orders are
refused, or both have the same model, but for the order of its errors. -/
theorem buildModel_swap {A B : List Statement} {x y : Statement} {key key' : String}
    (hx : x.onlyTable? d = some key) (hy : y.onlyTable? d = some key') (other : key ≠ key')
    (schemaFilter : Option String) : (buildModel d schemaFilter (A ++ x :: y :: B)).toOption.map Built.unordered =
      (buildModel d schemaFilter (A ++ y :: x :: B)).toOption.map Built.unordered := by
  rw [Workspace.buildModel_eq, Workspace.buildModel_eq]
  exact toOption_bind_congr (Workspace.applyAll_swap hx hy other) fun _ _ same =>
    Workspace.build_congr same schemaFilter

/-- authors, and books by authors, without keys -/
def authorsAndTitles : List Statement := [("author", ["id", "name"]), ("book", ["title", "writer"])].map fun table =>
  ⟨.createTable
    { name := ⟨table.1, none⟩
      columns := table.2.map fun n => { name := n, type := none, position := ⟨1, 1, 0⟩ } }, ⟨1, 1, 0⟩, none⟩

/-- books refer to authors; what is to be dropped is not there -/
def bookKeys : Statement :=
  ⟨.alterTable
    { name := ⟨"Book", none⟩
      actions := [
        .addConstraint (.foreignKey ["writer"] { table := ⟨"author", none⟩, columns := ["id"] } none ⟨3, 1, 0⟩),
        .dropConstraint (.named "old") false] }, ⟨3, 1, 0⟩, none⟩

/-- authors are identified; what is to be added is there -/
def authorKeys : Statement :=
  ⟨.alterTable
    { name := ⟨"author", some "main"⟩
      actions := [
        .addConstraint (.unique ["id"] none ⟨4, 1, 0⟩),
        .addColumn { name := "Name", type := none, position := ⟨4, 1, 0⟩ } false] }, ⟨4, 1, 0⟩, none⟩

/-- the foreign key resolves in either order, and the two errors are in the order of the statements -/
theorem buildModel_swap_authorsAndTitles : bookKeys.onlyTable? .sqlite = some "main.book" ∧
    authorKeys.onlyTable? .sqlite = some "main.author" ∧
    ∃ b b', buildModel .sqlite none (authorsAndTitles ++ [bookKeys, authorKeys]) = .ok b ∧
      buildModel .sqlite none (authorsAndTitles ++ [authorKeys, bookKeys]) = .ok b' ∧
      b.model.relationships.map (·.name) = ["book_writer_fkey"] ∧
      b.model.errors.map (·.code) = ["UNKNOWN_CONSTRAINT", "DUPLICATE_COLUMN"] ∧
      b'.model.errors.map (·.code) = ["DUPLICATE_COLUMN", "UNKNOWN_CONSTRAINT"] ∧ b.unordered = b'.unordered := by
  have own : bookKeys.onlyTable? .sqlite = some "main.book" := by decide +kernel
  have own' : authorKeys.onlyTable? .sqlite = some "main.author" := by decide +kernel
  have complete : ((buildModel .sqlite none (authorsAndTitles ++ [bookKeys, authorKeys])).toOption.bind fun b =>
      (buildModel .sqlite none (authorsAndTitles ++ [authorKeys, bookKeys])).toOption.map fun b' =>
        (b.model.relationships.map (·.name), b.model.errors.map (·.code), b'.model.errors.map (·.code))) =
      some (["book_writer_fkey"], ["UNKNOWN_CONSTRAINT", "DUPLICATE_COLUMN"],
        ["DUPLICATE_COLUMN", "UNKNOWN_CONSTRAINT"]) := by
    decide +kernel
  obtain ⟨b, built, complete⟩ := Option.bind_eq_some_iff.1 complete
  obtain ⟨b', built', same⟩ := Option.map_eq_some_iff.1 complete
  obtain ⟨relationships, same⟩ := Prod.mk.inj same
  obtain ⟨errors, errors'⟩ := Prod.mk.inj same
  have swapped := buildModel_swap (A := authorsAndTitles) (B := []) own own' (by decide) none
  rw [built, built'] at swapped
  exact ⟨own, own', b, b', toOption_eq_some_iff.1 built, toOption_eq_some_iff.1 built', relationships, errors, errors',
    Option.some.inj swapped⟩

end SchemaApi
