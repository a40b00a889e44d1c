import SchemaApi.Proofs.Schema.Declarations
import SchemaApi.Proofs.Schema.Place
/-!
What is declared with a table may as well be added later.

A table that is declared without its last columns and constraints, and altered by `ADD` actions behind all other
declarations, gets the same additions in the same order (`applyAll_alter`): none of the tables that are declared in
between has a part in them, and they do not depend on the places at which they are written. So the model is the same
but for the places of its errors.
-/

namespace SchemaApi

variable {d : Dialect}

/-- the statement with another table in it -/
def Statement.declaring (st : Statement) (table : CreateTable) : Statement := { st with body := .createTable table }

/-- an `ALTER TABLE` statement at a place -/
def Statement.altering (alter : AlterTable × Workspace.Site) : Statement :=
  ⟨.alterTable alter.1, alter.2.position, alter.2.source⟩

namespace Workspace

variable {w : Workspace} {key : String}

/-! ## Statements that add -/

/-- `ALTER TABLE` statements that add to a table make these additions to it, one after the other -/
theorem foldlM_altering {alters : List (AlterTable × Site)} (named : ∀ a ∈ alters, a.1.name.key d = key)
    {additions : List Addition} (actions : alters.flatMap (·.1.actions) = additions.map Addition.action) :
    ∃ placed : List (Addition × Site), placed.map (·.1) = additions ∧ ∀ w : Workspace, key ∈ w.tables.map (·.key) →
      ∀ start, ((alters.map Statement.altering).zipIdx start).foldlM (changePass d) w = placed.foldlM (add d key) w := by
  induction alters generalizing additions with
  | nil =>
    rw [List.flatMap_nil, eq_comm, List.map_eq_nil_iff] at actions
    exact ⟨[], actions.symm, fun _ _ _ => rfl⟩
  | cons a rest ih =>
    rw [List.flatMap_cons, eq_comm, List.map_eq_append_iff] at actions
    obtain ⟨first, later, rfl, own, others⟩ := actions
    obtain ⟨placed, same, run⟩ := ih (fun b hb => named b (List.mem_cons_of_mem a hb)) others.symm
    refine ⟨first.map (·, a.2) ++ placed, ?_, fun w there start => ?_⟩
    · rw [List.map_append, same, List.map_map]
      exact congrArg (· ++ later) (List.map_id first)
    · have isTable : ∃ t, w.table? key = some t ∧ t.key = key := by
        obtain ⟨t, ht, isKey⟩ := List.mem_map.1 there
        cases found : w.table? key with
        | none => exact absurd isKey (table?_eq_none found t ht)
        | some t' => exact ⟨t', rfl, (table?_eq_some found).2⟩
      obtain ⟨t, found, isKey⟩ := isTable
      have step : changePass d w (Statement.altering a, start) = (first.map (·, a.2)).foldlM (add d key) w := by
        simp only [changePass, Statement.altering, attempt, alterTable, named a List.mem_cons_self, found, isKey, ← own,
          alterActions_eq]
        cases (first.map (·, a.2)).foldlM (add d key) w <;> rfl
      rw [List.map_cons, List.zipIdx_cons, List.foldlM_cons, step, List.foldlM_append]
      cases made : (first.map (·, a.2)).foldlM (add d key) w with
      | error r => rfl
      | ok w' =>
        refine run w' ?_ (start + 1)
        rw [((isLocal_additions _).keeps w w' made).keys]
        exact there

/-! ## One table among others -/

theorem emptyFindings_eq_ok (st : Statement) (table : CreateTable) (named : table.name.name ≠ "") :
    ∃ found, emptyFindings d st table = .ok found := by
  unfold emptyFindings
  split_ifs
  · rw [Draft.label?_eq (by exact named)]
    exact ⟨_, rfl⟩
  · exact ⟨[], rfl⟩

variable {enums : List (String × EnumType)} {st : Statement} {table : CreateTable}

/-- a new table with additions, each at its place in the declaration -/
def grown (d : Dialect) (enums : List (String × EnumType)) (st : Statement) (table : CreateTable) (index : Nat)
    (additions : List Addition) : Except Refusal Workspace :=
  (additions.map fun a => (a, ⟨a.position, st.source⟩)).foldlM (add d (table.name.key d))
    { tables := [newDraft d st table index], enums := enums }

theorem alone_eq_ok_iff (declares : st.body = .createTable table) {index : Nat} {part : Workspace} :
    alone d enums (st, index) = .ok part ↔ ∃ v found, grown d enums st table index table.additions = .ok v ∧
      emptyFindings d st table = .ok found ∧
        part = { tables := v.tables, findings := v.findings ++ found, errors := v.errors } := by
  rw [alone_createTable declares, addTable_eq]
  simp only [map_eq_ok_iff, bind_eq_ok_iff, List.nil_append]
  constructor
  · rintro ⟨_, ⟨v, run, found, made, rfl⟩, rfl⟩
    exact ⟨v, found, run, made, rfl⟩
  · rintro ⟨v, found, run, made, rfl⟩
    exact ⟨_, ⟨v, run, found, made, rfl⟩, rfl⟩

theorem outline_of_grown {index : Nat} {additions : List Addition}
    (run : grown d enums st table index additions = .ok w) :
    w.tables.map (·.key) = [table.name.key d] ∧ (∀ t ∈ w.tables, t.name = table.name.name) ∧ w.enums = enums ∧
      w.views = [] := by
  have kept := (isLocal_additions _).keeps _ w run
  refine ⟨kept.keys, fun t ht => ?_, kept.enums, kept.views⟩
  obtain ⟨x, hx, same⟩ := kept.names t ht
  rw [same, List.mem_singleton.1 hx]
  rfl

/-- the last additions are made to the table that the first ones gave -/
theorem grown_append_eq_ok_iff {index : Nat} {first later : List Addition} :
    grown d enums st table index (first ++ later) = .ok w ↔ ∃ v u, grown d enums st table index first = .ok v ∧
      (later.map fun a => (a, ⟨a.position, st.source⟩)).foldlM (add d (table.name.key d))
        { tables := v.tables, enums := enums } = .ok u ∧
      w = { u with findings := v.findings ++ u.findings, errors := v.errors ++ u.errors } := by
  generalize located : (later.map fun a => (a, (⟨a.position, st.source⟩ : Site))) = placed
  have split : grown d enums st table index (first ++ later) = grown d enums st table index first >>= fun v =>
      placed.foldlM (add d (table.name.key d)) v := by
    rw [grown, List.map_append, List.foldlM_append, grown, located]
  have start : ∀ v, grown d enums st table index first = .ok v →
      { v with findings := [], errors := [] } = ({ tables := v.tables, enums := enums } : Workspace) := fun v run => by
    obtain ⟨-, -, hasEnums, hasViews⟩ := outline_of_grown run
    rw [hasEnums, hasViews]
  simp only [split, bind_eq_ok_iff]
  constructor
  · rintro ⟨v, run, made⟩
    rw [foldlM_add_findings, start v run] at made
    obtain ⟨u, ran, rfl⟩ := map_eq_ok_iff.1 made
    exact ⟨v, u, run, ran, rfl⟩
  · rintro ⟨v, u, run, made, rfl⟩
    exact ⟨v, run, by rw [foldlM_add_findings, start v run, made]; rfl⟩

/-- what the declarations around that of a table come to, and the table with its first additions -/
structure Around (d : Dialect) (before after : List Statement) (st : Statement) (table : CreateTable)
    (first : List Addition) (types : Workspace) (left right : List Workspace) (v : Workspace) : Prop where
  ofTypes : (before ++ after).foldlM (enumPass d) {} = .ok types
  ofLeft : before.zipIdx.mapM (alone d types.enums) = .ok left
  ofRight : (after.zipIdx (before.length + 1)).mapM (alone d types.enums) = .ok right
  ofTable : grown d types.enums st table before.length first = .ok v

/-- which columns and constraints a table has when it is declared, the table with its first additions does not say -/
theorem Around.declaring {before after : List Statement} {first : List Addition} {types v : Workspace}
    {left right : List Workspace} (around : Around d before after st table first types left right v) {st' : Statement}
    {table' : CreateTable} (same : newDraft d st' table' = newDraft d st table) :
    Around d before after st' table' first types left right v where
  ofTypes := around.ofTypes
  ofLeft := around.ofLeft
  ofRight := around.ofRight
  ofTable := by
    have key : table'.name.key d = table.name.key d := congrArg Draft.key (congrFun same 0)
    have source : st'.source = st.source := congrArg Draft.source (congrFun same 0)
    rw [grown, same, key, source]
    exact around.ofTable

theorem around_append_iff {before after : List Statement} {first later : List Addition} {types : Workspace}
    {left right : List Workspace} : Around d before after st table (first ++ later) types left right w ↔
      ∃ v u, Around d before after st table first types left right v ∧
        (later.map fun a => (a, ⟨a.position, st.source⟩)).foldlM (add d (table.name.key d))
          { tables := v.tables, enums := types.enums } = .ok u ∧
        w = { u with findings := v.findings ++ u.findings, errors := v.errors ++ u.errors } := by
  constructor
  · rintro ⟨ofTypes, ofLeft, ofRight, ofTable⟩
    obtain ⟨v, u, made, added, same⟩ := grown_append_eq_ok_iff.1 ofTable
    exact ⟨v, u, ⟨ofTypes, ofLeft, ofRight, made⟩, added, same⟩
  · rintro ⟨v, u, ⟨ofTypes, ofLeft, ofRight, made⟩, added, same⟩
    exact ⟨ofTypes, ofLeft, ofRight, grown_append_eq_ok_iff.2 ⟨v, u, made, added, same⟩⟩

/-- the table between the others, behind the enum types -/
def between (types : Workspace) (left right : List Workspace) (tables : List Draft) (found : Ledger) : Workspace :=
  types.append ((concat left).append
    (append { tables := tables, findings := found.findings, errors := found.errors } (concat right)))

variable {before after : List Statement} {types v : Workspace} {left right : List Workspace}

theorem applyAll_around_eq_ok_iff (h : Declarations d (before ++ st :: after)) (declares : st.body = .createTable table) :
    applyAll d (before ++ st :: after) = .ok w ↔ ∃ types left right v,
      Around d before after st table table.additions types left right v ∧ ∃ found,
        emptyFindings d st table = .ok found ∧ w = between types left right v.tables ⟨v.findings ++ found, v.errors⟩ := by
  have idle : ∀ w, enumPass d w st = .ok w := fun w => by simp only [enumPass, declares]
  have types : (before ++ st :: after).foldlM (enumPass d) {} = (before ++ after).foldlM (enumPass d) {} := by
    simp only [List.foldlM_append, List.foldlM_cons, idle]
    rfl
  have joined : ∀ (types : Workspace) left tables findings errors right,
      types.append (concat (left ++ { tables := tables, findings := findings, errors := errors } :: right)) =
        between types left right tables ⟨findings, errors⟩ := fun types left tables findings errors right => by
    simp only [between, concat, append, List.flatMap_append, List.flatMap_cons]
  rw [applyAll_eq_ok_iff h, types, List.zipIdx_append, List.zipIdx_cons, Nat.zero_add]
  simp only [List.mapM_append, List.mapM_cons, bind_eq_ok_iff, pure_eq_ok_iff, alone_eq_ok_iff declares]
  constructor
  · rintro ⟨types, _, run, ⟨left, before, _, ⟨_, ⟨v, found, own, empty, rfl⟩, right, after, rfl⟩, rfl⟩, rfl⟩
    exact ⟨types, left, right, v, ⟨run, before, after, own⟩, found, empty, joined ..⟩
  · rintro ⟨types, left, right, v, ⟨run, before, after, own⟩, found, empty, rfl⟩
    exact ⟨types, _, run, ⟨left, before, _, ⟨_, ⟨v, found, own, empty, rfl⟩, right, after, rfl⟩, rfl⟩, (joined ..).symm⟩

/-- the schema with the last additions to a table apart from the first ones -/
theorem applyAll_split_eq_ok_iff (h : Declarations d (before ++ st :: after)) (declares : st.body = .createTable table)
    {first later : List Addition} (split : table.additions = first ++ later) :
    applyAll d (before ++ st :: after) = .ok w ↔ ∃ types left right v,
      Around d before after st table first types left right v ∧ ∃ found u, emptyFindings d st table = .ok found ∧
        (later.map fun a => (a, ⟨a.position, st.source⟩)).foldlM (add d (table.name.key d))
          { tables := v.tables, enums := types.enums } = .ok u ∧
        w = between types left right u.tables ⟨v.findings ++ u.findings ++ found, v.errors ++ u.errors⟩ := by
  rw [applyAll_around_eq_ok_iff h declares, split]
  constructor
  · rintro ⟨types, left, right, _, around, found, empty, rfl⟩
    obtain ⟨v, u, first, made, rfl⟩ := around_append_iff.1 around
    exact ⟨types, left, right, v, first, found, u, empty, made, rfl⟩
  · rintro ⟨types, left, right, v, around, found, u, empty, made, rfl⟩
    exact ⟨types, left, right, _, around_append_iff.2 ⟨v, u, around, made, rfl⟩, found, empty, rfl⟩

/-- additions to one of the tables are made to it alone, and what they find comes last -/
theorem foldlM_add_between {first : List Addition} (around : Around d before after st table first types left right v)
    {found : Ledger} (distinct : ((between types left right v.tables found).tables.map (·.key)).Nodup)
    (placed : List (Addition × Site)) :
    placed.foldlM (add d (table.name.key d)) (between types left right v.tables found) =
      (placed.foldlM (add d (table.name.key d)) { tables := v.tables, enums := types.enums }).map fun u =>
        append (between types left right u.tables found) { findings := u.findings, errors := u.errors } := by
  have noLeft := enums_concat_parts around.ofLeft
  have noRight := enums_concat_parts around.ofRight
  -- the other tables are the surroundings of the table
  let others : Surroundings :=
    { left := types.tables ++ (concat left).tables
      right := (concat right).tables
      enums := types.enums
      views := types.views
      findings := types.findings ++ ((concat left).findings ++ (found.findings ++ (concat right).findings))
      errors := types.errors ++ ((concat left).errors ++ (found.errors ++ (concat right).errors)) }
  have framed : ∀ v : Workspace, between types left right v.tables found =
      within others { tables := v.tables, enums := types.enums } := fun v => by
    simp only [others, between, append, within, noLeft, noRight, List.append_nil, List.append_assoc]
  have suits : others.Suits (table.name.key d) types.enums := by
    have keys := (outline_of_grown around.ofTable).1
    rw [framed, within, List.map_append, List.map_append, keys, List.append_assoc, List.singleton_append,
      List.nodup_append, List.nodup_cons] at distinct
    refine ⟨fun t ht own => ?_, fun t ht own => ?_, fun _ => rfl⟩
    · exact distinct.2.2 t.key (List.mem_map_of_mem ht) (table.name.key d) List.mem_cons_self own
    · exact distinct.2.1.1 (own ▸ List.mem_map_of_mem ht)
  rw [framed, foldlM_add_within (w := { tables := v.tables, enums := types.enums }) suits]
  cases placed.foldlM (add d (table.name.key d)) { tables := v.tables, enums := types.enums } with
  | error r => rfl
  | ok u =>
    refine congrArg Except.ok ?_
    simp only [framed u, append, within, List.append_nil, List.append_assoc]

theorem applyAll_altered_eq_ok_iff (h : Declarations d (before ++ st :: after)) (declares : st.body = .createTable table)
    {alters : List (AlterTable × Site)} {placed : List (Addition × Site)}
    (run : ∀ w : Workspace, table.name.key d ∈ w.tables.map (·.key) → ∀ start,
      ((alters.map Statement.altering).zipIdx start).foldlM (changePass d) w =
        placed.foldlM (add d (table.name.key d)) w) :
    applyAll d (before ++ st :: after ++ alters.map Statement.altering) = .ok w ↔ ∃ types left right v,
      Around d before after st table table.additions types left right v ∧ ∃ found u,
        emptyFindings d st table = .ok found ∧
        placed.foldlM (add d (table.name.key d)) { tables := v.tables, enums := types.enums } = .ok u ∧
        w = append (between types left right u.tables ⟨v.findings ++ found, v.errors⟩)
          { findings := u.findings, errors := u.errors } := by
  have changes : ∀ a ∈ alters.map Statement.altering, a.isChange = true := List.forall_mem_map.2 fun _ _ => rfl
  have altered : ∀ w, applyAll d (before ++ st :: after) = .ok w →
      ((alters.map Statement.altering).zipIdx (before ++ st :: after).length).foldlM (changePass d) w =
        placed.foldlM (add d (table.name.key d)) w := by
    intro w applied
    refine run w ?_ _
    rw [keys_of_applyAll h applied, List.filterMap_append, List.filterMap_cons]
    simp [Statement.tableKey?, Statement.table?, declares]
  rw [applyAll_append changes, bind_eq_ok_iff]
  constructor
  · rintro ⟨w₁, applied, made⟩
    rw [altered w₁ applied] at made
    have distinct := keys_of_applyAll h applied ▸ h.tables
    obtain ⟨types, left, right, v, around, found, empty, rfl⟩ := (applyAll_around_eq_ok_iff h declares).1 applied
    rw [foldlM_add_between around distinct] at made
    obtain ⟨u, ran, rfl⟩ := map_eq_ok_iff.1 made
    exact ⟨types, left, right, v, around, found, u, empty, ran, rfl⟩
  · rintro ⟨types, left, right, v, around, found, u, empty, ran, rfl⟩
    have applied := (applyAll_around_eq_ok_iff h declares).2 ⟨types, left, right, v, around, found, empty, rfl⟩
    have distinct := keys_of_applyAll h applied ▸ h.tables
    exact ⟨_, applied, by rw [altered _ applied, foldlM_add_between around distinct, ran]; rfl⟩

/-! ## Additions that come later -/

/-- the schemas are the same but for warnings and for the places of things -/
structure Alike (w w' : Workspace) : Prop where
  tables : w'.tables.map (Draft.forget true) = w.tables.map (Draft.forget true)
  enums : w'.enums = w.enums
  views : w'.views = w.views
  errors : (w'.errors.map (Finding.forget true)).Perm (w.errors.map (Finding.forget true))

theorem alike_between {u u' : Workspace} (same : u'.forget true = u.forget true) (found found' findings errors : Findings) :
    Alike (between types left right u.tables ⟨findings ++ u.findings ++ found, errors ++ u.errors⟩)
      (append (between types left right u'.tables ⟨findings ++ found', errors⟩)
        { findings := u'.findings, errors := u'.errors }) where
  tables := by
    have tables : u'.tables.map (Draft.forget true) = u.tables.map (Draft.forget true) := congrArg Workspace.tables same
    simp only [between, append, List.map_append, tables, List.append_nil]
  enums := by simp only [between, append, List.append_nil]
  views := by simp only [between, append, List.append_nil]
  errors := by
    have own : u'.errors.map (Finding.forget true) = u.errors.map (Finding.forget true) :=
      congrArg Workspace.errors same
    simp only [between, append, List.map_append, own, List.append_assoc]
    refine List.Perm.append_left _ (List.Perm.append_left _ (List.Perm.append_left _ ?_))
    exact List.perm_append_comm

/-- where the table has its name after additions, it was declared with a name -/
theorem filled_of_around {first : List Addition} (around : Around d before after st table first types left right v)
    {placed : List (Addition × Site)} {u : Workspace}
    (made : placed.foldlM (add d (table.name.key d)) { tables := v.tables, enums := types.enums } = .ok u)
    (named : ∀ t ∈ u.tables, t.name ≠ "") : table.name.name ≠ "" := by
  obtain ⟨keys, names, -, -⟩ := outline_of_grown around.ofTable
  have kept := (isLocal_additions placed).keeps _ u made
  obtain ⟨t, rest, tables, -, -⟩ := List.map_eq_cons_iff.1 (kept.keys.trans keys)
  have ht : t ∈ u.tables := tables ▸ List.mem_cons_self
  obtain ⟨x, hx, same⟩ := kept.names t ht
  rw [← names x hx, ← same]
  exact named t ht

theorem Alike.build {b b' : Built} {schemaFilter : Option String} {w w' : Workspace} (alike : Alike w w')
    (built : w.build d schemaFilter = .ok b) (built' : w'.build d schemaFilter = .ok b') :
    b'.model = { b.model with errors := b'.model.errors } ∧
      (b'.model.errors.map fun e => (e.code, e.message)).Perm (b.model.errors.map fun e => (e.code, e.message)) := by
  have resolved : w'.resolvedTables d = w.resolvedTables d := by
    rw [← @resolvedTables_forget d true w', ← @resolvedTables_forget d true w]
    simp only [resolvedTables, forget, alike.tables]
  have tables : b'.model.tables = b.model.tables := by
    rw [tables_of_build built, tables_of_build built', resolved]
  refine ⟨?_, ?_⟩
  · rw [model_of_build built, model_of_build built', tables, alike.enums, alike.views]
  · have found : (tableFindings d w'.tables).map (Finding.forget true) =
        (tableFindings d w.tables).map (Finding.forget true) := by
      rw [← tableFindings_forget, alike.tables, tableFindings_forget]
    have inTables : Findings.modelErrors ((tableFindings d w'.tables).map (Finding.forget true)) =
        Findings.modelErrors ((tableFindings d w.tables).map (Finding.forget true)) := congrArg _ found
    rw [modelErrors_forget, modelErrors_forget] at inTables
    have errors : (b'.model.errors.map (Finding.forget true)).Perm (b.model.errors.map (Finding.forget true)) := by
      rw [(findings_of_build built).1, (findings_of_build built').1]
      rw [List.map_append, List.map_append, inTables]
      exact alike.errors.append_right _
    have texts : ∀ findings : Findings, (findings.map fun e => (e.code, e.message)) =
        (findings.map (Finding.forget true)).map fun e => (e.code, e.message) := fun findings => by
      rw [List.map_map]
      rfl
    rw [texts, texts b.model.errors]
    exact errors.map _

end Workspace

section
variable {before after : List Statement} {st : Statement} {table : CreateTable} {kept moved : List ColumnClause}
  {stay go : List ConstraintClause} {alters : List (AlterTable × Workspace.Site)}

/-- the columns that a table keeps and the constraints that stay come first -/
theorem additions_eq (columns : table.columns = kept ++ moved) (constraints : table.constraints = stay ++ go)
    (whole : moved = [] ∨ stay = []) : table.additions =
      CreateTable.additions { table with columns := kept, constraints := stay } ++
        (moved.map .column ++ go.map .constraint) := by
  rcases whole with rfl | rfl
  · simp [CreateTable.additions, columns, constraints]
  · simp [CreateTable.additions, columns, constraints]

theorem declarations_declaring (h : Declarations d (before ++ st :: after)) (declares : st.body = .createTable table)
    (short : CreateTable) (same : short.name = table.name) : Declarations d (before ++ st.declaring short :: after) := by
  have tableKey : (st.declaring short).tableKey? d = st.tableKey? d := by
    simp only [Statement.tableKey?, Statement.table?, Statement.declaring, declares, Option.map_some, same]
  have typeKey : (st.declaring short).typeKey? d = st.typeKey? d := by
    simp only [Statement.typeKey?, Statement.enum?, Statement.declaring, declares]
  refine ⟨fun x hx => ?_, ?_, ?_⟩
  · rcases List.mem_append.1 hx with hx | hx
    · exact h.each x (List.mem_append_left _ hx)
    · rcases List.mem_cons.1 hx with rfl | hx
      · rfl
      · exact h.each x (List.mem_append_right _ (List.mem_cons_of_mem _ hx))
  · have keys := h.tables
    rw [List.filterMap_append, List.filterMap_cons] at keys ⊢
    rwa [tableKey]
  · have keys := h.types
    rw [List.filterMap_append, List.filterMap_cons] at keys ⊢
    rwa [typeKey]

/-- additions that come later make the same table, and find the same in it -/
theorem applyAll_alter (h : Declarations d (before ++ st :: after)) (declares : st.body = .createTable table)
    (columns : table.columns = kept ++ moved) (constraints : table.constraints = stay ++ go)
    (whole : moved = [] ∨ stay = []) (named : ∀ a ∈ alters, a.1.name.key d = table.name.key d)
    (actions : alters.flatMap (·.1.actions) = moved.map (.addColumn · false) ++ go.map .addConstraint) :
    (∀ w, Workspace.applyAll d (before ++ st :: after) = .ok w → w.Named →
      ∃ w', Workspace.applyAll d (before ++ st.declaring { table with columns := kept, constraints := stay } :: after ++
        alters.map Statement.altering) = .ok w' ∧ w.Alike w') ∧
    ∀ w', Workspace.applyAll d (before ++ st.declaring { table with columns := kept, constraints := stay } :: after ++
        alters.map Statement.altering) = .ok w' → w'.Named →
      ∃ w, Workspace.applyAll d (before ++ st :: after) = .ok w ∧ w.Alike w' := by
  have h' := declarations_declaring h declares { table with columns := kept, constraints := stay } rfl
  have later : alters.flatMap (·.1.actions) =
      (moved.map Addition.column ++ go.map Addition.constraint).map Addition.action := by
    rw [actions, List.map_append, List.map_map, List.map_map]
    rfl
  obtain ⟨placed, same, run⟩ := Workspace.foldlM_altering named later
  -- additions are the same wherever they are written
  have agree : Workspace.Agree true (fun w => ((moved.map Addition.column ++ go.map Addition.constraint).map fun a =>
      (a, (⟨a.position, st.source⟩ : Workspace.Site))).foldlM (Workspace.add d (table.name.key d)) w)
      fun w => placed.foldlM (Workspace.add d (table.name.key d)) w := by
    refine Workspace.agree_additions ?_
    rw [← same, List.map_map, List.forall₂_map_left_iff, List.forall₂_same]
    exact fun _ _ => ⟨rfl, fun kept => absurd kept Bool.true_eq_false.mp⟩
  have split := additions_eq columns constraints whole
  constructor
  · intro w applied names
    obtain ⟨types, left, right, v, around, found, u, empty, made, rfl⟩ :=
      (Workspace.applyAll_split_eq_ok_iff h declares split).1 applied
    have filled := Workspace.filled_of_around around made fun t ht =>
      names.tables t (by simp [Workspace.between, Workspace.append, ht])
    obtain ⟨u', made', alike⟩ := agree.exists_eq_ok made
    obtain ⟨found', empty'⟩ := Workspace.emptyFindings_eq_ok (d := d)
      (st.declaring { table with columns := kept, constraints := stay })
      { table with columns := kept, constraints := stay } filled
    exact ⟨_, (Workspace.applyAll_altered_eq_ok_iff h' rfl run).2 ⟨types, left, right, v, around.declaring rfl,
      found', u', empty', made', rfl⟩, Workspace.alike_between alike ..⟩
  · intro w' applied names
    obtain ⟨types, left, right, v, around, found', u', empty', made', rfl⟩ :=
      (Workspace.applyAll_altered_eq_ok_iff h' rfl run).1 applied
    have filled := Workspace.filled_of_around around made' fun t ht =>
      names.tables t (by simp [Workspace.between, Workspace.append, ht])
    obtain ⟨u, made, alike⟩ := agree.symm.exists_eq_ok made'
    obtain ⟨found, empty⟩ := Workspace.emptyFindings_eq_ok (d := d) st table filled
    exact ⟨_, (Workspace.applyAll_split_eq_ok_iff h declares split).2 ⟨types, left, right, v, around.declaring rfl,
      found, u, empty, made, rfl⟩, Workspace.alike_between alike.symm ..⟩

/-- To add the last table constraints, or the last columns and all table constraints, of a declared table by `ALTER TABLE`
statements behind all declarations is to declare them with the table: there is a model if there was one, and it is the
same model but for the places of its errors. -/
theorem build_alter (h : Declarations d (before ++ st :: after)) (declares : st.body = .createTable table)
    (columns : table.columns = kept ++ moved) (constraints : table.constraints = stay ++ go)
    (whole : moved = [] ∨ stay = []) (named : ∀ a ∈ alters, a.1.name.key d = table.name.key d)
    (actions : alters.flatMap (·.1.actions) = moved.map (.addColumn · false) ++ go.map .addConstraint)
    (schemaFilter : Option String) :
    ((∃ b, buildModel d schemaFilter (before ++ st :: after) = .ok b) ↔
      ∃ b', buildModel d schemaFilter (before ++ st.declaring { table with columns := kept, constraints := stay } ::
        after ++ alters.map Statement.altering) = .ok b') ∧
    ∀ b b', buildModel d schemaFilter (before ++ st :: after) = .ok b →
      buildModel d schemaFilter (before ++ st.declaring { table with columns := kept, constraints := stay } :: after ++
        alters.map Statement.altering) = .ok b' →
      b'.model = { b.model with errors := b'.model.errors } ∧
        (b'.model.errors.map fun e => (e.code, e.message)).Perm (b.model.errors.map fun e => (e.code, e.message)) := by
  obtain ⟨later, sooner⟩ := applyAll_alter h declares columns constraints whole named actions
  refine ⟨⟨?_, ?_⟩, ?_⟩
  · rintro ⟨b, built⟩
    obtain ⟨w, applied, built⟩ := Workspace.exists_applied_of_buildModel built
    have names := Workspace.named_of_build built
    obtain ⟨w', applied', alike⟩ := later w applied names
    rw [Workspace.buildModel_of_applied applied', Workspace.exists_build_iff]
    exact Workspace.named_perm (.of_eq alike.tables) names
  · rintro ⟨b', built'⟩
    obtain ⟨w', applied', built'⟩ := Workspace.exists_applied_of_buildModel built'
    have names := Workspace.named_of_build built'
    obtain ⟨w, applied, alike⟩ := sooner w' applied' names
    rw [Workspace.buildModel_of_applied applied, Workspace.exists_build_iff]
    exact Workspace.named_perm (.of_eq alike.tables.symm) names
  · intro b b' built built'
    obtain ⟨w, applied, built⟩ := Workspace.exists_applied_of_buildModel built
    obtain ⟨w', applied', alike⟩ := later w applied (Workspace.named_of_build built)
    rw [Workspace.buildModel_of_applied applied'] at built'
    exact alike.build built built'

end

/-- a table with a column that is declared twice and a constraint on a column that is not there -/
def city : CreateTable where
  name := ⟨"city", none⟩
  columns := [
    { name := "id", type := none, position := ⟨1, 1, 0⟩ },
    { name := "name", type := none, position := ⟨2, 1, 0⟩ },
    { name := "Name", type := none, position := ⟨3, 1, 0⟩ }]
  constraints := [.primaryKey ["ID"] none ⟨4, 1, 0⟩, .unique ["mayor"] none ⟨5, 1, 0⟩]

/-- a table that refers to the first one -/
def road : Statement where
  body := .createTable
    { name := ⟨"road", none⟩
      columns := [{ name := "start", type := none, position := ⟨6, 1, 0⟩ }]
      constraints := [.foreignKey ["start"] { table := ⟨"City", none⟩ } none ⟨7, 1, 0⟩] }
  position := ⟨6, 1, 0⟩

/-- the names and the constraints of the first table, in two statements -/
def cityAlters : List (AlterTable × Workspace.Site) := [
  ({ name := ⟨"CITY", none⟩, actions := (city.columns.drop 1).map (.addColumn · false) }, ⟨⟨8, 1, 0⟩, none⟩),
  ({ name := ⟨"city", some "main"⟩, actions := city.constraints.map .addConstraint }, ⟨⟨9, 1, 0⟩, none⟩)]

theorem build_alter_city : ∃ b b', buildModel .sqlite none [⟨.createTable city, ⟨1, 1, 0⟩, none⟩, road] = .ok b ∧
    buildModel .sqlite none ([⟨.createTable { city with columns := city.columns.take 1, constraints := [] },
      ⟨1, 1, 0⟩, none⟩, road] ++ cityAlters.map Statement.altering) = .ok b' ∧
    b'.model = { b.model with errors := b'.model.errors } ∧
    (b'.model.errors.map fun e => (e.code, e.message)).Perm (b.model.errors.map fun e => (e.code, e.message)) ∧
    b.model.errors.map (·.code) = ["DUPLICATE_COLUMN", "UNKNOWN_COLUMN"] := by
  have shape : (buildModel .sqlite none [⟨.createTable city, ⟨1, 1, 0⟩, none⟩, road]).toOption.map
      (fun b => b.model.errors.map (·.code)) = some ["DUPLICATE_COLUMN", "UNKNOWN_COLUMN"] := by
    decide +kernel
  obtain ⟨b, built, codes⟩ := Option.map_eq_some_iff.1 shape
  have built := toOption_eq_some_iff.1 built
  have declarations : Declarations .sqlite ([] ++ ⟨.createTable city, ⟨1, 1, 0⟩, none⟩ :: [road]) :=
    ⟨by decide, by decide +kernel, by decide +kernel⟩
  obtain ⟨iff, same⟩ := @build_alter .sqlite [] [road] ⟨.createTable city, ⟨1, 1, 0⟩, none⟩ city
    (city.columns.take 1) (city.columns.drop 1) [] city.constraints cityAlters declarations rfl rfl rfl (Or.inr rfl)
    (by decide +kernel) (by decide +kernel) none
  obtain ⟨b', built'⟩ := iff.1 ⟨b, built⟩
  obtain ⟨model, errors⟩ := same b b' built built'
  exact ⟨b, b', built, built', model, errors, codes⟩

end SchemaApi
