import SchemaApi.Proofs.Schema.Declarations
import SchemaApi.Proofs.Schema.Place
import Mathlib.Data.List.Find
/-!
The order of declarations.

A declaration comes to what it comes to by itself, so to change the order of declarations is to change the order of
the tables and of what was found (`applyAll_perm`). Foreign keys look tables up by their keys, and no two tables have
the same one; so each resolves to the same in any order, and the model has the same tables, in the order of their
statements, the same errors and the same warnings.
-/

namespace SchemaApi

variable {d : Dialect}

/-! ## Look-up -/

theorem lookup_eq_find? {α : Type} (l : List (String × α)) (key : String) :
    l.lookup key = (l.find? fun e => e.1 == key).map (·.2) := by
  induction l with
  | nil => rfl
  | cons e l ih =>
    obtain ⟨k, a⟩ := e
    rw [List.lookup_cons, List.find?_cons, BEq.comm]
    cases k == key with
    | true => rfl
    | false => exact ih

/-- what a key means does not depend on the order, where no key is there twice -/
theorem find?_key_perm {α : Type} {key : α → String} {l l' : List α} (same : l'.Perm l) (distinct : (l.map key).Nodup)
    (k : String) : (l'.find? fun a => key a == k) = l.find? fun a => key a == k := by
  refine (List.find?_eq_find?_of_perm same.symm ?_).symm
  rintro a ⟨ha, isKey⟩ b ⟨hb, isKey'⟩
  exact List.inj_on_of_nodup_map distinct ha hb ((beq_iff_eq.1 isKey).trans (beq_iff_eq.1 isKey').symm)

theorem lookup_perm {α : Type} {l l' : List (String × α)} (same : l'.Perm l) (distinct : (l.map (·.1)).Nodup)
    (key : String) : l'.lookup key = l.lookup key := by
  rw [lookup_eq_find?, lookup_eq_find?, find?_key_perm same distinct]

/-! ## Tables in another order -/

section
variable {tables tables' : List Draft}

theorem resolution?_perm (same : tables'.Perm tables) (distinct : (tables.map (·.key)).Nodup) (k : ForeignKey) :
    resolution? d tables' k = resolution? d tables k := by
  rw [resolution?, resolution?, find?_key_perm same distinct]

theorem keyFindings_perm (same : tables'.Perm tables) (distinct : (tables.map (·.key)).Nodup) (t : Draft) (e : Placed) :
    t.keyFindings d tables' e = t.keyFindings d tables e := by
  simp only [Draft.keyFindings, Draft.resolvePlaced, Draft.resolve, find?_key_perm same distinct]

namespace Workspace

theorem tableFindings_perm (same : tables'.Perm tables) (distinct : (tables.map (·.key)).Nodup) :
    (tableFindings d tables').Perm (tableFindings d tables) := by
  have resolution : ∀ t : Draft, t.resolutionFindings d tables' = t.resolutionFindings d tables := fun t => by
    rw [Draft.resolutionFindings, Draft.resolutionFindings, funext (keyFindings_perm same distinct t)]
  simp only [tableFindings, resolution]
  exact (same.flatMap_right _).append (same.flatMap_right _)

theorem resolvedTables_perm {w w' : Workspace} (same : w'.tables.Perm w.tables)
    (distinct : (w.tables.map (·.key)).Nodup) : (w'.resolvedTables d).Perm (w.resolvedTables d) := by
  have resolution : Constraint.resolved d w'.tables = Constraint.resolved d w.tables := by
    funext c
    cases c with
    | foreignKey k => rw [Constraint.resolved, Constraint.resolved, resolution?_perm same distinct]
    | _ => rfl
  simp only [resolvedTables, Draft.toTable_resolved, resolution]
  exact same.map _

end Workspace

end

/-- what is shown of the tables of a schema does not depend on their order -/
theorem restrictTables_perm {tables tables' : List Table} (same : tables'.Perm tables) (wanted : String) :
    (restrictTables d wanted tables').1.Perm (restrictTables d wanted tables).1 ∧
      (restrictTables d wanted tables').2.Perm (restrictTables d wanted tables).2 := by
  have kept := same.filter fun t => d.inSchema t.schema wanted
  have refs : ∀ ref, ((tables'.filter fun t => d.inSchema t.schema wanted).map (·.ref)).contains ref =
      ((tables.filter fun t => d.inSchema t.schema wanted).map (·.ref)).contains ref :=
    fun ref => (kept.map _).contains_eq
  have restrict : restrictTable ((tables'.filter fun t => d.inSchema t.schema wanted).map (·.ref)) =
      restrictTable ((tables.filter fun t => d.inSchema t.schema wanted).map (·.ref)) := by
    funext t
    simp only [restrictTable, refs]
  simp only [restrictTables, foreignKeysOut, refs, restrict]
  exact ⟨kept.map _, kept.flatMap_right _⟩

/-! ## Statements in another order -/

namespace Workspace

variable {w : Workspace} {S S' : List Statement} {places : Bool}

/-- without the number of its statement, a declared table does not depend on where the statement stands -/
theorem alone_alike {enums enums' : List (String × EnumType)}
    (same : ∀ name, enums'.lookup name = enums.lookup name) {st : Statement} (declares : st.isDeclaration = true)
    (index index' : Nat) :
    (alone d enums' (st, index')).map (forget false) = (alone d enums (st, index)).map (forget false) := by
  rw [alone_congr same (by exact declares)]
  rcases body_of_isDeclaration declares with ⟨table, body⟩ | ⟨enum, body⟩
  · simp only [alone_createTable body]
    rcases map_eq_map_iff.1 (@agree_addTable d false st table index index' { enums := enums } _ rfl) with
      ⟨r, made', made⟩ | ⟨v', v, made', made, alike⟩
    · rw [made, made']
    · rw [made, made']
      simp only [forget, mk.injEq] at alike
      simp only [Except.map, forget, alike]
  · simp only [alone_createEnum body]

/-- what a declaration comes to by itself, without the number of its statement -/
def sheet (d : Dialect) (enums : List (String × EnumType)) (st : Statement) : Except Refusal Workspace :=
  (alone d enums (st, 0)).map (forget false)

/-- what all declarations come to, without the numbers of their statements -/
theorem map_mapM_alone (declares : ∀ st ∈ S, st.isDeclaration = true) (enums : List (String × EnumType)) :
    (S.zipIdx.mapM (alone d enums)).map (List.map (forget false)) = S.mapM (sheet d enums) := by
  conv_rhs => rw [← List.zipIdx_map_fst 0 S, List.mapM_map]
  rw [map_mapM]
  exact mapM_congr fun n hn => alone_alike (fun _ => rfl) (declares n.1 (List.fst_mem_of_mem_zipIdx hn)) 0 n.2

/-- tables in another order are the same, and so are enum types, as they are looked up by their keys -/
theorem exists_parts_perm {enums enums' : List (String × EnumType)} {parts : List Workspace}
    (declares : ∀ st ∈ S, st.isDeclaration = true) (same : S'.Perm S)
    (lookup : ∀ name, enums'.lookup name = enums.lookup name) (made : S.zipIdx.mapM (alone d enums) = .ok parts) :
    ∃ parts', S'.zipIdx.mapM (alone d enums') = .ok parts' ∧
      (parts'.map (forget false)).Perm (parts.map (forget false)) := by
  have declares' : ∀ st ∈ S', st.isDeclaration = true := fun st hst => declares st (same.mem_iff.1 hst)
  have sheets : S.mapM (sheet d enums) = .ok (parts.map (forget false)) := by
    rw [← map_mapM_alone declares, made]
    rfl
  obtain ⟨sheets', made', perm⟩ := exists_mapM_of_perm same sheets
  have congr : S'.mapM (sheet d enums') = S'.mapM (sheet d enums) :=
    mapM_congr fun st hst => alone_alike lookup (declares' st hst) 0 0
  rw [← congr, ← map_mapM_alone declares'] at made'
  obtain ⟨parts', ran, rfl⟩ := map_eq_ok_iff.1 made'
  exact ⟨parts', ran, perm⟩

theorem forget_append_concat (v : Workspace) (parts : List Workspace) :
    (v.append (concat parts)).forget places = (v.forget places).append (concat (parts.map (forget places))) := by
  simp only [forget, append, concat, List.map_append, List.map_flatMap, List.flatMap_map]

/-- declarations in another order make the same tables and findings in another order -/
theorem applyAll_perm (h : Declarations d S) (h' : Declarations d S') (same : S'.Perm S) (run : applyAll d S = .ok w) :
    ∃ w', applyAll d S' = .ok w' ∧ (w'.forget false).tables.Perm (w.forget false).tables ∧
      (w'.forget false).findings.Perm (w.forget false).findings := by
  obtain ⟨v, parts, declared, made, rfl⟩ := (applyAll_eq_ok_iff h).1 run
  rw [foldlM_enumTypes h] at declared
  obtain ⟨types, ran, rfl⟩ := map_eq_ok_iff.1 declared
  obtain ⟨types', ran', types_perm⟩ := exists_mapM_of_perm same ran
  have lookup : ∀ name, (concat types').enums.lookup name = (concat types).enums.lookup name :=
    lookup_perm (types_perm.flatMap_right _) (by rw [(concat_types h.each ran).2.2]; exact h.types)
  obtain ⟨parts', made', parts_perm⟩ := exists_parts_perm h.each same lookup made
  have declared' : S'.foldlM (enumPass d) {} = .ok (concat types') := by
    rw [foldlM_enumTypes h', ran']
    rfl
  refine ⟨_, (applyAll_eq_ok_iff h').2 ⟨_, parts', declared', made', rfl⟩, ?_⟩
  rw [forget_append_concat, forget_append_concat]
  exact ⟨((types_perm.flatMap_right _).map _).append (parts_perm.flatMap_right _),
    ((types_perm.flatMap_right _).map _).append (parts_perm.flatMap_right _)⟩

theorem shown_perm {tables tables' : List Table} (same : tables'.Perm tables) (schemaFilter : Option String) :
    (shown d schemaFilter tables').1.Perm (shown d schemaFilter tables).1 ∧
      (shown d schemaFilter tables').2.Perm (shown d schemaFilter tables).2 := by
  cases schemaFilter with
  | none => exact ⟨same, .refl _⟩
  | some wanted => exact restrictTables_perm same wanted

theorem map_forget_false (findings : Findings) : findings.map (Finding.forget false) = findings := List.map_id findings

/-- what is found does not depend on the order of the tables -/
theorem findings_perm {w' : Workspace} (tables : (w'.forget false).tables.Perm (w.forget false).tables)
    (findings : (w'.forget false).findings.Perm (w.forget false).findings) (distinct : (w.tables.map (·.key)).Nodup) :
    (w'.findings ++ tableFindings d w'.tables).Perm (w.findings ++ tableFindings d w.tables) := by
  have made : ∀ v : Workspace, tableFindings d v.tables = tableFindings d (v.forget false).tables := fun v => by
    have same := @tableFindings_forget d false v.tables
    rwa [map_forget_false, map_forget_false, eq_comm] at same
  have keys : ((w.forget false).tables.map (·.key)).Nodup := by
    rw [forget, List.map_map]
    exact distinct
  rw [made w, made w']
  simp only [forget, map_forget_false] at findings
  exact findings.append (tableFindings_perm tables keys)

end Workspace

/-- Declarations of tables and enum types in another order make the same tables under the same keys, in the order of
their statements, the same errors and the same warnings. -/
theorem build_perm {S S' : List Statement} (h : Declarations d S) (same : S'.Perm S) {schemaFilter : Option String}
    {b : Built} (built : buildModel d schemaFilter S = .ok b) : ∃ b', buildModel d schemaFilter S' = .ok b' ∧
      (∀ key, (b'.model.tables.find? fun t => t.key == key) = b.model.tables.find? fun t => t.key == key) ∧
      b'.model.tables.Perm b.model.tables ∧
      (b'.model.tables.map (·.key)).Sublist (S'.filterMap (·.tableKey? d)) ∧
      (schemaFilter = none → b'.model.tables.map (·.key) = S'.filterMap (·.tableKey? d)) ∧
      b'.model.errors.Perm b.model.errors ∧
      (b'.findings.filter Workspace.isModelWarning).Perm (b.findings.filter Workspace.isModelWarning) := by
  have h' : Declarations d S' := ⟨fun st hst => h.each st (same.mem_iff.1 hst),
    (same.filterMap _).nodup_iff.2 h.tables, (same.filterMap _).nodup_iff.2 h.types⟩
  obtain ⟨w, applied, built⟩ := Workspace.exists_applied_of_buildModel built
  obtain ⟨w', applied', tables, findings⟩ := Workspace.applyAll_perm h h' same applied
  obtain ⟨b', built'⟩ := (Workspace.exists_build_iff (d := d) schemaFilter).2
    (Workspace.named_perm tables (Workspace.named_of_build built))
  have keys := Workspace.keys_of_applyAll h applied
  have keys' := Workspace.keys_of_applyAll h' applied'
  have distinct : (w.tables.map (·.key)).Nodup := keys ▸ h.tables
  have resolved : (w'.resolvedTables d).Perm (w.resolvedTables d) := by
    have same := Workspace.resolvedTables_perm (d := d) tables (by rw [Workspace.forget, List.map_map]; exact distinct)
    rwa [Workspace.resolvedTables_forget, Workspace.resolvedTables_forget] at same
  have shown := Workspace.shown_perm (d := d) resolved schemaFilter
  have found := Workspace.findings_perm (d := d) tables findings distinct
  obtain ⟨errors, warnings⟩ := Workspace.findings_of_build built
  obtain ⟨errors', warnings'⟩ := Workspace.findings_of_build built'
  rw [← Workspace.tables_of_build built, ← Workspace.tables_of_build built'] at shown
  have sublist := Workspace.keys_shown_sublist (d := d) schemaFilter (w.resolvedTables d)
  have sublist' := Workspace.keys_shown_sublist (d := d) schemaFilter (w'.resolvedTables d)
  rw [← Workspace.tables_of_build built, Workspace.keys_resolvedTables, keys] at sublist
  rw [← Workspace.tables_of_build built', Workspace.keys_resolvedTables, keys'] at sublist'
  refine ⟨b', ?_, find?_key_perm shown.1 (sublist.nodup h.tables), shown.1, sublist', ?_, ?_, ?_⟩
  · rw [Workspace.buildModel_of_applied applied', built']
  · rintro rfl
    rw [Workspace.tables_of_build built', ← keys', ← Workspace.keys_resolvedTables d]
    rfl
  · rw [errors, errors', Workspace.tallied_of_applyAll applied, Workspace.tallied_of_applyAll applied']
    simp only [Findings.modelErrors, ← List.filter_append]
    exact found.filter _
  · rw [warnings, warnings']
    exact (found.filter _).append (shown.2.filter _)

/-- a table that refers to itself and to one that comes later and refers back, and their enum type at the end -/
def roomsAndDoors : List Statement := [
  ⟨.createTable
    { name := ⟨"room", none⟩
      columns := [{ name := "id", type := none, position := ⟨1, 1, 0⟩ },
        { name := "kind", type := some { base := "MATERIAL", identifier := some "material" }, position := ⟨1, 9, 8⟩ },
        { name := "exit", type := none, position := ⟨1, 1, 0⟩ }]
      constraints := [.primaryKey ["id"] none ⟨1, 1, 0⟩,
        .foreignKey ["exit"] { table := ⟨"door", none⟩ } none ⟨1, 1, 0⟩,
        .foreignKey ["id"] { table := ⟨"room", none⟩, columns := ["id"] } none ⟨1, 1, 0⟩] }, ⟨1, 1, 0⟩, none⟩,
  ⟨.createTable
    { name := ⟨"door", none⟩
      columns := [{ name := "room", type := none, position := ⟨2, 1, 0⟩ }]
      constraints := [.primaryKey ["room"] none ⟨2, 1, 0⟩,
        .foreignKey ["room"] { table := ⟨"room", none⟩ } none ⟨2, 1, 0⟩] }, ⟨2, 1, 0⟩, none⟩,
  ⟨.createEnum { name := ⟨"material", none⟩, values := ["wood", "stone", "wood"] }, ⟨3, 1, 0⟩, none⟩]

theorem build_perm_roomsAndDoors : ∃ b b', buildModel .postgresql none roomsAndDoors = .ok b ∧
    buildModel .postgresql none roomsAndDoors.reverse = .ok b' ∧
    (∀ key, (b'.model.tables.find? fun t => t.key == key) = b.model.tables.find? fun t => t.key == key) ∧
    b'.model.tables.Perm b.model.tables ∧ b'.model.tables.map (·.key) = ["public.door", "public.room"] ∧
    b'.model.errors.Perm b.model.errors ∧
    (b'.findings.filter Workspace.isModelWarning).Perm (b.findings.filter Workspace.isModelWarning) := by
  have shape : (buildModel .postgresql none roomsAndDoors).toOption.map (fun b => b.model.tables.map (·.key)) =
      some ["public.room", "public.door"] := by
    decide +kernel
  obtain ⟨b, built, -⟩ := Option.map_eq_some_iff.1 shape
  have built := toOption_eq_some_iff.1 built
  have declarations : Declarations .postgresql roomsAndDoors :=
    ⟨by decide, by decide +kernel, by decide +kernel⟩
  obtain ⟨b', built', found, tables, -, keys, errors, warnings⟩ :=
    build_perm declarations (List.reverse_perm roomsAndDoors) built
  have order : roomsAndDoors.reverse.filterMap (·.tableKey? .postgresql) = ["public.door", "public.room"] := by
    decide +kernel
  exact ⟨b, b', built, built', found, tables, (keys rfl).trans order, errors, warnings⟩

end SchemaApi
