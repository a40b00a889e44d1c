import SchemaApi.Proofs.Schema.Edit
import SchemaApi.Proofs.Schema.Model
import SchemaApi.Proofs.Schema.Sound
/-!
What the restriction to a schema leaves of a model.

The tables of the schema stay, in their order, and no foreign key, relationship or junction of what is left mentions a
table that is gone (`closed_of_buildModel`). A foreign key is meant to go exactly if its table does (`Table.within`),
whatever spelling it names the table in. What is compared is the reference itself. A foreign key that resolved has the
reference of its table, so in a valid model both are the same. One that did not still has the words of its statement,
and goes although its table stays, unless these are the reference of the table (`restriction_iff`).
-/

namespace SchemaApi

variable {d : Dialect}

/-! ## What is meant to stay -/

/-- the tables of a schema, whatever case its name is written in -/
def tablesIn (d : Dialect) (wanted : String) (tables : List Table) : List Table :=
  tables.filter fun t => d.inSchema t.schema wanted

/-- the table that a foreign key names is one of these -/
def ForeignKey.refersInto (d : Dialect) (kept : List Table) (k : ForeignKey) : Bool :=
  kept.any fun t => t.key == k.targetKey d

/-- a table without the foreign keys to tables that are not among these -/
def Table.within (d : Dialect) (kept : List Table) (t : Table) : Table :=
  { t with constraints := t.constraints.filter fun c => (c.foreignKey?.map fun k => k.refersInto d kept).getD true }

/-- the tables of a schema, without exactly the foreign keys to other tables -/
def tablesWithin (d : Dialect) (wanted : String) (tables : List Table) : List Table :=
  (tablesIn d wanted tables).map (Table.within d (tablesIn d wanted tables))

/-- a foreign key to one of the tables names it by its reference -/
def Spelled (d : Dialect) (kept : List Table) : Prop :=
  ∀ t ∈ kept, ∀ k ∈ t.foreignKeys, k.refersInto d kept = true → k.target ∈ kept.map (·.ref)

/-- nothing of the model mentions a table that it does not have -/
structure Model.Closed (m : Model) : Prop where
  foreignKeys : ∀ t ∈ m.tables, ∀ k ∈ t.foreignKeys, k.target ∈ m.tables.map (·.ref)
  relationships : ∀ r ∈ m.relationships, ∀ ref, r.involves ref = true → ref ∈ m.tables.map (·.ref)
  junctionTables : ∀ ref ∈ m.junctionTables, ref ∈ m.tables.map (·.ref)

theorem ForeignKey.refersInto_iff {kept : List Table} {k : ForeignKey} :
    k.refersInto d kept = true ↔ ∃ t ∈ kept, t.key = k.targetKey d := by
  simp [refersInto]

/-! ## Relationships -/

theorem mem_refs_of_resolvedTarget {tables : List Table} {k : ForeignKey} {target : Table}
    (there : resolvedTarget tables k = some target) : k.target ∈ tables.map (·.ref) := by
  unfold resolvedTarget at there
  split at there
  · contradiction
  · rename_i t found
    have same : t.ref = k.target := by simpa using List.find?_some found
    exact List.mem_map.2 ⟨t, List.mem_reverse.1 (List.mem_of_find?_eq_some found), same⟩

/-- relationships are made of foreign keys that resolve -/
theorem mem_refs_of_involves {tables : List Table} {r : Relationship} (hr : r ∈ deriveRelationships tables)
    {ref : TableRef} (involved : r.involves ref = true) : ref ∈ tables.map (·.ref) := by
  obtain ⟨t, ht, hr⟩ := List.mem_flatMap.1 hr
  have own : t.ref ∈ tables.map (·.ref) := List.mem_map_of_mem ht
  simp only [Relationship.involves, Bool.or_eq_true, beq_iff_eq] at involved
  unfold tableRelationships at hr
  split at hr
  · rename_i left right linked
    obtain ⟨⟨source, fromThere⟩, ⟨target, toThere⟩⟩ := junctionKeys?_eq_some linked
    obtain rfl := List.mem_singleton.1 hr
    rcases involved with (rfl | rfl) | through
    · exact mem_refs_of_resolvedTarget fromThere
    · exact mem_refs_of_resolvedTarget toThere
    · rwa [← Option.some.inj through]
  · obtain ⟨k, hk, rfl⟩ := List.mem_map.1 hr
    obtain ⟨target, there⟩ := Option.isSome_iff_exists.1 (List.mem_filter.1 hk).2
    rcases involved with (rfl | rfl) | through
    · exact own
    · exact mem_refs_of_resolvedTarget there
    · simp [keyRelationship] at through

theorem mem_refs_of_junctionTables {tables : List Table} {ref : TableRef} (junction : ref ∈ junctionTables tables) :
    ref ∈ tables.map (·.ref) :=
  (List.filter_sublist.map _).subset junction

/-! ## One table -/

/-- two tests that are alike on a list keep the same of it, and no others do -/
theorem filter_eq_filter_iff {α : Type} {p q : α → Bool} {l : List α} :
    l.filter p = l.filter q ↔ ∀ a ∈ l, p a = q a := by
  refine ⟨fun same a ha => ?_, List.filter_congr⟩
  rw [Bool.eq_iff_iff]
  have kept : a ∈ l.filter p ↔ a ∈ l.filter q := by rw [same]
  simpa [ha] using kept

/-- the foreign keys that go are those that are meant to, if the tests are alike on them -/
theorem restrictTable_eq_within_iff {kept : List Table} {t : Table} :
    restrictTable (kept.map (·.ref)) t = t.within d kept ↔
      ∀ k ∈ t.foreignKeys, (kept.map (·.ref)).contains k.target = k.refersInto d kept := by
  have only : restrictTable (kept.map (·.ref)) t = t.within d kept ↔
      (restrictTable (kept.map (·.ref)) t).constraints = (t.within d kept).constraints :=
    ⟨congrArg Table.constraints, congrArg fun cs => { t with constraints := cs }⟩
  rw [only]
  refine filter_eq_filter_iff.trans ⟨fun alike k hk => ?_, fun alike c hc => ?_⟩
  · obtain ⟨c, hc, isKey⟩ := List.mem_filterMap.1 hk
    simpa [isKey] using alike c hc
  · cases isKey : c.foreignKey? with
    | none => rfl
    | some k => exact alike k (List.mem_filterMap.2 ⟨c, hc, isKey⟩)

section

variable {kept : List Table} (keyed : ∀ t ∈ kept, t.key = d.tableKey t.schema t.name)

include keyed

/-- a reference to a table names it -/
theorem refersInto_of_mem {k : ForeignKey} (inside : k.target ∈ kept.map (·.ref)) : k.refersInto d kept = true := by
  obtain ⟨t, ht, same⟩ := List.mem_map.1 inside
  refine ForeignKey.refersInto_iff.2 ⟨t, ht, ?_⟩
  rw [keyed t ht, ForeignKey.targetKey, ← same]
  rfl

theorem map_restrictTable_eq_iff :
    kept.map (restrictTable (kept.map (·.ref))) = kept.map (Table.within d kept) ↔ Spelled d kept := by
  rw [List.map_inj_left]
  refine forall₂_congr fun t _ => restrictTable_eq_within_iff.trans (forall₂_congr fun k _ => ?_)
  rw [Bool.eq_iff_iff, List.contains_iff_mem]
  exact ⟨fun alike => alike.2, fun spelled => ⟨refersInto_of_mem keyed, spelled⟩⟩

end

/-! ## Models -/

variable {statements : List Statement} {whole b : Built}

/-- whether there is a model, and with what errors, is no matter of the schema -/
theorem map_errors_buildModel (schemaFilter : Option String) (statements : List Statement) :
    (buildModel d schemaFilter statements).map (·.model.errors) =
      (buildModel d none statements).map (·.model.errors) := by
  simp only [Workspace.buildModel_eq]
  cases Workspace.applyAll d statements with
  | error r => rfl
  | ok w =>
    simp only [bind, Except.bind, Workspace.build]
    cases w.resolveAll d with
    | error r => rfl
    | ok w' =>
      simp only
      cases Workspace.finalFindings d w'.tables with
      | error r => rfl
      | ok final =>
        simp only
        cases w'.tables.mapM Draft.finish with
        | error r => rfl
        | ok tables => rfl

theorem tables_of_restricted {wanted : String} (all : buildModel d none statements = .ok whole)
    (built : buildModel d (some wanted) statements = .ok b) : b.model.tables =
      (tablesIn d wanted whole.model.tables).map (restrictTable ((tablesIn d wanted whole.model.tables).map (·.ref))) := by
  obtain ⟨whole', all', -, tables, -⟩ := buildModel_tables built
  rw [tables, Except.ok.inj (all'.symm.trans all)]
  rfl

theorem closed_of_buildModel {wanted : String} (built : buildModel d (some wanted) statements = .ok b) :
    b.model.Closed := by
  obtain ⟨whole, all, -, -, -, relationships, junctions⟩ := buildModel_tables built
  have tables := tables_of_restricted all built
  refine ⟨fun t' ht' k hk => ?_, fun r hr ref involved => ?_, fun ref hr => ?_⟩
  · rw [tables] at ht'
    obtain ⟨t, ht, rfl⟩ := List.mem_map.1 ht'
    rw [tables, List.map_map]
    exact (mem_foreignKeys_restrictTable.1 hk).2
  · exact mem_refs_of_involves (relationships ▸ hr) involved
  · exact mem_refs_of_junctionTables (junctions ▸ hr)

/-- the tables of all statements are found under their names, which differ -/
theorem keyed_of_buildModel (qualified : Workspace.Qualified statements)
    (all : buildModel d none statements = .ok whole) :
    (∀ t ∈ whole.model.tables, t.key = d.tableKey t.schema t.name) ∧ (whole.model.tables.map (·.key)).Nodup := by
  obtain ⟨w, applied, built⟩ := Workspace.exists_applied_of_buildModel all
  have tables : whole.model.tables = w.resolvedTables d := Workspace.tables_of_build built
  refine ⟨fun t ht => ?_, ?_⟩
  · obtain ⟨x, hx, rfl⟩ := (Workspace.mem_tables_of_build built).1 ht
    exact (Workspace.applyAll_addressed qualified applied x hx).keyed
  · rw [tables, Workspace.keys_resolvedTables]
    exact (Workspace.applyAll_regular applied).keys

/-- in a valid model, every foreign key has its table and a key of it -/
theorem resolved_of_valid (qualified : Workspace.Qualified statements)
    (all : buildModel d none statements = .ok whole) (valid : whole.model.isValid = true) :
    ∀ t ∈ whole.model.tables, ∀ k ∈ t.foreignKeys, ∃ target, resolvedTarget whole.model.tables k = some target := by
  obtain ⟨keyed, distinct⟩ := keyed_of_buildModel qualified all
  have refs := refs_nodup keyed distinct
  obtain ⟨w, applied, built⟩ := Workspace.exists_applied_of_buildModel all
  have sound := (Workspace.isValid_iff built).1 valid
  intro t ht k hk
  obtain ⟨x, hx, rfl⟩ := (Workspace.mem_tables_of_build built).1 ht
  rw [Draft.toTable_resolved] at hk
  obtain ⟨c', hc', isKey⟩ := List.mem_filterMap.1 hk
  obtain ⟨c, hc, rfl⟩ := List.mem_map.1 hc'
  obtain ⟨e, he, rfl⟩ := List.mem_map.1 hc
  cases own : e.constraint with
  | foreignKey k₀ =>
    rw [own] at isKey
    have resolves := sound.resolves x hx k₀ (List.mem_filterMap.2 ⟨_, hc, by rw [own]; rfl⟩)
    obtain ⟨k', found⟩ := Option.isSome_iff_exists.1 resolves
    obtain ⟨target, referred, there, -, lengths, known, rfl⟩ := resolution?_eq_some_iff.1 found
    have isKey : _ = k := Option.some.inj isKey
    rw [found, Option.getD_some] at isKey
    subst isKey
    have same : target.SameTarget (target.resolved d w.tables) := Draft.sameTarget_resolved
    refine ⟨(target.resolved d w.tables).toTable, (resolvedTarget_eq_some_iff refs).2
      ⟨(Workspace.mem_tables_of_build built).2 ⟨target, List.mem_of_find?_eq_some there, rfl⟩, same.ref, ?_, lengths, ?_⟩⟩
    · have filled := (Workspace.applyAll_addressed qualified applied x hx).filled e he k₀ own
      rw [← List.length_pos_iff] at filled ⊢
      exact lengths ▸ filled
    · have sets : (target.resolved d w.tables).toTable.uniqueSets = target.uniqueSets := same.uniqueSets
      exact sets ▸ known
  | _ => simp [own, Constraint.resolved, Constraint.foreignKey?] at isKey

/-- foreign keys that have their tables among others name them by their references -/
theorem spelled_of_resolved {tables : List Table} (keyed : ∀ t ∈ tables, t.key = d.tableKey t.schema t.name)
    (distinct : (tables.map (·.key)).Nodup)
    (resolved : ∀ t ∈ tables, ∀ k ∈ t.foreignKeys, ∃ target, resolvedTarget tables k = some target) (wanted : String) :
    Spelled d (tablesIn d wanted tables) := by
  intro t ht k hk inside
  obtain ⟨u, hu, named⟩ := ForeignKey.refersInto_iff.1 inside
  obtain ⟨target, there⟩ := resolved t (List.mem_of_mem_filter ht) k hk
  obtain ⟨htarget, ref, -⟩ := (resolvedTarget_eq_some_iff (refs_nodup keyed distinct)).1 there
  have same : u.key = target.key := by
    rw [named, keyed target htarget, ForeignKey.targetKey, ← ref]
    rfl
  rw [← ref, ← List.inj_on_of_nodup_map distinct (List.mem_of_mem_filter hu) htarget same]
  exact List.mem_map_of_mem hu

/-- The restriction to a schema is no matter of whether there is a model and of its errors, and what is left mentions
no table that is gone. Exactly the foreign keys to other tables go, if those to the tables of the schema name them by
their references. In a valid model they do, and every foreign key that is left has its target. -/
theorem restriction_iff (qualified : Workspace.Qualified statements) (wanted : String) :
    (buildModel d (some wanted) statements).map (·.model.errors) =
      (buildModel d none statements).map (·.model.errors) ∧
    ∀ whole b, buildModel d none statements = .ok whole → buildModel d (some wanted) statements = .ok b →
      b.model.Closed ∧
      (b.model.tables = tablesWithin d wanted whole.model.tables ↔ Spelled d (tablesIn d wanted whole.model.tables)) ∧
      (b.model.isValid = true → b.model.tables = tablesWithin d wanted whole.model.tables ∧
        ∀ t ∈ b.model.tables, ∀ k ∈ t.foreignKeys, ∃ target, resolvedTarget b.model.tables k = some target) := by
  refine ⟨map_errors_buildModel (some wanted) statements, fun whole b all built => ?_⟩
  obtain ⟨keyed, distinct⟩ := keyed_of_buildModel qualified all
  have tables := tables_of_restricted all built
  have exactly : b.model.tables = tablesWithin d wanted whole.model.tables ↔
      Spelled d (tablesIn d wanted whole.model.tables) := by
    rw [tables]
    exact map_restrictTable_eq_iff fun t ht => keyed t (List.mem_of_mem_filter ht)
  refine ⟨closed_of_buildModel built, exactly, fun valid => ?_⟩
  have errors : b.model.errors = whole.model.errors := by
    obtain ⟨whole', all', errors, -⟩ := buildModel_tables built
    rw [errors, Except.ok.inj (all'.symm.trans all)]
  have resolved := resolved_of_valid qualified all (by rwa [Model.isValid, ← errors])
  refine ⟨exactly.2 (spelled_of_resolved keyed distinct resolved wanted), ?_⟩
  rw [tables]
  exact resolved_restrictTables (refs_nodup keyed distinct) resolved wanted

/-! ### Two schemas -/

/-- a table with an identifier, and a column for each table that it refers to -/
def referring (name : QualifiedName) (refers : List QualifiedName) : Statement :=
  ⟨.createTable
    { name := name
      columns := ("id" :: refers.map (·.name)).map fun n => { name := n, type := none, position := ⟨1, 1, 0⟩ }
      constraints := .primaryKey ["id"] none ⟨1, 1, 0⟩ ::
        refers.map fun n => .foreignKey [n.name] { table := n } none ⟨1, 1, 0⟩ }, ⟨1, 1, 0⟩, none⟩

/-- orders of customers, with invoices that another schema keeps -/
def ordersAndInvoices : List Statement := [
  referring ⟨"customer", none⟩ [],
  referring ⟨"invoice", some "billing"⟩ [⟨"Customer", some "main"⟩],
  referring ⟨"order", some "Main"⟩ [⟨"CUSTOMER", none⟩, ⟨"Invoice", some "Billing"⟩]]

/-- how many foreign keys the tables have -/
def keyCounts (tables : List Table) : List (String × Nat) := tables.map fun t => (t.name, t.foreignKeys.length)

/-- an order still has its customer, whose name it has in another spelling, but not its invoice -/
theorem restriction_iff_ordersAndInvoices : Workspace.Qualified ordersAndInvoices ∧
    ∃ whole b, buildModel .sqlite none ordersAndInvoices = .ok whole ∧
      buildModel .sqlite (some "MAIN") ordersAndInvoices = .ok b ∧
      keyCounts whole.model.tables = [("customer", 0), ("invoice", 1), ("order", 2)] ∧
      keyCounts b.model.tables = [("customer", 0), ("order", 1)] ∧ b.model.Closed ∧
      b.model.tables = tablesWithin .sqlite "MAIN" whole.model.tables := by
  have qualified : Workspace.Qualified ordersAndInvoices := by
    simp [Workspace.Qualified, ordersAndInvoices, referring]
  have complete : ((buildModel .sqlite none ordersAndInvoices).toOption.bind fun whole =>
      (buildModel .sqlite (some "MAIN") ordersAndInvoices).toOption.map fun b =>
        (keyCounts whole.model.tables, keyCounts b.model.tables, b.model.isValid)) =
      some ([("customer", 0), ("invoice", 1), ("order", 2)], [("customer", 0), ("order", 1)], true) := by
    decide +kernel
  obtain ⟨whole, all, complete⟩ := Option.bind_eq_some_iff.1 complete
  obtain ⟨b, built, same⟩ := Option.map_eq_some_iff.1 complete
  obtain ⟨before, same⟩ := Prod.mk.inj same
  obtain ⟨after, valid⟩ := Prod.mk.inj same
  have all := toOption_eq_some_iff.1 all
  have built := toOption_eq_some_iff.1 built
  obtain ⟨closed, -, whenValid⟩ := (restriction_iff qualified "MAIN").2 whole b all built
  exact ⟨qualified, whole, b, all, built, before, after, closed, (whenValid valid).1⟩

/-- notes about people, by a column that is no key -/
def notesAboutPeople : List Statement := [
  ⟨.createTable { name := ⟨"person", none⟩, columns := [{ name := "name", type := none, position := ⟨1, 22, 21⟩ }] },
    ⟨1, 1, 0⟩, none⟩,
  ⟨.createTable
    { name := ⟨"note", none⟩
      columns := [{ name := "about", type := none, position := ⟨2, 20, 50⟩ }]
      constraints := [.foreignKey ["about"] { table := ⟨"person", none⟩, columns := ["name"] } none ⟨2, 27, 57⟩] },
    ⟨2, 1, 31⟩, none⟩]

/-- A foreign key that did not resolve goes, although its table stays: it names the table without the schema. -/
theorem not_tablesWithin_notesAboutPeople : ∃ whole b, buildModel .sqlite none notesAboutPeople = .ok whole ∧
    buildModel .sqlite (some "main") notesAboutPeople = .ok b ∧
    b.model.tables ≠ tablesWithin .sqlite "main" whole.model.tables := by
  have complete : ((buildModel .sqlite none notesAboutPeople).toOption.bind fun whole =>
      (buildModel .sqlite (some "main") notesAboutPeople).toOption.map fun b =>
        (keyCounts b.model.tables, keyCounts (tablesWithin .sqlite "main" whole.model.tables))) =
      some ([("person", 0), ("note", 0)], [("person", 0), ("note", 1)]) := by
    decide +kernel
  obtain ⟨whole, all, complete⟩ := Option.bind_eq_some_iff.1 complete
  obtain ⟨b, built, same⟩ := Option.map_eq_some_iff.1 complete
  obtain ⟨left, meant⟩ := Prod.mk.inj same
  refine ⟨whole, b, toOption_eq_some_iff.1 all, toOption_eq_some_iff.1 built, fun equal => ?_⟩
  rw [equal, meant] at left
  exact absurd left (by decide)

end SchemaApi
