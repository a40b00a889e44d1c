import SchemaApi.Proofs.Schema.Agreement
/-!
Models without errors, restricted to a schema or not.

The restriction leaves tables out, and with them the foreign keys that refer to them. What stays is as
well-formed as before, and the foreign keys that stay still find their targets: these stay as well, with all
that foreign keys may refer to. So the tables of a model without errors are `SoundTables`.
-/

namespace SchemaApi

variable {d : Dialect}

/-! ## Restriction -/

/-- a constraint stays in a table that is restricted to some tables -/
def staysIn (kept : List TableRef) (c : Constraint) : Bool :=
  (c.foreignKey?.map fun k => kept.contains k.target).getD true

theorem staysIn_of_foreignKey?_eq_none {kept : List TableRef} {c : Constraint} (other : c.foreignKey? = none) :
    staysIn kept c = true := by
  rw [staysIn, other]
  rfl

theorem mem_foreignKeys_restrictTable {kept : List TableRef} {t : Table} {k : ForeignKey} :
    k ∈ (restrictTable kept t).foreignKeys ↔ k ∈ t.foreignKeys ∧ k.target ∈ kept := by
  simp only [restrictTable, Table.foreignKeys, List.mem_filterMap, List.mem_filter]
  constructor
  · rintro ⟨c, ⟨hc, stays⟩, isKey⟩
    rw [isKey] at stays
    exact ⟨⟨c, hc, isKey⟩, by simpa using stays⟩
  · rintro ⟨⟨c, hc, isKey⟩, inside⟩
    refine ⟨c, ⟨hc, ?_⟩, isKey⟩
    rw [isKey]
    simpa using inside

/-- what is read only from constraints that are no foreign keys is read from the restricted ones -/
theorem filterMap_staysIn {α : Type} {f : Constraint → Option α} (other : ∀ k, f (.foreignKey k) = none)
    (kept : List TableRef) (cs : List Constraint) :
    (cs.filter (staysIn kept)).filterMap f = cs.filterMap f := by
  rw [List.filterMap_filter]
  refine List.filterMap_congr fun c _ => ?_
  cases c with
  | foreignKey k => simp [other k]
  | _ => rw [staysIn_of_foreignKey?_eq_none rfl, if_pos rfl]

/-- foreign keys may refer to the same columns as before -/
theorem uniqueSets_restrictTable (kept : List TableRef) (t : Table) :
    (restrictTable kept t).uniqueSets = t.uniqueSets := by
  have key : (restrictTable kept t).primaryKey? = t.primaryKey? := by
    have same := filterMap_staysIn (fun _ => rfl : ∀ k, (Constraint.foreignKey k).primaryColumns? = none)
      kept t.constraints
    rw [Table.primaryKey?, Table.primaryKey?, ← List.head?_filterMap, ← List.head?_filterMap, ← same]
    rfl
  have unique : (restrictTable kept t).uniqueConstraints = t.uniqueConstraints :=
    filterMap_staysIn (fun _ => rfl) kept t.constraints
  rw [Table.uniqueSets, Table.uniqueSets, Table.primaryColumns, Table.primaryColumns, key, unique]
  rfl

theorem WellFormedTables.restrict {tables : List Table} (h : WellFormedTables d tables) (wanted : String) :
    WellFormedTables d (restrictTables d wanted tables).1 where
  each t' ht' := by
    obtain ⟨t, ht, rfl⟩ := List.mem_map.1 ht'
    exact (h.each t (List.mem_filter.1 ht).1).restrict List.filter_sublist (List.Sublist.refl t.indexes)
  keys := by
    have part : ((restrictTables d wanted tables).1.map (·.key)).Sublist (tables.map (·.key)) := by
      rw [restrictTables, List.map_map]
      exact List.filter_sublist.map _
    exact part.nodup h.keys

theorem refs_restrictTables_sublist (wanted : String) (tables : List Table) :
    ((restrictTables d wanted tables).1.map (·.ref)).Sublist (tables.map (·.ref)) := by
  rw [restrictTables, List.map_map]
  exact List.filter_sublist.map _

/-- foreign keys that have their targets among tables, and stay, have them among those that stay -/
theorem resolved_restrictTables {tables : List Table} (refs : (tables.map (·.ref)).Nodup)
    (resolved : ∀ t ∈ tables, ∀ k ∈ t.foreignKeys, ∃ target, resolvedTarget tables k = some target) (wanted : String) :
    ∀ t ∈ (restrictTables d wanted tables).1, ∀ k ∈ t.foreignKeys, ∃ target,
      resolvedTarget (restrictTables d wanted tables).1 k = some target := by
  intro t' ht' k hk
  obtain ⟨t, ht, rfl⟩ := List.mem_map.1 ht'
  obtain ⟨hk, inside⟩ := mem_foreignKeys_restrictTable.1 hk
  obtain ⟨target, there⟩ := resolved t (List.mem_filter.1 ht).1 k hk
  obtain ⟨htarget, ref, filled, lengths, known⟩ := (resolvedTarget_eq_some_iff refs).1 there
  -- the table of that reference that is kept is the target
  obtain ⟨kept, hkept, same⟩ := List.mem_map.1 inside
  have isTarget : kept = target :=
    List.inj_on_of_nodup_map refs (List.mem_filter.1 hkept).1 htarget (same.trans ref.symm)
  subst isTarget
  refine ⟨_, (resolvedTarget_eq_some_iff ((refs_restrictTables_sublist wanted tables).nodup refs)).2
    ⟨List.mem_map_of_mem hkept, ref, filled, lengths, ?_⟩⟩
  rw [uniqueSets_restrictTable]
  exact known

/-! ## Sound tables -/

/-- The tables of a model without errors: they are well-formed, and each of their foreign keys has its target
among them. -/
structure SoundTables (d : Dialect) (tables : List Table) : Prop where
  wellFormed : WellFormedTables d tables
  resolved : ∀ t ∈ tables, ∀ k ∈ t.foreignKeys, ∃ target, resolvedTarget tables k = some target

theorem SoundTables.restrict {tables : List Table} (h : SoundTables d tables) (wanted : String) :
    SoundTables d (restrictTables d wanted tables).1 :=
  ⟨h.wellFormed.restrict wanted, resolved_restrictTables h.wellFormed.refs h.resolved wanted⟩

/-! ## Columns -/

/-- the columns that a foreign key has are columns of its table -/
theorem Table.WellFormed.mem_of_foreignKey {t : Table} (h : t.WellFormed d) {k : ForeignKey}
    (hk : k ∈ t.foreignKeys) : ∀ n ∈ k.columns, n ∈ t.columnNames := by
  obtain ⟨c, hc, isKey⟩ := List.mem_filterMap.1 hk
  have own : c.ownColumns = k.columns := by
    cases c with
    | foreignKey k' => rw [← Option.some.inj isKey]; rfl
    | _ => contradiction
  exact own ▸ h.named c hc

/-- the columns that a foreign key refers to are columns of its target -/
theorem SoundTables.mem_of_target {tables : List Table} (h : SoundTables d tables) {k : ForeignKey} {t : Table}
    (there : resolvedTarget tables k = some t) :
    t ∈ tables ∧ t.ref = k.target ∧ ∀ n ∈ k.targetColumns, n ∈ t.columnNames := by
  obtain ⟨ht, ref, -, -, known⟩ := (resolvedTarget_eq_some_iff h.wellFormed.refs).1 there
  exact ⟨ht, ref, (h.wellFormed.each t ht).mem_columnNames known⟩

/-- both sides of a relationship are columns of its tables -/
structure Relationship.Between (tables : List Table) (r : Relationship) : Prop where
  source : ∃ t ∈ tables, t.ref = r.fromTable ∧ ∀ n ∈ r.fromColumns, n ∈ t.columnNames
  target : ∃ t ∈ tables, t.ref = r.toTable ∧ ∀ n ∈ r.toColumns, n ∈ t.columnNames

theorem junctionKeys?_eq_some {tables : List Table} {t : Table} {left right : ForeignKey}
    (h : junctionKeys? tables t = some (left, right)) : (∃ target, resolvedTarget tables left = some target) ∧
      ∃ target, resolvedTarget tables right = some target := by
  unfold junctionKeys? at h
  split at h
  · split_ifs at h with links
    obtain ⟨rfl, rfl⟩ := Prod.mk.inj (Option.some.inj h)
    simp only [linksOnly, Bool.and_eq_true, Option.isSome_iff_exists] at links
    exact links.1.1
  · contradiction

theorem SoundTables.between {tables : List Table} (h : SoundTables d tables) {r : Relationship}
    (hr : r ∈ deriveRelationships tables) : r.Between tables := by
  obtain ⟨t, ht, hr⟩ := List.mem_flatMap.1 hr
  unfold tableRelationships at hr
  split at hr
  · rename_i left right linked
    obtain ⟨⟨source, fromThere⟩, ⟨target, toThere⟩⟩ := junctionKeys?_eq_some linked
    obtain rfl := List.mem_singleton.1 hr
    exact ⟨⟨source, h.mem_of_target fromThere⟩, ⟨target, h.mem_of_target toThere⟩⟩
  · obtain ⟨k, hk, rfl⟩ := List.mem_map.1 hr
    obtain ⟨hk, found⟩ := List.mem_filter.1 hk
    obtain ⟨target, there⟩ := Option.isSome_iff_exists.1 found
    exact ⟨⟨t, ht, rfl, (h.wellFormed.each t ht).mem_of_foreignKey hk⟩, ⟨target, h.mem_of_target there⟩⟩

/-! ## Models -/

variable {statements : List Statement} {b : Built}

/-- a model is derived from the tables of all statements, or from those of the schema that it is restricted to -/
theorem buildModel_tables {schemaFilter : Option String} (built : buildModel d schemaFilter statements = .ok b) :
    ∃ whole, buildModel d none statements = .ok whole ∧ b.model.errors = whole.model.errors ∧
      b.model.tables = (schemaFilter.map fun wanted => (restrictTables d wanted whole.model.tables).1).getD
        whole.model.tables ∧
      b.model.dialect = d ∧ b.model.relationships = deriveRelationships b.model.tables ∧
      b.model.junctionTables = junctionTables b.model.tables := by
  simp only [buildModel, bind_eq_ok_iff, pure_eq_ok_iff] at built
  obtain ⟨w, applied, w', resolution, final, finals, tables, finished, rfl⟩ := built
  have whole : ∃ whole, buildModel d none statements = .ok whole ∧
      whole.model.errors = w'.errors ∧ whole.model.tables = tables := by
    simp only [buildModel, bind_eq_ok_iff, pure_eq_ok_iff]
    exact ⟨_, ⟨w, applied, w', resolution, final, finals, tables, finished, rfl⟩, rfl, rfl⟩
  obtain ⟨whole, built, errors, rfl⟩ := whole
  refine ⟨whole, built, errors.symm, ?_, rfl, rfl, rfl⟩
  cases schemaFilter <;> rfl

/-- what holds of the tables of all statements, and neither the resolution of foreign keys nor the restriction to a
schema changes, holds of the tables of a model -/
theorem forall_tables_of_buildModel {P : Table → Prop} {schemaFilter : Option String}
    (built : buildModel d schemaFilter statements = .ok b)
    (drafts : ∀ w, Workspace.applyAll d statements = .ok w → ∀ t ∈ w.tables, P t.toTable)
    (retarget : ∀ t cs, P t → List.Forall₂ Constraint.Retargeted t.constraints cs → P { t with constraints := cs })
    (restrict : ∀ t kept, P t → P (restrictTable kept t)) : ∀ t ∈ b.model.tables, P t := by
  obtain ⟨whole, all, -, tables, -⟩ := buildModel_tables built
  have ofWhole : ∀ t ∈ whole.model.tables, P t := by
    obtain ⟨w, resolved, applied, run, same, -⟩ := buildModel_eq_ok all
    intro table htable
    rw [same] at htable
    obtain ⟨r, hr, rfl⟩ := List.mem_map.1 htable
    obtain ⟨t, ht, done⟩ := exists_of_mem_forall₂ run hr
    obtain ⟨cs, alike, resolvedTable⟩ := Draft.resolveTable_retargeted done
    rw [resolvedTable]
    exact retarget _ cs (drafts w applied t ht) alike
  rw [tables]
  cases schemaFilter with
  | none => exact ofWhole
  | some wanted =>
    intro t ht
    obtain ⟨t₀, ht₀, rfl⟩ := List.mem_map.1 ht
    exact restrict t₀ _ (ofWhole t₀ (List.mem_filter.1 ht₀).1)

theorem soundTables_of_whole (clear : Workspace.Unambiguous d statements)
    (built : buildModel d none statements = .ok b) (valid : b.model.isValid = true) :
    SoundTables d b.model.tables := by
  obtain ⟨w, resolved, applied, run, tables, errors⟩ := buildModel_eq_ok built
  have h := Workspace.applyAll_wellFormed clear applied
  rw [Model.isValid, List.isEmpty_iff, errors, errors_resolved run, List.append_eq_nil_iff] at valid
  rw [tables]
  refine ⟨wellFormedTables_resolved h run, fun table htable k hk => ?_⟩
  obtain ⟨t, ht, within⟩ := exists_of_mem_forall₂ (constraints_agree run h) htable
  obtain ⟨c, hc, isKey⟩ := List.mem_filterMap.1 hk
  obtain ⟨e, he, -, recorded⟩ := exists_of_mem_forall₂ within hc
  have quiet : t.keyErrors d w.tables e = [] :=
    List.flatMap_eq_nil_iff.1 (List.flatMap_eq_nil_iff.1 valid.2 t ht) e he
  have keyIs : c = .foreignKey k := by
    cases c <;> simp_all [Constraint.foreignKey?]
  cases there : resolvedTarget (resolved.map (·.1.toTable)) k with
  | none => exact absurd quiet ((recorded k keyIs).2 there)
  | some target => exact ⟨target, rfl⟩

/-- the tables of a model without errors are sound, whatever schema it is restricted to -/
theorem soundTables_of_valid {schemaFilter : Option String} (clear : Workspace.Unambiguous d statements)
    (built : buildModel d schemaFilter statements = .ok b) (valid : b.model.isValid = true) :
    SoundTables d b.model.tables := by
  obtain ⟨whole, all, errors, tables, -⟩ := buildModel_tables built
  have sound : SoundTables d whole.model.tables :=
    soundTables_of_whole clear all (by rwa [Model.isValid, ← errors])
  rw [tables]
  cases schemaFilter with
  | none => exact sound
  | some wanted => exact sound.restrict wanted

end SchemaApi
