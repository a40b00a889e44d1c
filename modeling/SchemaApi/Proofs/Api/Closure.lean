import SchemaApi.Proofs.Api.Naming
import SchemaApi.Proofs.Schema.Sound
import SchemaApi.Proofs.Check.Translation
import SchemaApi.Api.Inference
/-!
Descriptions of interfaces are closed: what a resource says of fields it says of its own, and what it says of
other resources it says of resources of the description and of their fields (`Resource.Closed`).

The fields of a resource are the columns of its table. Keys, constraints, indexes and conditions name columns of
their own table because tables are well-formed; what foreign keys and relationships refer to are columns of their
targets because foreign keys resolve. That the target has a resource is a matter of names: each name is given to
one table only.
-/

namespace SchemaApi

/-! ## Closed resources -/

/-- the names of the fields of a resource -/
def Resource.fieldNames (r : Resource) : List String := r.properties.map (·.name)

/-- a list can be sorted by a field, in both directions -/
def Resource.Sorts (r : Resource) (value : String) : Prop := ∃ n ∈ r.fieldNames, value = n ∨ value = "-" ++ n

/-- the description has a resource of a name, with these fields -/
def Description.Has (d : Description) (name : String) (fields : List String) : Prop :=
  ∃ target, d.resource? name = some target ∧ ∀ n ∈ fields, n ∈ target.fieldNames

/-- all fields and resources that a resource names exist -/
structure Resource.Closed (d : Description) (r : Resource) : Prop where
  identity : ∀ n ∈ r.identity, n ∈ r.fieldNames
  pathParameters : ∀ o ∈ r.operations, ∀ p ∈ o.pathParameters, p.name ∈ r.fieldNames
  bodies : ∀ o ∈ r.operations, ∀ body, o.requestBody = some body →
    (∀ n ∈ body.fields, n ∈ r.fieldNames) ∧ ∀ n ∈ body.required, n ∈ r.fieldNames
  filters : ∀ f ∈ r.listParameters.filters, f.field ∈ r.fieldNames
  sort : ∀ v ∈ r.listParameters.sort.allowedValues, r.Sorts v
  /-- of the parameters of queries, too, only the one to sort by has values to choose from -/
  queries : ∀ o ∈ r.operations, ∀ p ∈ o.queryParameters, ∀ v ∈ p.allowedValues, r.Sorts v
  rules : ∀ rule ∈ r.rules, ∀ n ∈ rule.fields, n ∈ r.fieldNames
  references : ∀ p ∈ r.properties, ∀ ref, p.reference = some ref → d.Has ref.resource ref.fields
  bindings : ∀ b ∈ r.bindings, (∀ n ∈ b.localFields, n ∈ r.fieldNames) ∧ d.Has b.targetResource b.targetFields

/-! ## Conditions -/

section
variable {d : Dialect} {columns : List String} {expression : String}

theorem mem_of_columnName {ts : List Token} {column : String} (h : ColumnName d columns ts column) :
    column ∈ columns := by
  cases h with
  | plain _ _ found => exact List.mem_of_find?_eq_some found
  | qualified _ _ _ _ found => exact List.mem_of_find?_eq_some found

/-- terms speak of listed columns -/
theorem mem_of_readsTerm {ts : List Token} {c : Condition} (h : ReadsTerm d columns ts c) :
    ∀ t ∈ c.terms, t.column ∈ columns := by
  cases h with
  | columnFirst named => simpa [Condition.terms] using mem_of_columnName named
  | valueFirst _ _ named => simpa [Condition.terms] using mem_of_columnName named
  | between named => simpa [Condition.terms] using mem_of_columnName named
  | isIn named => simpa [Condition.terms] using mem_of_columnName named
  | equalsAny named => simpa [Condition.terms] using mem_of_columnName named
  | isNotNull named => simpa [Condition.terms] using mem_of_columnName named

theorem mem_of_termRules {ts : List Token} {rules : List ValidationRule}
    (h : termRules d columns expression ts = .ok rules) : ∀ r ∈ rules, ∀ n ∈ r.fields, n ∈ columns := by
  simp only [termRules, bind_eq_ok_iff, mapError_eq_ok_iff] at h
  obtain ⟨terms, read, made⟩ := h
  obtain ⟨c, reads, rfl⟩ := readsTerm_of_readTerm read
  intro r hr
  obtain ⟨t, ht, made⟩ := exists_of_mem_mapM made hr
  simp only [Term.rule, bind_eq_ok_iff, pure_eq_ok_iff] at made
  obtain ⟨_, -, rfl⟩ := made
  intro n hn
  rw [List.mem_singleton.1 hn]
  exact mem_of_readsTerm reads t ht

/-- the rules of a condition speak of listed columns, or of the one that it was written at -/
theorem mem_of_conditionRules {column table : Option String} {answer : ConditionRules}
    (h : conditionRules d columns expression column table = .ok answer) (own : ∀ c ∈ column, c ∈ columns) :
    ∀ r ∈ answer.rules, ∀ n ∈ r.fields, n ∈ columns := by
  unfold conditionRules at h
  split at h
  · rename_i rules understood
    obtain ⟨parts, lists, -, made, flat⟩ := rulesOf_eq_ok understood
    rw [← Except.ok.inj h, flat]
    intro r hr
    obtain ⟨list, hlist, hr⟩ := List.mem_flatten.1 hr
    obtain ⟨part, -, made⟩ := exists_of_mem_mapM made hlist
    exact mem_of_termRules made r hr
  · contradiction
  · rw [← Except.ok.inj h]
    intro r hr n hn
    rw [List.mem_singleton.1 hr] at hn
    cases column with
    | none => exact absurd hn List.not_mem_nil
    | some c =>
      simp only [verbatimRule] at hn
      split_ifs at hn
      · exact absurd hn List.not_mem_nil
      · rw [List.mem_singleton.1 hn]
        exact own c rfl

end

namespace Api

/-! ## Keys and rules -/

section
variable {d : Dialect} {t : Table}

/-- items are addressed by a unique set, or not at all -/
theorem identity_mem_uniqueSets (t : Table) : (identity t).1 ∈ t.uniqueSets ∨ (identity t).1 = [] := by
  unfold identity Table.uniqueSets
  cases keyed : t.primaryColumns.isEmpty with
  | true =>
    simp only [Bool.not_true, Bool.false_eq_true, if_false, if_true, List.nil_append]
    split
    · rename_i columns found
      exact Or.inl (List.mem_of_find?_eq_some found)
    · exact Or.inr rfl
  | false => exact Or.inl List.mem_cons_self

theorem mem_of_identity (h : t.WellFormed d) : ∀ n ∈ (identity t).1, n ∈ t.columnNames := by
  rcases identity_mem_uniqueSets t with known | none
  · exact h.mem_columnNames known
  · rw [none]
    exact fun n hn => absurd hn List.not_mem_nil

theorem mem_of_sortableColumns (h : t.WellFormed d) : ∀ n ∈ sortableColumns t, n ∈ t.columnNames := by
  intro n hn
  rw [sortableColumns, List.mem_eraseDups, List.mem_append] at hn
  rcases hn with hn | hn
  · obtain ⟨columns, known, hn⟩ := List.mem_flatten.1 hn
    exact h.mem_columnNames known n hn
  · obtain ⟨i, hi, hn⟩ := List.mem_flatMap.1 hn
    obtain ⟨hi, plain⟩ := List.mem_filter.1 hi
    exact h.indexed i hi (by simpa using plain) n hn

theorem mem_of_publishedUniqueSets (h : t.WellFormed d) {columns : List String}
    (published : columns ∈ publishedUniqueSets t) : ∀ n ∈ columns, n ∈ t.columnNames := by
  rcases List.mem_append.1 published with unique | index
  · obtain ⟨c, hc, isUnique⟩ := List.mem_filterMap.1 unique
    have own : c.ownColumns = columns := by
      cases c with
      | unique => exact Option.some.inj isUnique
      | _ => contradiction
    exact own ▸ h.named c hc
  · obtain ⟨i, hi, rfl⟩ := List.mem_map.1 index
    obtain ⟨hi, plain⟩ := List.mem_filter.1 hi
    rw [Bool.and_eq_true, Bool.not_eq_true'] at plain
    exact h.indexed i hi plain.2

theorem mem_of_columnRules {c : Column} {rule : ValidationRule} (h : rule ∈ columnRules c) :
    rule.fields = [c.name] := by
  simp only [columnRules, List.mem_append] at h
  rcases h with (presence | length) | values
  · split_ifs at presence
    · exact absurd presence List.not_mem_nil
    · rw [List.mem_singleton.1 presence]
    · rw [List.mem_singleton.1 presence]
  · split at length
    · rw [List.mem_singleton.1 length]
    · exact absurd length List.not_mem_nil
  · split_ifs at values
    · exact absurd values List.not_mem_nil
    · rw [List.mem_singleton.1 values]

theorem mem_of_checkRules (h : t.WellFormed d) {answers : List ConditionRules}
    (made : checkRules d t = .ok answers) :
    ∀ answer ∈ answers, ∀ rule ∈ answer.rules, ∀ n ∈ rule.fields, n ∈ t.columnNames := by
  intro answer ha
  obtain ⟨⟨expression, column⟩, hcheck, given⟩ := exists_of_mem_mapM made ha
  obtain ⟨c, hc, isCheck⟩ := List.mem_filterMap.1 hcheck
  refine mem_of_conditionRules given fun n hn => ?_
  cases c with
  | check name expression' column' =>
    obtain ⟨rfl, rfl⟩ := Prod.mk.inj (Option.some.inj isCheck)
    exact h.named _ hc n (Option.mem_toList.2 hn)
  | _ => contradiction

theorem mem_of_validationRules (h : t.WellFormed d) {rules : List ValidationRule} {findings : Findings}
    (made : validationRules d t = .ok (rules, findings)) :
    ∀ rule ∈ rules, ∀ n ∈ rule.fields, n ∈ t.columnNames := by
  simp only [validationRules, bind_eq_ok_iff, pure_eq_ok_iff, Prod.mk.injEq] at made
  obtain ⟨answers, checked, rfl, -⟩ := made
  intro rule hr n hn
  rcases List.mem_append.1 hr with hr | hr
  · rcases List.mem_append.1 hr with hr | hr
    · obtain ⟨c, hc, hr⟩ := List.mem_flatMap.1 hr
      rw [mem_of_columnRules hr, List.mem_singleton] at hn
      rw [hn]
      exact List.mem_map_of_mem hc
    · obtain ⟨columns, published, rfl⟩ := List.mem_map.1 hr
      exact mem_of_publishedUniqueSets h published n hn
  · obtain ⟨answer, ha, hr⟩ := List.mem_flatMap.1 hr
    exact mem_of_checkRules h checked answer ha rule hr n hn

end

/-! ## References and bindings -/

section
variable {names : List (TableRef × String)}

/-- the reference of a field is that of a foreign key -/
theorem fieldReference?_eq_some {t : Table} {column : String} {ref : FieldReference}
    (h : fieldReference? names t column = some ref) : ∃ k ∈ t.foreignKeys,
      nameOf? names k.target = some ref.resource ∧ ∀ n ∈ ref.fields, n ∈ k.targetColumns := by
  obtain ⟨k, hk, refers⟩ := List.exists_of_findSome?_eq_some h
  refine ⟨k, hk, ?_⟩
  split at refers
  · contradiction
  · rename_i target named
    obtain ⟨c, found, rfl⟩ := Option.map_eq_some_iff.1 refers
    obtain ⟨before, after, split, -⟩ := List.lookup_eq_some_iff.1 found
    have paired : (column, c) ∈ k.columns.zip k.targetColumns := by
      rw [split]
      simp
    refine ⟨named, fun n hn => ?_⟩
    rw [List.mem_singleton.1 hn]
    exact (List.of_mem_zip paired).2

/-- a binding of a table shows a relationship from one of its sides -/
inductive Shows (names : List (TableRef × String)) (r : Relationship) : TableRef → Binding → Prop where
  | outgoing {b : Binding} (target : nameOf? names r.toTable = some b.targetResource)
      (own : b.localFields = r.fromColumns) (other : b.targetFields = r.toColumns) : Shows names r r.fromTable b
  | incoming {b : Binding} (target : nameOf? names r.fromTable = some b.targetResource)
      (own : b.localFields = r.toColumns) (other : b.targetFields = r.fromColumns) : Shows names r r.toTable b

/-- a binding may get another name -/
theorem Shows.rename {r : Relationship} {owner : TableRef} {b : Binding} (h : Shows names r owner b)
    (name : String) : Shows names r owner { b with name := name } := by
  cases h with
  | outgoing target own other => exact .outgoing target own other
  | incoming target own other => exact .incoming target own other

theorem shows_sides {m : Model} {mode : RelationshipMode} {r : Relationship} {source target : String}
    (fromNamed : nameOf? names r.fromTable = some source) (toNamed : nameOf? names r.toTable = some target) :
    Shows names r r.fromTable (sides m mode r source target).1 ∧
      Shows names r r.toTable (sides m mode r source target).2 := by
  unfold sides
  dsimp only
  split
  · exact ⟨.outgoing toNamed rfl rfl, .incoming fromNamed rfl rfl⟩
  · exact ⟨.outgoing toNamed rfl rfl, .incoming fromNamed rfl rfl⟩
  · exact ⟨.outgoing toNamed rfl rfl, .incoming fromNamed rfl rfl⟩

/-- each binding shows a relationship of the model -/
theorem shows_of_mem_bindings {m : Model} {mode : RelationshipMode} {entry : TableRef × Binding}
    (h : entry ∈ (bindings m mode names).bindings) : ∃ r ∈ m.relationships, Shows names r entry.1 entry.2 := by
  have step : ∀ (state : BindingsSoFar) (r : Relationship), r ∈ m.relationships →
      (∀ e ∈ state.bindings, ∃ r ∈ m.relationships, Shows names r e.1 e.2) →
      ∀ e ∈ (bindRelationship m mode names state r).bindings, ∃ r ∈ m.relationships, Shows names r e.1 e.2 := by
    intro state r hr before e he
    unfold bindRelationship at he
    split at he
    · rename_i source target fromNamed toNamed
      obtain ⟨outgoing, incoming⟩ := @shows_sides _ m mode r source target fromNamed toNamed
      simp only [BindingsSoFar.add, List.mem_append, List.mem_singleton] at he
      rcases he with (old | rfl) | rfl
      · exact before e old
      · exact ⟨r, hr, outgoing.rename _⟩
      · exact ⟨r, hr, incoming.rename _⟩
    · exact before e he
    · exact before e he
  have run : ∀ (rs : List Relationship) (state : BindingsSoFar), (∀ r ∈ rs, r ∈ m.relationships) →
      (∀ e ∈ state.bindings, ∃ r ∈ m.relationships, Shows names r e.1 e.2) →
      ∀ e ∈ (rs.foldl (bindRelationship m mode names) state).bindings,
        ∃ r ∈ m.relationships, Shows names r e.1 e.2 := by
    intro rs
    induction rs with
    | nil => exact fun state _ before => before
    | cons r rs ih =>
      intro state inside before
      have first := step state r (inside r List.mem_cons_self) before
      exact ih _ (fun r' hr' => inside r' (List.mem_cons_of_mem r hr')) first
  exact run m.relationships {} (fun _ hr => hr) (fun e he => absurd he List.not_mem_nil) entry h

end

/-! ## Resources -/

section
variable {s : Settings} {d : Dialect} {names : List (TableRef × String)} {bound : List (TableRef × Binding)}
  {t : Table} {r : Resource}

/-- what the resource of a table is made of -/
structure MadeOf (s : Settings) (d : Dialect) (names : List (TableRef × String))
    (bound : List (TableRef × Binding)) (t : Table) (r : Resource) : Prop where
  name : r.name = (nameOf? names t.ref).getD ""
  identity : r.identity = (identity t).1
  properties : r.properties = t.columns.map (property names t)
  lists : r.listParameters = listParameters s t r.properties
  operations : ∃ parameters, r.identity.mapM (pathParameter r.name r.properties) = .ok parameters ∧
    r.operations = collectionOperations r.path r.properties r.listParameters ++
      ((itemPath? r.path r.identity).map fun p => itemOperations p r.properties parameters).getD []
  rules : ∃ findings, validationRules d t = .ok (r.rules, findings)
  bindings : r.bindings = (bound.filter (·.1 == t.ref)).map (·.2)

theorem madeOf_of_resource {findings : Findings} (h : resource s d names bound t = .ok (r, findings)) :
    MadeOf s d names bound t r := by
  unfold resource at h
  simp only [bind_eq_ok_iff] at h
  obtain ⟨parameters, given, ⟨rules, warnings⟩, made, h⟩ := h
  by_cases nameless : (nameOf? names t.ref).getD "" = ""
  · simp only [nameless, if_true, bind_eq_ok_iff, throw_eq_ok_iff, false_and, exists_false] at h
  · simp only [if_neg nameless] at h
    obtain ⟨rfl, -⟩ := Prod.mk.inj (pure_eq_ok_iff.1 h)
    exact ⟨rfl, rfl, rfl, rfl, ⟨parameters, given, rfl⟩, ⟨warnings, made⟩, rfl⟩

/-- the fields of a resource are the columns of its table -/
theorem MadeOf.fieldNames (h : MadeOf s d names bound t r) : r.fieldNames = t.columnNames := by
  rw [Resource.fieldNames, h.properties, List.map_map]
  rfl

theorem name_of_pathParameter {name column : String} {properties : List Property} {p : Parameter}
    (h : pathParameter name properties column = .ok p) : p.name = column := by
  unfold pathParameter at h
  split at h
  · contradiction
  · rw [← Except.ok.inj h]

/-- what requests hold and what is sorted by are fields, and so are the path parameters -/
theorem MadeOf.operations_closed (h : MadeOf s d names bound t r) :
    ∀ o ∈ r.operations, (∀ p ∈ o.pathParameters, p.name ∈ r.identity) ∧
      (∀ body, o.requestBody = some body →
        (∀ n ∈ body.fields, n ∈ r.fieldNames) ∧ ∀ n ∈ body.required, n ∈ r.fieldNames) ∧
      ∀ p ∈ o.queryParameters, ∀ v ∈ p.allowedValues, v ∈ r.listParameters.sort.allowedValues := by
  obtain ⟨parameters, given, operations⟩ := h.operations
  have addressed : ∀ p ∈ parameters, p.name ∈ r.identity := by
    intro p hp
    obtain ⟨column, hc, made⟩ := exists_of_mem_mapM given hp
    rwa [name_of_pathParameter made]
  have kept : ∀ keep : Property → Bool, ∀ n ∈ (r.properties.filter keep).map (·.name), n ∈ r.fieldNames := by
    intro keep n hn
    exact (List.filter_sublist.map _).subset hn
  have queried : ∀ p ∈ [r.listParameters.limit, r.listParameters.offset, r.listParameters.sort],
      ∀ v ∈ p.allowedValues, v ∈ r.listParameters.sort.allowedValues := by
    intro p hp v hv
    rw [h.lists] at hp ⊢
    simp only [List.mem_cons, List.not_mem_nil, or_false] at hp
    rcases hp with rfl | rfl | rfl
    · exact absurd hv List.not_mem_nil
    · exact absurd hv List.not_mem_nil
    · exact hv
  intro o ho
  rw [operations, List.mem_append] at ho
  rcases ho with ho | ho
  · simp only [collectionOperations, List.mem_cons, List.not_mem_nil, or_false] at ho
    rcases ho with rfl | rfl
    · exact ⟨by simp, by simp, queried⟩
    · refine ⟨by simp, fun body hb => ?_, by simp⟩
      obtain rfl := Option.some.inj hb
      exact ⟨kept _, kept _⟩
  · cases item : itemPath? r.path r.identity with
    | none => simp [item] at ho
    | some path =>
      simp only [item, Option.map_some, Option.getD_some, itemOperations, List.mem_cons, List.not_mem_nil,
        or_false] at ho
      rcases ho with rfl | rfl | rfl | rfl
      · exact ⟨addressed, by simp, by simp⟩
      · refine ⟨addressed, fun body hb => ?_, by simp⟩
        obtain rfl := Option.some.inj hb
        exact ⟨kept _, kept _⟩
      · refine ⟨addressed, fun body hb => ?_, by simp⟩
        obtain rfl := Option.some.inj hb
        exact ⟨kept _, by simp⟩
      · exact ⟨addressed, by simp, by simp⟩

theorem MadeOf.sorts (h : MadeOf s d names bound t r) (sound : t.WellFormed d) :
    ∀ v ∈ r.listParameters.sort.allowedValues, r.Sorts v := by
  intro v hv
  rw [h.lists] at hv
  obtain ⟨n, hn, choice⟩ := List.mem_flatMap.1 hv
  refine ⟨n, ?_, by simpa using choice⟩
  rw [h.fieldNames]
  exact mem_of_sortableColumns sound n hn

end

/-! ## Descriptions -/

/-- the tables that become resources -/
def resourceTables (m : Model) : List Table := m.tables.filter fun t => !m.isJunction t

/-- the names of the resources of a model -/
def modelNames (s : Settings) (m : Model) : List (TableRef × String) :=
  (resourceNames s.naming (resourceTables m)).names

section
variable {s : Settings} {m : Model} {rs : List Resource} {findings : Findings}

theorem madeOf_of_resources (h : resources s m = .ok (rs, findings)) :
    List.Forall₂ (MadeOf s m.dialect (modelNames s m) (bindings m s.mode (modelNames s m)).bindings)
      (resourceTables m) rs := by
  simp only [resources, bind_eq_ok_iff, pure_eq_ok_iff, Prod.mk.injEq] at h
  obtain ⟨built, made, rfl, -⟩ := h
  rw [List.forall₂_map_right_iff]
  exact (forall₂_of_mapM_eq_ok made).imp fun t result one => madeOf_of_resource one

variable (sound : SoundTables m.dialect m.tables)
  (made : List.Forall₂ (MadeOf s m.dialect (modelNames s m) (bindings m s.mode (modelNames s m)).bindings)
    (resourceTables m) rs)
include sound

theorem resourceTables_refs : ((resourceTables m).map (·.ref)).Nodup :=
  (List.filter_sublist.map _).nodup sound.wellFormed.refs

theorem modelNames_refs : ((modelNames s m).map (·.1)).Nodup := by
  rw [modelNames, (resourceNames_given s.naming (resourceTables m)).refs]
  exact resourceTables_refs sound

include made

/-- resources have the names that were given to their tables -/
theorem names_eq : rs.map (·.name) = (modelNames s m).map (·.2) := by
  have given := (resourceNames_given s.naming (resourceTables m)).refs
  have look : ∀ entry ∈ modelNames s m, (nameOf? (modelNames s m) entry.1).getD "" = entry.2 := by
    intro entry he
    rw [(nameOf?_eq_some_iff (modelNames_refs sound)).2 he, Option.getD_some]
  calc rs.map (·.name)
      = (resourceTables m).map fun t => (nameOf? (modelNames s m) t.ref).getD "" :=
        (map_eq_map_of_forall₂ (made.imp fun t r h => h.name.symm)).symm
    _ = ((modelNames s m).map (·.1)).map fun ref => (nameOf? (modelNames s m) ref).getD "" := by
        rw [modelNames, given, List.map_map]
        rfl
    _ = (modelNames s m).map (·.2) := by
        rw [List.map_map]
        exact List.map_congr_left look

theorem names_nodup : (rs.map (·.name)).Nodup := by
  rw [names_eq sound made]
  exact (resourceNames_given s.naming (resourceTables m)).names_nodup

/-- the name of a table's resource leads to a resource whose fields are the columns of the table -/
theorem has_of_nameOf? {t : Table} (ht : t ∈ m.tables) {name : String}
    (named : nameOf? (modelNames s m) t.ref = some name) {fields : List String}
    (own : ∀ n ∈ fields, n ∈ t.columnNames) {d : Description} (whole : d.resources = rs) : d.Has name fields := by
  have entry := (nameOf?_eq_some_iff (modelNames_refs sound)).1 named
  have exposed : t.ref ∈ (resourceTables m).map (·.ref) := by
    rw [← (resourceNames_given s.naming (resourceTables m)).refs]
    exact List.mem_map_of_mem entry
  obtain ⟨t', ht', same⟩ := List.mem_map.1 exposed
  obtain rfl : t' = t := List.inj_on_of_nodup_map sound.wellFormed.refs (List.mem_filter.1 ht').1 ht same
  obtain ⟨r, hr, one⟩ := exists_of_mem_forall₂ made.flip ht'
  have called : r.name = name := by rw [one.name, named, Option.getD_some]
  cases found : d.resource? name with
  | none =>
    have absent := List.find?_eq_none.1 found r (by rw [whole]; exact List.mem_reverse.2 hr)
    exact absurd (beq_iff_eq.2 called) absent
  | some r' =>
    have other : r'.name = name := by simpa using List.find?_some found
    have inside : r' ∈ rs := by
      rw [← whole]
      exact List.mem_reverse.1 (List.mem_of_find?_eq_some found)
    have isIt : r' = r := List.inj_on_of_nodup_map (names_nodup sound made) inside hr (other.trans called.symm)
    refine ⟨r', found, fun n hn => ?_⟩
    rw [isIt, one.fieldNames]
    exact own n hn

/-- the resources of a model with sound tables are closed -/
theorem closed_of_sound (related : m.relationships = deriveRelationships m.tables) {d : Description}
    (whole : d.resources = rs) : ∀ r ∈ rs, r.Closed d := by
  intro r hr
  obtain ⟨t, ht, one⟩ := exists_of_mem_forall₂ made hr
  have inside := (List.mem_filter.1 ht).1
  have wellFormed := sound.wellFormed.each t inside
  have fields := one.fieldNames
  have addressed : ∀ n ∈ r.identity, n ∈ r.fieldNames := by
    rw [one.identity, fields]
    exact mem_of_identity wellFormed
  have operations := one.operations_closed
  obtain ⟨_, ruled⟩ := one.rules
  constructor
  · exact addressed
  · exact fun o ho p hp => addressed _ ((operations o ho).1 p hp)
  · exact fun o ho => (operations o ho).2.1
  · intro f hf
    rw [one.lists] at hf
    obtain ⟨p, hp, rfl⟩ := List.mem_map.1 hf
    exact List.mem_map_of_mem hp
  · exact one.sorts wellFormed
  · exact fun o ho p hp v hv => one.sorts wellFormed v ((operations o ho).2.2 p hp v hv)
  · rw [fields]
    exact mem_of_validationRules wellFormed ruled
  · intro p hp ref refers
    rw [one.properties] at hp
    obtain ⟨c, -, rfl⟩ := List.mem_map.1 hp
    obtain ⟨k, hk, named, referred⟩ := fieldReference?_eq_some refers
    obtain ⟨target, there⟩ := sound.resolved t inside k hk
    obtain ⟨htarget, same, known⟩ := sound.mem_of_target there
    rw [← same] at named
    exact has_of_nameOf? sound made htarget named (fun n hn => known n (referred n hn)) whole
  · intro b hb
    rw [one.bindings] at hb
    obtain ⟨entry, he, rfl⟩ := List.mem_map.1 hb
    obtain ⟨he, owner⟩ := List.mem_filter.1 he
    have owner : entry.1 = t.ref := by simpa using owner
    obtain ⟨relationship, hrel, shown⟩ := shows_of_mem_bindings he
    obtain ⟨⟨source, hsource, fromRef, fromOwn⟩, ⟨target, htarget, toRef, toOwn⟩⟩ := sound.between (related ▸ hrel)
    have sameTable : ∀ t' ∈ m.tables, t'.ref = t.ref → t' = t := fun t' ht' same =>
      List.inj_on_of_nodup_map sound.wellFormed.refs ht' inside same
    generalize entry.1 = ref at shown owner
    generalize entry.2 = b at shown
    cases shown with
    | outgoing named own other =>
      obtain rfl := sameTable source hsource (fromRef.trans owner)
      rw [own, other, fields]
      rw [← toRef] at named
      exact ⟨fromOwn, has_of_nameOf? sound made htarget named toOwn whole⟩
    | incoming named own other =>
      obtain rfl := sameTable target htarget (toRef.trans owner)
      rw [own, other, fields]
      rw [← fromRef] at named
      exact ⟨toOwn, has_of_nameOf? sound made hsource named fromOwn whole⟩

end

/-- In the description of a model without errors, whatever schema it is restricted to, no two resources have the
same name, and all fields and resources that a resource names exist. -/
theorem infer_closed {d : Dialect} {statements : List Statement} (clear : Workspace.Unambiguous d statements)
    {schemaFilter : Option String} {b : Built} (built : buildModel d schemaFilter statements = .ok b)
    {s : Settings} {description : Description} {findings : Findings}
    (inferred : infer s b.model = .ok (description, findings)) :
    (description.resources.map (·.name)).Nodup ∧ ∀ r ∈ description.resources, r.Closed description := by
  unfold infer at inferred
  split_ifs at inferred with valid
  split at inferred
  · rename_i rs warnings made
    obtain ⟨rfl, -⟩ := Prod.mk.inj (Except.ok.inj inferred)
    obtain ⟨whole, -, -, -, dialect, related, -⟩ := buildModel_tables built
    have sound : SoundTables b.model.dialect b.model.tables := dialect ▸ soundTables_of_valid clear built valid
    have made := madeOf_of_resources made
    exact ⟨names_nodup sound made, closed_of_sound sound made related rfl⟩
  · contradiction

/-- each of the two resources is bound to the other -/
theorem infer_closed_authorsAndBooks : ∃ b description findings, buildModel .sqlite none authorsAndBooks = .ok b ∧
    infer {} b.model = .ok (description, findings) ∧
    description.resources.map (fun r => (r.name, r.bindings.map (·.targetResource))) =
      [("author", ["book"]), ("book", ["author"])] ∧
    ∀ r ∈ description.resources, r.Closed description := by
  have complete : (buildModel .sqlite none authorsAndBooks).toOption.bind (fun b =>
      (infer {} b.model).toOption.map fun given =>
        given.1.resources.map fun r => (r.name, r.bindings.map (·.targetResource))) =
      some [("author", ["book"]), ("book", ["author"])] := by
    decide +kernel
  obtain ⟨b, built, inferred⟩ := Option.bind_eq_some_iff.1 complete
  obtain ⟨⟨description, findings⟩, inferred, bound⟩ := Option.map_eq_some_iff.1 inferred
  have built := toOption_eq_some_iff.1 built
  have inferred := toOption_eq_some_iff.1 inferred
  have closed := infer_closed unambiguous_authorsAndBooks built inferred
  exact ⟨b, description, findings, built, inferred, bound, closed.2⟩

end Api
end SchemaApi
