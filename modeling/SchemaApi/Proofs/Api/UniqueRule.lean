import SchemaApi.Proofs.Api.ResourceName
import SchemaApi.Proofs.Schema.Relationship
/-!
What rules say is unique.

Neither a column nor a condition makes a rule that says that fields are unique. So the rules that say so are one by
one those of the unique constraints of the table and of its unique indexes (`filter_unique_of_validationRules`), and
each unique set of the table but its primary key has its rule. An index that holds only for some rows has a rule as
well, although its columns are no unique set: rules and table agree exactly if the columns of each such index are
unique for another reason (`infer_uniqueInStep_iff`).
-/

namespace SchemaApi

/-! ## Rules of conditions -/

/-- no term of a condition says that a column is unique -/
theorem Condition.kind_ne_unique (c : Condition) : ∀ t ∈ c.terms, t.kind ≠ .unique := by
  have compared : ∀ op : Comparison, op.kind ≠ .unique ∧ swapped op.kind ≠ .unique := by
    intro op
    cases op <;> decide
  induction c with
  | columnFirst column op value => simpa [terms] using (compared op).1
  | valueFirst value op column => simpa [terms] using (compared op).2
  | and left right ihl ihr => exact List.forall_mem_append.2 ⟨ihl, ihr⟩
  | _ => simp [terms]

section
variable {d : Dialect} {columns : List String} {expression : String}

theorem kind_ne_unique_of_termRules {ts : List Token} {rules : List ValidationRule}
    (h : termRules d columns expression ts = .ok rules) : ∀ r ∈ rules, r.kind ≠ .unique := by
  simp only [termRules, bind_eq_ok_iff, mapError_eq_ok_iff] at h
  obtain ⟨terms, read, made⟩ := h
  obtain ⟨c, -, rfl⟩ := readsTerm_of_readTerm read
  intro r hr
  obtain ⟨t, ht, made⟩ := exists_of_mem_mapM made hr
  simp only [Term.rule, bind_eq_ok_iff, pure_eq_ok_iff] at made
  obtain ⟨_, -, rfl⟩ := made
  exact c.kind_ne_unique t ht

/-- a condition makes no rule that says that a column is unique, whether it is understood or not -/
theorem kind_ne_unique_of_conditionRules {column table : Option String} {answer : ConditionRules}
    (h : conditionRules d columns expression column table = .ok answer) : ∀ r ∈ answer.rules, r.kind ≠ .unique := by
  unfold conditionRules at h
  split at h
  · rename_i rules understood
    obtain ⟨parts, lists, -, made, flat⟩ := rulesOf_eq_ok understood
    rw [← Except.ok.inj h, flat]
    intro r hr
    obtain ⟨list, hlist, hr⟩ := List.mem_flatten.1 hr
    obtain ⟨part, -, made⟩ := exists_of_mem_mapM made hlist
    exact kind_ne_unique_of_termRules made r hr
  · contradiction
  · rw [← Except.ok.inj h]
    intro r hr
    rw [List.mem_singleton.1 hr]
    exact RuleKind.noConfusion

end

namespace Api

/-! ## Rules of a table -/

theorem kind_ne_unique_of_columnRules (c : Column) : ∀ rule ∈ columnRules c, rule.kind ≠ .unique := by
  intro rule h
  simp only [columnRules, List.mem_append] at h
  rcases h with (presence | length) | values
  · split_ifs at presence
    · exact absurd presence List.not_mem_nil
    · rw [List.mem_singleton.1 presence]
      exact RuleKind.noConfusion
    · rw [List.mem_singleton.1 presence]
      exact RuleKind.noConfusion
  · split at length
    · rw [List.mem_singleton.1 length]
      exact RuleKind.noConfusion
    · exact absurd length List.not_mem_nil
  · split_ifs at values
    · exact absurd values List.not_mem_nil
    · rw [List.mem_singleton.1 values]
      exact RuleKind.noConfusion

section
variable {d : Dialect} {t : Table}

theorem kind_ne_unique_of_checkRules {answers : List ConditionRules} (made : checkRules d t = .ok answers) :
    ∀ rule ∈ answers.flatMap (·.rules), rule.kind ≠ .unique := by
  intro rule hr
  obtain ⟨answer, ha, hr⟩ := List.mem_flatMap.1 hr
  obtain ⟨⟨expression, column⟩, -, given⟩ := exists_of_mem_mapM made ha
  exact kind_ne_unique_of_conditionRules given rule hr

/-- the rules that say that fields are unique, in order -/
theorem filter_unique_of_validationRules {rules : List ValidationRule} {findings : Findings}
    (made : validationRules d t = .ok (rules, findings)) :
    rules.filter (·.kind == .unique) = (publishedUniqueSets t).map uniqueRule := by
  simp only [validationRules, bind_eq_ok_iff, pure_eq_ok_iff, Prod.mk.injEq] at made
  obtain ⟨answers, checked, rfl, -⟩ := made
  have ofColumns : (t.columns.flatMap columnRules).filter (·.kind == .unique) = [] := by
    rw [List.filter_eq_nil_iff]
    intro rule hr
    obtain ⟨c, -, hr⟩ := List.mem_flatMap.1 hr
    simpa using kind_ne_unique_of_columnRules c rule hr
  have ofChecks : (answers.flatMap (·.rules)).filter (·.kind == .unique) = [] := by
    rw [List.filter_eq_nil_iff]
    intro rule hr
    simpa using kind_ne_unique_of_checkRules checked rule hr
  have ofSets : ((publishedUniqueSets t).map uniqueRule).filter (·.kind == .unique) =
      (publishedUniqueSets t).map uniqueRule := by
    rw [List.filter_eq_self]
    intro rule hr
    obtain ⟨columns, -, rfl⟩ := List.mem_map.1 hr
    rfl
  rw [List.filter_append, List.filter_append, ofColumns, ofSets, ofChecks, List.nil_append, List.append_nil]

/-- the fields that rules say are unique -/
theorem exists_rule_iff {rules : List ValidationRule} {findings : Findings}
    (made : validationRules d t = .ok (rules, findings)) {fields : List String} :
    (∃ rule ∈ rules, rule.kind = .unique ∧ rule.fields = fields) ↔ fields ∈ publishedUniqueSets t := by
  have unique := filter_unique_of_validationRules made
  constructor
  · rintro ⟨rule, hr, kind, rfl⟩
    have kept : rule ∈ rules.filter (·.kind == .unique) := List.mem_filter.2 ⟨hr, by simpa using kind⟩
    rw [unique] at kept
    obtain ⟨columns, published, rfl⟩ := List.mem_map.1 kept
    exact published
  · intro published
    have kept : uniqueRule fields ∈ rules.filter (·.kind == .unique) := unique ▸ List.mem_map_of_mem published
    exact ⟨uniqueRule fields, (List.mem_filter.1 kept).1, rfl, rfl⟩

end

/-! ## Rules and unique sets -/

/-- the columns of each unique index that holds only for some rows are unique in all rows, by another key -/
def CoversPartialIndexes (t : Table) : Prop :=
  ∀ i ∈ t.indexes, i.unique = true → i.isExpression = false → i.condition ≠ none → t.isUniqueSet i.columns = true

instance (t : Table) : Decidable (CoversPartialIndexes t) :=
  inferInstanceAs (Decidable (∀ i ∈ t.indexes, _ → _ → _ → _))

section
variable {t : Table}

theorem isUniqueSet_of_mem {columns : List String} (known : columns ∈ t.uniqueSets) : t.isUniqueSet columns = true :=
  List.any_eq_true.2 ⟨columns, known, sameMembers_iff.2 fun _ => Iff.rfl⟩

/-- all unique sets but the primary key are published -/
theorem mem_publishedUniqueSets_of_mem {columns : List String} (known : columns ∈ t.uniqueSets)
    (other : columns ≠ t.primaryColumns) : columns ∈ publishedUniqueSets t := by
  simp only [Table.uniqueSets, List.mem_append] at known
  rcases known with (key | unique) | index
  · split_ifs at key
    · exact absurd key List.not_mem_nil
    · exact absurd (List.mem_singleton.1 key) other
  · exact List.mem_append_left _ unique
  · obtain ⟨i, hi, rfl⟩ := List.mem_map.1 index
    obtain ⟨hi, full⟩ := List.mem_filter.1 hi
    rw [Index.isFullUnique, Bool.and_eq_true] at full
    exact List.mem_append_right _ (List.mem_map_of_mem (List.mem_filter.2 ⟨hi, full.1⟩))

/-- Indexes for some rows are all that is published without being a unique set. -/
theorem published_iff : (∀ columns ∈ publishedUniqueSets t, t.isUniqueSet columns = true) ↔ CoversPartialIndexes t := by
  constructor
  · intro enforced i hi unique plain _
    have kept : i ∈ t.indexes.filter fun i => i.unique && !i.isExpression :=
      List.mem_filter.2 ⟨hi, by rw [unique, plain]; rfl⟩
    exact enforced i.columns (List.mem_append_right _ (List.mem_map_of_mem kept))
  · intro covered columns published
    rcases List.mem_append.1 published with unique | index
    · have known : columns ∈ t.uniqueSets := List.mem_append_left _ (List.mem_append_right _ unique)
      exact isUniqueSet_of_mem known
    · obtain ⟨i, hi, rfl⟩ := List.mem_map.1 index
      obtain ⟨hi, plain⟩ := List.mem_filter.1 hi
      rw [Bool.and_eq_true, Bool.not_eq_true'] at plain
      by_cases all : i.condition = none
      · have full : i.isFullUnique = true := by rw [Index.isFullUnique, plain.1, plain.2, all]; rfl
        have known : i.columns ∈ t.uniqueSets :=
          List.mem_append_right _ (List.mem_map_of_mem (List.mem_filter.2 ⟨hi, full⟩))
        exact isUniqueSet_of_mem known
      · exact covered i hi plain.1 plain.2 all

end

/-- the rules of a resource and its table agree on what is unique -/
structure UniqueInStep (t : Table) (r : Resource) : Prop where
  /-- what a rule says is unique is, in some order, a unique set -/
  enforced : ∀ rule ∈ r.rules, rule.kind = .unique → t.isUniqueSet rule.fields = true
  /-- each unique set but the primary key has a rule -/
  published : ∀ columns ∈ t.uniqueSets, columns ≠ t.primaryColumns →
    ∃ rule ∈ r.rules, rule.kind = .unique ∧ rule.fields = columns

section
variable {s : Settings} {d : Dialect} {names : List (TableRef × String)} {bound : List (TableRef × Binding)}
  {t : Table} {r : Resource}

theorem MadeOf.published (h : MadeOf s d names bound t r) : ∀ columns ∈ t.uniqueSets, columns ≠ t.primaryColumns →
    ∃ rule ∈ r.rules, rule.kind = .unique ∧ rule.fields = columns := by
  obtain ⟨findings, made⟩ := h.rules
  intro columns known other
  exact (exists_rule_iff made).2 (mem_publishedUniqueSets_of_mem known other)

theorem MadeOf.uniqueInStep_iff (h : MadeOf s d names bound t r) : UniqueInStep t r ↔ CoversPartialIndexes t := by
  obtain ⟨findings, made⟩ := h.rules
  rw [← published_iff]
  constructor
  · intro agree columns published
    obtain ⟨rule, hr, kind, rfl⟩ := (exists_rule_iff made).2 published
    exact agree.enforced rule hr kind
  · intro enforced
    refine ⟨fun rule hr kind => ?_, h.published⟩
    exact enforced rule.fields ((exists_rule_iff made).1 ⟨rule, hr, kind, rfl⟩)

end

/-- Rules and table agree on what is unique exactly if the columns of each unique index for some rows are unique in all
of them; and in any case each unique set of the table, but its primary key, has a rule. -/
theorem infer_uniqueInStep_iff {s : Settings} {m : Model} {description : Description} {findings : Findings}
    (inferred : infer s m = .ok (description, findings)) :
    List.Forall₂ (fun t r => (UniqueInStep t r ↔ CoversPartialIndexes t) ∧
        ∀ columns ∈ t.uniqueSets, columns ≠ t.primaryColumns →
          ∃ rule ∈ r.rules, rule.kind = .unique ∧ rule.fields = columns)
      (resourceTables m) description.resources := by
  obtain ⟨built, made, whole⟩ := exists_of_infer inferred
  rw [whole, List.forall₂_map_right_iff]
  apply (forall₂_of_mapM_eq_ok made).imp
  intro t result one
  have of := madeOf_of_resource one
  exact ⟨of.uniqueInStep_iff, of.published⟩

/-- Accounts whose mail addresses differ while they are open. People whose names differ while they work, and whose names
and birthdays differ always. -/
def accountsAndPeople (alsoClosed : Bool) : List Statement := [
  ⟨.createTable
    { name := ⟨"account", none⟩
      columns := [{ name := "id", type := none, position := ⟨1, 1, 0⟩ },
        { name := "mail", type := none, position := ⟨1, 1, 0⟩ },
        { name := "closed", type := none, position := ⟨1, 1, 0⟩ }]
      constraints := .primaryKey ["id"] none ⟨1, 1, 0⟩ ::
        if alsoClosed then [.unique ["mail"] none ⟨1, 1, 0⟩] else [] }, ⟨1, 1, 0⟩, none⟩,
  ⟨.createTable
    { name := ⟨"person", none⟩
      columns := [{ name := "name", type := none, position := ⟨2, 1, 0⟩ },
        { name := "birthday", type := none, position := ⟨2, 1, 0⟩ }]
      constraints := [.primaryKey ["name", "birthday"] none ⟨2, 1, 0⟩] }, ⟨2, 1, 0⟩, none⟩,
  ⟨.createIndex
    { name := some "open_mail", table := ⟨"account", none⟩, elements := [⟨"mail", some "mail", false⟩], unique := true
      condition := some "closed = 0" }, ⟨3, 1, 0⟩, none⟩,
  ⟨.createIndex
    { name := some "born", table := ⟨"person", none⟩, unique := true
      elements := [⟨"birthday", some "birthday", false⟩, ⟨"name", some "name", false⟩]
      condition := some "birthday > 0" }, ⟨4, 1, 0⟩, none⟩]

/-- indexes for some rows are no harm where a key has their columns -/
theorem infer_uniqueInStep_accountsAndPeople : ∃ b description findings,
    buildModel .postgresql none (accountsAndPeople true) = .ok b ∧ infer {} b.model = .ok (description, findings) ∧
    description.resources.map (fun r => (r.rules.filter (·.kind == .unique)).map (·.fields)) =
      [[["mail"], ["mail"]], [["birthday", "name"]]] ∧
    List.Forall₂ UniqueInStep (resourceTables b.model) description.resources := by
  have complete : (buildModel .postgresql none (accountsAndPeople true)).toOption.bind (fun b =>
      (infer {} b.model).toOption.map fun (description, _) =>
        (description.resources.map (fun r => (r.rules.filter (·.kind == .unique)).map (·.fields)),
          decide (∀ t ∈ resourceTables b.model, CoversPartialIndexes t))) =
      some ([[["mail"], ["mail"]], [["birthday", "name"]]], true) := by
    decide +kernel
  obtain ⟨b, built, complete⟩ := Option.bind_eq_some_iff.1 complete
  obtain ⟨⟨description, findings⟩, inferred, complete⟩ := Option.map_eq_some_iff.1 complete
  obtain ⟨published, covered⟩ := by simpa only [Prod.mk.injEq] using complete
  have inferred := toOption_eq_some_iff.1 inferred
  have each := infer_uniqueInStep_iff inferred
  refine ⟨b, description, findings, toOption_eq_some_iff.1 built, inferred, published, ?_⟩
  rw [List.forall₂_iff_zip] at each ⊢
  refine ⟨each.1, fun {t r} member => ?_⟩
  exact (each.2 member).1.2 (of_decide_eq_true covered t (List.of_mem_zip member).1)

/-- a rule says that no two accounts have the same mail address, but the database keeps only open ones apart -/
theorem not_uniqueInStep_accountsAndPeople : ∃ b description findings,
    buildModel .postgresql none (accountsAndPeople false) = .ok b ∧ infer {} b.model = .ok (description, findings) ∧
    ¬ List.Forall₂ UniqueInStep (resourceTables b.model) description.resources := by
  have complete : (buildModel .postgresql none (accountsAndPeople false)).toOption.bind (fun b =>
      (infer {} b.model).toOption.map fun (description, _) =>
        ((resourceTables b.model).zip description.resources).any fun (t, r) =>
          r.rules.any fun rule => rule.kind == .unique && !t.isUniqueSet rule.fields) =
      some true := by
    decide +kernel
  obtain ⟨b, built, complete⟩ := Option.bind_eq_some_iff.1 complete
  obtain ⟨⟨description, findings⟩, inferred, overstated⟩ := Option.map_eq_some_iff.1 complete
  refine ⟨b, description, findings, toOption_eq_some_iff.1 built, toOption_eq_some_iff.1 inferred, fun agree => ?_⟩
  obtain ⟨⟨t, r⟩, member, overstated⟩ := List.any_eq_true.1 overstated
  obtain ⟨rule, hr, overstated⟩ := List.any_eq_true.1 overstated
  rw [Bool.and_eq_true, Bool.not_eq_true', beq_iff_eq] at overstated
  have enforced := ((List.forall₂_iff_zip.1 agree).2 member).enforced rule hr overstated.1
  rw [overstated.2] at enforced
  contradiction

end Api

end SchemaApi
