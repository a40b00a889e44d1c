import SchemaApi.Proofs.Api.ResourceName
import SchemaApi.Proofs.Schema.Relationship
import SchemaApi.Proofs.Schema.Tidy
/-!
What the items of a resource are addressed by.

The identity of a resource is the primary key of its table, or else the first unique set whose columns are all NOT
NULL. Of rows that obey the table no two agree on it, so one item has at most one row. A tidy table with a primary key
has such a set, and so there is an identity whenever there can be one (`Addresses`).
-/

namespace SchemaApi.Api

/-! ## Rows of a table -/

/-- no row is NULL in a column that is NOT NULL -/
def Fills {V : Type*} (t : Table) (rows : List (Row V)) : Prop :=
  ∀ row ∈ rows, ∀ c ∈ t.columns, c.nullable = false → row c.name ≠ none

/-- the columns of the names are NOT NULL columns of the table -/
def Required (t : Table) (names : List String) : Prop := ∀ n ∈ names, ∃ c ∈ t.columns, c.name = n ∧ c.nullable = false

/-- some column of the names may be NULL -/
def Optional (t : Table) (names : List String) : Prop := ∃ c ∈ t.columns, c.name ∈ names ∧ c.nullable = true

/-- rows that obey the table differ on a key whose columns are NOT NULL -/
theorem pairwise_of_required {V : Type*} {t : Table} {rows : List (Row V)} {names : List String} (key : t.IsKey names)
    (required : Required t names) (fills : Fills t rows) (admitted : t.Admits rows) :
    rows.Pairwise fun a b => ∃ n ∈ names, a n ≠ b n := by
  have holds : ∀ row ∈ rows, ∀ n ∈ names, row n ≠ none := by
    intro row hrow n hn
    obtain ⟨c, hc, rfl, notNull⟩ := required n hn
    exact fills row hrow c hc notNull
  apply (admitted names key).imp_of_mem
  intro a b ha hb differ
  exact differ (holds a ha) (holds b hb)

/-! ## The identity of a table -/

section

variable {d : Dialect} {t : Table} (h : t.Tidy d)

include h

/-- in a tidy table a name stands for one column -/
theorem names_nodup_of_tidy : (t.columns.map (·.name)).Nodup := h.wellFormed.distinct.of_map

theorem holdsValues_iff {n : String} : ((t.column? n).map fun c => !c.nullable).getD false = true ↔
    ∃ c ∈ t.columns, c.name = n ∧ c.nullable = false := by
  constructor
  · intro holds
    cases found : t.column? n with
    | none => simp [found] at holds
    | some c =>
      refine ⟨c, List.mem_reverse.1 (List.mem_of_find?_eq_some found), ?_, by simpa [found] using holds⟩
      simpa using List.find?_some found
  · rintro ⟨c, hc, rfl, notNull⟩
    have found : t.column? c.name = some c := find?_reverse_of_nodup (names_nodup_of_tidy h) hc
    rw [found, Option.map_some, Option.getD_some, notNull]
    rfl

/-- a key has a column that may be NULL, unless all of its columns are NOT NULL -/
theorem optional_iff_not_required {names : List String} (known : names ∈ t.uniqueSets) :
    Optional t names ↔ ¬ Required t names := by
  constructor
  · rintro ⟨c, hc, inside, nullable⟩ required
    obtain ⟨c', hc', same, notNull⟩ := required c.name inside
    obtain rfl : c' = c := List.inj_on_of_nodup_map (names_nodup_of_tidy h) hc' hc same
    rw [nullable] at notNull
    contradiction
  · intro missing
    unfold Required at missing
    push Not at missing
    obtain ⟨n, hn, nullable⟩ := missing
    obtain ⟨c, hc, rfl⟩ := List.mem_map.1 (h.wellFormed.mem_columnNames (t := t.rekeyed d) known n hn)
    exact ⟨c, hc, hn, by simpa using nullable c hc rfl⟩

theorem required_of_primaryKey? {names : List String} (key : t.primaryKey? = some names) : Required t names := by
  obtain ⟨c, hc, own⟩ := List.exists_of_findSome?_eq_some key
  intro n hn
  cases c with
  | primaryKey name columns =>
    obtain rfl : columns = names := Option.some.inj own
    obtain ⟨x, hx, rfl⟩ := List.mem_map.1 (h.wellFormed.named _ hc n hn)
    exact ⟨x, hx, rfl, h.wellFormed.required name columns hc x hx hn⟩
  | _ => simp [Constraint.primaryColumns?] at own

/-- the columns that items are addressed by are NOT NULL -/
theorem required_identity : Required t (identity t).1 := by
  unfold identity
  split_ifs with key
  · cases own : t.primaryKey? with
    | none => simp [Table.primaryColumns, own] at key
    | some names =>
      rw [Table.primaryColumns, own, Option.getD_some]
      exact required_of_primaryKey? h own
  · dsimp only
    split
    · rename_i names found
      have all := List.find?_some found
      intro n hn
      exact (holdsValues_iff h).1 (List.all_eq_true.1 all n hn)
    · exact fun n hn => absurd hn List.not_mem_nil

/-- items cannot be addressed exactly if each key of the table has a column that may be NULL -/
theorem identity_eq_nil_iff : (identity t).1 = [] ↔ ∀ names ∈ t.uniqueSets, Optional t names := by
  constructor
  · intro none names known
    rw [optional_iff_not_required h known]
    intro required
    unfold identity at none
    split_ifs at none with key
    · have filled : t.primaryColumns ≠ [] := by simpa using key
      exact filled none
    · dsimp only at none
      have sets : t.uniqueSets =
          t.uniqueConstraints ++ (t.indexes.filter (·.isFullUnique)).map (·.columns) := by
        rw [Table.uniqueSets, if_pos (by simpa using key), List.nil_append]
      split at none
      · rename_i chosen found
        have inside : chosen ∈ t.uniqueSets := sets ▸ List.mem_of_find?_eq_some found
        exact h.ne_nil_of_mem_uniqueSets inside none
      · rename_i found
        apply List.find?_eq_none.1 found names (sets ▸ known)
        rw [List.all_eq_true]
        intro n hn
        exact (holdsValues_iff h).2 (required n hn)
  · intro optional
    rcases identity_mem_uniqueSets t with known | none
    · exact absurd (required_identity h) ((optional_iff_not_required h known).1 (optional _ known))
    · exact none

end

/-! ## Operations -/

/-- what a resource says about single rows of its table -/
structure Addresses (t : Table) (r : Resource) : Prop where
  table : r.table = t.name ∧ r.schema = t.schema
  /-- what items are addressed by is NOT NULL -/
  required : Required t r.identity
  /-- no two rows are addressed alike, whatever the rows are that obey the table -/
  single : r.identity ≠ [] → ∀ {V : Type} (rows : List (Row V)), Fills t rows → t.Admits rows →
    rows.Pairwise fun a b => ∃ n ∈ r.identity, a n ≠ b n
  /-- items are not addressed only where no key could address them -/
  offered : r.identity = [] ↔ ∀ names ∈ t.uniqueSets, Optional t names
  /-- items that are not addressed are only listed and added -/
  kinds : r.operations.map (·.kind) =
    if r.identity = [] then [.list, .create] else [.list, .create, .read, .update, .patch, .delete]
  /-- an operation on one item takes a value for each column of the identity -/
  parameters : ∀ o ∈ r.operations, o.kind ∈ [.read, .update, .patch, .delete] →
    o.pathParameters.map (·.name) = r.identity

section

variable {s : Settings} {d : Dialect} {names : List (TableRef × String)} {bound : List (TableRef × Binding)}
  {t : Table} {r : Resource}

/-- the parameters of a path are named after the columns -/
theorem names_of_pathParameters {name : String} {properties : List Property} {columns : List String}
    {parameters : List Parameter} (made : columns.mapM (pathParameter name properties) = .ok parameters) :
    parameters.map (·.name) = columns := by
  have each := (forall₂_of_mapM_eq_ok made).imp fun column p one => (name_of_pathParameter one).symm
  have same : columns.map id = parameters.map (·.name) := map_eq_map_of_forall₂ each
  rw [← same, List.map_id]

theorem MadeOf.kinds (h : MadeOf s d names bound t r) : r.operations.map (·.kind) =
    if r.identity = [] then [.list, .create] else [.list, .create, .read, .update, .patch, .delete] := by
  obtain ⟨parameters, -, operations⟩ := h.operations
  rw [operations, itemPath?]
  by_cases none : r.identity = []
  · simp [none, collectionOperations]
  · simp [none, collectionOperations, itemOperations]

theorem MadeOf.parameters (h : MadeOf s d names bound t r) : ∀ o ∈ r.operations,
    o.kind ∈ [.read, .update, .patch, .delete] → o.pathParameters.map (·.name) = r.identity := by
  obtain ⟨parameters, given, operations⟩ := h.operations
  have named := names_of_pathParameters given
  intro o ho kind
  rw [operations, List.mem_append] at ho
  rcases ho with collection | item
  · simp only [collectionOperations, List.mem_cons, List.not_mem_nil, or_false] at collection
    rcases collection with rfl | rfl
    · simp at kind
    · simp at kind
  · cases path : itemPath? r.path r.identity with
    | none => simp [path] at item
    | some p =>
      simp only [path, Option.map_some, Option.getD_some, itemOperations, List.mem_cons, List.not_mem_nil,
        or_false] at item
      rcases item with rfl | rfl | rfl | rfl
      all_goals exact named

theorem addresses_of_resource (h : t.Tidy d) {findings : Findings}
    (made : resource s d names bound t = .ok (r, findings)) : Addresses t r := by
  have of := madeOf_of_resource made
  obtain ⟨table, schema, -⟩ := sides_of_resource made
  refine ⟨⟨table, schema⟩, of.identity ▸ required_identity h, fun some V rows fills admitted => ?_,
    of.identity ▸ identity_eq_nil_iff h, of.kinds, of.parameters⟩
  rw [of.identity] at some ⊢
  have key : t.IsKey (identity t).1 :=
    (Table.isKey_iff some).2 ((identity_mem_uniqueSets t).resolve_right some)
  exact pairwise_of_required key (required_identity h) fills admitted

end

/-- Where columns are replaced only if case counts, each resource of a model addresses the rows of its table one by
one, by NOT NULL columns, if any key of the table can; else its items are only listed and added. -/
theorem infer_addresses {d : Dialect} {statements : List Statement} (replaces : Workspace.Exact d statements)
    {schemaFilter : Option String} {b : Built} (built : buildModel d schemaFilter statements = .ok b)
    {s : Settings} {description : Description} {findings : Findings}
    (inferred : infer s b.model = .ok (description, findings)) :
    List.Forall₂ Addresses (resourceTables b.model) description.resources := by
  obtain ⟨-, -, -, -, dialect, -⟩ := buildModel_tables built
  have tidy : ∀ t ∈ b.model.tables, t.Tidy b.model.dialect := dialect ▸ tidy_of_buildModel replaces built
  obtain ⟨resources, made, whole⟩ := exists_of_infer inferred
  rw [whole, List.forall₂_map_right_iff]
  have each := forall₂_of_mapM_eq_ok made
  rw [List.forall₂_iff_zip] at each ⊢
  refine ⟨each.1, fun {t result} member => ?_⟩
  have inside : t ∈ b.model.tables := (List.mem_filter.1 (List.of_mem_zip member).1).1
  exact addresses_of_resource (tidy t inside) (each.2 member)

/-- items with a primary key, in a schema of an empty name, people whose mail address may be missing but whose login may
not, and notes whose texts differ -/
def itemsPeopleAndNotes : List Statement := [
  ⟨.createTable
    { name := ⟨"item", some ""⟩
      columns := [{ name := "id", type := none, position := ⟨1, 1, 0⟩ }]
      constraints := [.primaryKey ["id"] none ⟨1, 1, 0⟩] }, ⟨1, 1, 0⟩, none⟩,
  ⟨.createTable
    { name := ⟨"person", none⟩
      columns := [{ name := "mail", type := none, position := ⟨2, 1, 0⟩ },
        { name := "login", type := none, notNull := some true, position := ⟨2, 1, 0⟩ }]
      constraints := [.unique ["mail"] none ⟨2, 1, 0⟩, .unique ["login"] none ⟨2, 1, 0⟩] }, ⟨2, 1, 0⟩, none⟩,
  ⟨.createTable
    { name := ⟨"note", none⟩
      columns := [{ name := "content", type := none, position := ⟨3, 1, 0⟩ }]
      constraints := [.unique ["content"] none ⟨3, 1, 0⟩] }, ⟨3, 1, 0⟩, none⟩,
  ⟨.alterTable { name := ⟨"person", none⟩, actions := [.renameColumn "login" "name"] }, ⟨4, 1, 0⟩, none⟩]

/-- notes are only listed and added, since a text may be missing -/
theorem infer_addresses_itemsPeopleAndNotes : ∃ b description findings,
    buildModel .postgresql none itemsPeopleAndNotes = .ok b ∧ infer {} b.model = .ok (description, findings) ∧
    description.resources.map (fun r => (r.name, r.identity, r.operations.length)) =
      [("item", ["id"], 6), ("person", ["name"], 6), ("note", [], 2)] ∧
    List.Forall₂ Addresses (resourceTables b.model) description.resources := by
  have complete : (buildModel .postgresql none itemsPeopleAndNotes).toOption.bind (fun b =>
      (infer {} b.model).toOption.map fun (description, _) =>
        description.resources.map fun r => (r.name, r.identity, r.operations.length)) =
      some [("item", ["id"], 6), ("person", ["name"], 6), ("note", [], 2)] := by
    decide +kernel
  obtain ⟨b, built, complete⟩ := Option.bind_eq_some_iff.1 complete
  obtain ⟨⟨description, findings⟩, inferred, given⟩ := Option.map_eq_some_iff.1 complete
  have built := toOption_eq_some_iff.1 built
  have inferred := toOption_eq_some_iff.1 inferred
  have replaces : Workspace.Exact .postgresql itemsPeopleAndNotes := fun _ _ _ _ _ _ _ => rfl
  exact ⟨b, description, findings, built, inferred, given, infer_addresses replaces built inferred⟩

end SchemaApi.Api
