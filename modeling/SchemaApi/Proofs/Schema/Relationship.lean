import SchemaApi.Proofs.Schema.Agreement
/-!
What relationships say about foreign keys, and about rows.

Every foreign key that resolves to a key of a table is accounted for by one relationship: both foreign keys of a
table that only links others by the same one, and each other by its own. A one-to-one relationship is a statement
about rows. The columns of its foreign key are, in some order, a key of the table, so two rows that refer to the same
row would agree on that key.
-/

namespace SchemaApi

/-! ## Keys and what resolves to them -/

/-- the columns are the primary key, a unique constraint, or an index that holds all rows once -/
def Table.IsKey (t : Table) (cols : List String) : Prop :=
  t.primaryKey? = some cols ∨ cols ∈ t.uniqueConstraints ∨
    ∃ i ∈ t.indexes, i.unique = true ∧ i.isExpression = false ∧ i.condition = none ∧ i.columns = cols

theorem Table.isKey_iff {t : Table} {cols : List String} (filled : cols ≠ []) :
    t.IsKey cols ↔ cols ∈ t.uniqueSets := by
  rw [mem_uniqueSets_iff filled]
  simp only [IsKey, Index.isFullUnique, Bool.and_eq_true, Bool.not_eq_true', Option.isNone_iff_eq_none, and_assoc]

/-- the foreign key names, column by column, a key of a table -/
def ForeignKey.Resolved (tables : List Table) (key : ForeignKey) : Prop :=
  ∃ t ∈ tables, t.ref = key.target ∧ key.targetColumns ≠ [] ∧ key.targetColumns.length = key.columns.length ∧
    t.IsKey key.targetColumns

theorem ForeignKey.Resolved.columns {tables : List Table} {key : ForeignKey} (resolved : key.Resolved tables) :
    key.columns ≠ [] := by
  obtain ⟨t, -, -, filled, lengths, -⟩ := resolved
  rw [← List.length_pos_iff, ← lengths]
  exact List.length_pos_iff.2 filled

theorem sameMembers_iff {a b : List String} : sameMembers a b = true ↔ ∀ c, c ∈ a ↔ c ∈ b := by
  simp only [sameMembers, Bool.and_eq_true, List.all_eq_true, List.contains_iff_mem]
  exact ⟨fun h c => ⟨h.1 c, h.2 c⟩, fun h => ⟨fun c => (h c).1, fun c => (h c).2⟩⟩

/-- some key of the table has these columns, in some order -/
def Table.IsKeySet (t : Table) (cols : List String) : Prop := ∃ key, t.IsKey key ∧ ∀ c, c ∈ key ↔ c ∈ cols

theorem Table.isUniqueSet_iff {t : Table} {cols : List String} (filled : cols ≠ []) :
    t.isUniqueSet cols = true ↔ t.IsKeySet cols := by
  obtain ⟨c, hc⟩ := List.exists_mem_of_ne_nil cols filled
  simp only [isUniqueSet, List.any_eq_true, sameMembers_iff]
  constructor
  · rintro ⟨key, known, same⟩
    exact ⟨key, (isKey_iff (List.ne_nil_of_mem ((same c).2 hc))).2 known, same⟩
  · rintro ⟨key, known, same⟩
    exact ⟨key, (isKey_iff (List.ne_nil_of_mem ((same c).2 hc))).1 known, same⟩

/-! ## Foreign keys and their relationships -/

/-- the table has two foreign keys, both resolved, without a common column, and no other column has to be given -/
structure Table.Links (tables : List Table) (t : Table) (left right : ForeignKey) : Prop where
  keys : t.foreignKeys = [left, right]
  source : left.Resolved tables
  target : right.Resolved tables
  disjoint : ∀ c ∈ left.columns, c ∉ right.columns
  optional : ∀ c ∈ t.columns, c.name ∈ left.columns ∨ c.name ∈ right.columns ∨ c.name ∈ t.primaryColumns ∨
    c.nullable = true ∨ c.default ≠ none ∨ c.isGenerated = true

/-- the relationship is that of a foreign key with the table it refers to -/
structure Relationship.Repeats (r : Relationship) (t : Table) (key : ForeignKey) : Prop where
  kind : r.kind = .oneToOne ∧ t.IsKeySet key.columns ∨ r.kind = .oneToMany ∧ ¬ t.IsKeySet key.columns
  source : r.fromTable = t.ref ∧ r.fromColumns = key.columns
  target : r.toTable = key.target ∧ r.toColumns = key.targetColumns
  actions : r.onDelete = key.onDelete ∧ r.onUpdate = key.onUpdate
  direct : r.junction = none

/-- the relationship is that of the two tables that foreign keys of a third refer to -/
structure Relationship.Joins (r : Relationship) (t : Table) (left right : ForeignKey) : Prop where
  kind : r.kind = .manyToMany
  source : r.fromTable = left.target ∧ r.fromColumns = left.targetColumns
  target : r.toTable = right.target ∧ r.toColumns = right.targetColumns
  actions : r.onDelete = left.onDelete ∧ r.onUpdate = left.onUpdate
  through : r.junction = some ⟨t.ref, left.columns, right.columns⟩

/-- the relationship stands for foreign keys of a table -/
inductive Relationship.Accounts (tables : List Table) (r : Relationship) : Table × List ForeignKey → Prop
  | joins {t : Table} {left right : ForeignKey} (declared : t ∈ tables) (links : t.Links tables left right)
      (joins : r.Joins t left right) : Accounts tables r (t, [left, right])
  | repeats {t : Table} {key : ForeignKey} (declared : t ∈ tables) (plain : ∀ left right, ¬ t.Links tables left right)
      (own : key ∈ t.foreignKeys) (resolved : key.Resolved tables) (repeats : r.Repeats t key) :
      Accounts tables r (t, [key])

section

variable {tables : List Table} (distinct : (tables.map (·.ref)).Nodup)

include distinct

theorem isSome_resolvedTarget {key : ForeignKey} : (resolvedTarget tables key).isSome = true ↔ key.Resolved tables := by
  rw [Option.isSome_iff_exists]
  refine exists_congr fun t => ?_
  rw [resolvedTarget_eq_some_iff distinct]
  refine and_congr_right fun _ => and_congr_right fun _ => and_congr_right fun filled => and_congr_right fun _ => ?_
  exact (Table.isKey_iff filled).symm

theorem junctionKeys?_eq_some_iff {t : Table} {left right : ForeignKey} :
    junctionKeys? tables t = some (left, right) ↔ t.Links tables left right := by
  have links : linksOnly tables t left right = true ↔ left.Resolved tables ∧ right.Resolved tables ∧
      (∀ c ∈ left.columns, c ∉ right.columns) ∧ ∀ c ∈ t.columns, c.name ∈ left.columns ∨ c.name ∈ right.columns ∨
        c.name ∈ t.primaryColumns ∨ c.nullable = true ∨ c.default ≠ none ∨ c.isGenerated = true := by
    simp only [linksOnly, isOptionalColumn, Bool.and_eq_true, Bool.or_eq_true, Bool.not_eq_true', List.any_eq_false,
      List.all_eq_true, List.contains_iff_mem, isSome_resolvedTarget distinct, Option.isSome_iff_ne_none, and_assoc,
      or_assoc]
  constructor
  · intro found
    unfold junctionKeys? linkKeys? at found
    split at found
    · rename_i left' right' two
      split at two
      · rename_i keys
        obtain ⟨rfl, rfl⟩ := Prod.mk.inj (Option.some.inj two)
        split_ifs at found with only
        obtain ⟨rfl, rfl⟩ := Prod.mk.inj (Option.some.inj found)
        obtain ⟨source, target, disjoint, optional⟩ := links.1 only
        exact ⟨keys, source, target, disjoint, optional⟩
      · contradiction
    · contradiction
  · intro h
    have only := links.2 ⟨h.source, h.target, h.disjoint, h.optional⟩
    simp [junctionKeys?, linkKeys?, h.keys, only]

open Classical in
/-- what one table makes accounts for its resolved foreign keys -/
theorem accounts_tableRelationships {t : Table} (ht : t ∈ tables) : ∃ groups,
    List.Forall₂ (Relationship.Accounts tables) (tableRelationships tables t) groups ∧
      (groups.flatMap fun g => g.2.map (g.1, ·)) = (t.foreignKeys.filter fun k => k.Resolved tables).map (t, ·) := by
  unfold tableRelationships
  split
  · rename_i left right linked
    have links := (junctionKeys?_eq_some_iff distinct).1 linked
    refine ⟨[(t, [left, right])], ?_, ?_⟩
    · exact .cons (.joins ht links ⟨rfl, ⟨rfl, rfl⟩, ⟨rfl, rfl⟩, ⟨rfl, rfl⟩, rfl⟩) .nil
    · simp [links.keys, links.source, links.target]
  · rename_i alone
    have plain : ∀ left right, ¬ t.Links tables left right := fun left right links => by
      simp [(junctionKeys?_eq_some_iff distinct).2 links] at alone
    have same : (t.foreignKeys.filter fun k => (resolvedTarget tables k).isSome) =
        t.foreignKeys.filter fun k => k.Resolved tables :=
      List.filter_congr fun k _ => by rw [Bool.eq_iff_iff, isSome_resolvedTarget distinct, decide_eq_true_iff]
    refine ⟨(t.foreignKeys.filter fun k => k.Resolved tables).map fun k => (t, [k]), ?_, ?_⟩
    · rw [same, List.forall₂_map_left_iff, List.forall₂_map_right_iff, List.forall₂_same]
      intro k hk
      obtain ⟨own, resolved⟩ := List.mem_filter.1 hk
      have resolved := of_decide_eq_true resolved
      refine .repeats ht plain own resolved ⟨?_, ⟨rfl, rfl⟩, ⟨rfl, rfl⟩, ⟨rfl, rfl⟩, rfl⟩
      have unique := Table.isUniqueSet_iff (t := t) resolved.columns
      by_cases keySet : t.IsKeySet k.columns
      · exact .inl ⟨by rw [keyRelationship, if_pos (unique.2 keySet)], keySet⟩
      · exact .inr ⟨by rw [keyRelationship, if_neg (mt unique.1 keySet)], keySet⟩
    · rw [List.flatMap_map, List.map_eq_flatMap]
      rfl

end

/-! ## Rows -/

/-- the value of each column, none where it is NULL -/
abbrev Row (V : Type*) := String → Option V

section

variable {V : Type*}

/-- no two rows that lack none of the columns agree on them -/
def UniqueOn (cols : List String) (rows : List (Row V)) : Prop :=
  rows.Pairwise fun a b => (∀ c ∈ cols, a c ≠ none) → (∀ c ∈ cols, b c ≠ none) → ∃ c ∈ cols, a c ≠ b c

/-- the rows obey the primary key, the unique constraints and the unique indexes of all rows -/
def Table.Admits (t : Table) (rows : List (Row V)) : Prop := ∀ key, t.IsKey key → UniqueOn key rows

/-- no column of the foreign key is NULL, and its columns have the values of the columns that it refers to -/
def Relationship.RefersTo (r : Relationship) (row target : Row V) : Prop :=
  (∀ c ∈ r.fromColumns, row c ≠ none) ∧ List.Forall₂ (fun c c' => row c = target c') r.fromColumns r.toColumns

/-- rows that refer to the same one agree on the foreign key -/
theorem Relationship.RefersTo.agree {r : Relationship} {a b target : Row V} (ha : r.RefersTo a target)
    (hb : r.RefersTo b target) : ∀ c ∈ r.fromColumns, a c = b c := by
  have pairs := ha.2
  have pairs' := hb.2
  intro c hc
  obtain ⟨i, hi, rfl⟩ := List.getElem_of_mem hc
  have same := (List.forall₂_iff_get.1 pairs).1
  have first := (List.forall₂_iff_get.1 pairs).2 i hi (same ▸ hi)
  have second := (List.forall₂_iff_get.1 pairs').2 i hi (same ▸ hi)
  exact first.trans second.symm

/-- where the columns of a foreign key are a key of its table, at most one row refers to a row -/
theorem Table.Admits.pairwise_not_refersTo {t : Table} {rows : List (Row V)} (admitted : t.Admits rows)
    {r : Relationship} (unique : t.IsKeySet r.fromColumns) :
    rows.Pairwise fun a b => ∀ target, ¬ (r.RefersTo a target ∧ r.RefersTo b target) := by
  obtain ⟨key, isKey, same⟩ := unique
  refine (admitted key isKey).imp ?_
  rintro a b differ target ⟨ha, hb⟩
  obtain ⟨c, hc, unlike⟩ := differ (fun c hc => ha.1 c ((same c).1 hc)) fun c hc => hb.1 c ((same c).1 hc)
  exact unlike (ha.agree hb c ((same c).1 hc))

end

/-! ## All tables -/

section

variable {tables : List Table} (distinct : (tables.map (·.ref)).Nodup)

include distinct

open Classical in
theorem accounts_flatMap {part : List Table} (declared : ∀ t ∈ part, t ∈ tables) : ∃ groups,
    List.Forall₂ (Relationship.Accounts tables) (part.flatMap (tableRelationships tables)) groups ∧
      (groups.flatMap fun g => g.2.map (g.1, ·)) =
        part.flatMap fun t => (t.foreignKeys.filter fun k => k.Resolved tables).map (t, ·) := by
  induction part with
  | nil => exact ⟨[], .nil, rfl⟩
  | cons t part ih =>
    rw [List.forall_mem_cons] at declared
    obtain ⟨first, accounts, keys⟩ := accounts_tableRelationships distinct declared.1
    obtain ⟨others, accounts', keys'⟩ := ih declared.2
    refine ⟨first ++ others, List.rel_append accounts accounts', ?_⟩
    rw [List.flatMap_append, keys, keys', List.flatMap_cons]

theorem isJunctionTable_iff {t : Table} :
    isJunctionTable tables t = true ↔ ∃ left right, t.Links tables left right := by
  rw [isJunctionTable, Option.isSome_iff_exists, Prod.exists]
  exact exists_congr fun left => exists_congr fun right => junctionKeys?_eq_some_iff distinct

/-- a one-to-one relationship is that of a foreign key whose columns are a key of its table -/
theorem isKeySet_of_oneToOne {r : Relationship} (hr : r ∈ deriveRelationships tables) (oneToOne : r.kind = .oneToOne)
    {t : Table} (ht : t ∈ tables) (source : t.ref = r.fromTable) : t.IsKeySet r.fromColumns := by
  obtain ⟨groups, accounts, -⟩ := accounts_flatMap distinct fun _ h => h
  obtain ⟨g, -, account⟩ := exists_of_mem_forall₂ accounts.flip hr
  cases account with
  | joins _ _ joins => cases joins.kind.symm.trans oneToOne
  | @repeats t' key ht' _ _ _ repeats =>
    obtain rfl := List.inj_on_of_nodup_map distinct ht ht' (source.trans repeats.source.1)
    rw [repeats.source.2]
    rcases repeats.kind with ⟨-, keySet⟩ | ⟨oneToMany, -⟩
    · exact keySet
    · cases oneToMany.symm.trans oneToOne

open Classical in
/-- The relationships of tables account, in order, for each resolved foreign key once and for no other. Each junction
table makes one relationship of its two keys, and each foreign key of another table one of its own. Of the rows of a
table no two refer to the same row by a one-to-one relationship. -/
theorem deriveRelationships_accounts :
    (∃ groups, List.Forall₂ (Relationship.Accounts tables) (deriveRelationships tables) groups ∧
      (groups.flatMap fun g => g.2.map (g.1, ·)) =
        tables.flatMap fun t => (t.foreignKeys.filter fun k => k.Resolved tables).map (t, ·)) ∧
    junctionTables tables = (tables.filter fun t => ∃ left right, t.Links tables left right).map (·.ref) ∧
    ∀ r ∈ deriveRelationships tables, r.kind = .oneToOne → ∀ t ∈ tables, t.ref = r.fromTable →
      ∀ {V : Type*} (rows : List (Row V)), t.Admits rows →
        rows.Pairwise fun a b => ∀ target, ¬ (r.RefersTo a target ∧ r.RefersTo b target) := by
  refine ⟨accounts_flatMap distinct fun _ h => h, ?_, ?_⟩
  · refine congrArg _ (List.filter_congr fun t _ => ?_)
    rw [Bool.eq_iff_iff, isJunctionTable_iff distinct, decide_eq_true_iff]
  · intro r hr oneToOne t ht source V rows admitted
    exact admitted.pairwise_not_refersTo (isKeySet_of_oneToOne distinct hr oneToOne ht source)

end

/-- a table whose columns are integers -/
def integerTable (name : String) (columns : List (String × Bool)) (key : List String)
    (refers : List (String × String)) (indexes : List Index) : Table :=
  { name := name, key := name, indexes := indexes
    columns := columns.map fun (n, nullable) =>
      { name := n, type := { declared := "INT", base := "INT", meaning := .integer }, nullable := nullable }
    constraints := .primaryKey none key :: refers.map fun (n, target) =>
      .foreignKey { columns := [n], target := ⟨target, none⟩, targetColumns := ["id"] } }

/-- a captain has one ship, and perhaps a home that is not declared -/
def captainTable : Table :=
  integerTable "captain" [("id", false), ("ship", true), ("home", true)] ["id"] [("ship", "ship"), ("home", "island")]
    [{ columns := ["ship"], unique := true }]

/-- ships with their flagships and captains, and the passages of ships to harbours -/
def shipsAndCaptains : List Table := [
  integerTable "ship" [("id", false), ("flagship", true)] ["id"] [("flagship", "ship")] [],
  integerTable "harbour" [("id", false)] ["id"] [] [], captainTable,
  integerTable "passage" [("ship", false), ("harbour", false), ("days", true)] ["ship", "harbour"]
    [("ship", "ship"), ("harbour", "harbour")] []]

/-- captains of two ships, and one ashore -/
def captains : List (Row Nat) :=
  [(1, some 7), (2, some 8), (3, none)].map fun (id, ship) c =>
    if c = "id" then some id else if c = "ship" then ship else none

theorem deriveRelationships_accounts_shipsAndCaptains :
    (deriveRelationships shipsAndCaptains).map (fun r => (r.kind, r.name)) = [(.oneToMany, "ship_flagship_fkey"),
      (.oneToOne, "captain_ship_fkey"), (.manyToMany, "passage")] ∧
    (shipsAndCaptains.map (·.ref)).Nodup ∧
    (∃ groups, List.Forall₂ (Relationship.Accounts shipsAndCaptains) (deriveRelationships shipsAndCaptains) groups ∧
      groups.length = 3) ∧
    ∃ r ∈ deriveRelationships shipsAndCaptains, r.fromTable = captainTable.ref ∧
      captains.Pairwise fun a b => ∀ target, ¬ (r.RefersTo a target ∧ r.RefersTo b target) := by
  have derived : (deriveRelationships shipsAndCaptains).map (fun r => (r.kind, r.name)) =
      [(.oneToMany, "ship_flagship_fkey"), (.oneToOne, "captain_ship_fkey"), (.manyToMany, "passage")] := by decide
  have distinct : (shipsAndCaptains.map (·.ref)).Nodup := by decide
  obtain ⟨⟨groups, accounts, -⟩, -, single⟩ := deriveRelationships_accounts distinct
  have admitted : captainTable.Admits captains := by
    rintro key (primary | unique | ⟨i, hi, -, -, -, rfl⟩)
    · obtain rfl : ["id"] = key := Option.some.inj primary
      simp [UniqueOn, captains]
    · cases unique
    · obtain rfl := List.mem_singleton.1 hi
      simp [UniqueOn, captains]
  refine ⟨derived, distinct, ⟨groups, accounts, ?_⟩, ?_⟩
  · rw [← accounts.length_eq, ← List.length_map, derived]
    rfl
  · refine ⟨keyRelationship captainTable ⟨none, ["ship"], ⟨"ship", none⟩, ["id"], none, none⟩, by decide, rfl, ?_⟩
    exact single _ (by decide) (by decide) captainTable (by decide) rfl captains admitted

end SchemaApi
