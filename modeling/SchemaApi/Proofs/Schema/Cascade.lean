import SchemaApi.Proofs.Schema.Model
/-!
Dropping with CASCADE.

A table that is dropped takes all foreign keys that refer to it along, so a valid model stays valid. A column takes
the constraints and indexes that name it, and the foreign keys that name it among the columns that they refer to.
A foreign key that was declared without those columns refers to the primary key and names none of them: it stays,
and where the column was part of the primary key, it has nothing left to refer to (`Workspace.LeavesImplicit`).
-/

namespace SchemaApi

variable {d : Dialect} {limit : Nat}

/-- `DROP TABLE … CASCADE` -/
def Statement.dropCascade (n : QualifiedName) (ifExists : Bool) (position : Position) (source : Option String) :
    Statement :=
  ⟨.dropTable { names := [n], ifExists := ifExists, cascade := true }, position, source⟩

/-! ## A table without one of its columns -/

namespace Draft

variable {t : Draft} {column : Column}

theorem column?_eraseColumn {n : String} (other : d.sameName n column.name = false) :
    (t.eraseColumn d column).column? d n = t.column? d n := by
  unfold column? eraseColumn
  induction t.columns with
  | nil => rfl
  | cons c rest ih =>
    rw [List.eraseP_cons]
    by_cases here : d.sameName c.name column.name = true
    · have unlike : d.sameName c.name n = false := by
        rw [← Bool.not_eq_true, Dialect.sameName_iff] at other ⊢
        exact fun e => other (e.symm.trans (Dialect.sameName_iff.1 here))
      rw [here, cond_true, List.find?_cons, unlike]
    · rw [Bool.not_eq_true] at here
      rw [here, cond_false, List.find?_cons, List.find?_cons]
      simp only at ih
      rw [ih]

theorem constraints_eraseColumn : (t.eraseColumn d column).toTable.constraints =
    t.toTable.constraints.filter fun c => !constraintNames d column.name c := by
  rw [toTable, toTable, List.filter_map]
  rfl

theorem findSome?_filter {α β : Type} {f : α → Option β} {p : α → Bool} {l : List α} {b : β}
    (found : l.findSome? f = some b) (kept : ∀ a ∈ l, f a = some b → p a = true) :
    (l.filter p).findSome? f = some b := by
  induction l with
  | nil => simp at found
  | cons a rest ih =>
    have stays := kept a List.mem_cons_self
    have others := fun a' (ha' : a' ∈ rest) => kept a' (List.mem_cons_of_mem a ha')
    rw [List.findSome?_cons] at found
    cases here : f a with
    | some b' =>
      rw [here] at found
      obtain rfl := Option.some.inj found
      rw [List.filter_cons_of_pos (stays here), List.findSome?_cons, here]
    | none =>
      rw [here] at found
      by_cases keep : p a = true
      · rw [List.filter_cons_of_pos keep, List.findSome?_cons, here]
        exact ih found others
      · rw [List.filter_cons_of_neg keep]
        exact ih found others

/-- a primary key that does not name the column stays -/
theorem primaryKey?_eraseColumn {cols : List String} (key : t.primaryKey? = some cols)
    (others : ∀ n ∈ cols, d.sameName n column.name = false) : (t.eraseColumn d column).primaryKey? = some cols := by
  rw [primaryKey?, Table.primaryKey?, constraints_eraseColumn]
  refine findSome?_filter key fun c _ isKey => ?_
  cases c with
  | primaryKey name own =>
    obtain rfl := Option.some.inj isKey
    simpa [constraintNames] using others
  | _ => simp [Constraint.primaryColumns?] at isKey

/-- the only primary key goes with a column that it names -/
theorem primaryKey?_eraseColumn_eq_none (one : t.primaryKeys ≤ 1) {cols : List String}
    (key : t.primaryKey? = some cols) (named : ∃ n ∈ cols, d.sameName n column.name = true) :
    (t.eraseColumn d column).primaryKey? = none := by
  rw [primaryKey?, Table.primaryKey?, constraints_eraseColumn, List.findSome?_eq_none_iff]
  intro c hc
  obtain ⟨hc, stays⟩ := List.mem_filter.1 hc
  cases c with
  | primaryKey name own =>
    have only := findSome?_primaryColumns one hc
    obtain rfl := Option.some.inj (only.symm.trans key)
    obtain ⟨n, hn, same⟩ := named
    have gone : constraintNames d column.name (.primaryKey name own) = true := List.any_eq_true.2 ⟨n, hn, same⟩
    simp [gone] at stays
  | _ => rfl

/-- a key that does not name the column stays -/
theorem mem_uniqueSets_eraseColumn {cols : List String} (known : cols ∈ t.uniqueSets)
    (others : ∀ n ∈ cols, d.sameName n column.name = false) : cols ∈ (t.eraseColumn d column).uniqueSets := by
  rw [uniqueSets, Table.mem_uniqueSets] at known ⊢
  rcases known with ⟨key, filled⟩ | unique | ⟨i, hi, full, rfl⟩
  · exact Or.inl ⟨primaryKey?_eraseColumn key others, filled⟩
  · obtain ⟨c, hc, own⟩ := List.mem_filterMap.1 unique
    refine Or.inr (Or.inl (List.mem_filterMap.2 ⟨c, ?_, own⟩))
    rw [constraints_eraseColumn, List.mem_filter]
    refine ⟨hc, ?_⟩
    cases c with
    | unique name cols' =>
      obtain rfl := Option.some.inj own
      simpa [constraintNames] using others
    | _ => simp [Constraint.uniqueColumns?] at own
  · refine Or.inr (Or.inr ⟨i, List.mem_filter.2 ⟨hi, ?_⟩, full, rfl⟩)
    simpa [indexNames] using Or.inr others

/-- what a foreign key refers to stays, if it names columns and the dropped one is not among them -/
theorem referred?_eraseColumn {k : ForeignKey} (explicit : k.targetColumns ≠ [])
    (others : ∀ n ∈ k.targetColumns, d.sameName n column.name = false) :
    (t.eraseColumn d column).referred? d k = t.referred? d k := by
  have columns : ¬ k.targetColumns.isEmpty = true := by simpa using explicit
  rw [referred?, referred?, if_neg columns, if_neg columns]
  exact mapM_congr fun n hn => by rw [column?_eraseColumn (others n hn)]

/-- a foreign key refers to columns in the spelling of their table -/
theorem unnamed_of_referred? {k : ForeignKey} {cols : List String} (explicit : k.targetColumns ≠ [])
    (columns : t.referred? d k = some cols) (others : ∀ n ∈ k.targetColumns, d.sameName n column.name = false) :
    ∀ n ∈ cols, d.sameName n column.name = false := by
  rw [referred?, if_neg (by simpa using explicit)] at columns
  intro n hn
  have found : some n ∈ k.targetColumns.map fun m => (t.column? d m).map (·.name) := by
    rw [map_eq_of_mapM_eq_some columns]
    exact List.mem_map_of_mem hn
  obtain ⟨m, hm, e⟩ := List.mem_map.1 found
  obtain ⟨c, there, rfl⟩ := Option.map_eq_some_iff.1 e
  have apart := others m hm
  rw [← Bool.not_eq_true, Dialect.sameName_iff] at apart ⊢
  exact fun same => apart ((column?_eq_some there).2.symm.trans same)

/-! ## Foreign keys that stay -/

theorem mem_foreignKeys_eraseColumn {k : ForeignKey} : k ∈ (t.eraseColumn d column).toTable.foreignKeys ↔
    k ∈ t.toTable.foreignKeys ∧ ∀ n ∈ k.columns, d.sameName n column.name = false := by
  rw [Table.foreignKeys, Table.foreignKeys, constraints_eraseColumn]
  simp only [List.mem_filterMap, List.mem_filter]
  constructor
  · rintro ⟨c, ⟨hc, stays⟩, isKey⟩
    rw [Constraint.eq_foreignKey isKey] at stays
    exact ⟨⟨c, hc, isKey⟩, by simpa [constraintNames] using stays⟩
  · rintro ⟨⟨c, hc, isKey⟩, others⟩
    refine ⟨c, ⟨hc, ?_⟩, isKey⟩
    rw [Constraint.eq_foreignKey isKey]
    simpa [constraintNames] using others

theorem mem_foreignKeys_dropForeignKeysTo {k : ForeignKey} {key : String} {name : Option String} :
    k ∈ (t.dropForeignKeysTo d key name).toTable.foreignKeys ↔ k ∈ t.toTable.foreignKeys ∧
      (k.targetKey d = key → ∃ c, name = some c ∧ ∀ n ∈ k.targetColumns, d.sameName n c = false) := by
  simp only [Table.foreignKeys, toTable, dropForeignKeysTo, List.mem_filterMap, List.mem_map, List.mem_filter]
  constructor
  · rintro ⟨_, ⟨e, ⟨he, stays⟩, rfl⟩, isKey⟩
    refine ⟨⟨_, ⟨e, he, rfl⟩, isKey⟩, fun own => ?_⟩
    rw [Constraint.eq_foreignKey isKey] at stays
    cases name with
    | none => simp [own] at stays
    | some c => exact ⟨c, rfl, by simpa [own] using stays⟩
  · rintro ⟨⟨_, ⟨e, he, rfl⟩, isKey⟩, others⟩
    refine ⟨_, ⟨e, ⟨he, ?_⟩, rfl⟩, isKey⟩
    rw [Constraint.eq_foreignKey isKey]
    by_cases own : k.targetKey d = key
    · obtain ⟨c, rfl, others⟩ := others own
      simpa [own] using others
    · simp [own]

end Draft

namespace Workspace

variable {w : Workspace} {t : Draft} {column : Column}

/-- A foreign key that does not name the dropped column still resolves, but if it refers to the primary key without
naming its columns, and the dropped column is one of them. -/
theorem isSome_resolution?_eraseColumn (h : w.Regular d limit) (ht : t ∈ w.tables) {k : ForeignKey}
    (resolves : (resolution? d w.tables k).isSome = true)
    (unnamed : k.targetKey d = t.key → ∀ n ∈ k.targetColumns, d.sameName n column.name = false) :
    (resolution? d (w.updateTable t.key fun x => x.eraseColumn d column).tables k).isSome = true ↔
      ¬ (k.targetKey d = t.key ∧ k.targetColumns = [] ∧
        ∃ n ∈ t.toTable.primaryColumns, d.sameName n column.name = true) := by
  obtain ⟨target, referred, found, columns, lengths, known⟩ := isSome_resolution?_iff.1 resolves
  have key : target.key = k.targetKey d := by simpa using List.find?_some found
  have found' : (w.updateTable t.key fun x => x.eraseColumn d column).tables.find?
      (fun x => x.key == k.targetKey d) = some (if target.key == t.key then target.eraseColumn d column else target) := by
    rw [updateTable, Draft.find?_key_map (fun x _ => by split_ifs <;> rfl), found]
    rfl
  rw [isSome_resolution?_iff, found']
  simp only [Option.some.injEq, exists_and_left, exists_eq_left']
  by_cases own : k.targetKey d = t.key
  · obtain rfl : target = t := h.eq_of_key (List.mem_of_find?_eq_some found) ht (key.trans own)
    rw [if_pos (beq_self_eq_true _)]
    by_cases explicit : k.targetColumns = []
    · have implicit : ∀ x : Draft, x.referred? d k = x.primaryKey? := fun x => by
        rw [Draft.referred?, if_pos (by simp [explicit])]
      rw [implicit] at columns ⊢
      have primary : target.toTable.primaryColumns = referred := by
        rw [Table.primaryColumns, ← Draft.primaryKey?, columns, Option.getD_some]
      rw [primary]
      by_cases named : ∃ n ∈ referred, d.sameName n column.name = true
      · have gone := Draft.primaryKey?_eraseColumn_eq_none (h.each target ht).onePrimaryKey columns named
        simp [gone, own, explicit, named]
      · have others : ∀ n ∈ referred, d.sameName n column.name = false := by simpa using named
        refine iff_of_true ⟨referred, ?_, lengths, ?_⟩ fun e => named e.2.2
        · exact Draft.primaryKey?_eraseColumn columns others
        · exact Draft.mem_uniqueSets_eraseColumn known others
    · refine iff_of_true ⟨referred, ?_, lengths, ?_⟩ fun e => explicit e.2.1
      · rw [Draft.referred?_eraseColumn explicit (unnamed own), columns]
      · exact Draft.mem_uniqueSets_eraseColumn known
          (Draft.unnamed_of_referred? explicit columns (unnamed own))
  · rw [if_neg (by simpa [key] using own)]
    exact iff_of_true ⟨referred, columns, lengths, known⟩ fun e => own e.1

theorem resolution?_dropTable {key : String} {k : ForeignKey} (other : k.targetKey d ≠ key) :
    resolution? d (w.dropTable key).tables k = resolution? d w.tables k := by
  have same : (fun x : Draft => x.key != key && x.key == k.targetKey d) = fun x => x.key == k.targetKey d := by
    funext x
    by_cases own : x.key = k.targetKey d
    · simp [own, other]
    · simp [own]
  rw [resolution?, resolution?, dropTable, List.find?_filter]
  simp only [Bool.decide_and, Bool.decide_eq_true, same]

/-! ## Statements -/

/-- a table is dropped with the foreign keys to it -/
def withoutTable (d : Dialect) (w : Workspace) (key : String) : Workspace :=
  { w.dropTable key with tables := (w.dropTable key).tables.map (·.dropForeignKeysTo d key none) }

/-- a column is dropped with the foreign keys that name it -/
def withoutColumn (d : Dialect) (w : Workspace) (key : String) (column : Column) : Workspace :=
  { w with
    tables := (w.updateTable key fun x => x.eraseColumn d column).tables.map fun x =>
      x.dropForeignKeysTo d key (some column.name) }

theorem changePass_dropTable {n : QualifiedName} {index : Nat} (found : w.table? (n.key d) = some t)
    (older : t.declaredBy < index) (ifExists : Bool) (position : Position) (source : Option String) :
    changePass d w (.dropCascade n ifExists position source, index) = .ok (w.withoutTable d (n.key d)) := by
  simp only [changePass, Statement.dropCascade, forNames, dropTableNamed, found, if_pos older, if_true]
  rfl

theorem changePass_dropColumn {n : QualifiedName} (found : w.table? (n.key d) = some t) {a : String}
    (there : t.column? d a = some column) (ifExists ifThere : Bool) (position : Position) (source : Option String)
    (index : Nat) : changePass d w (.alter n (.dropColumn a ifThere true) ifExists position source, index) =
      .ok (w.withoutColumn d t.key column) := by
  have found' : w.table? t.key = some t := (table?_eq_some found).2 ▸ found
  simp only [changePass, Statement.alter, attempt, alterTable, found, alterActions, alterAction, dropColumn, found',
    there]
  rfl

/-- the foreign keys to a table go with it, and all others still resolve -/
theorem Valid.withoutTable (h : w.Valid d) (key : String) : (w.withoutTable d key).Valid d where
  quiet := h.quiet
  resolves := by
    refine List.forall_mem_map.2 fun x hx k hk => ?_
    obtain ⟨hk, other⟩ := Draft.mem_foreignKeys_dropForeignKeysTo.1 hk
    rw [Workspace.withoutTable, resolution?_map fun x _ => Draft.sameTarget_dropForeignKeysTo key none,
      resolution?_dropTable]
    · exact h.resolves x (List.mem_of_mem_filter hx) k hk
    · intro own
      obtain ⟨_, isNone, -⟩ := other own
      simp at isNone

/-- A foreign key stays without the primary key that it refers to: it does not name that key's columns, and one of them
is dropped. -/
def LeavesImplicit (d : Dialect) (w : Workspace) (t : Table) (column : String) : Prop :=
  (∃ n ∈ t.primaryColumns, d.sameName n column = true) ∧
    ∃ x ∈ w.tables, ∃ k ∈ x.toTable.foreignKeys, k.targetKey d = t.key ∧ k.targetColumns = [] ∧
      (x.key = t.key → ∀ n ∈ k.columns, d.sameName n column = false)

/-- the foreign keys that stay when a column is dropped -/
theorem mem_foreignKeys_withoutColumn {key : String} {k : ForeignKey} :
    (∃ x ∈ (w.withoutColumn d key column).tables, k ∈ x.toTable.foreignKeys) ↔
      ∃ x ∈ w.tables, k ∈ x.toTable.foreignKeys ∧ (x.key = key → ∀ n ∈ k.columns, d.sameName n column.name = false) ∧
        (k.targetKey d = key → ∀ n ∈ k.targetColumns, d.sameName n column.name = false) := by
  simp only [Workspace.withoutColumn, updateTable, List.mem_map, exists_exists_and_eq_and,
    Draft.mem_foreignKeys_dropForeignKeysTo, Option.some.injEq, exists_eq_left']
  refine exists_congr fun x => and_congr_right fun _ => ?_
  rw [← and_assoc]
  refine and_congr_left fun _ => ?_
  split_ifs with own
  · rw [Draft.mem_foreignKeys_eraseColumn]
    simp [beq_iff_eq.1 own]
  · simp [show x.key ≠ key by simpa using own]

theorem valid_withoutColumn_iff (h : w.Valid d) (regular : w.Regular d limit) (ht : t ∈ w.tables) (column : Column) :
    (w.withoutColumn d t.key column).Valid d ↔ ¬ w.LeavesImplicit d t.toTable column.name := by
  have resolves : ∀ x ∈ w.tables, ∀ k ∈ x.toTable.foreignKeys,
      (k.targetKey d = t.key → ∀ n ∈ k.targetColumns, d.sameName n column.name = false) →
      ((resolution? d (w.withoutColumn d t.key column).tables k).isSome = true ↔
        ¬ (k.targetKey d = t.key ∧ k.targetColumns = [] ∧
          ∃ n ∈ t.toTable.primaryColumns, d.sameName n column.name = true)) := by
    intro x hx k hk unnamed
    rw [Workspace.withoutColumn, resolution?_map fun x _ => Draft.sameTarget_dropForeignKeysTo t.key _]
    exact isSome_resolution?_eraseColumn regular ht (h.resolves x hx k hk) unnamed
  have stays : (w.withoutColumn d t.key column).Valid d ↔
      ∀ k, (∃ x ∈ (w.withoutColumn d t.key column).tables, k ∈ x.toTable.foreignKeys) →
        (resolution? d (w.withoutColumn d t.key column).tables k).isSome = true :=
    ⟨fun valid k ⟨x, hx, hk⟩ => valid.resolves x hx k hk, fun all => ⟨h.quiet, fun x hx k hk => all k ⟨x, hx, hk⟩⟩⟩
  simp only [stays, mem_foreignKeys_withoutColumn]
  constructor
  · rintro all ⟨named, x, hx, k, hk, own, implicit, apart⟩
    have unnamed : ∀ n ∈ k.targetColumns, d.sameName n column.name = false := by simp [implicit]
    exact (resolves x hx k hk fun _ => unnamed).1 (all k ⟨x, hx, hk, apart, fun _ => unnamed⟩) ⟨own, implicit, named⟩
  · rintro none k ⟨x, hx, hk, apart, unnamed⟩
    exact (resolves x hx k hk unnamed).2 fun ⟨own, implicit, named⟩ =>
      none ⟨named, x, hx, k, hk, own, implicit, apart⟩

theorem named_withoutTable (h : w.Named) (key : String) : (w.withoutTable d key).Named :=
  named_mapTables (w := w.dropTable key) (fun x hx => h.tables x (List.mem_of_mem_filter hx))
    fun x hx => h.columns x (List.mem_of_mem_filter hx)

theorem named_withoutColumn (h : w.Named) (key : String) (column : Column) :
    (w.withoutColumn d key column).Named := by
  have erased : (w.updateTable key fun x => x.eraseColumn d column).Named := by
    refine named_mapTables (fun x hx => ?_) fun x hx c hc => ?_
    · split_ifs
      · exact h.tables x hx
      · exact h.tables x hx
    · split_ifs at hc
      · exact h.columns x hx c (List.eraseP_subset hc)
      · exact h.columns x hx c hc
  exact named_mapTables erased.tables erased.columns

end Workspace

section
variable {w : Workspace} {b : Built} {S : List Statement}

/-- A valid model stays valid when a table is dropped with CASCADE. It stays valid when a column is dropped with CASCADE,
but if a foreign key stays that refers, without naming columns, to the primary key that the column is part of. -/
theorem cascade_valid (built : buildModel d none S = .ok b) (valid : b.model.isValid = true)
    (applied : Workspace.applyAll d S = .ok w) {t : Table} (ht : t ∈ b.model.tables) {n : QualifiedName}
    (named : n.key d = t.key) (ifExists : Bool) (position : Position) (source : Option String) :
    (∃ b', buildModel d none (S ++ [.dropCascade n ifExists position source]) = .ok b' ∧ b'.model.isValid = true) ∧
      ∀ column ∈ t.columns, ∀ a, d.sameName column.name a = true → ∀ ifThere, ∃ b',
        buildModel d none (S ++ [.alter n (.dropColumn a ifThere true) ifExists position source]) = .ok b' ∧
        (b'.model.isValid = true ↔ ¬ w.LeavesImplicit d t column.name) := by
  have regular := Workspace.applyAll_regular applied
  rw [Workspace.buildModel_of_applied applied] at built
  have names := Workspace.named_of_build built
  have sound := (Workspace.isValid_iff built).1 valid
  obtain ⟨x, hx, found, rfl⟩ := Workspace.exists_table?_of_build regular built ht named
  refine ⟨?_, fun column hcolumn a same ifThere => ?_⟩
  · have changed := Workspace.changePass_dropTable found (regular.each x hx).declared ifExists position source
    obtain ⟨b', built', valid', -⟩ :=
      Workspace.exists_build_concat rfl applied changed (Workspace.named_withoutTable names _)
    exact ⟨b', built', valid'.2 (sound.withoutTable _)⟩
  · have there := (regular.each x hx).column?_eq hcolumn same
    have changed := Workspace.changePass_dropColumn found there ifExists ifThere position source S.length
    obtain ⟨b', built', valid', -⟩ :=
      Workspace.exists_build_concat rfl applied changed (Workspace.named_withoutColumn names _ _)
    have primary : (x.resolved d w.tables).toTable.primaryColumns = x.toTable.primaryColumns :=
      congrArg (·.getD []) Draft.sameTarget_resolved.primaryKey
    refine ⟨b', built', ?_⟩
    rw [valid', Workspace.valid_withoutColumn_iff sound regular hx, Workspace.LeavesImplicit,
      Workspace.LeavesImplicit, primary]
    rfl

end

/-- a table, and a table that refers to its primary key without naming the column -/
def ownersAndPets : List Statement := [
  ⟨.createTable
    { name := ⟨"owner", none⟩
      columns := [{ name := "id", type := none, position := ⟨1, 1, 0⟩ },
        { name := "street", type := none, position := ⟨1, 1, 0⟩ }]
      constraints := [.primaryKey ["id"] none ⟨1, 1, 0⟩] }, ⟨1, 1, 0⟩, none⟩,
  ⟨.createTable
    { name := ⟨"pet", none⟩
      columns := [{ name := "owner", type := none, position := ⟨2, 1, 0⟩ }]
      constraints := [.foreignKey ["owner"] { table := ⟨"Owner", none⟩ } none ⟨2, 1, 0⟩] }, ⟨2, 1, 0⟩, none⟩]

theorem cascade_valid_ownersAndPets : ∃ b w, buildModel .sqlite none ownersAndPets = .ok b ∧
    Workspace.applyAll .sqlite ownersAndPets = .ok w ∧ b.model.isValid = true ∧
    ∃ t ∈ b.model.tables, t.columnNames = ["id", "street"] ∧
      (∃ b', buildModel .sqlite none (ownersAndPets ++
        [.dropCascade ⟨"OWNER", none⟩ false ⟨3, 1, 0⟩ none]) = .ok b' ∧ b'.model.isValid = true) ∧
      ∃ b', buildModel .sqlite none (ownersAndPets ++
        [.alter ⟨"OWNER", none⟩ (.dropColumn "Street" false true) false ⟨3, 1, 0⟩ none]) = .ok b' ∧
        b'.model.isValid = true := by
  have shape : (buildModel .sqlite none ownersAndPets).toOption.map (fun b =>
      (b.model.isValid, b.model.tables.map fun t => (t.key, t.columnNames, t.primaryColumns))) =
      some (true, [("main.owner", ["id", "street"], ["id"]), ("main.pet", ["owner"], [])]) := by decide +kernel
  obtain ⟨b, built, same⟩ := Option.map_eq_some_iff.1 shape
  have built := toOption_eq_some_iff.1 built
  obtain ⟨valid, tables⟩ := Prod.mk.inj same
  obtain ⟨w, applied, -⟩ := Workspace.exists_applied_of_buildModel built
  obtain ⟨t, rest, all, first, -⟩ := List.map_eq_cons_iff.1 tables
  obtain ⟨key, names⟩ := Prod.mk.inj first
  obtain ⟨names, primary⟩ := Prod.mk.inj names
  have ht : t ∈ b.model.tables := all ▸ List.mem_cons_self
  have named : QualifiedName.key .sqlite ⟨"OWNER", none⟩ = t.key := by
    rw [key]
    decide +kernel
  obtain ⟨table, columns⟩ := cascade_valid built valid applied ht named false ⟨3, 1, 0⟩ none
  obtain ⟨column, hcolumn, isStreet⟩ := List.mem_map.1 (names ▸ List.mem_cons_of_mem _ List.mem_cons_self :
    "street" ∈ t.columnNames)
  have meant : Dialect.sqlite.sameName column.name "Street" = true := by
    rw [isStreet]
    decide +kernel
  obtain ⟨b', built', stays⟩ := columns column hcolumn "Street" meant false
  refine ⟨b, w, built, applied, valid, t, ht, names, table, b', built', stays.2 ?_⟩
  rintro ⟨⟨n, hn, inKey⟩, -⟩
  rw [primary] at hn
  rw [List.mem_singleton.1 hn, isStreet] at inKey
  exact absurd inKey (by decide +kernel)

/-- Without the column `id` there is no primary key, but the reference to it stays: a valid model becomes invalid. -/
theorem not_valid_without_key :
    (buildModel .sqlite none ownersAndPets).toOption.map (·.model.isValid) = some true ∧
    (buildModel .sqlite none (ownersAndPets ++
      [.alter ⟨"owner", none⟩ (.dropColumn "id" false true) false ⟨3, 1, 0⟩ none])).toOption.map
        (fun b => (b.model.isValid, b.model.errors.map (·.code))) = some (false, ["FK_TARGET_NO_PRIMARY_KEY"]) := by
  decide +kernel

end SchemaApi
