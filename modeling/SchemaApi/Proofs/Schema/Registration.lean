import SchemaApi.Proofs.Schema.Lifetime
import SchemaApi.Proofs.Script.Accounting
/-!
Registration is complete.

A declared table gets its columns one by one, each with what is written at it, and then its other constraints and
indexes. Each of these steps is an attempt that may come to a problem, and the primary key changes columns that are
there already. `Draft.Declared` says what the table is after some of the columns and some of the clauses. As long as
every name means a column that is there, and no second primary key comes, a step leads to what is declared so far
(`addColumn_comes`, `addClause_comes`), unless a record cannot be made at all; no problem is recorded. So a run leads
to all that is declared, and it ends exactly if all records can be made (`addTable_comes`).
-/

namespace SchemaApi

/-! ## Outcomes -/

/-- the computation comes to a value as described if the condition holds, and fails if it does not -/
inductive Comes {ε α : Type} (x : Except ε α) (condition : Prop) (Q : α → Prop) : Prop where
  | made {a : α} (fits : condition) (made : x = .ok a) (described : Q a)
  | failed {e : ε} (unfit : ¬ condition) (failed : x = .error e)

namespace Comes

variable {ε α β : Type} {x : Except ε α} {p q : Prop} {P : α → Prop} {Q : β → Prop}

theorem self (x : Except ε α) : Comes x (∃ a, x = .ok a) fun a => x = .ok a := by
  cases x with
  | ok a => exact .made ⟨a, rfl⟩ rfl rfl
  | error e => exact .failed (by simp) rfl

theorem congr (h : Comes x p P) (same : p ↔ q) : Comes x q P := propext same ▸ h

theorem bind (first : Comes x p P) {f : α → Except ε β} (later : ∀ a, P a → Comes (f a) q Q) :
    Comes (x >>= f) (p ∧ q) Q := by
  cases first with
  | failed unfit failed =>
    rw [failed]
    exact .failed (fun both => unfit both.1) rfl
  | made fits made described =>
    rw [made]
    cases later _ described with
    | made fits' made' described' => exact .made ⟨fits, fits'⟩ made' described'
    | failed unfit failed => exact .failed (fun both => unfit both.2) failed

/-- a run comes to what is described for the whole list, if what each step needs holds -/
theorem foldlM {step : β → α → Except ε β} {fits : α → Prop} {I : List α → β → Prop} {l : List α}
    (each : ∀ before a after b, l = before ++ a :: after → I before b →
      Comes (step b a) (fits a) (I (before ++ [a]))) {b : β} (start : I [] b) :
    Comes (l.foldlM step b) (∀ a ∈ l, fits a) (I l) := by
  -- the induction is on what is left of the list
  have onwards : ∀ left before b, l = before ++ left → I before b →
      Comes (left.foldlM step b) (∀ a ∈ left, fits a) (I l) := by
    intro left
    induction left with
    | nil =>
      intro before b split described
      rw [List.append_nil] at split
      exact .made (fun _ nothing => absurd nothing List.not_mem_nil) rfl (split ▸ described)
    | cons a left ih =>
      intro before b split described
      rw [List.foldlM_cons]
      refine ((each before a left b split described).bind fun b' described' => ?_).congr List.forall_mem_cons.symm
      exact ih (before ++ [a]) b' (by rw [split, List.append_assoc, List.singleton_append]) described'
  exact onwards l [] b rfl start

theorem exists_iff (h : Comes x p P) : (∃ a, x = .ok a) ↔ p := by
  cases h with
  | made fits made => exact iff_of_true ⟨_, made⟩ fits
  | failed unfit failed => exact iff_of_false (by simp [failed]) unfit

theorem holds (h : Comes x p P) {a : α} (run : x = .ok a) : P a := by
  cases h with
  | made fits made described => exact Except.ok.inj (made.symm.trans run) ▸ described
  | failed unfit failed => simp [failed] at run

end Comes

/-! ## What is declared -/

namespace ConstraintClause

/-- the columns that the clause names -/
def named : ConstraintClause → List String
  | primaryKey columns _ _ => columns
  | unique columns _ _ => columns
  | foreignKey columns _ _ _ => columns
  | check _ _ column _ => column.toList
  | index elements _ _ _ _ => elements.filterMap (·.column)

def isPrimaryKey : ConstraintClause → Bool
  | primaryKey _ _ _ => true
  | _ => false

/-- the record of the clause can be made -/
def Filled : ConstraintClause → Prop
  | primaryKey columns _ _ => columns ≠ []
  | unique columns _ _ => columns ≠ []
  | foreignKey columns reference _ _ => columns ≠ [] ∧ reference.table.name ≠ ""
  | check expression _ _ _ => expression ≠ ""
  | index elements _ _ _ _ => elements ≠ []

/-- the constraint that the clause declares, over columns in their spelling -/
def constraint? (spell : String → String) : ConstraintClause → Option Constraint
  | primaryKey columns name _ => some (.primaryKey name (columns.map spell))
  | unique columns name _ => some (.unique name (columns.map spell))
  | foreignKey columns reference name _ =>
    some (.foreignKey
      { name := name
        columns := columns.map spell
        target := ⟨reference.table.name, reference.table.schema⟩
        targetColumns := reference.columns
        onDelete := reference.onDelete
        onUpdate := reference.onUpdate })
  | check expression name column _ => some (.check name expression (column.map spell))
  | index _ _ _ _ _ => none

/-- the index that the clause declares, over columns in their spelling and expressions as written -/
def index? (spell : String → String) : ConstraintClause → Option Index
  | index elements name full kind _ =>
    some
      { name := name
        columns := elements.map fun e => (e.column.map spell).getD e.text
        unique := full
        method := kind
        isExpression := elements.any (·.column.isNone) }
  | _ => none

/-- the constraint with the place of its clause -/
def placed? (spell : String → String) (source : Option String) (k : ConstraintClause) : Option Placed :=
  (k.constraint? spell).map fun c => ⟨c, k.position, source⟩

/-- the columns that the clause makes the primary key -/
def keyColumns (spell : String → String) (k : ConstraintClause) : List String :=
  ((k.constraint? spell).bind (·.primaryColumns?)).getD []

/-- every name in the clause means one of the columns -/
def Among (d : Dialect) (columns : List ColumnClause) (k : ConstraintClause) : Prop :=
  ∀ n ∈ k.named, ∃ c ∈ columns, d.foldName c.name = d.foldName n

instance : DecidablePred Filled
  | primaryKey columns _ _ => inferInstanceAs (Decidable (columns ≠ []))
  | unique columns _ _ => inferInstanceAs (Decidable (columns ≠ []))
  | foreignKey columns reference _ _ => inferInstanceAs (Decidable (columns ≠ [] ∧ reference.table.name ≠ ""))
  | check expression _ _ _ => inferInstanceAs (Decidable (expression ≠ ""))
  | index elements _ _ _ _ => inferInstanceAs (Decidable (elements ≠ []))

instance (d : Dialect) (columns : List ColumnClause) (k : ConstraintClause) : Decidable (k.Among d columns) :=
  inferInstanceAs (Decidable (∀ n ∈ k.named, ∃ c ∈ columns, d.foldName c.name = d.foldName n))

end ConstraintClause

/-- a clause about a column names it alone -/
theorem ConstraintClause.IsAbout.named {k : ConstraintClause} {column : String} (h : k.IsAbout column) :
    k.named = [column] := by
  cases k with
  | check expression name given position => exact congrArg Option.toList h
  | index elements name full kind position => exact h.elim
  | _ => exact h

namespace CreateTable

/-- what is written at the columns, in the order of the columns, and then the other constraints and indexes -/
def clauses (table : CreateTable) : List ConstraintClause :=
  table.columns.flatMap (·.constraints) ++ table.constraints

/-- the name in the spelling of the column that it means -/
def spelled (d : Dialect) (table : CreateTable) (name : String) : String :=
  ((table.columns.map (·.name)).find? fun n => d.sameName n name).getD name

/-- no two columns are the same identifier, every name in a clause means a column, and there is one primary key at
most -/
structure Coherent (d : Dialect) (table : CreateTable) : Prop where
  distinct : (table.columns.map fun c => d.foldName c.name).Nodup
  named : ∀ k ∈ table.clauses, k.Among d table.columns
  single : table.clauses.countP (·.isPrimaryKey) ≤ 1

/-- every record of the table can be made: no name and no text that it needs is empty, and the types are readable -/
structure Storable (d : Dialect) (enums : List (String × EnumType)) (table : CreateTable) : Prop where
  name : table.name.name ≠ ""
  types : ∀ c ∈ table.columns, ∃ reading, readType? d enums c.type = .ok reading
  clauses : ∀ k ∈ table.clauses, k.Filled

end CreateTable

/-- The column is the declared one. It may be NULL if it is not declared NOT NULL and is not in the primary key. -/
structure Column.Declared (d : Dialect) (enums : List (String × EnumType)) (key : List String) (c : ColumnClause)
    (column : Column) : Prop where
  read : ∃ reading, readType? d enums c.type = .ok reading ∧
    column = { c.toColumn reading with nullable := column.nullable }
  nullable : column.nullable = true ↔ c.notNull ≠ some true ∧ column.name ∉ key

/-- a declared column may get into the key, and is NOT NULL then -/
theorem Column.Declared.keyed {d : Dialect} {enums : List (String × EnumType)} {key names : List String}
    {c : ColumnClause} {column : Column} (h : column.Declared d enums key c)
    (meant : names.any (d.sameName column.name) = true ↔ column.name ∈ names) :
    Column.Declared d enums (key ++ names) c
      (if names.any (d.sameName column.name) then { column with nullable := false } else column) := by
  obtain ⟨reading, run, same⟩ := h.read
  by_cases named : names.any (d.sameName column.name) = true
  · rw [if_pos named]
    refine ⟨⟨reading, run, ?_⟩, ?_⟩
    · rw [same]
    · simp [meant.1 named]
  · rw [if_neg named]
    refine ⟨⟨reading, run, same⟩, ?_⟩
    rw [h.nullable, List.mem_append, not_or, and_iff_left (meant.not.1 named)]

/-- the table is the declared one, with some of its columns and some of its clauses, in their order, and no others -/
structure Draft.Declared (d : Dialect) (st : Statement) (table : CreateTable) (index : Nat)
    (enums : List (String × EnumType)) (columns : List ColumnClause) (clauses : List ConstraintClause)
    (t : Draft) : Prop where
  own : { t with columns := [], constraints := [], indexes := [] } = Workspace.newDraft d st table index
  columns : List.Forall₂ (Column.Declared d enums t.toTable.primaryColumns) columns t.columns
  constraints : t.constraints = clauses.filterMap (·.placed? (table.spelled d) st.source)
  indexes : t.indexes = clauses.filterMap (·.index? (table.spelled d))
  /-- the primary key names columns that are there -/
  keyed : ∀ n ∈ t.toTable.primaryColumns, n ∈ t.toTable.columnNames

/-- a name is spelled as the column that it means -/
theorem CreateTable.spelled_eq {d : Dialect} {table : CreateTable}
    (distinct : (table.columns.map fun c => d.foldName c.name).Nodup) {c : ColumnClause} (hc : c ∈ table.columns)
    {n : String} (same : d.foldName c.name = d.foldName n) : table.spelled d n = c.name := by
  have present : ((table.columns.map (·.name)).find? fun m => d.sameName m n).isSome = true :=
    List.find?_isSome.2 ⟨c.name, List.mem_map_of_mem hc, Dialect.sameName_iff.2 same⟩
  obtain ⟨m, found⟩ := Option.isSome_iff_exists.1 present
  obtain ⟨c', hc', rfl⟩ := List.mem_map.1 (List.mem_of_find?_eq_some found)
  have same' : d.foldName c'.name = d.foldName n := by
    simpa [Dialect.sameName_iff] using List.find?_some found
  rw [spelled, found, List.inj_on_of_nodup_map distinct hc' hc (same'.trans same.symm)]
  rfl

/-! ## Clauses -/

namespace Draft

variable {d : Dialect} {t : Draft} {spell : String → String} {source : Option String}

/-- the table with what the clause declares -/
def withClause (d : Dialect) (spell : String → String) (source : Option String) (t : Draft) (k : ConstraintClause) :
    Draft :=
  { t with
    columns := (t.requireValues d (k.keyColumns spell)).columns
    constraints := t.constraints ++ (k.placed? spell source).toList
    indexes := t.indexes ++ (k.index? spell).toList }

/-- the names mean columns of the table in this spelling -/
def Spells (d : Dialect) (t : Draft) (spell : String → String) (names : List String) : Prop :=
  ∀ n ∈ names, ∃ column, t.column? d n = some column ∧ column.name = spell n

theorem requireColumn_of_spells {names : List String} (h : t.Spells d spell names) {n : String} (hn : n ∈ names)
    (what : String) : (t.requireColumn d n what).map (·.name) = .ok (spell n) := by
  obtain ⟨column, found, spelled⟩ := h n hn
  rw [requireColumn_eq_ok_iff.2 found, ← spelled]
  rfl

theorem canonical_of_spells {names : List String} (h : t.Spells d spell names) (what : String) :
    t.canonical d names what = .ok (names.map spell) :=
  mapM_eq_ok_of_forall fun _ hn => requireColumn_of_spells h hn what

theorem elementColumn_of_spells {elements : List IndexElement} (h : t.Spells d spell (elements.filterMap (·.column))) :
    elements.mapM (t.elementColumn d) = .ok (elements.map fun e => (e.column.map spell).getD e.text) := by
  refine mapM_eq_ok_of_forall fun e he => ?_
  cases column : e.column with
  | none => simp only [elementColumn, column, Option.map_none, Option.getD_none]
  | some n =>
    simp only [elementColumn, column, Option.map_some, Option.getD_some]
    exact requireColumn_of_spells h (List.mem_filterMap.2 ⟨e, he, column⟩) "Index"

theorem checkColumn_of_spells {column : Option String} (h : t.Spells d spell column.toList) :
    column.mapM (fun n => (t.requireColumn d n "Check constraint").map (·.name)) = .ok (column.map spell) := by
  cases column with
  | none => rfl
  | some n =>
    rw [Option.mapM_some, requireColumn_of_spells h (List.mem_singleton_self n)]
    rfl

/-- a constraint that is no primary key changes no column -/
theorem addPlaced_eq_withClause (k : ConstraintClause) {c : Constraint} (declares : k.constraint? spell = some c)
    (plain : c.primaryColumns? = none) (noIndex : k.index? spell = none) :
    t.addPlaced c k.position source = t.withClause d spell source k := by
  simp only [addPlaced, withClause, ConstraintClause.placed?, ConstraintClause.keyColumns, declares, noIndex,
    Option.map_some, Option.toList_some, Option.bind_some, plain, Option.getD_none, Option.toList_none, List.append_nil]
  rfl

/-- a clause whose names mean columns adds what it declares -/
theorem addConstraint_of_filled {k : ConstraintClause} (names : t.Spells d spell k.named)
    (first : k.isPrimaryKey = true → t.primaryKey? = none) (filled : k.Filled) :
    t.addConstraint d source k = .ok (t.withClause d spell source k) := by
  have some_columns : ∀ record {columns : List String}, columns ≠ [] →
      someColumns record (columns.map spell) = .ok () := fun record _ filled =>
    someColumns_eq_ok_iff.2 (by simpa using filled)
  cases k with
  | primaryKey columns name position =>
    have read : t.canonical d columns "Primary key" = .ok (columns.map spell) := canonical_of_spells names _
    have absent : t.primaryKey?.isSome = false := by rw [first rfl]; rfl
    simp only [addConstraint, read, bind, Except.bind, absent, Bool.false_eq_true, if_false, some_columns _ filled,
      pure, Except.pure]
    rw [requireValues_eq]
    simp only [addPlaced, withClause, ConstraintClause.index?, Option.toList_none, List.append_nil]
    rfl
  | unique columns name position =>
    have read : t.canonical d columns "Unique constraint" = .ok (columns.map spell) := canonical_of_spells names _
    simp only [addConstraint, read, bind, Except.bind, some_columns _ filled]
    exact congrArg Except.ok (addPlaced_eq_withClause (.unique columns name position) rfl rfl rfl)
  | foreignKey columns reference name position =>
    have read : t.canonical d columns "Foreign key" = .ok (columns.map spell) := canonical_of_spells names _
    simp only [addConstraint, read, bind, Except.bind, if_neg filled.2, some_columns _ filled.1]
    exact congrArg Except.ok (addPlaced_eq_withClause (.foreignKey columns reference name position) rfl rfl rfl)
  | check expression name column position =>
    simp only [addConstraint, checkColumn_of_spells names, bind, Except.bind, if_neg filled]
    exact congrArg Except.ok (addPlaced_eq_withClause (.check expression name column position) rfl rfl rfl)
  | index elements name full kind position =>
    have read : elements.mapM (t.elementColumn d) = .ok (elements.map fun e => (e.column.map spell).getD e.text) :=
      elementColumn_of_spells names
    have columns : someColumns "Index" (elements.map fun e => (e.column.map spell).getD e.text) = .ok () :=
      someColumns_eq_ok_iff.2 (List.map_eq_nil_iff.not.2 filled)
    simp only [addConstraint, addIndex, read, bind, Except.bind, columns, pure, Except.pure]
    simp only [withClause, ConstraintClause.placed?, ConstraintClause.constraint?, Option.map_none, Option.toList_none,
      List.append_nil]
    rfl

/-- a clause whose record cannot be made ends the run, as no problem comes before that -/
theorem addConstraint_of_not_filled {k : ConstraintClause} (names : t.Spells d spell k.named)
    (first : k.isPrimaryKey = true → t.primaryKey? = none) (unfit : ¬ k.Filled) :
    ∃ r, t.addConstraint d source k = .error (.refused r) := by
  cases k with
  | primaryKey columns name position =>
    obtain rfl : columns = [] := not_not.1 unfit
    have absent : t.primaryKey?.isSome = false := by rw [first rfl]; rfl
    rw [addConstraint, absent]
    exact ⟨_, rfl⟩
  | unique columns name position =>
    obtain rfl : columns = [] := not_not.1 unfit
    exact ⟨_, rfl⟩
  | foreignKey columns reference name position =>
    have read : t.canonical d columns "Foreign key" = .ok (columns.map spell) := canonical_of_spells names _
    by_cases unnamed : reference.table.name = ""
    · simp only [addConstraint, read, bind, Except.bind, if_pos unnamed]
      exact ⟨_, rfl⟩
    · obtain rfl : columns = [] := not_not.1 fun filled => unfit ⟨filled, unnamed⟩
      simp only [addConstraint, read, bind, Except.bind, if_neg unnamed]
      exact ⟨_, rfl⟩
  | check expression name column position =>
    obtain rfl : expression = "" := not_not.1 unfit
    simp only [addConstraint, checkColumn_of_spells names, bind, Except.bind, if_pos]
    exact ⟨_, rfl⟩
  | index elements name full kind position =>
    obtain rfl : elements = [] := not_not.1 unfit
    exact ⟨_, rfl⟩

/-- among names of columns, a column is meant by its own name only -/
theorem any_sameName_iff (distinct : (t.columns.map fun c => d.foldName c.name).Nodup) {names : List String}
    (own : ∀ n ∈ names, n ∈ t.toTable.columnNames) {column : Column} (here : column ∈ t.columns) :
    names.any (d.sameName column.name) = true ↔ column.name ∈ names := by
  refine ⟨fun meant => ?_, fun mem => List.any_eq_true.2 ⟨_, mem, Dialect.sameName_refl ..⟩⟩
  obtain ⟨n, hn, same⟩ := List.any_eq_true.1 meant
  obtain ⟨other, hother, rfl⟩ := List.mem_map.1 (own n hn)
  rw [List.inj_on_of_nodup_map distinct here hother (Dialect.sameName_iff.1 same)]
  exact hn

theorem primaryColumns_withClause {k : ConstraintClause} (first : k.isPrimaryKey = true → t.primaryKey? = none) :
    (t.withClause d spell source k).toTable.primaryColumns = t.toTable.primaryColumns ++ k.keyColumns spell := by
  have key : (t.withClause d spell source k).toTable.primaryKey? =
      t.primaryKey?.or ((k.constraint? spell).bind (·.primaryColumns?)) := by
    simp only [Table.primaryKey?, primaryKey?, toTable, withClause, ConstraintClause.placed?, List.map_append,
      List.findSome?_append]
    cases k.constraint? spell <;> simp
  have old : t.toTable.primaryKey? = t.primaryKey? := rfl
  rw [Table.primaryColumns, Table.primaryColumns, ConstraintClause.keyColumns, key, old]
  cases k with
  | primaryKey columns name position => rw [first rfl]; rfl
  | _ => simp [ConstraintClause.constraint?, Constraint.primaryColumns?]

/-! ## Steps -/

variable {st : Statement} {table : CreateTable} {index : Nat} {enums : List (String × EnumType)}
  {columns : List ColumnClause} {clauses : List ConstraintClause}

theorem Declared.columnNames (h : t.Declared d st table index enums columns clauses) :
    t.toTable.columnNames = columns.map (·.name) := by
  refine (map_eq_map_of_forall₂ (h.columns.imp fun c column declared => ?_)).symm
  obtain ⟨reading, -, same⟩ := declared.read
  rw [same]
  rfl

theorem Declared.exists_clause (h : t.Declared d st table index enums columns clauses) {column : Column}
    (here : column ∈ t.columns) : ∃ c ∈ columns, c.name = column.name :=
  List.mem_map.1 (h.columnNames ▸ List.mem_map_of_mem here)

theorem Declared.exists_column (h : t.Declared d st table index enums columns clauses) {c : ColumnClause}
    (hc : c ∈ columns) : ∃ column ∈ t.columns, column.name = c.name :=
  List.mem_map.1 (h.columnNames ▸ List.mem_map_of_mem hc : c.name ∈ t.toTable.columnNames)

theorem Declared.primaryKey?_eq_none (h : t.Declared d st table index enums columns clauses)
    (plain : ∀ k ∈ clauses, k.isPrimaryKey = false) : t.primaryKey? = none := by
  rw [primaryKey?, Table.primaryKey?, toTable, List.findSome?_eq_none_iff, h.constraints]
  intro c hc
  obtain ⟨e, he, rfl⟩ := List.mem_map.1 hc
  obtain ⟨k, hk, placed⟩ := List.mem_filterMap.1 he
  obtain ⟨c, declares, rfl⟩ := Option.map_eq_some_iff.1 placed
  have other := plain k hk
  cases k with
  | primaryKey columns name position => contradiction
  | index elements name full kind position => contradiction
  | _ => rw [← Option.some.inj declares]; rfl

section
variable (distinct : (table.columns.map fun c => d.foldName c.name).Nodup)
include distinct

/-- what is there so far is spelled as all columns are -/
theorem Declared.spells (h : t.Declared d st table index enums columns clauses) (within : columns <+: table.columns)
    {k : ConstraintClause} (among : k.Among d columns) : t.Spells d (table.spelled d) k.named := by
  intro n hn
  obtain ⟨c, hc, same⟩ := among n hn
  obtain ⟨column, hcolumn, named⟩ := h.exists_column hc
  have present : (t.column? d n).isSome = true :=
    List.find?_isSome.2 ⟨column, hcolumn, Dialect.sameName_iff.2 (named ▸ same)⟩
  obtain ⟨found, here⟩ := Option.isSome_iff_exists.1 present
  obtain ⟨hfound, same'⟩ := column?_eq_some here
  obtain ⟨c', hc', named'⟩ := h.exists_clause hfound
  exact ⟨found, here, (CreateTable.spelled_eq distinct (within.subset hc') (named' ▸ same')).symm ▸ named'.symm⟩

theorem Declared.nodup (h : t.Declared d st table index enums columns clauses) (within : columns <+: table.columns) :
    (t.columns.map fun c => d.foldName c.name).Nodup := by
  have folded : (t.columns.map fun c => d.foldName c.name) = columns.map fun c => d.foldName c.name := by
    have names := congrArg (List.map d.foldName) h.columnNames
    rwa [Table.columnNames, List.map_map, List.map_map] at names
  rw [folded]
  exact distinct.sublist (within.sublist.map _)

/-- the column that comes next is not there yet -/
theorem Declared.isNew (h : t.Declared d st table index enums columns clauses) {c : ColumnClause}
    (within : columns ++ [c] <+: table.columns) : ∀ column ∈ t.columns, d.foldName column.name ≠ d.foldName c.name := by
  intro column here
  obtain ⟨c', hc', named⟩ := h.exists_clause here
  have apart : ((columns ++ [c]).map fun c => d.foldName c.name).Nodup := distinct.sublist (within.sublist.map _)
  rw [List.map_append, List.nodup_append] at apart
  rw [← named]
  exact apart.2.2 _ (List.mem_map_of_mem hc') _ (List.mem_singleton_self _)

/-- a clause adds what it declares -/
theorem Declared.withClause (h : t.Declared d st table index enums columns clauses) (within : columns <+: table.columns)
    {k : ConstraintClause} (among : k.Among d columns) (first : k.isPrimaryKey = true → t.primaryKey? = none) :
    (t.withClause d (table.spelled d) st.source k).Declared d st table index enums columns (clauses ++ [k]) := by
  have spelled : ∀ n ∈ k.named, table.spelled d n ∈ t.toTable.columnNames := by
    intro n hn
    obtain ⟨column, found, named⟩ := h.spells distinct within among n hn
    rw [← named]
    exact List.mem_map_of_mem (column?_eq_some found).1
  have own : ∀ n ∈ k.keyColumns (table.spelled d), n ∈ t.toTable.columnNames := by
    cases k with
    | primaryKey names name position => exact List.forall_mem_map.2 spelled
    | _ => exact fun _ nothing => absurd nothing List.not_mem_nil
  have apart := h.nodup distinct within
  constructor
  · exact h.own
  · rw [primaryColumns_withClause first, Draft.withClause, columns_requireValues apart, List.forall₂_map_right_iff]
    obtain ⟨length, pairs⟩ := List.forall₂_iff_zip.1 h.columns
    refine List.forall₂_iff_zip.2 ⟨length, fun {c column} paired => ?_⟩
    exact (pairs paired).keyed (any_sameName_iff apart own (List.of_mem_zip paired).2)
  · rw [Draft.withClause, h.constraints, List.filterMap_append, List.filterMap_cons]
    cases k.placed? (table.spelled d) st.source <;> rfl
  · rw [Draft.withClause, h.indexes, List.filterMap_append, List.filterMap_cons]
    cases k.index? (table.spelled d) <;> rfl
  · have names : (t.withClause d (table.spelled d) st.source k).toTable.columnNames = t.toTable.columnNames :=
      columnNames_requireValues apart _
    rw [primaryColumns_withClause first, names]
    exact List.forall_mem_append.2 ⟨h.keyed, own⟩

/-- a new column stands behind the others -/
theorem Declared.withColumn (h : t.Declared d st table index enums columns clauses) {c : ColumnClause}
    (within : columns ++ [c] <+: table.columns) {reading : TypeReading}
    (read : readType? d enums c.type = .ok reading) :
    Declared d st table index enums (columns ++ [c]) clauses
      { t with columns := t.columns ++ [c.toColumn reading] } := by
  have new : c.name ∉ t.toTable.primaryColumns := by
    intro keyed
    obtain ⟨column, here, named⟩ := List.mem_map.1 (h.keyed _ keyed)
    exact h.isNew distinct within column here (congrArg d.foldName named)
  constructor
  · exact h.own
  · refine List.rel_append h.columns (.cons ⟨⟨reading, read, rfl⟩, ?_⟩ .nil)
    rw [ColumnClause.toColumn]
    cases c.notNull with
    | none => exact iff_of_true rfl ⟨nofun, new⟩
    | some said => cases said <;> simp [new]
  · exact h.constraints
  · exact h.indexes
  · intro n hn
    rw [Table.columnNames, toTable, List.map_append]
    exact List.mem_append_left _ (h.keyed n hn)

end

end Draft

/-! ## Runs -/

namespace Workspace

variable {d : Dialect} {st : Statement} {table : CreateTable} {index : Nat} {enums : List (String × EnumType)}
  {columns : List ColumnClause} {clauses : List ConstraintClause} {v : Workspace}

/-- the workspace holds the table, as declared so far, and no problem was recorded -/
structure Holds (d : Dialect) (st : Statement) (table : CreateTable) (index : Nat) (enums : List (String × EnumType))
    (columns : List ColumnClause) (clauses : List ConstraintClause) (v : Workspace) : Prop where
  table : ∃ t, v.tables = [t] ∧ t.Declared d st table index enums columns clauses
  enums : v.enums = enums
  silent : v.errors = []
  mild : v.findings.modelErrors = []

theorem Holds.found (h : Holds d st table index enums columns clauses v) :
    ∃ t, v.tables = [t] ∧ t.Declared d st table index enums columns clauses ∧
      v.table? (table.name.key d) = some t ∧ t.name = table.name.name := by
  obtain ⟨t, only, declared⟩ := h.table
  have key : t.key = table.name.key d := congrArg Draft.key declared.own
  refine ⟨t, only, declared, ?_, congrArg Draft.name declared.own⟩
  rw [table?, only, List.find?_singleton, key, beq_self_eq_true]
  rfl

/-- the table of the workspace may be replaced -/
theorem Holds.update (h : Holds d st table index enums columns clauses v) {columns' : List ColumnClause}
    {clauses' : List ConstraintClause} {f : Draft → Draft}
    (leads : ∀ t, t.Declared d st table index enums columns clauses →
      v.table? (table.name.key d) = some t → (f t).Declared d st table index enums columns' clauses') :
    Holds d st table index enums columns' clauses' (v.updateTable (table.name.key d) f) := by
  obtain ⟨t, only, declared, found, -⟩ := h.found
  have key := (table?_eq_some found).2
  refine ⟨⟨f t, ?_, leads t declared found⟩, h.enums, h.silent, h.mild⟩
  rw [updateTable, only, List.map_singleton, key, beq_self_eq_true, if_pos rfl]

theorem label?_comes (t : Draft) : Comes t.label? (t.name ≠ "") fun _ => True := by
  by_cases unnamed : t.name = ""
  · refine .failed (not_not.2 unnamed) (e := .emptyField "TableRef" "name") ?_
    rw [Draft.label?, Draft.ref?, if_pos unnamed]
    rfl
  · exact .made unnamed (Draft.label?_eq unnamed) trivial

/-- to add a new column comes to no problem by itself -/
theorem attempt_addColumn {key : String} {t : Draft} {c : ColumnClause} (found : v.table? key = some t)
    (absent : t.column? d c.name = none) (position : Position) (source : Option String) :
    v.attempt position source (addColumn d key source c) = (do
      let label ← t.label?
      let reading ← readType? d v.enums c.type
      ((v.reportType c.type reading s!"{label}.{c.name}" c.position source).updateTable key fun t =>
        { t with columns := t.columns ++ [c.toColumn reading] }).addConstraints d key source c.constraints) := by
  simp only [attempt, addColumn, found, absent, Option.isSome_none, Bool.false_eq_true, if_false]
  cases t.label? with
  | error r => rfl
  | ok label =>
    cases readType? d v.enums c.type with
    | error r => rfl
    | ok reading =>
      simp only [settle, Except.mapError, bind, Except.bind]
      cases addConstraints d _ key source c.constraints <;> rfl

section
variable (distinct : (table.columns.map fun c => d.foldName c.name).Nodup)
include distinct

/-- one more clause is added, if its record can be made -/
theorem addClause_comes (h : Holds d st table index enums columns clauses v) (within : columns <+: table.columns)
    {k : ConstraintClause} (among : k.Among d columns) (single : (clauses ++ [k]).countP (·.isPrimaryKey) ≤ 1) :
    Comes (v.attempt k.position st.source fun v => v.onTable (table.name.key d) fun t => t.addConstraint d st.source k)
      k.Filled (Holds d st table index enums columns (clauses ++ [k])) := by
  obtain ⟨t, only, declared, found, -⟩ := h.found
  have names := declared.spells distinct within among
  have first : k.isPrimaryKey = true → t.primaryKey? = none := by
    intro key
    apply declared.primaryKey?_eq_none
    have zero : clauses.countP (·.isPrimaryKey) = 0 := by
      rw [List.countP_append, List.countP_singleton, if_pos key] at single
      omega
    simpa using List.countP_eq_zero.1 zero
  by_cases filled : k.Filled
  · have added : t.addConstraint d st.source k = .ok (t.withClause d (table.spelled d) st.source k) :=
      Draft.addConstraint_of_filled names first filled
    have run : v.attempt k.position st.source (fun v => v.onTable (table.name.key d) fun t =>
        t.addConstraint d st.source k) =
          .ok (v.updateTable (table.name.key d) fun _ => t.withClause d (table.spelled d) st.source k) := by
      simp only [attempt, onTable, found, added, Except.map]
    refine .made filled run (h.update fun t' _ found' => ?_)
    obtain rfl := Option.some.inj (found.symm.trans found')
    exact declared.withClause distinct within among first
  · obtain ⟨r, refused⟩ : ∃ r, t.addConstraint d st.source k = .error (.refused r) :=
      Draft.addConstraint_of_not_filled names first filled
    refine .failed filled (e := r) ?_
    simp only [attempt, onTable, found, refused, Except.map]

/-- so are any number of them -/
theorem addConstraints_comes (h : Holds d st table index enums columns clauses v) (within : columns <+: table.columns)
    {more : List ConstraintClause} (among : ∀ k ∈ more, k.Among d columns)
    (single : (clauses ++ more).countP (·.isPrimaryKey) ≤ 1) :
    Comes (v.addConstraints d (table.name.key d) st.source more) (∀ k ∈ more, k.Filled)
      (Holds d st table index enums columns (clauses ++ more)) := by
  refine .foldlM (I := fun done => Holds d st table index enums columns (clauses ++ done)) ?_ ?_
  · intro before k after v split h
    rw [← List.append_assoc]
    refine addClause_comes distinct h within (among k ?_) ?_
    · rw [split]
      exact List.mem_append_right _ List.mem_cons_self
    · refine (List.Sublist.countP_le ?_).trans single
      rw [split, List.append_assoc]
      exact ((List.sublist_append_left [k] after).append_left before).append_left clauses
  · rwa [List.append_nil]

/-- one more column is added, with what is written at it -/
theorem addColumn_comes (h : Holds d st table index enums columns clauses v) {c : ColumnClause}
    (within : columns ++ [c] <+: table.columns) (own : c.SelfNaming)
    (single : (clauses ++ c.constraints).countP (·.isPrimaryKey) ≤ 1) :
    Comes (v.attempt c.position st.source (addColumn d (table.name.key d) st.source c))
      (table.name.name ≠ "" ∧ (∃ reading, readType? d enums c.type = .ok reading) ∧ ∀ k ∈ c.constraints, k.Filled)
      (Holds d st table index enums (columns ++ [c]) (clauses ++ c.constraints)) := by
  obtain ⟨t, only, declared, found, name⟩ := h.found
  have absent : t.column? d c.name = none := List.find?_eq_none.2 fun column here same =>
    declared.isNew distinct within column here (Dialect.sameName_iff.1 same)
  rw [attempt_addColumn found absent, h.enums, ← name]
  refine (label?_comes t).bind fun label _ => (Comes.self _).bind fun reading read => ?_
  have reported : Holds d st table index enums columns clauses
      (v.reportType c.type reading s!"{label}.{c.name}" c.position st.source) := by
    refine ⟨⟨t, (tables_reportType ..).trans only, declared⟩, ?_, ?_, (modelErrors_reportType ..).trans h.mild⟩
    · exact (sameOutline_reportType ..).enums.trans h.enums
    · exact (errors_reportType ..).trans h.silent
  have extended := reported.update (f := fun t => { t with columns := t.columns ++ [c.toColumn reading] })
    fun t declared _ => declared.withColumn distinct within read
  refine addConstraints_comes distinct extended within (fun k hk => ?_) single
  intro n hn
  rw [(own k hk).named] at hn
  exact ⟨c, List.mem_append_right _ (List.mem_singleton_self c), congrArg d.foldName (List.mem_singleton.1 hn).symm⟩

end

/-- all columns are added, each with what is written at it -/
theorem addColumns_comes (coherent : table.Coherent d) (own : ∀ c ∈ table.columns, c.SelfNaming)
    (start : Holds d st table index enums [] [] v) :
    Comes (table.columns.foldlM
        (fun v c => v.attempt c.position st.source (addColumn d (table.name.key d) st.source c)) v)
      (∀ c ∈ table.columns,
        table.name.name ≠ "" ∧ (∃ reading, readType? d enums c.type = .ok reading) ∧ ∀ k ∈ c.constraints, k.Filled)
      (Holds d st table index enums table.columns (table.columns.flatMap (·.constraints))) := by
  refine .foldlM (I := fun done => Holds d st table index enums done (done.flatMap (·.constraints))) ?_ start
  intro before c after v split h
  have upTo : table.columns = before ++ [c] ++ after := by rw [split, List.append_assoc, List.singleton_append]
  rw [List.flatMap_append, List.flatMap_singleton]
  refine addColumn_comes coherent.distinct h ⟨after, upTo.symm⟩ (own c (by simp [upTo])) ?_
  -- what is written at these columns comes first among all clauses
  refine (List.Sublist.countP_le ?_).trans coherent.single
  rw [CreateTable.clauses, upTo, List.flatMap_append, List.flatMap_append, List.flatMap_singleton,
    List.append_assoc _ _ table.constraints]
  exact List.sublist_append_left _ _

/-- a table without columns needs a name for the warning -/
theorem warnEmpty_comes (h : Holds d st table index enums columns clauses v) :
    Comes (if table.columns.isEmpty then do
        let label ← (newDraft d st table index).label?
        return v.report .warning "EMPTY_TABLE" s!"Table '{label}' declares no columns" st.position st.source
      else return v)
      (table.columns = [] → table.name.name ≠ "") (Holds d st table index enums columns clauses) := by
  by_cases empty : table.columns = []
  · rw [if_pos (List.isEmpty_iff.2 empty)]
    refine Comes.congr (p := table.name.name ≠ "" ∧ True) ?_ (by simp [empty])
    refine (label?_comes (newDraft d st table index)).bind fun label _ => .made trivial rfl ?_
    obtain ⟨t, only, declared⟩ := h.table
    exact ⟨⟨t, only, declared⟩, h.enums, h.silent, (modelErrors_report (by decide) ..).trans h.mild⟩
  · rw [if_neg (by simpa using empty)]
    exact .made (fun none => absurd none empty) rfl h

/-- A new table gets all that is declared, in its order, and nothing is recorded as a problem. It ends exactly if all
records can be made. -/
theorem addTable_comes (coherent : table.Coherent d) (own : ∀ c ∈ table.columns, c.SelfNaming) :
    Comes (addTable d st table index { enums := enums }) (table.Storable d enums)
      (Holds d st table index enums table.columns table.clauses) := by
  have start : Holds d st table index enums [] [] { tables := [newDraft d st table index], enums := enums } :=
    ⟨⟨newDraft d st table index, rfl, rfl, .nil, rfl, rfl, fun _ nothing => absurd nothing List.not_mem_nil⟩,
      rfl, rfl, rfl⟩
  have run := (addColumns_comes coherent own start).bind fun v h =>
    (addConstraints_comes coherent.distinct h (List.prefix_refl _)
      (fun k hk => coherent.named k (List.mem_append_right _ hk)) coherent.single).bind fun v h => warnEmpty_comes h
  refine run.congr ⟨fun ⟨columns, constraints, empty⟩ => ?_, fun storable => ⟨?_, ?_, fun _ => storable.name⟩⟩
  · refine ⟨?_, fun c hc => (columns c hc).2.1, ?_⟩
    · by_cases none : table.columns = []
      · exact empty none
      · obtain ⟨c, hc⟩ := List.exists_mem_of_ne_nil _ none
        exact (columns c hc).1
    · refine List.forall_mem_append.2 ⟨fun k hk => ?_, constraints⟩
      obtain ⟨c, hc, written⟩ := List.mem_flatMap.1 hk
      exact (columns c hc).2.2 k written
  · refine fun c hc => ⟨storable.name, storable.types c hc, fun k hk => ?_⟩
    exact storable.clauses k (List.mem_append_left _ (List.mem_flatMap.2 ⟨c, hc, hk⟩))
  · exact fun k hk => storable.clauses k (List.mem_append_right _ hk)

/-- a table with a primary key, a foreign key and an index, as it is read -/
def pet : CreateTable where
  name := { name := "Pet" }
  columns :=
    [{ name := "Id"
       type := some { base := "INT", raw := "INT", identifier := some "INT" }
       position := ⟨1, 19, 18⟩
       constraints := [.primaryKey ["Id"] none ⟨1, 26, 25⟩] },
     { name := "Owner"
       type := some { base := "INT", raw := "INT", identifier := some "INT" }
       position := ⟨1, 39, 38⟩
       constraints := [.foreignKey ["Owner"] { table := { name := "Owner" }, columns := ["id"] } none ⟨1, 49, 48⟩] }]
  constraints := [.index [{ text := "OWNER", column := some "OWNER" }] none false none ⟨1, 72, 71⟩]

def petStatement : Statement := { body := .createTable pet, position := .start }

example : (declarationPass .mysql [petStatement] {} (petStatement, 0)).map (fun w => w.tables.map fun t =>
    (t.columns.map (·.nullable), t.constraints.map (·.constraint.ownColumns), t.indexes.map (·.columns))) =
      .ok [([false, true], [["Id"], ["Owner"]], [["Owner"]])] := by
  decide +kernel

end Workspace

end SchemaApi
