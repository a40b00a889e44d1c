import SchemaApi.Proofs.Schema.Locality
/-!
Declarations of tables and enum types, one after the other.

Where all of them have different keys, none is in the way of another: a table comes to what its statement comes to by
itself, with the enum types that there are, and the schema holds the enum types and then the tables in the order of
their statements (`applyAll_eq_ok_iff`).
-/

namespace SchemaApi

variable {d : Dialect}

namespace Statement

/-- the table that a statement declares -/
def table? (st : Statement) : Option CreateTable :=
  match st.body with
  | .createTable table => some table
  | _ => none

/-- the enum type that a statement declares -/
def enum? (st : Statement) : Option CreateEnum :=
  match st.body with
  | .createEnum enum => some enum
  | _ => none

def tableKey? (d : Dialect) (st : Statement) : Option String := st.table?.map (·.name.key d)

def typeKey? (d : Dialect) (st : Statement) : Option String := st.enum?.map (·.name.key d)

/-- the statement declares a table or an enum type -/
def isDeclaration (st : Statement) : Bool := st.table?.isSome || st.enum?.isSome

end Statement

/-- tables and enum types are declared, all of them under different keys -/
structure Declarations (d : Dialect) (statements : List Statement) : Prop where
  each : ∀ st ∈ statements, st.isDeclaration = true
  tables : (statements.filterMap (·.tableKey? d)).Nodup
  types : (statements.filterMap (·.typeKey? d)).Nodup

namespace Workspace

variable {w w' : Workspace} {statements : List Statement} {enums : List (String × EnumType)}

theorem body_of_isDeclaration {st : Statement} (declares : st.isDeclaration = true) :
    (∃ table, st.body = .createTable table) ∨ ∃ enum, st.body = .createEnum enum := by
  unfold Statement.isDeclaration Statement.table? Statement.enum? at declares
  cases body : st.body with
  | createTable table => exact Or.inl ⟨table, rfl⟩
  | createEnum enum => exact Or.inr ⟨enum, rfl⟩
  | _ => simp [body] at declares

/-! ### One after the other -/

/-- what one workspace holds, and then another -/
def append (w v : Workspace) : Workspace where
  tables := w.tables ++ v.tables
  enums := w.enums ++ v.enums
  views := w.views ++ v.views
  findings := w.findings ++ v.findings
  errors := w.errors ++ v.errors

/-- what the workspaces hold, one after the other -/
def concat (parts : List Workspace) : Workspace where
  tables := parts.flatMap (·.tables)
  enums := parts.flatMap (·.enums)
  views := parts.flatMap (·.views)
  findings := parts.flatMap (·.findings)
  errors := parts.flatMap (·.errors)

theorem append_concat_nil : w.append (concat []) = w := by
  simp only [append, concat, List.flatMap_nil, List.append_nil]

theorem append_concat_cons (v : Workspace) (parts : List Workspace) :
    w.append (concat (v :: parts)) = (w.append v).append (concat parts) := by
  simp only [append, concat, List.flatMap_cons, List.append_assoc]

/-- steps that add what they come to by themselves -/
theorem foldlM_eq_append {α : Type} {step : Workspace → α → Except Refusal Workspace}
    {own : α → Except Refusal Workspace} (fits : List α → Workspace → Prop)
    (each : ∀ a rest w, fits (a :: rest) w → step w a = (own a).map w.append)
    (next : ∀ a rest w v, fits (a :: rest) w → own a = .ok v → fits rest (w.append v)) {l : List α} (h : fits l w) :
    l.foldlM step w = (l.mapM own).map fun parts => w.append (concat parts) := by
  induction l generalizing w with
  | nil => simp only [List.foldlM_nil, List.mapM_nil, pure, Except.pure, Except.map, append_concat_nil]
  | cons a rest ih =>
    rw [List.foldlM_cons, List.mapM_cons, each a rest w h]
    cases run : own a with
    | error r => rfl
    | ok v =>
      have later := ih (next a rest w v h run)
      simp only [Except.map, bind, Except.bind] at later ⊢
      rw [later]
      cases rest.mapM own with
      | error r => rfl
      | ok parts => simp only [pure, Except.pure, append_concat_cons]

/-- a key that comes next is new, and the ones after it are new behind it -/
theorem nodup_append_filterMap_cons {α : Type} {key? : α → Option String} {held : List String} {a : α} {rest : List α}
    (distinct : (held ++ (a :: rest).filterMap key?).Nodup) :
    (∀ key, key? a = some key → key ∉ held) ∧ (held ++ (key? a).toList ++ rest.filterMap key?).Nodup := by
  have split : (a :: rest).filterMap key? = (key? a).toList ++ rest.filterMap key? := by
    rw [List.filterMap_cons]
    cases key? a <;> rfl
  rw [split] at distinct
  refine ⟨fun key isKey held => ?_, by rwa [List.append_assoc]⟩
  refine (List.nodup_append.1 distinct).2.2 key held key ?_ rfl
  rw [isKey]
  exact List.mem_append_left _ (Option.mem_toList.2 rfl)

/-! ### Tables -/

/-- what the declaration of a table comes to by itself, where there are enum types -/
def alone (d : Dialect) (enums : List (String × EnumType)) (numbered : Statement × Nat) : Except Refusal Workspace :=
  (declarationPass d [] { enums := enums } numbered).map fun v => { v with enums := [], views := [] }

theorem declarationPass_createTable {st : Statement} {table : CreateTable} (declares : st.body = .createTable table)
    (fresh : w.table? (table.name.key d) = none) (index : Nat) :
    declarationPass d statements w (st, index) = addTable d st table index w := by
  simp only [declarationPass, declares, attempt, declareTable, fresh, settle]
  cases addTable d st table index w <;> rfl

theorem declarationPass_createEnum {st : Statement} {enum : CreateEnum} (declares : st.body = .createEnum enum)
    (index : Nat) : declarationPass d statements w (st, index) = .ok w := by
  simp only [declarationPass, declares]

theorem alone_createTable {st : Statement} {table : CreateTable} (declares : st.body = .createTable table)
    (index : Nat) : alone d enums (st, index) = (addTable d st table index { enums := enums }).map fun v =>
      { v with enums := [], views := [] } := by
  rw [alone, declarationPass_createTable declares rfl]

theorem alone_createEnum {st : Statement} {enum : CreateEnum} (declares : st.body = .createEnum enum) (index : Nat) :
    alone d enums (st, index) = .ok {} := by
  rw [alone, declarationPass_createEnum declares]
  rfl

theorem sameOutline_addTable {st : Statement} {table : CreateTable} {index : Nat}
    (added : addTable d st table index w = .ok w') :
    SameOutline { w with tables := w.tables ++ [newDraft d st table index] } w' := by
  rw [addTable_eq, bind_eq_ok_iff] at added
  obtain ⟨w₁, run, added⟩ := added
  obtain ⟨found, -, rfl⟩ := map_eq_ok_iff.1 added
  exact ((isLocal_additions _).keeps _ w₁ run).trans (.of_tables rfl rfl rfl)

/-- a declared table is the same whatever was declared before -/
theorem addTable_eq_append {st : Statement} {table : CreateTable} (index : Nat)
    (fresh : ∀ t ∈ w.tables, t.key ≠ table.name.key d) (same : ∀ name, w.enums.lookup name = enums.lookup name) :
    addTable d st table index w = ((addTable d st table index { enums := enums }).map fun v =>
      { v with enums := [], views := [] }).map w.append := by
  have started : { w with tables := w.tables ++ [newDraft d st table index] } =
      within ⟨w.tables, [], w.enums, w.views, w.findings, w.errors⟩ { tables := [newDraft d st table index], enums := enums } := by
    simp only [within, List.append_nil]
  rw [addTable_eq, addTable_eq, started, foldlM_add_within ⟨fresh, by simp, same⟩]
  simp only [List.nil_append]
  cases List.foldlM (add d (table.name.key d)) _ _ with
  | error r => rfl
  | ok v =>
    cases emptyFindings d st table with
    | error r => rfl
    | ok found => simp only [Except.map, bind, Except.bind, within, append, List.append_nil, List.append_assoc]

/-- a declaration adds what it comes to by itself -/
theorem declarationPass_eq {numbered : Statement × Nat} (declares : numbered.1.isDeclaration = true)
    (fresh : ∀ key, numbered.1.tableKey? d = some key → key ∉ w.tables.map (·.key))
    (same : ∀ name, w.enums.lookup name = enums.lookup name) :
    declarationPass d statements w numbered = (alone d enums numbered).map w.append := by
  obtain ⟨st, index⟩ := numbered
  rcases body_of_isDeclaration declares with ⟨table, body⟩ | ⟨enum, body⟩
  · have new : ∀ t ∈ w.tables, t.key ≠ table.name.key d := fun t ht e =>
      fresh (table.name.key d) (by rw [Statement.tableKey?, Statement.table?, body]; rfl) (e ▸ List.mem_map_of_mem ht)
    have absent : w.table? (table.name.key d) = none := List.find?_eq_none.2 fun t ht => by simpa using new t ht
    rw [declarationPass_createTable body absent, alone_createTable body, addTable_eq_append index new same]
  · simp only [declarationPass_createEnum body, alone_createEnum body, Except.map, append, List.append_nil]

theorem keys_of_alone {numbered : Statement × Nat} (declares : numbered.1.isDeclaration = true)
    (run : alone d enums numbered = .ok w) : w.tables.map (·.key) = (numbered.1.tableKey? d).toList := by
  obtain ⟨st, index⟩ := numbered
  rcases body_of_isDeclaration declares with ⟨table, body⟩ | ⟨enum, body⟩
  · rw [alone_createTable body] at run
    obtain ⟨v, made, rfl⟩ := map_eq_ok_iff.1 run
    rw [(sameOutline_addTable made).keys, Statement.tableKey?, Statement.table?, body]
    rfl
  · rw [alone_createEnum body] at run
    rw [← Except.ok.inj run, Statement.tableKey?, Statement.table?, body]
    rfl

theorem enums_of_alone {numbered : Statement × Nat} (run : alone d enums numbered = .ok w) :
    w.enums = [] ∧ w.views = [] := by
  obtain ⟨v, -, rfl⟩ := map_eq_ok_iff.1 run
  exact ⟨rfl, rfl⟩

/-- a declaration comes to the same with other enum types that are the same by their keys -/
theorem alone_congr {enums' : List (String × EnumType)} (same : ∀ name, enums'.lookup name = enums.lookup name)
    {numbered : Statement × Nat} (declares : numbered.1.isDeclaration = true) :
    alone d enums' numbered = alone d enums numbered := by
  have own : declarationPass d [] { enums := enums' } numbered =
      (alone d enums numbered).map (append { enums := enums' }) := declarationPass_eq declares (by simp) same
  rw [alone, own, alone]
  cases declarationPass d [] { enums := enums } numbered <;> rfl

theorem foldlM_declarationPass {numbered : List (Statement × Nat)}
    (declares : ∀ n ∈ numbered, n.1.isDeclaration = true)
    (distinct : (w.tables.map (·.key) ++ numbered.filterMap fun n => n.1.tableKey? d).Nodup) :
    numbered.foldlM (declarationPass d statements) w =
      (numbered.mapM (alone d w.enums)).map fun parts => w.append (concat parts) := by
  refine foldlM_eq_append (fun l v => (∀ n ∈ l, n.1.isDeclaration = true) ∧
    (v.tables.map (·.key) ++ l.filterMap fun n => n.1.tableKey? d).Nodup ∧ v.enums = w.enums)
    ?_ ?_ ⟨declares, distinct, rfl⟩
  · rintro n rest v ⟨declares, distinct, same⟩
    exact declarationPass_eq (declares n List.mem_cons_self) (nodup_append_filterMap_cons distinct).1
      fun _ => by rw [same]
  · rintro n rest v part ⟨declares, distinct, same⟩ run
    refine ⟨fun m hm => declares m (List.mem_cons_of_mem n hm), ?_, ?_⟩
    · rw [append, List.map_append, keys_of_alone (declares n List.mem_cons_self) run]
      exact (nodup_append_filterMap_cons distinct).2
    · rw [append, (enums_of_alone run).1, List.append_nil, same]

/-! ### Enum types -/

/-- an enum type adds what it comes to by itself -/
theorem enumPass_eq {st : Statement} (declares : st.isDeclaration = true)
    (fresh : ∀ key, st.typeKey? d = some key → key ∉ w.enums.map (·.1)) :
    enumPass d w st = (enumPass d {} st).map w.append := by
  rcases body_of_isDeclaration declares with ⟨table, body⟩ | ⟨enum, body⟩
  · simp only [enumPass, body, Except.map, append, List.append_nil]
  · have new := fresh (enum.name.key d) (by rw [Statement.typeKey?, Statement.enum?, body]; rfl)
    have absent : w.enums.any (·.1 == enum.name.key d) = false := by
      rw [List.any_eq_false]
      exact fun e he same => new (beq_iff_eq.1 same ▸ List.mem_map_of_mem he)
    simp only [enumPass, body, attempt, declareEnum, absent, List.any_nil, Bool.false_eq_true, if_false]
    split_ifs <;> simp [Except.map, append, report]

theorem outline_of_enumPass {st : Statement} (declares : st.isDeclaration = true) (run : enumPass d {} st = .ok w) :
    w.tables = [] ∧ w.views = [] ∧ w.enums.map (·.1) = (st.typeKey? d).toList := by
  rcases body_of_isDeclaration declares with ⟨table, body⟩ | ⟨enum, body⟩
  · simp only [enumPass, body] at run
    rw [← Except.ok.inj run, Statement.typeKey?, Statement.enum?, body]
    exact ⟨rfl, rfl, rfl⟩
  · simp only [enumPass, body, attempt, declareEnum, List.any_nil, Bool.false_eq_true, if_false] at run
    rw [Statement.typeKey?, Statement.enum?, body]
    split_ifs at run
    · rw [← Except.ok.inj run]
      exact ⟨rfl, rfl, rfl⟩
    · rw [← Except.ok.inj run]
      exact ⟨rfl, rfl, rfl⟩

theorem foldlM_enumPass (declares : ∀ st ∈ statements, st.isDeclaration = true)
    (distinct : (w.enums.map (·.1) ++ statements.filterMap (·.typeKey? d)).Nodup) :
    statements.foldlM (enumPass d) w = (statements.mapM (enumPass d {})).map fun types => w.append (concat types) := by
  refine foldlM_eq_append (fun l v => (∀ st ∈ l, st.isDeclaration = true) ∧
    (v.enums.map (·.1) ++ l.filterMap (·.typeKey? d)).Nodup) ?_ ?_ ⟨declares, distinct⟩
  · rintro st rest v ⟨declares, distinct⟩
    exact enumPass_eq (declares st List.mem_cons_self) (nodup_append_filterMap_cons distinct).1
  · rintro st rest v part ⟨declares, distinct⟩ run
    refine ⟨fun x hx => declares x (List.mem_cons_of_mem st hx), ?_⟩
    rw [append, List.map_append, (outline_of_enumPass (declares st List.mem_cons_self) run).2.2]
    exact (nodup_append_filterMap_cons distinct).2

/-! ### All declarations -/

theorem changePass_of_isDeclaration {st : Statement} (declares : st.isDeclaration = true) (index : Nat) :
    changePass d w (st, index) = .ok w := by
  rcases body_of_isDeclaration declares with ⟨_, body⟩ | ⟨_, body⟩
  · simp only [changePass, body]
  · simp only [changePass, body]

theorem concat_types {types : List Workspace} (declares : ∀ st ∈ statements, st.isDeclaration = true)
    (run : statements.mapM (enumPass d {}) = .ok types) :
    (concat types).tables = [] ∧ (concat types).views = [] ∧
      (concat types).enums.map (·.1) = statements.filterMap (·.typeKey? d) := by
  have each : ∀ v ∈ types, v.tables = [] ∧ v.views = [] := by
    intro v hv
    obtain ⟨st, hst, made⟩ := exists_of_mem_mapM run hv
    exact ⟨(outline_of_enumPass (declares st hst) made).1, (outline_of_enumPass (declares st hst) made).2.1⟩
  have keys := map_of_mapM_eq_ok (fun v => v.enums.map (·.1)) run fun st hst v made =>
    (outline_of_enumPass (declares st hst) made).2.2
  refine ⟨List.flatMap_eq_nil_iff.2 fun v hv => (each v hv).1, List.flatMap_eq_nil_iff.2 fun v hv => (each v hv).2, ?_⟩
  rw [concat, List.map_flatMap, List.flatMap_def, keys, ← List.flatMap_def, ← List.filterMap_eq_flatMap_toList]

theorem keys_concat_parts {numbered : List (Statement × Nat)} {parts : List Workspace}
    (declares : ∀ n ∈ numbered, n.1.isDeclaration = true) (run : numbered.mapM (alone d enums) = .ok parts) :
    (concat parts).tables.map (·.key) = numbered.filterMap fun n => n.1.tableKey? d := by
  have keys := map_of_mapM_eq_ok (fun v => v.tables.map (·.key)) run fun n hn v made =>
    keys_of_alone (declares n hn) made
  rw [concat, List.map_flatMap, List.flatMap_def, keys, ← List.flatMap_def, ← List.filterMap_eq_flatMap_toList]

theorem enums_concat_parts {numbered : List (Statement × Nat)} {parts : List Workspace}
    (run : numbered.mapM (alone d enums) = .ok parts) : (concat parts).enums = [] ∧ (concat parts).views = [] := by
  have each : ∀ v ∈ parts, v.enums = [] ∧ v.views = [] := fun v hv => by
    obtain ⟨n, -, made⟩ := exists_of_mem_mapM run hv
    exact enums_of_alone made
  exact ⟨List.flatMap_eq_nil_iff.2 fun v hv => (each v hv).1, List.flatMap_eq_nil_iff.2 fun v hv => (each v hv).2⟩

theorem isDeclaration_of_mem_zipIdx (h : Declarations d statements) {n : Statement × Nat} (hn : n ∈ statements.zipIdx) :
    n.1.isDeclaration = true :=
  h.each n.1 (List.fst_mem_of_mem_zipIdx hn)

theorem filterMap_zipIdx {α : Type} (f : Statement → Option α) (statements : List Statement) :
    (statements.zipIdx.filterMap fun n => f n.1) = statements.filterMap f := by
  conv_rhs => rw [← List.zipIdx_map_fst 0 statements, List.filterMap_map]
  rfl

/-- the enum types of a schema are what each of them comes to by itself -/
theorem foldlM_enumTypes (h : Declarations d statements) :
    statements.foldlM (enumPass d) {} = (statements.mapM (enumPass d {})).map concat :=
  foldlM_enumPass (w := {}) h.each h.types

theorem tables_of_enumTypes (h : Declarations d statements) (run : statements.foldlM (enumPass d) {} = .ok w) :
    w.tables = [] := by
  rw [foldlM_enumTypes h] at run
  obtain ⟨types, ran, rfl⟩ := map_eq_ok_iff.1 run
  exact (concat_types h.each ran).1

/-- a schema holds its enum types, and then what each of its tables comes to by itself -/
theorem applyAll_eq_ok_iff (h : Declarations d statements) : applyAll d statements = .ok w ↔
    ∃ v parts, statements.foldlM (enumPass d) {} = .ok v ∧ statements.zipIdx.mapM (alone d v.enums) = .ok parts ∧
      w = v.append (concat parts) := by
  have unchanged : ∀ w, statements.zipIdx.foldlM (changePass d) w = .ok w := fun w =>
    foldlM_eq_ok_self fun n hn w => changePass_of_isDeclaration (isDeclaration_of_mem_zipIdx h hn) n.2
  have declared : ∀ v, statements.foldlM (enumPass d) {} = .ok v →
      statements.zipIdx.foldlM (declarationPass d statements) v =
        (statements.zipIdx.mapM (alone d v.enums)).map fun parts => v.append (concat parts) := by
    intro v run
    refine foldlM_declarationPass (fun n hn => isDeclaration_of_mem_zipIdx h hn) ?_
    rw [tables_of_enumTypes h run, filterMap_zipIdx]
    exact h.tables
  simp only [applyAll, bind_eq_ok_iff, unchanged, Except.ok.injEq]
  constructor
  · rintro ⟨v, run, w', made, rfl⟩
    rw [declared v run] at made
    obtain ⟨parts, ran, rfl⟩ := map_eq_ok_iff.1 made
    exact ⟨v, parts, run, ran, rfl⟩
  · rintro ⟨v, parts, run, made, rfl⟩
    exact ⟨v, run, _, (declared v run).trans (by rw [made]; rfl), rfl⟩

/-- the tables of a schema come in the order of their statements -/
theorem keys_of_applyAll (h : Declarations d statements) (run : applyAll d statements = .ok w) :
    w.tables.map (·.key) = statements.filterMap (·.tableKey? d) := by
  obtain ⟨v, parts, ran, made, rfl⟩ := (applyAll_eq_ok_iff h).1 run
  rw [append, tables_of_enumTypes h ran, List.nil_append,
    keys_concat_parts (fun n hn => isDeclaration_of_mem_zipIdx h hn) made, filterMap_zipIdx]

end Workspace

end SchemaApi
