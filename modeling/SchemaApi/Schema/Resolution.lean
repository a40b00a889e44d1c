import SchemaApi.Schema.Draft
/-!
Foreign keys are resolved after all statements are applied.

A foreign key resolves if it refers to an existing table and, in their order, to the columns of a
primary key, a unique constraint or a full unique index; without columns of its own it refers to the
primary key. Resolving one key never changes what another one resolves to.
-/

namespace SchemaApi

/-- values of the two types can be equal -/
def compatible (a b : Meaning) : Bool :=
  a == b || (a.isNumeric && b.isNumeric) || a == .other || b == .other

namespace Draft

/-- a foreign key as messages show it -/
def keyLabel (label : String) (k : ForeignKey) : String :=
  s!"Foreign key ({commas k.columns}) on '{label}'"

/-- the columns of the target that a foreign key refers to -/
def referredColumns (d : Dialect) (target : Draft) (what : String) (k : ForeignKey) :
    Except Failure (List String) :=
  if k.targetColumns.isEmpty then
    match target.primaryKey? with
    | some columns => .ok columns
    | none => target.problem (.targetWithoutPrimaryKey what)
  else target.canonical d k.targetColumns (what ++ " → referenced column")

/-- the columns are a key of the target, of the same length as the foreign key -/
def checkKey (target : Draft) (what : String) (k : ForeignKey) (referred : List String) :
    Except Failure Unit :=
  if referred.length ≠ k.columns.length then
    .error (.problem (.columnCount what k.columns.length referred.length))
  else if target.uniqueSets.contains referred then .ok ()
  else if target.uniqueSets.any (sameMembers · referred) then
    target.problem (.columnOrder what · referred)
  else target.problem (.targetNotUnique what · referred)

/-- warnings about pairs of columns whose types do not match -/
def typeFindings (d : Dialect) (t target : Draft) (what targetLabel : String) (e : Placed)
    (pairs : List (String × String)) : Findings :=
  pairs.filterMap fun (own, other) =>
    match t.column? d own, target.column? d other with
    | some a, some b =>
      if compatible a.type.meaning b.type.meaning then none
      else
        some (Finding.about .warning .model "FK_TYPE_MISMATCH"
          (s!"{what}: column '{a.name}' ({a.type.meaning.name}) does not match "
            ++ s!"'{targetLabel}.{b.name}' ({b.type.meaning.name})")
          e.source (some e.position))
    | _, _ => none

/-- the foreign key as it refers to a table, and warnings -/
def resolve (d : Dialect) (tables : List Draft) (t : Draft) (e : Placed) (k : ForeignKey) :
    Except Failure (ForeignKey × Findings) := do
  let label ← Workspace.settle t.label?
  let what := keyLabel label k
  match tables.find? fun t => t.key == k.targetKey d with
  | none => throw (.problem (.unknownReferencedTable what k.target.text))
  | some target =>
    let referred ← target.referredColumns d what k
    target.checkKey what k referred
    let ref ← Workspace.settle target.ref?
    let findings := typeFindings d t target what ref.text e (k.columns.zip referred)
    return ({ k with target := ref, targetColumns := referred }, findings)

/-- A constraint with its foreign key resolved, and what is found. If a problem stands in the way, the
problem is recorded and the constraint stays as it is. -/
def resolvePlaced (d : Dialect) (tables : List Draft) (t : Draft) (e : Placed) :
    Except Refusal (Placed × Ledger) :=
  match e.constraint with
  | .foreignKey k =>
    match t.resolve d tables e k with
    | .ok (k', findings) => .ok ({ e with constraint := .foreignKey k' }, { findings := findings })
    | .error (.problem p) =>
      .ok (e, { findings := [p.finding e.position e.source], errors := [p.finding e.position e.source] })
    | .error (.refused r) => .error r
  | _ => .ok (e, {})

/-- a table with its foreign keys resolved, and what is found -/
def resolveTable (d : Dialect) (tables : List Draft) (t : Draft) :
    Except Refusal (Draft × Ledger) := do
  let placed ← t.constraints.mapM (t.resolvePlaced d tables)
  return ({ t with constraints := placed.map (·.1) },
    { findings := placed.flatMap (·.2.findings), errors := placed.flatMap (·.2.errors) })

end Draft

/-! ## Cycles -/

/-- the tables that a table refers to, each once, itself and unknown ones left out -/
def targetKeys (d : Dialect) (tables : List Draft) (t : Draft) : List String :=
  (t.toTable.foreignKeys.filter fun k => !k.targetColumns.isEmpty).map (·.targetKey d)
    |>.filter (fun key => key != t.key && tables.any fun t => t.key == key)
    |>.eraseDups

/-- the keys that a key refers to -/
def next (edges : List (String × List String)) (key : String) : List String :=
  (edges.lookup key).getD []

/-- how many references go out from the keys that are not seen -/
def unsearched : List (String × List String) → List String → Nat
  | [], _ => 0
  | (key, targets) :: edges, seen =>
    (if key ∈ seen then 0 else targets.length) + unsearched edges seen

/-- the references of a key that is seen no longer count -/
theorem unsearched_concat (edges : List (String × List String)) {seen : List String} {key : String}
    (fresh : key ∉ seen) :
    unsearched edges (seen ++ [key]) + (next edges key).length ≤ unsearched edges seen := by
  induction edges with
  | nil => exact Nat.le_refl _
  | cons e edges ih =>
    obtain ⟨k, targets⟩ := e
    simp only [unsearched, next, List.lookup_cons, List.mem_append, List.mem_singleton] at ih ⊢
    by_cases own : k = key
    · subst own
      simp [fresh]
      omega
    · have other : (key == k) = false := beq_false_of_ne (Ne.symm own)
      simp only [own, or_false, other]
      omega

/-- Searches with a stack, whose top comes first here. The key on top is taken; if it is a new one, it
is seen now, and the keys that it refers to are put on the stack. -/
def search (edges : List (String × List String)) (stack seen : List String) : List String :=
  match stack with
  | [] => seen
  | key :: stack =>
    if _seen : key ∈ seen then search edges stack seen
    else search edges ((next edges key).reverse ++ stack) (seen ++ [key])
termination_by stack.length + unsearched edges seen
decreasing_by
  · simp
  · have fewer := unsearched_concat edges _seen
    simp only [List.length_append, List.length_reverse, List.length_cons]
    omega

/-- the keys that are reached from a key by one reference or more -/
def reachable (edges : List (String × List String)) (key : String) : List String :=
  search edges (next edges key).reverse []

/-- The groups of tables that refer to each other in a circle, by the first table of each group, in
order. -/
def cycleGroups (reach : List (String × List String)) : List (List String) :=
  (reach.foldl
    (fun (groups : List (List String)) (key, reached) =>
      if reached.contains key && !groups.any (·.contains key) then
        let members := (reach.filter fun (other, back) =>
          reached.contains other && back.contains key).map (·.1)
        groups ++ [members]
      else groups)
    [])

/-- the groups of tables that refer to each other in a circle -/
def cycles (d : Dialect) (tables : List Draft) : List (List String) :=
  let edges := tables.map fun t => (t.key, targetKeys d tables t)
  cycleGroups (edges.map fun (key, _) => (key, reachable edges key))

/-- the finding about one group of tables -/
def cycleFinding (tables : List Draft) (members : List String) : Except Refusal Findings :=
  match tables.filter fun t => members.contains t.key with
  | [] => .ok []
  | first :: others => do
    let labels ← (first :: others).mapM Draft.label?
    return [Finding.about .info .model "CIRCULAR_REFERENCE"
      s!"Circular foreign-key chain between tables: {commas labels}"
      first.source (some first.position)]

end SchemaApi
