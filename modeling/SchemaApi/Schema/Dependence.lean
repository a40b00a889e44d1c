import SchemaApi.Schema.Basic
/-!
The order of tables by dependence.

The numbers of tables are placed by Kahn's algorithm. For each number the needs that are not placed
are counted. A number is ready when there are none left; of those that are ready the least is placed,
and the numbers that need it are told. Numbers on a circle, or behind one, are never ready and come
last.
-/

namespace SchemaApi

/-- Kahn's algorithm between two rounds -/
structure Kahn where
  /-- how many needs of each number are not placed -/
  indegree : List Int
  /-- the numbers that can be placed -/
  ready : List Nat
  ordered : List Nat := []

namespace Kahn

/-! ### The start -/

/-- how many others each number needs, and which others need it -/
structure Needs where
  indegree : List Int
  dependants : List (List Nat)

/-- one number needs another -/
def Needs.add (n : Needs) (i need : Nat) : Needs where
  indegree := n.indegree.modify i (· + 1)
  dependants := n.dependants.modify need (· ++ [i])

/-- the needs of all numbers, given for each of them -/
def Needs.of (needs : List (List Nat)) : Needs :=
  needs.zipIdx.foldl (fun n (own, i) => own.foldl (fun n need => n.add i need) n)
    ⟨.replicate needs.length 0, .replicate needs.length []⟩

/-- nothing is placed, and whatever needs nothing is ready -/
def start (indegree : List Int) : Kahn where
  indegree := indegree
  ready := indegree.zipIdx.filterMap fun (count, i) => if count = 0 then some i else none

/-! ### Rounds -/

/-- a number is told that one of its needs is placed -/
def release (s : Kahn) (i : Nat) : Kahn :=
  let indegree := s.indegree.modify i (· - 1)
  { s with
    indegree := indegree
    ready := if indegree[i]? = some 0 then s.ready ++ [i] else s.ready }

/-- how many numbers are ready or can still become so -/
def pending (s : Kahn) : Nat := s.ready.length + s.indegree.countP (0 < ·)

/-- a count that comes down to zero was positive -/
theorem countP_modify (l : List Int) (i : Nat) :
    (l.modify i (· - 1)).countP (0 < ·) + (if (l.modify i (· - 1))[i]? = some 0 then 1 else 0) ≤
      l.countP (0 < ·) := by
  induction l generalizing i with
  | nil => simp
  | cons count l ih =>
    cases i with
    | zero =>
      simp only [List.modify_zero_cons, List.countP_cons, List.getElem?_cons_zero, Option.some.injEq,
        decide_eq_true_eq]
      repeat' split
      all_goals omega
    | succ i =>
      rw [List.modify_succ_cons, List.countP_cons, List.countP_cons]
      exact Nat.add_right_comm _ _ _ ▸ Nat.add_le_add_right (ih i) _

theorem pending_release (s : Kahn) (i : Nat) : (s.release i).pending ≤ s.pending := by
  have counted := countP_modify s.indegree i
  simp only [pending, release]
  split at counted <;> rename_i done <;>
    simp only [done, if_true, if_false, List.length_append, List.length_singleton]
  all_goals omega

theorem pending_releases (s : Kahn) (numbers : List Nat) :
    (numbers.foldl release s).pending ≤ s.pending := by
  induction numbers generalizing s with
  | nil => exact Nat.le_refl _
  | cons i numbers ih => exact Nat.le_trans (ih _) (pending_release s i)

/-- Round by round, the least number that is ready is placed, and those that need it are told. -/
def run (dependants : List (List Nat)) (s : Kahn) : List Nat :=
  match _sorted : s.ready.mergeSort with
  | [] => s.ordered
  | current :: ready =>
    run dependants ((dependants[current]?.getD []).foldl release
      { s with ready := ready, ordered := s.ordered ++ [current] })
termination_by s.pending
decreasing_by
  have size := congrArg List.length _sorted
  rw [List.length_mergeSort, List.length_cons] at size
  refine Nat.lt_of_le_of_lt (pending_releases _ _) ?_
  simp only [pending, size]
  omega

/-- all numbers; those that are never ready come last, in their order -/
def order (needs : List (List Nat)) : List Nat :=
  let n := Needs.of needs
  let ordered := run n.dependants (start n.indegree)
  ordered ++ (List.range needs.length).filter fun i => !ordered.contains i

end Kahn

namespace Model

/-- where the last table of a reference stands -/
def positionOf (m : Model) (ref : TableRef) : Option Nat :=
  (m.tables.zipIdx.reverse.find? fun (t, _) => t.ref == ref).map (·.2)

/-- the positions of the other tables that a table refers to -/
def dependencies (m : Model) (position : Nat) (t : Table) : List Nat :=
  (t.foreignKeys.filterMap fun k => m.positionOf k.target).filter (· != position)

/-- for each table the positions of the others that it refers to, each once and in their order -/
def targets (m : Model) : List (List Nat) :=
  m.tables.mapIdx fun i t => (m.dependencies i t).eraseDups.mergeSort

/-- the tables, each behind those it refers to as far as there are no cycles -/
def topologicalOrder (m : Model) : List Table :=
  (Kahn.order m.targets).filterMap fun i => m.tables[i]?

end Model

end SchemaApi
