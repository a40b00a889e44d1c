import SchemaApi.Proofs.Schema.Kahn
import Mathlib.Data.Fintype.Card
import Mathlib.Data.List.Lex
import Mathlib.Data.List.Nodup
import Mathlib.Data.List.Permutation
import Mathlib.Data.Set.Finite.List
import Mathlib.Logic.Relation
import Mathlib.Order.WellFounded
/-!
The order of tables by dependence.

A table depends on the other tables of the model that it refers to. Kahn's algorithm orders the tables as
`placeTables` does, which takes, again and again, the first entry whose needs are placed. `placeTables_eq` says what
that gives: entries that stand behind their needs, with the least numbers that are possible, and behind them those that
always lack something. Of the tables, the latter are those from which a circle of references is reached: each of them
depends on another one that is never placed, and following these the tables run out (`exists_circle`).
-/

namespace SchemaApi

/-! ## Circles -/

/-- where each of finitely many things leads to another of them, a circle is reached -/
theorem exists_circle {α : Type} {leads : α → α → Prop} {l : List α} (onward : ∀ a ∈ l, ∃ b ∈ l, leads a b) {a : α}
    (ha : a ∈ l) : ∃ b, Relation.ReflTransGen leads a b ∧ Relation.TransGen leads b b := by
  by_contra none
  push Not at none
  -- without a circle, what is reached from `a` has a last element
  let Reached := {b : {x // x ∈ l} // Relation.ReflTransGen leads a b}
  let behind (x y : Reached) : Prop := Relation.TransGen leads y.1.1 x.1.1
  have : IsTrans Reached behind := ⟨fun _ _ _ xy yz => yz.trans xy⟩
  have : Std.Irrefl behind := ⟨fun x => none x.1.1 x.2⟩
  have : Finite {x // x ∈ l} := List.finite_toSet l
  have : Finite Reached := Subtype.finite
  have founded : WellFounded behind := Finite.wellFounded_of_trans_of_irrefl behind
  obtain ⟨⟨⟨b, hb⟩, reached⟩, -, last⟩ := founded.has_min Set.univ ⟨⟨⟨a, ha⟩, .refl⟩, trivial⟩
  obtain ⟨c, hc, further⟩ := onward b hb
  exact last ⟨⟨c, hc⟩, reached.tail further⟩ trivial (.single further)

namespace Model

/-! ## Entries -/

section
variable {left taken stuck : List (Nat × List Nat)} {placed : List Nat}

/-- each entry stands behind its needs, as far as these are not placed before -/
def InOrder (placed : List Nat) (entries : List (Nat × List Nat)) : Prop :=
  ∀ before e after, entries = before ++ e :: after → ∀ need ∈ e.2, need ∈ placed ++ before.map (·.1)

theorem inOrder_nil : InOrder placed [] := by
  intro before e after split
  simp at split

theorem inOrder_cons_iff {e : Nat × List Nat} {rest : List (Nat × List Nat)} :
    InOrder placed (e :: rest) ↔ (∀ need ∈ e.2, need ∈ placed) ∧ InOrder (placed ++ [e.1]) rest := by
  constructor
  · intro h
    refine ⟨fun need hneed => by simpa using h [] e rest rfl need hneed, fun before e' after split need hneed => ?_⟩
    have := h (e :: before) e' after (by rw [split]; rfl) need hneed
    rwa [List.map_cons, List.append_cons] at this
  · rintro ⟨first, later⟩ before e' after split need hneed
    cases before with
    | nil =>
      obtain ⟨rfl, rfl⟩ := List.cons.inj split
      simpa using first need hneed
    | cons x before =>
      obtain ⟨rfl, rfl⟩ := List.cons.inj split
      have := later before e' after rfl need hneed
      rwa [List.map_cons, List.append_cons]

/-- some entries taken in the first order that is possible, and the others, which are never free -/
structure Placing (left : List (Nat × List Nat)) (placed : List Nat) (taken stuck : List (Nat × List Nat)) :
    Prop where
  perm : (taken ++ stuck).Perm left
  kept : stuck.Sublist left
  ordered : InOrder placed taken
  lacking : ∀ e ∈ stuck, ∃ need ∈ e.2, need ∉ placed ++ taken.map (·.1)
  least : ∀ other : List (Nat × List Nat), other.Perm taken → InOrder placed other →
    taken.map (·.1) ≤ other.map (·.1)

theorem Placing.take {free : Nat × List Nat} (sorted : left.Pairwise fun a b => a.1 < b.1)
    (found : left.find? (fun e => e.2.all placed.contains) = some free)
    (h : Placing (left.erase free) (placed ++ [free.1]) taken stuck) : Placing left placed (free :: taken) stuck := by
  have member := List.mem_of_find?_eq_some found
  have satisfied : ∀ need ∈ free.2, need ∈ placed := by
    have := List.find?_some found
    simpa using this
  constructor
  · exact (h.perm.cons free).trans (List.perm_cons_erase member).symm
  · exact h.kept.trans List.erase_sublist
  · exact inOrder_cons_iff.2 ⟨satisfied, h.ordered⟩
  · intro e he
    obtain ⟨need, hneed, absent⟩ := h.lacking e he
    refine ⟨need, hneed, ?_⟩
    rwa [List.map_cons, List.append_cons]
  · intro other same inOrder
    cases other with
    | nil => exact absurd same.symm.eq_nil (List.cons_ne_nil _ _)
    | cons e other =>
      obtain ⟨first, later⟩ := inOrder_cons_iff.1 inOrder
      have inside : e ∈ left := by
        rcases List.mem_cons.1 (same.subset List.mem_cons_self) with rfl | he
        · exact member
        · exact List.mem_of_mem_erase (h.perm.subset (List.mem_append_left _ he))
      rw [List.map_cons, List.map_cons]
      rcases eq_or_lt_of_free sorted found inside (by simpa using first) with rfl | smaller
      · exact List.cons_le_cons _ (h.least other same.cons_inv later)
      · exact le_of_lt (List.Lex.rel smaller)

/-- what is placed, where entries are listed by their numbers -/
theorem placeTables_eq (placed : List Nat) (sorted : left.Pairwise fun a b => a.1 < b.1) : ∃ taken stuck,
    placeTables left placed = placed ++ taken.map (·.1) ++ stuck.map (·.1) ∧ Placing left placed taken stuck := by
  induction left, placed using placeTables.induct with
  | case1 left placed busy =>
    refine ⟨[], left, ?_, .refl _, .refl _, inOrder_nil, fun e he => ?_, ?_⟩
    · rw [placeTables_of_none busy]
      simp
    · have := List.find?_eq_none.1 busy e he
      simpa using this
    · intro other same _
      rw [same.eq_nil]
  | case2 left placed free found ih =>
    obtain ⟨taken, stuck, run, placing⟩ := ih (sorted.sublist List.erase_sublist)
    refine ⟨free :: taken, stuck, ?_, placing.take sorted found⟩
    rw [placeTables_of_some found, run]
    simp

end

/-! ## Tables -/

/-- one table of the model refers to another one -/
def RefersTo (m : Model) (t u : Table) : Prop :=
  t ∈ m.tables ∧ u ∈ m.tables ∧ u ≠ t ∧ ∃ k ∈ t.foreignKeys, k.target = u.ref

/-- From a table, a circle of references is reached. A table does not refer to itself here, so there are two tables
in it at least. -/
def ReachesCircle (m : Model) (t : Table) : Prop :=
  ∃ u, Relation.ReflTransGen m.RefersTo t u ∧ Relation.TransGen m.RefersTo u u

/-- each table of the list stands behind all that it refers to -/
def Follows (m : Model) (l : List Table) : Prop :=
  ∀ before t after, l = before ++ t :: after → ∀ u, m.RefersTo t u → u ∈ before

/-- the place of a table, and those of the tables that it refers to -/
def entry (m : Model) (t : Table) : Nat × List Nat :=
  (m.tables.idxOf t, (m.dependencies (m.tables.idxOf t) t).eraseDups.mergeSort)

/-- the table of a place -/
def tableAt? (m : Model) (e : Nat × List Nat) : Option Table := m.tables[e.1]?

section
variable {m : Model} (distinct : (m.tables.map (·.ref)).Nodup)

theorem tableAt?_entry {t : Table} (ht : t ∈ m.tables) : m.tableAt? (m.entry t) = some t := by
  have inside := List.idxOf_lt_length_of_mem ht
  rw [tableAt?, entry, List.getElem?_eq_getElem inside, List.getElem_idxOf inside]

theorem idxOf_injective {t u : Table} (ht : t ∈ m.tables) (same : m.tables.idxOf t = m.tables.idxOf u) : t = u :=
  (List.idxOf_inj ht).1 same

include distinct

theorem idxOf_eq {i : Nat} {t : Table} (there : m.tables[i]? = some t) : m.tables.idxOf t = i := by
  obtain ⟨inside, rfl⟩ := List.getElem?_eq_some_iff.1 there
  exact distinct.of_map.idxOf_getElem i inside

theorem entries_eq : (m.targets.mapIdx fun i own => (i, own)) = m.tables.map m.entry := by
  rw [targets, List.mapIdx_mapIdx]
  refine List.ext_getElem (by simp) fun i _ inside => ?_
  rw [List.length_map] at inside
  have place : m.tables.idxOf m.tables[i] = i := distinct.of_map.idxOf_getElem i _
  simp [entry, place]

theorem entries_sorted : (m.tables.map m.entry).Pairwise fun a b => a.1 < b.1 := by
  rw [List.pairwise_map, List.pairwise_iff_getElem]
  intro i j hi hj before
  have place : ∀ k (hk : k < m.tables.length), (m.entry m.tables[k]).1 = k := fun k hk =>
    distinct.of_map.idxOf_getElem k hk
  rwa [place i hi, place j hj]

theorem positionOf_eq_some_iff {ref : TableRef} {i : Nat} :
    m.positionOf ref = some i ↔ ∃ u ∈ m.tables, u.ref = ref ∧ m.tables.idxOf u = i := by
  constructor
  · intro found
    obtain ⟨⟨u, j⟩, seen, rfl⟩ := Option.map_eq_some_iff.1 found
    have numbered := List.mem_zipIdx_iff_getElem?.1 (List.mem_reverse.1 (List.mem_of_find?_eq_some seen))
    refine ⟨u, List.mem_of_getElem? numbered, ?_, idxOf_eq distinct numbered⟩
    simpa using List.find?_some seen
  · rintro ⟨u, hu, rfl, rfl⟩
    have numbered : (u, m.tables.idxOf u) ∈ m.tables.zipIdx := by
      have inside := List.idxOf_lt_length_of_mem hu
      rw [List.mem_zipIdx_iff_getElem?, List.getElem?_eq_getElem inside, List.getElem_idxOf inside]
    cases found : m.tables.zipIdx.reverse.find? fun x => x.1.ref == u.ref with
    | none =>
      have := List.find?_eq_none.1 found _ (List.mem_reverse.2 numbered)
      simp at this
    | some x =>
      have there := List.mem_zipIdx_iff_getElem?.1 (List.mem_reverse.1 (List.mem_of_find?_eq_some found))
      have same : x.1.ref = u.ref := by simpa using List.find?_some found
      have isIt : x.1 = u := List.inj_on_of_nodup_map distinct (List.mem_of_getElem? there) hu same
      rw [positionOf, found, Option.map_some, ← isIt, idxOf_eq distinct there]

/-- the needs of a table are the places of the tables that it refers to -/
theorem mem_entry_iff {t : Table} (ht : t ∈ m.tables) {i : Nat} :
    i ∈ (m.entry t).2 ↔ ∃ u, m.RefersTo t u ∧ m.tables.idxOf u = i := by
  simp only [entry, List.mem_mergeSort, List.mem_eraseDups, dependencies, List.mem_filter, List.mem_filterMap,
    positionOf_eq_some_iff distinct, bne_iff_ne]
  constructor
  · rintro ⟨⟨k, hk, u, hu, named, rfl⟩, other⟩
    exact ⟨u, ⟨ht, hu, fun same => other (by rw [same]), k, hk, named.symm⟩, rfl⟩
  · rintro ⟨u, ⟨-, hu, other, k, hk, named⟩, rfl⟩
    exact ⟨⟨k, hk, u, hu, named.symm, rfl⟩, fun same => other (idxOf_injective hu same)⟩

/-- entries stand behind their needs if and only if the tables stand behind those they refer to -/
theorem inOrder_iff_follows {l : List Table} (inside : ∀ t ∈ l, t ∈ m.tables) :
    InOrder [] (l.map m.entry) ↔ m.Follows l := by
  constructor
  · intro h before t after split u refers
    have needed := (mem_entry_iff distinct refers.1).2 ⟨u, refers, rfl⟩
    have := h (before.map m.entry) (m.entry t) (after.map m.entry) (by rw [split]; simp) _ needed
    simp only [List.nil_append, List.map_map, List.mem_map, Function.comp_apply] at this
    obtain ⟨v, hv, same⟩ := this
    have isIt := idxOf_injective (inside v (by rw [split]; exact List.mem_append_left _ hv)) same
    rwa [← isIt]
  · intro h before e after split need hneed
    obtain ⟨l₁, l₂, rfl, rfl, rest⟩ := List.map_eq_append_iff.1 split
    obtain ⟨t, l₃, rfl, rfl, rfl⟩ := List.map_eq_cons_iff.1 rest
    have ht := inside t (by simp)
    obtain ⟨u, refers, rfl⟩ := (mem_entry_iff distinct ht).1 hneed
    have := List.mem_map_of_mem (f := fun t => m.tables.idxOf t) (h l₁ t l₃ rfl u refers)
    rw [List.nil_append, List.map_map]
    exact this

omit distinct in
/-- entries of tables are those of the tables that are found by them -/
theorem map_entry_filterMap {entries : List (Nat × List Nat)} (known : ∀ e ∈ entries, e ∈ m.tables.map m.entry) :
    (entries.filterMap m.tableAt?).map m.entry = entries := by
  induction entries with
  | nil => rfl
  | cons e entries ih =>
    obtain ⟨t, ht, rfl⟩ := List.mem_map.1 (known e List.mem_cons_self)
    rw [List.filterMap_cons_some (tableAt?_entry ht), List.map_cons,
      ih fun e' he' => known e' (List.mem_cons_of_mem _ he')]

omit distinct in
theorem filterMap_tableAt? {l : List Table} (inside : ∀ t ∈ l, t ∈ m.tables) :
    (l.map m.entry).filterMap m.tableAt? = l := by
  induction l with
  | nil => rfl
  | cons t l ih =>
    rw [List.map_cons, List.filterMap_cons_some (tableAt?_entry (inside t List.mem_cons_self)),
      ih fun t' ht' => inside t' (List.mem_cons_of_mem _ ht')]

/-! ## The order -/

/-- The order of the tables in two parts. The tables of the first stand behind those they refer to, in the first
order that is possible; each of the second refers to another one of the second. -/
theorem topologicalOrder_eq : ∃ ordered rest, m.topologicalOrder = ordered ++ rest ∧
    (ordered ++ rest).Perm m.tables ∧ rest.Sublist m.tables ∧ m.Follows ordered ∧
    (∀ t ∈ rest, ∃ u ∈ rest, m.RefersTo t u) ∧
    ∀ other : List Table, other.Perm ordered → m.Follows other →
      ordered.map m.tables.idxOf ≤ other.map m.tables.idxOf := by
  obtain ⟨taken, stuck, run, placing⟩ := placeTables_eq [] (entries_sorted distinct)
  have known := placing.perm.subset
  have takenKnown := map_entry_filterMap fun e he => known (List.mem_append_left stuck he)
  have stuckKnown := map_entry_filterMap fun e he => known (List.mem_append_right taken he)
  have whole := placing.perm.filterMap m.tableAt?
  rw [filterMap_tableAt? fun t ht => ht, List.filterMap_append] at whole
  have part := placing.kept.filterMap m.tableAt?
  rw [filterMap_tableAt? fun t ht => ht] at part
  generalize taken.filterMap m.tableAt? = ordered at takenKnown whole
  generalize stuck.filterMap m.tableAt? = rest at stuckKnown whole part
  subst takenKnown stuckKnown
  have orderedIn : ∀ t ∈ ordered, t ∈ m.tables := fun t ht => whole.subset (List.mem_append_left rest ht)
  have restIn : ∀ t ∈ rest, t ∈ m.tables := fun t ht => whole.subset (List.mem_append_right ordered ht)
  refine ⟨ordered, rest, ?_, whole, part, (inOrder_iff_follows distinct orderedIn).1 placing.ordered, ?_, ?_⟩
  · have found : ∀ l : List (Nat × List Nat), (l.map (·.1)).filterMap (fun i => m.tables[i]?) =
        l.filterMap m.tableAt? := fun l => List.filterMap_map
    rw [topologicalOrder, Kahn.order_eq_placeTables, entries_eq distinct, run, List.nil_append, List.filterMap_append, found, found,
      filterMap_tableAt? orderedIn, filterMap_tableAt? restIn]
  · intro t ht
    obtain ⟨need, hneed, absent⟩ := placing.lacking _ (List.mem_map_of_mem ht)
    obtain ⟨u, refers, rfl⟩ := (mem_entry_iff distinct (restIn t ht)).1 hneed
    refine ⟨u, ?_, refers⟩
    rcases List.mem_append.1 (whole.symm.subset refers.2.1) with early | late
    · rw [List.nil_append, List.map_map] at absent
      exact absurd (List.mem_map_of_mem (f := fun t => m.tables.idxOf t) early) absent
    · exact late
  · intro other same follows
    have otherIn : ∀ t ∈ other, t ∈ m.tables := fun t ht => orderedIn t (same.subset ht)
    have := placing.least (other.map m.entry) (same.map m.entry) ((inOrder_iff_follows distinct otherIn).2 follows)
    rwa [List.map_map, List.map_map] at this

omit distinct in
/-- behind a table that reaches a circle there is another one -/
theorem ReachesCircle.refersTo {t : Table} (h : m.ReachesCircle t) : ∃ u, m.RefersTo t u ∧ m.ReachesCircle u := by
  obtain ⟨u, toU, around⟩ := h
  rcases Relation.ReflTransGen.cases_head toU with rfl | ⟨v, first, further⟩
  · obtain ⟨v, first, back⟩ := Relation.TransGen.head'_iff.1 around
    exact ⟨v, first, t, back, around⟩
  · exact ⟨v, first, u, further, around⟩

omit distinct in
/-- no circle is reached from tables that stand behind all that they refer to -/
theorem Follows.not_reachesCircle {l : List Table} (follows : m.Follows l) : ∀ t ∈ l, ¬ m.ReachesCircle t := by
  -- the first such table would refer to an earlier one
  have early : ∀ n, ∀ before t after, l = before ++ t :: after → before.length = n → ¬ m.ReachesCircle t := by
    intro n
    induction n using Nat.strong_induction_on with
    | _ n ih =>
      rintro before t after split rfl reaches
      obtain ⟨u, refers, further⟩ := reaches.refersTo
      obtain ⟨start, middle, rfl⟩ := List.append_of_mem (follows before t after split u refers)
      refine ih start.length ?_ start u (middle ++ t :: after) (by simp [split]) rfl further
      simp
  intro t ht
  obtain ⟨before, after, split⟩ := List.append_of_mem ht
  exact early before.length before t after split rfl

open Classical in
/-- The order holds each table once. First come the tables from which no circle is reached, each behind all that it
refers to, and of all their orders with this property it is the lexicographically least by their places in the model.
The tables from which a circle is reached come last, as they stand in the model. -/
theorem topologicalOrder_circles_last : m.topologicalOrder.Perm m.tables ∧
    ∃ ordered, m.topologicalOrder = ordered ++ m.tables.filter (fun t => m.ReachesCircle t) ∧
      ordered.Perm (m.tables.filter fun t => ¬ m.ReachesCircle t) ∧ m.Follows ordered ∧
      ∀ other : List Table, other.Perm ordered → m.Follows other →
        ordered.map m.tables.idxOf ≤ other.map m.tables.idxOf := by
  obtain ⟨ordered, rest, run, whole, part, follows, onward, least⟩ := topologicalOrder_eq distinct
  have straight := follows.not_reachesCircle
  have around : ∀ t ∈ rest, m.ReachesCircle t := fun t ht => exists_circle onward ht
  have split := whole.filter fun t => decide (m.ReachesCircle t)
  have others := whole.filter fun t => decide (¬ m.ReachesCircle t)
  rw [List.filter_append, List.filter_eq_nil_iff.2 (by simpa using straight),
    List.filter_eq_self.2 (by simpa using around), List.nil_append] at split
  rw [List.filter_append, List.filter_eq_self.2 (by simpa using straight),
    List.filter_eq_nil_iff.2 (by simpa using around), List.append_nil] at others
  refine ⟨run ▸ whole, ordered, ?_, others, follows, least⟩
  have inOrder : rest.Sublist (m.tables.filter fun t => decide (m.ReachesCircle t)) := by
    have := part.filter fun t => decide (m.ReachesCircle t)
    rwa [List.filter_eq_self.2 (by simpa using around)] at this
  rw [run, inOrder.eq_of_length split.length_eq]

end

end Model

/-- a log of two ships that refer to each other, and a book that refers to its author -/
def shipsAndBooks : Model :=
  let refers (target : String) : Constraint := .foreignKey { columns := ["r"], target := ⟨target, none⟩ }
  { dialect := .sqlite
    tables := [
      { name := "log", key := "log", constraints := [refers "ship", refers "book"] },
      { name := "book", key := "book", constraints := [refers "author", refers "paper"] },
      { name := "ship", key := "ship", constraints := [refers "sister"] },
      { name := "sister", key := "sister", constraints := [refers "ship"] },
      { name := "author", key := "author", constraints := [refers "author"] }] }

theorem topologicalOrder_circles_last_shipsAndBooks :
    shipsAndBooks.topologicalOrder.map (·.name) = ["author", "book", "log", "ship", "sister"] ∧
      (shipsAndBooks.tables.map (·.ref)).Nodup ∧ shipsAndBooks.topologicalOrder.Perm shipsAndBooks.tables ∧
      ∃ ordered, shipsAndBooks.Follows ordered ∧
        ∀ other : List Table, other.Perm ordered → shipsAndBooks.Follows other →
          ordered.map shipsAndBooks.tables.idxOf ≤ other.map shipsAndBooks.tables.idxOf := by
  have distinct : (shipsAndBooks.tables.map (·.ref)).Nodup := by decide
  obtain ⟨whole, ordered, -, -, follows, least⟩ := Model.topologicalOrder_circles_last distinct
  have targets : shipsAndBooks.targets = [[1, 2], [4], [3], [2], []] := by cbv
  refine ⟨?_, distinct, whole, ordered, follows, least⟩
  rw [Model.topologicalOrder, targets]
  decide +kernel

end SchemaApi
