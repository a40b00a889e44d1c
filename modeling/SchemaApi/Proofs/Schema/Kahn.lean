import SchemaApi.Schema.Dependence
import Mathlib.Data.List.Sort
/-!
What Kahn's algorithm comes to.

The order of dependence is about needs: again and again, the first number is placed whose needs are all placed
(`placeTables`). The algorithm never looks at needs again. It keeps counts, and a number becomes ready when it is told
often enough that one of its needs is placed. Between two rounds the counts are those of the needs that are not placed,
and what is ready are the numbers that lack nothing, each once (`Counted`). This holds at the start, each round keeps
it, and by induction the algorithm places the same numbers in the same order (`order_eq_placeTables`), whatever the
needs are.
-/

namespace SchemaApi

/-! ## The order by needs -/

namespace Model

variable {left : List (Nat × List Nat)} {placed : List Nat} {free : Nat × List Nat}

/-- Takes, again and again, the first entry left whose needs are all placed. The entries that are never free come last,
in their order. -/
def placeTables (left : List (Nat × List Nat)) (placed : List Nat) : List Nat :=
  match _found : left.find? fun e => e.2.all placed.contains with
  | none => placed ++ left.map (·.1)
  | some free => placeTables (left.erase free) (placed ++ [free.1])
termination_by left.length
decreasing_by
  have member := List.mem_of_find?_eq_some _found
  rw [List.length_erase_of_mem member]
  have := List.length_pos_of_mem member
  omega

theorem placeTables_of_none (busy : left.find? (fun e => e.2.all placed.contains) = none) :
    placeTables left placed = placed ++ left.map (·.1) := by
  rw [placeTables]
  split
  · rfl
  · simp_all

theorem placeTables_of_some (found : left.find? (fun e => e.2.all placed.contains) = some free) :
    placeTables left placed = placeTables (left.erase free) (placed ++ [free.1]) := by
  rw [placeTables]
  split
  · simp_all
  · rename_i found'
    rw [Option.some.inj (found.symm.trans found')]

end Model

/-- the first free entry has the least number of those that are free -/
theorem eq_or_lt_of_free {left : List (Nat × List Nat)} {p : Nat × List Nat → Bool} {free e : Nat × List Nat}
    (sorted : left.Pairwise fun a b => a.1 < b.1) (found : left.find? p = some free) (he : e ∈ left)
    (isFree : p e = true) : e = free ∨ free.1 < e.1 := by
  obtain ⟨-, before, after, rfl, busy⟩ := List.find?_eq_some_iff_append.1 found
  rcases List.mem_append.1 he with early | late
  · have := busy e early
    simp [isFree] at this
  · rcases List.mem_cons.1 late with rfl | late
    · exact Or.inl rfl
    · have behind := (List.pairwise_append.1 sorted).2.1
      exact Or.inr (List.rel_of_pairwise_cons behind late)

namespace Kahn

variable {needs : List (List Nat)} {s : Kahn} {i : Nat}

/-! ## The start -/

/-- each number, from a first one on, with each of its needs -/
def pairs (needs : List (List Nat)) (first : Nat) : List (Nat × Nat) :=
  (needs.zipIdx first).flatMap fun e => e.1.map (e.2, ·)

theorem filter_pairs (needs : List (List Nat)) (first i : Nat) : (pairs needs first).filter (·.1 == i) =
    if first ≤ i then (needs[i - first]?.getD []).map (i, ·) else [] := by
  induction needs generalizing first with
  | nil => simp [pairs]
  | cons own needs ih =>
    rw [pairs, List.zipIdx_cons, List.flatMap_cons, List.filter_append, ← pairs, ih]
    have alone : (own.map (first, ·)).filter (·.1 == i) = if first = i then own.map (i, ·) else [] := by
      by_cases same : first = i <;> simp [List.filter_map, Function.comp_def, same]
    rw [alone]
    rcases Nat.lt_trichotomy first i with before | rfl | after
    · have next : i - first = i - (first + 1) + 1 := by omega
      rw [if_neg before.ne, if_pos (Nat.succ_le_of_lt before), if_pos before.le, next, List.getElem?_cons_succ]
      rfl
    · simp
    · rw [if_neg after.ne', if_neg (by omega), if_neg (by omega)]
      rfl

/-- what is counted and turned round, one pair after the other -/
theorem Needs.foldl_add (l : List (Nat × Nat)) (n : Needs) :
    (∀ i, (l.foldl (fun n e => n.add e.1 e.2) n).indegree[i]? =
      n.indegree[i]?.map (· + (l.countP (·.1 == i) : Int))) ∧
    ∀ c, (l.foldl (fun n e => n.add e.1 e.2) n).dependants[c]? =
      n.dependants[c]?.map (· ++ (l.filter (·.2 == c)).map (·.1)) := by
  induction l generalizing n with
  | nil => simp
  | cons e l ih =>
    obtain ⟨counts, turned⟩ := ih (n.add e.1 e.2)
    refine ⟨fun i => ?_, fun c => ?_⟩
    · rw [List.foldl_cons, counts, add, List.getElem?_modify]
      cases n.indegree[i]? with
      | none => rfl
      | some count =>
        by_cases own : e.1 = i
        · simp [own]
          omega
        · simp [own]
    · rw [List.foldl_cons, turned, add, List.getElem?_modify]
      cases n.dependants[c]? with
      | none => rfl
      | some numbers => by_cases own : e.2 = c <;> simp [own]

theorem Needs.of_eq (needs : List (List Nat)) : Needs.of needs = (pairs needs 0).foldl (fun n e => n.add e.1 e.2)
    ⟨.replicate needs.length 0, .replicate needs.length []⟩ := by
  rw [of, pairs, List.foldl_flatMap]
  simp only [List.foldl_map]

/-- at the start, all needs are counted -/
theorem Needs.indegree_of (needs : List (List Nat)) (i : Nat) :
    (Needs.of needs).indegree[i]? = needs[i]?.map fun own => (own.length : Int) := by
  have own : (pairs needs 0).countP (·.1 == i) = (needs[i]?.getD []).length := by
    rw [List.countP_eq_length_filter, filter_pairs, if_pos (Nat.zero_le i), List.length_map, Nat.sub_zero]
  rw [of_eq, (foldl_add ..).1, own, List.getElem?_replicate]
  split_ifs with inside <;> simp [inside]

/-- a number is listed at another one as often as it needs it -/
theorem Needs.count_dependants (needs : List (List Nat)) {c : Nat} (inside : c < needs.length) (i : Nat) :
    ((Needs.of needs).dependants[c]?.getD []).count i = (needs[i]?.getD []).count c := by
  have own : ((pairs needs 0).filter (·.1 == i)).countP (·.2 == c) = (needs[i]?.getD []).count c := by
    rw [filter_pairs, if_pos (Nat.zero_le i), List.countP_map, Nat.sub_zero]
    rfl
  rw [of_eq, (foldl_add ..).2, List.getElem?_replicate, if_pos inside, ← own]
  simp only [Option.map_some, Option.getD_some, List.nil_append, List.count, List.countP_map, List.countP_filter]
  exact List.countP_congr fun e _ => by simp [and_comm]

/-! ## Telling numbers -/

section
variable (numbers : List Nat) (s : Kahn)

theorem ordered_releases : (numbers.foldl release s).ordered = s.ordered := by
  induction numbers generalizing s with
  | nil => rfl
  | cons k numbers ih => rw [List.foldl_cons, ih, release]

theorem indegree_release (k i : Nat) :
    (s.release k).indegree[i]? = s.indegree[i]?.map (· - if k = i then 1 else 0) := by
  rw [release, List.getElem?_modify]
  cases s.indegree[i]? with
  | none => rfl
  | some count => by_cases own : k = i <;> simp [own]

/-- each number is told once for each time that it is listed -/
theorem indegree_releases (i : Nat) :
    (numbers.foldl release s).indegree[i]? = s.indegree[i]?.map (· - (numbers.count i : Int)) := by
  induction numbers generalizing s with
  | nil => simp
  | cons k numbers ih =>
    rw [List.foldl_cons, ih, indegree_release, List.count_cons]
    cases s.indegree[i]? with
    | none => rfl
    | some count =>
      by_cases own : k = i
      · simp [own]
        omega
      · simp [own]

/-- a number becomes ready when its last need is placed -/
theorem ready_release (k : Nat) :
    (s.release k).ready = if s.indegree[k]? = some 1 then s.ready ++ [k] else s.ready := by
  have last : (s.indegree.modify k (· - 1))[k]? = some 0 ↔ s.indegree[k]? = some 1 := by
    rw [List.getElem?_modify_eq, Option.map_eq_map, Option.map_eq_some_iff]
    constructor
    · rintro ⟨count, here, zero⟩
      rw [here, show count = 1 by omega]
    · exact fun one => ⟨1, one, rfl⟩
  simp only [release, last]

theorem mem_ready_release {k i : Nat} :
    i ∈ (s.release k).ready ↔ i ∈ s.ready ∨ i = k ∧ s.indegree[k]? = some 1 := by
  rw [ready_release]
  split_ifs with last <;> simp [last]

/-- what becomes ready are the numbers that are told for the last time -/
theorem mem_ready_releases (i : Nat) : i ∈ (numbers.foldl release s).ready ↔
    i ∈ s.ready ∨ ∃ count : Int, s.indegree[i]? = some count ∧ 0 < count ∧ count ≤ numbers.count i := by
  induction numbers generalizing s with
  | nil =>
    simp only [List.foldl_nil, List.count_nil]
    refine (or_iff_left ?_).symm
    rintro ⟨count, -, positive, zero⟩
    omega
  | cons k numbers ih =>
    rw [List.foldl_cons, ih, mem_ready_release, or_assoc, indegree_release]
    refine or_congr_right ?_
    by_cases own : k = i
    · subst own
      cases s.indegree[k]? with
      | none => simp
      | some count =>
        simp
        omega
    · simp [own, Ne.symm own]

/-- no number becomes ready twice -/
theorem nodup_ready_releases (once : s.ready.Nodup)
    (settled : ∀ i ∈ s.ready, ∀ count, s.indegree[i]? = some count → count ≤ 0) :
    (numbers.foldl release s).ready.Nodup := by
  induction numbers generalizing s with
  | nil => exact once
  | cons k numbers ih =>
    have fresh : s.indegree[k]? = some 1 → k ∉ s.ready := fun last here => absurd (settled k here 1 last) (by decide)
    refine ih _ ?_ fun i hi count told => ?_
    · rw [ready_release]
      split_ifs with last
      · exact List.concat_eq_append ▸ once.concat (fresh last)
      · exact once
    · rw [indegree_release, Option.map_eq_some_iff] at told
      obtain ⟨count, before, rfl⟩ := told
      rcases (mem_ready_release s).1 hi with here | ⟨rfl, last⟩
      · have settled := settled i here count before
        split_ifs <;> omega
      · obtain rfl := Option.some.inj (before.symm.trans last)
        rw [if_pos rfl]
        decide

end

/-! ## Rounds -/

/-- how many of these needs are not placed -/
def lacking (ordered own : List Nat) : Nat := own.countP (· ∉ ordered)

theorem lacking_eq_zero_iff {ordered own : List Nat} : lacking ordered own = 0 ↔ ∀ n ∈ own, n ∈ ordered := by
  simp [lacking]

/-- when a number is placed, nothing else changes -/
theorem lacking_concat (own : List Nat) {ordered : List Nat} {c : Nat} (fresh : c ∉ ordered) :
    lacking ordered own = lacking (ordered ++ [c]) own + own.count c := by
  induction own with
  | nil => rfl
  | cons n own ih =>
    simp only [lacking, List.countP_cons, List.count_cons] at ih ⊢
    by_cases same : n = c
    · subst same
      simp [fresh] at ih ⊢
      omega
    · simp [same] at ih ⊢
      omega

/-- The counts are those of the needs that are not placed, ready are the numbers that lack nothing, each once, and what
is placed lacks nothing. -/
structure Counted (needs : List (List Nat)) (s : Kahn) : Prop where
  indegree : ∀ i : Nat, s.indegree[i]? = needs[i]?.map fun own => (lacking s.ordered own : Int)
  ready : ∀ i : Nat, i ∈ s.ready ↔ i ∉ s.ordered ∧ ∃ own, needs[i]? = some own ∧ lacking s.ordered own = 0
  once : s.ready.Nodup
  placed : ∀ i ∈ s.ordered, ∀ own, needs[i]? = some own → lacking s.ordered own = 0

theorem counted_start (needs : List (List Nat)) : Counted needs (start (Needs.of needs).indegree) := by
  have all : ∀ own, lacking [] own = own.length := fun own => by simp [lacking]
  refine ⟨fun i => ?_, fun i => ?_, ?_, fun i none => absurd none List.not_mem_nil⟩
  · simp only [start, all, Needs.indegree_of]
  · simp [start, all, List.mem_filterMap, List.mem_zipIdx_iff_getElem?, Needs.indegree_of]
  · have single : (Needs.of needs).indegree.zipIdx.Nodup := by
      refine List.Nodup.of_map Prod.snd ?_
      rw [List.zipIdx_map_snd]
      exact List.nodup_range'
    refine single.filterMap fun e e' k hk hk' => ?_
    obtain ⟨zero, number⟩ := Option.ite_none_right_eq_some.1 hk
    obtain ⟨zero', number'⟩ := Option.ite_none_right_eq_some.1 hk'
    exact Prod.ext (zero.trans zero'.symm) (Option.some.inj (number.trans number'.symm))

section
variable {current : Nat} {ready dependants : List Nat}

/-- the number that is taken is new and lacks nothing -/
theorem Counted.taken (h : Counted needs s) (sorted : s.ready.mergeSort = current :: ready) :
    current ∉ s.ordered ∧ ∃ own, needs[current]? = some own ∧ lacking s.ordered own = 0 := by
  have listed : s.ready.Perm (current :: ready) := sorted ▸ (List.mergeSort_perm ..).symm
  exact (h.ready current).1 (listed.symm.subset List.mem_cons_self)

/-- the others that are ready stay so, each once -/
theorem Counted.others (h : Counted needs s) (sorted : s.ready.mergeSort = current :: ready) :
    ready.Nodup ∧ ∀ i, i ∈ ready ↔ i ∈ s.ready ∧ i ≠ current := by
  have listed : s.ready.Perm (current :: ready) := sorted ▸ (List.mergeSort_perm ..).symm
  obtain ⟨absent, once⟩ := List.nodup_cons.1 (listed.nodup_iff.1 h.once)
  refine ⟨once, fun i => ?_⟩
  rw [listed.mem_iff, List.mem_cons]
  constructor
  · exact fun here => ⟨Or.inr here, fun same => absent (same ▸ here)⟩
  · exact fun ⟨here, other⟩ => here.resolve_left other

/-- after the round, ready are again the numbers that lack nothing -/
theorem Counted.mem_ready_round (h : Counted needs s) (sorted : s.ready.mergeSort = current :: ready)
    (told : ∀ i : Nat, dependants.count i = (needs[i]?.getD []).count current) (i : Nat) :
    i ∈ (dependants.foldl release { s with ready := ready, ordered := s.ordered ++ [current] }).ready ↔
      i ∉ s.ordered ++ [current] ∧ ∃ own, needs[i]? = some own ∧ lacking (s.ordered ++ [current]) own = 0 := by
  obtain ⟨fresh, own, found, free⟩ := h.taken sorted
  rw [mem_ready_releases]
  simp only [(h.others sorted).2, h.ready, h.indegree, told, List.mem_append, List.mem_singleton, not_or]
  cases found' : needs[i]? with
  | none => simp
  | some own' =>
    have fewer := lacking_concat own' fresh
    have busy : 0 < lacking s.ordered own' → i ∉ s.ordered ∧ i ≠ current := by
      intro lacks
      refine ⟨fun before => ?_, ?_⟩
      · exact lacks.ne' (h.placed i before own' found')
      · rintro rfl
        obtain rfl := Option.some.inj (found.symm.trans found')
        exact lacks.ne' free
    simp only [Option.some.injEq, Option.map_some, Option.getD_some, exists_eq_left', Int.natCast_pos, Int.ofNat_le]
    constructor
    · rintro (⟨⟨out, zero⟩, other⟩ | ⟨lacks, enough⟩)
      · exact ⟨⟨out, other⟩, by omega⟩
      · exact ⟨busy lacks, by omega⟩
    · rintro ⟨⟨out, other⟩, zero⟩
      rcases Nat.eq_zero_or_pos (lacking s.ordered own') with none | lacks
      · exact Or.inl ⟨⟨out, none⟩, other⟩
      · exact Or.inr ⟨lacks, by omega⟩

/-- a round keeps the counts -/
theorem Counted.round (h : Counted needs s) (sorted : s.ready.mergeSort = current :: ready)
    (told : ∀ i : Nat, dependants.count i = (needs[i]?.getD []).count current) :
    Counted needs (dependants.foldl release { s with ready := ready, ordered := s.ordered ++ [current] }) := by
  obtain ⟨fresh, own, found, free⟩ := h.taken sorted
  obtain ⟨once, others⟩ := h.others sorted
  refine ⟨fun i => ?_, fun i => ?_, ?_, fun i hi own' found' => ?_⟩
  · rw [indegree_releases, ordered_releases]
    simp only [h.indegree, told]
    cases needs[i]? with
    | none => rfl
    | some own =>
      have := lacking_concat own fresh
      simp
      omega
  · rw [ordered_releases]
    exact h.mem_ready_round sorted told i
  · refine nodup_ready_releases _ _ once fun i hi count counted => ?_
    obtain ⟨-, own', found', none⟩ := (h.ready i).1 ((others i).1 hi).1
    rw [h.indegree, found', Option.map_some, none] at counted
    exact (Option.some.inj counted).ge
  · rw [ordered_releases] at hi ⊢
    have fewer := lacking_concat own' fresh
    have before : lacking s.ordered own' = 0 := by
      rcases List.mem_append.1 hi with before | now
      · exact h.placed i before own' found'
      · obtain rfl := List.mem_singleton.1 now
        obtain rfl := Option.some.inj (found.symm.trans found')
        exact free
    rw [before] at fewer
    exact (Nat.add_eq_zero_iff.1 fewer.symm).1

end

/-! ## The run -/

/-- the entries of numbers that are not placed -/
def unplaced (needs : List (List Nat)) (placed : List Nat) : List (Nat × List Nat) :=
  (needs.mapIdx fun i own => (i, own)).filter fun e => e.1 ∉ placed

theorem mem_unplaced {placed : List Nat} {e : Nat × List Nat} :
    e ∈ unplaced needs placed ↔ needs[e.1]? = some e.2 ∧ e.1 ∉ placed := by
  obtain ⟨i, own⟩ := e
  simp only [unplaced, List.mem_filter, List.mem_mapIdx, Prod.mk.injEq, decide_eq_true_eq, List.getElem?_eq_some_iff]
  refine and_congr_left' ⟨?_, ?_⟩
  · rintro ⟨k, inside, rfl, rfl⟩
    exact ⟨inside, rfl⟩
  · rintro ⟨inside, rfl⟩
    exact ⟨i, inside, rfl, rfl⟩

theorem unplaced_sorted (needs : List (List Nat)) (placed : List Nat) :
    (unplaced needs placed).Pairwise fun a b => a.1 < b.1 := by
  refine List.Pairwise.filter _ (List.pairwise_iff_getElem.2 fun i j hi hj before => ?_)
  simpa using before

theorem map_unplaced (needs : List (List Nat)) (placed : List Nat) :
    (unplaced needs placed).map (·.1) = (List.range needs.length).filter fun i => i ∉ placed := by
  have numbers : (needs.mapIdx fun i own => (i, own)).map (·.1) = List.range needs.length := by
    refine List.ext_getElem (by simp) fun i hi hi' => ?_
    simp
  rw [unplaced, ← numbers, List.filter_map]
  rfl

theorem erase_unplaced {placed : List Nat} {e : Nat × List Nat} (he : e ∈ unplaced needs placed) :
    (unplaced needs placed).erase e = unplaced needs (placed ++ [e.1]) := by
  have once : (unplaced needs placed).Nodup := (unplaced_sorted needs placed).imp fun before same => by
    rw [same] at before
    exact Nat.lt_irrefl _ before
  have found := (mem_unplaced.1 he).1
  rw [once.erase_eq_filter, unplaced, List.filter_filter, unplaced]
  refine List.filter_congr fun e' he' => ?_
  have found' : needs[e'.1]? = some e'.2 := by
    obtain ⟨i, inside, rfl⟩ := List.mem_mapIdx.1 he'
    exact List.getElem?_eq_getElem inside
  have same : e' = e ↔ e'.1 = e.1 := by
    refine ⟨congrArg Prod.fst, fun number => Prod.ext number ?_⟩
    rw [number, found] at found'
    exact (Option.some.inj found').symm
  rw [Bool.eq_iff_iff]
  simp [same, and_comm]

theorem all_contains_iff {placed own : List Nat} : own.all placed.contains = true ↔ lacking placed own = 0 := by
  rw [lacking_eq_zero_iff]
  simp

/-- where nothing is ready, no entry is free -/
theorem Counted.find?_eq_none (h : Counted needs s) (sorted : s.ready.mergeSort = []) :
    (unplaced needs s.ordered).find? (fun e => e.2.all s.ordered.contains) = none := by
  refine List.find?_eq_none.2 fun e he isFree => ?_
  obtain ⟨found, out⟩ := mem_unplaced.1 he
  have ready := (h.ready e.1).2 ⟨out, e.2, found, all_contains_iff.1 isFree⟩
  rw [← List.mem_mergeSort, sorted] at ready
  exact List.not_mem_nil ready

/-- the first entry that is free is that of the least number that is ready -/
theorem Counted.find?_eq_some (h : Counted needs s) {current : Nat} {ready : List Nat}
    (sorted : s.ready.mergeSort = current :: ready) : ∃ own, needs[current]? = some own ∧
      (unplaced needs s.ordered).find? (fun e => e.2.all s.ordered.contains) = some (current, own) := by
  have listed : ∀ i, i ∈ s.ready ↔ i ∈ current :: ready := fun i => by rw [← sorted, List.mem_mergeSort]
  obtain ⟨out, own, found, free⟩ := h.taken sorted
  have here : (current, own) ∈ unplaced needs s.ordered := mem_unplaced.2 ⟨found, out⟩
  refine ⟨own, found, ?_⟩
  cases first : (unplaced needs s.ordered).find? fun e => e.2.all s.ordered.contains with
  | none => exact absurd (all_contains_iff.2 free) (List.find?_eq_none.1 first _ here)
  | some e =>
    obtain ⟨found', out'⟩ := mem_unplaced.1 (List.mem_of_find?_eq_some first)
    have free' : e.2.all s.ordered.contains = true := by simpa using List.find?_some first
    have ready' := (h.ready e.1).2 ⟨out', e.2, found', all_contains_iff.1 free'⟩
    have least : current ≤ e.1 := by
      have increasing := List.pairwise_mergeSort' (r := (· ≤ ·)) s.ready
      rw [sorted] at increasing
      rcases List.mem_cons.1 ((listed e.1).1 ready') with same | later
      · exact same.ge
      · exact List.rel_of_pairwise_cons increasing later
    rcases eq_or_lt_of_free (unplaced_sorted ..) first here (all_contains_iff.2 free) with same | less
    · rw [same]
    · exact absurd less (Nat.not_lt.2 least)

/-- From wherever the counts are right, the rounds place what is free. -/
theorem placeTables_eq_run {dependants : List (List Nat)}
    (told : ∀ current < needs.length, ∀ i : Nat,
      (dependants[current]?.getD []).count i = (needs[i]?.getD []).count current)
    (h : Counted needs s) : Model.placeTables (unplaced needs s.ordered) s.ordered =
      run dependants s ++ (List.range needs.length).filter fun i => i ∉ run dependants s := by
  fun_induction run dependants s with
  | case1 s sorted =>
    rw [Model.placeTables_of_none (h.find?_eq_none sorted), map_unplaced]
  | case2 s current ready sorted ih =>
    obtain ⟨own, found, first⟩ := h.find?_eq_some sorted
    have inside := (List.getElem?_eq_some_iff.1 found).1
    have member := List.mem_of_find?_eq_some first
    rw [Model.placeTables_of_some first, erase_unplaced member, ← ih (h.round sorted (told current inside)),
      ordered_releases]

/-- Kahn's algorithm places the first number whose needs are all placed, again and again. -/
theorem order_eq_placeTables (needs : List (List Nat)) :
    order needs = Model.placeTables (needs.mapIdx fun i own => (i, own)) [] := by
  have all : unplaced needs [] = needs.mapIdx fun i own => (i, own) :=
    List.filter_eq_self.2 fun e _ => decide_eq_true List.not_mem_nil
  have same := placeTables_eq_run (fun _ inside => Needs.count_dependants needs inside) (counted_start needs)
  rw [start, all] at same
  rw [same, order]
  simp [start]

end Kahn

end SchemaApi
