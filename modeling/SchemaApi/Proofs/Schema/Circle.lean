import SchemaApi.Proofs.Schema.Model
import Mathlib.Data.List.Induction
import Mathlib.Data.List.Perm.Subperm
import Mathlib.Logic.Relation
/-!
The circles of references that are reported.

`reachable` searches with a stack. At every time references lead to the keys that are seen or on the stack, and what
the keys that are seen refer to is seen or on the stack (`Searching`). So when the stack is empty, the keys that are
seen are exactly those that references lead to (`mem_reachable_iff`). Two tables of one circle reach each other, and the
groups of tables that do so are listed by their first tables (`foldl_groups`). These are the components of two or more
tables.
-/

namespace SchemaApi

open Relation (TransGen ReflTransGen)

/-! ## Keys that are reached -/

section
variable {edges : List (String × List String)} {key : String}

/-- one key refers to another -/
def Leads (edges : List (String × List String)) (a b : String) : Prop := b ∈ next edges a

/-- Some keys are seen and some are on the stack. References lead to all of them, and a key that the first one or a key
that is seen refers to is among them. -/
structure Searching (edges : List (String × List String)) (key : String) (stack seen : List String) : Prop where
  sound : ∀ k, k ∈ seen ∨ k ∈ stack → TransGen (Leads edges) key k
  started : ∀ k, Leads edges key k → k ∈ seen ∨ k ∈ stack
  grown : ∀ k ∈ seen, ∀ k', Leads edges k k' → k' ∈ seen ∨ k' ∈ stack

/-- a key on top that is seen may be dropped -/
theorem Searching.again {k : String} {stack seen : List String} (h : Searching edges key (k :: stack) seen)
    (old : k ∈ seen) : Searching edges key stack seen := by
  have kept : ∀ x, x ∈ seen ∨ x ∈ k :: stack → x ∈ seen ∨ x ∈ stack := by
    rintro x (hx | hx)
    · exact Or.inl hx
    · rcases List.mem_cons.1 hx with rfl | hx
      · exact Or.inl old
      · exact Or.inr hx
  exact ⟨fun x hx => h.sound x (hx.imp_right (List.mem_cons_of_mem k)), fun x leads => kept x (h.started x leads),
    fun x hx y leads => kept y (h.grown x hx y leads)⟩

/-- a new key on top is seen, and what it refers to comes on the stack -/
theorem Searching.visit {k : String} {stack seen : List String} (h : Searching edges key (k :: stack) seen) :
    Searching edges key ((next edges k).reverse ++ stack) (seen ++ [k]) := by
  have kept : ∀ x, x ∈ seen ∨ x ∈ k :: stack → x ∈ seen ++ [k] ∨ x ∈ (next edges k).reverse ++ stack := by
    simp only [List.mem_cons, List.mem_append]
    tauto
  constructor
  · have top := h.sound k (Or.inr List.mem_cons_self)
    simp only [List.mem_append, List.mem_reverse, List.mem_singleton]
    rintro x ((hx | rfl) | (leads | hx))
    · exact h.sound x (Or.inl hx)
    · exact top
    · exact top.tail leads
    · exact h.sound x (Or.inr (List.mem_cons_of_mem k hx))
  · exact fun x leads => kept x (h.started x leads)
  · intro x hx y leads
    rcases List.mem_append.1 hx with before | now
    · exact kept y (h.grown x before y leads)
    · obtain rfl := List.mem_singleton.1 now
      exact Or.inr (List.mem_append_left _ (List.mem_reverse.2 leads))

/-- what is seen when the stack is empty: all that is referred to from there -/
theorem mem_search_iff {stack seen : List String} (h : Searching edges key stack seen) {k : String} :
    k ∈ search edges stack seen ↔ TransGen (Leads edges) key k := by
  fun_induction search edges stack seen with
  | case1 seen =>
    refine ⟨fun hk => h.sound k (Or.inl hk), fun leads => ?_⟩
    induction leads with
    | single first => exact (h.started _ first).resolve_right List.not_mem_nil
    | tail _ further ih => exact (h.grown _ ih _ further).resolve_right List.not_mem_nil
  | case2 seen top stack old ih => exact ih (h.again old)
  | case3 seen top stack new ih => exact ih h.visit

/-- the keys that are reached are those that references lead to -/
theorem mem_reachable_iff {k : String} : k ∈ reachable edges key ↔ TransGen (Leads edges) key k := by
  refine mem_search_iff ⟨?_, ?_, fun _ none => absurd none List.not_mem_nil⟩
  · rintro x (none | first)
    · exact absurd none List.not_mem_nil
    · exact .single (List.mem_reverse.1 first)
  · exact fun x leads => Or.inr (List.mem_reverse.2 leads)

end

/-! ## Groups -/

section
variable {α : Type} [DecidableEq α] {l : List α} {f : α → String} {alike : α → α → Bool}

/-- the elements that are like one, by their names -/
def groupOf (alike : α → α → Bool) (l : List α) (f : α → String) (x : α) : List String := (l.filter (alike x)).map f

/-- the element is the first of those that are like it -/
def leadsGroup (alike : α → α → Bool) (l : List α) (x : α) : Bool := (l.filter (alike x)).head? == some x

variable (distinct : l.Nodup) (injective : ∀ x ∈ l, ∀ y ∈ l, f x = f y → x = y)
  (same : ∀ x ∈ l, ∀ y ∈ l, alike x y = true → l.filter (alike x) = l.filter (alike y))
include distinct injective same

/-- an element leads its group if and only if it is like itself and is in no group that one before it leads -/
theorem leadsGroup_iff {seen rest : List α} {x : α} (split : l = seen ++ x :: rest) : leadsGroup alike l x = true ↔
    alike x x = true ∧ ∀ y ∈ seen, leadsGroup alike l y = true → f x ∉ groupOf alike l f y := by
  have hx : x ∈ l := by simp [split]
  have early : ∀ y ∈ seen, y ∈ l := fun y hy => by simp [split, hy]
  have new : x ∉ seen := by
    rw [split] at distinct
    exact fun hx => (List.nodup_append.1 distinct).2.2 x hx x List.mem_cons_self rfl
  constructor
  · intro leads
    have first : (l.filter (alike x)).head? = some x := beq_iff_eq.1 leads
    refine ⟨(List.mem_filter.1 (List.mem_of_head? first)).2, fun y hy leader inside => ?_⟩
    obtain ⟨x', hx', named⟩ := List.mem_map.1 inside
    obtain ⟨hx', like⟩ := List.mem_filter.1 hx'
    obtain rfl := injective x' hx' x hx named
    rw [leadsGroup, same y (early y hy) x' hx like, first, beq_iff_eq] at leader
    exact new (Option.some.inj leader ▸ hy)
  · rintro ⟨itself, apart⟩
    have whole : l.filter (alike x) = seen.filter (alike x) ++ x :: rest.filter (alike x) := by
      rw [split, List.filter_append, List.filter_cons_of_pos itself]
    cases before : (seen.filter (alike x)).head? with
    | none => rw [leadsGroup, whole, List.head?_append, before, Option.none_or, List.head?_cons, beq_self_eq_true]
    | some y =>
      -- the first that is like it leads the group of both
      have member := List.mem_of_head? before
      obtain ⟨hy, like⟩ := List.mem_filter.1 member
      have group := same x hx y (early y hy) like
      have leader : leadsGroup alike l y = true := by
        rw [leadsGroup, ← group, whole, List.head?_append, before, Option.some_or, beq_self_eq_true]
      refine absurd (List.mem_map_of_mem ?_) (apart y hy leader)
      rw [← group, whole]
      exact List.mem_append_right _ List.mem_cons_self

/-- elements that are alike, if any is like itself, are listed by the first of each group -/
theorem foldl_groups : l.foldl (fun groups x =>
      if alike x x && !groups.any (·.contains (f x)) then groups ++ [groupOf alike l f x] else groups) [] =
    (l.filter (leadsGroup alike l)).map (groupOf alike l f) := by
  have upTo : ∀ seen rest, l = seen ++ rest → seen.foldl (fun groups x =>
        if alike x x && !groups.any (·.contains (f x)) then groups ++ [groupOf alike l f x] else groups) [] =
      (seen.filter (leadsGroup alike l)).map (groupOf alike l f) := by
    intro seen
    induction seen using List.reverseRecOn with
    | nil => exact fun _ _ => rfl
    | append_singleton seen x ih =>
      intro rest split
      rw [List.append_assoc, List.singleton_append] at split
      have leads : (alike x x && !((seen.filter (leadsGroup alike l)).map (groupOf alike l f)).any
          (·.contains (f x))) = leadsGroup alike l x := by
        rw [Bool.eq_iff_iff, leadsGroup_iff distinct injective same split]
        simp
      rw [List.foldl_append, ih (x :: rest) split, List.foldl_cons, List.foldl_nil, leads, List.filter_append,
        List.map_append]
      cases isLeader : leadsGroup alike l x <;> simp [isLeader]
  exact upTo l [] (List.append_nil l).symm

end

/-! ## Components -/

section
variable {d : Dialect} {tables : List Draft} {t u : Draft}

/-- Of some tables, one refers to another one: a foreign key of it has columns that it refers to, and its reference
is looked up to the other table. -/
def RefersAmong (d : Dialect) (tables : List Draft) (t u : Draft) : Prop :=
  t ∈ tables ∧ u ∈ tables ∧ u ≠ t ∧ ∃ k ∈ t.toTable.foreignKeys, k.targetColumns ≠ [] ∧ k.targetKey d = u.key

/-- references lead from each of the tables to the other -/
def Connected (d : Dialect) (tables : List Draft) (t u : Draft) : Prop :=
  ReflTransGen (RefersAmong d tables) t u ∧ ReflTransGen (RefersAmong d tables) u t

open Classical in
/-- the tables that are strongly connected with one, in their order -/
noncomputable def component (d : Dialect) (tables : List Draft) (t : Draft) : List Draft :=
  tables.filter fun u => Connected d tables t u

/-- the table is the first of a component of two tables or more -/
def FirstOfComponent (d : Dialect) (tables : List Draft) (t : Draft) : Prop :=
  (component d tables t).head? = some t ∧ 2 ≤ (component d tables t).length

/-- the tables that tables refer to, by keys -/
def references (d : Dialect) (tables : List Draft) : List (String × List String) :=
  tables.map fun t => (t.key, targetKeys d tables t)

/-- each of the tables is reached from the other -/
def alike (d : Dialect) (tables : List Draft) (t u : Draft) : Bool :=
  (reachable (references d tables) t.key).contains u.key && (reachable (references d tables) u.key).contains t.key

open Classical in
theorem mem_component : u ∈ component d tables t ↔ u ∈ tables ∧ Connected d tables t u := by
  rw [component, List.mem_filter, decide_eq_true_iff]

theorem connected_of_transGen (there : TransGen (RefersAmong d tables) t u)
    (back : TransGen (RefersAmong d tables) u t) : Connected d tables t u :=
  ⟨there.to_reflTransGen, back.to_reflTransGen⟩

/-- a table on a circle is connected with another one -/
theorem exists_connected (around : TransGen (RefersAmong d tables) t t) :
    ∃ u ∈ tables, u ≠ t ∧ Connected d tables t u := by
  obtain ⟨u, refers, back⟩ := TransGen.head'_iff.1 around
  exact ⟨u, refers.2.1, refers.2.2.1, .single refers, back⟩

/-- where two different tables are connected, both are on a circle -/
theorem Connected.around (h : Connected d tables t u) (other : u ≠ t) :
    TransGen (RefersAmong d tables) t u ∧ TransGen (RefersAmong d tables) u t :=
  ⟨(Relation.reflTransGen_iff_eq_or_transGen.1 h.1).resolve_left other,
    (Relation.reflTransGen_iff_eq_or_transGen.1 h.2).resolve_left other.symm⟩

variable (distinct : (tables.map (·.key)).Nodup)
include distinct

theorem eq_of_key (ht : t ∈ tables) (hu : u ∈ tables) (same : t.key = u.key) : t = u :=
  List.inj_on_of_nodup_map distinct ht hu same

theorem mem_targetKeys_iff (ht : t ∈ tables) {k : String} :
    k ∈ targetKeys d tables t ↔ ∃ u, RefersAmong d tables t u ∧ u.key = k := by
  simp only [targetKeys, List.mem_eraseDups, List.mem_filter, List.mem_map, Bool.and_eq_true, bne_iff_ne, List.any_eq_true, beq_iff_eq,
    Bool.not_eq_true', List.isEmpty_eq_false_iff]
  constructor
  · rintro ⟨⟨key, ⟨hkey, filled⟩, rfl⟩, other, u, hu, named⟩
    exact ⟨u, ⟨ht, hu, fun same => other (same ▸ named.symm), key, hkey, filled, named.symm⟩, named⟩
  · rintro ⟨u, ⟨-, hu, other, key, hkey, filled, named⟩, rfl⟩
    exact ⟨⟨key, ⟨hkey, filled⟩, named⟩, fun same => other (eq_of_key distinct hu ht same), u, hu, rfl⟩

theorem next_references (ht : t ∈ tables) : next (references d tables) t.key = targetKeys d tables t := by
  obtain ⟨before, after, rfl⟩ := List.append_of_mem ht
  have first : (references d (before ++ t :: after)).lookup t.key =
      some (targetKeys d (before ++ t :: after) t) := by
    refine List.lookup_eq_some_iff.2 ⟨_, _, by rw [references, List.map_append, List.map_cons], fun p hp => ?_⟩
    obtain ⟨v, hv, rfl⟩ := List.mem_map.1 hp
    rw [List.map_append, List.map_cons] at distinct
    simpa using ((List.nodup_append.1 distinct).2.2 v.key (List.mem_map_of_mem hv) t.key List.mem_cons_self).symm
  rw [next, first, Option.getD_some]

theorem leads_iff {a b : String} :
    Leads (references d tables) a b ↔ ∃ t u, RefersAmong d tables t u ∧ t.key = a ∧ u.key = b := by
  constructor
  · intro leads
    cases found : (references d tables).lookup a with
    | none => simp [Leads, next, found] at leads
    | some targets =>
      obtain ⟨before, after, split, -⟩ := List.lookup_eq_some_iff.1 found
      have inside : (a, targets) ∈ references d tables := by simp [split]
      obtain ⟨t, ht, made⟩ := List.mem_map.1 inside
      obtain ⟨rfl, rfl⟩ := Prod.mk.inj made
      rw [Leads, next_references distinct ht, mem_targetKeys_iff distinct ht] at leads
      obtain ⟨u, refers, rfl⟩ := leads
      exact ⟨t, u, refers, rfl, rfl⟩
  · rintro ⟨t, u, refers, rfl, rfl⟩
    rw [Leads, next_references distinct refers.1, mem_targetKeys_iff distinct refers.1]
    exact ⟨u, refers, rfl⟩

theorem transGen_leads_iff (ht : t ∈ tables) (hu : u ∈ tables) :
    TransGen (Leads (references d tables)) t.key u.key ↔ TransGen (RefersAmong d tables) t u := by
  constructor
  · intro leads
    have tables : ∀ b, TransGen (Leads (references d tables)) t.key b →
        ∃ v ∈ tables, v.key = b ∧ TransGen (RefersAmong d tables) t v := by
      intro b leads
      induction leads with
      | single first =>
        obtain ⟨t', v, refers, same, named⟩ := (leads_iff distinct).1 first
        obtain rfl := eq_of_key distinct refers.1 ht same
        exact ⟨v, refers.2.1, named, .single refers⟩
      | tail _ further ih =>
        obtain ⟨v, hv, rfl, before⟩ := ih
        obtain ⟨v', w, refers, same, named⟩ := (leads_iff distinct).1 further
        obtain rfl := eq_of_key distinct refers.1 hv same
        exact ⟨w, refers.2.1, named, before.tail refers⟩
    obtain ⟨v, hv, same, found⟩ := tables _ leads
    rwa [← eq_of_key distinct hv hu same]
  · intro refers
    exact TransGen.lift (·.key) (fun a b one => (leads_iff distinct).2 ⟨a, b, one, rfl, rfl⟩) _ _ refers

theorem alike_iff (ht : t ∈ tables) (hu : u ∈ tables) : alike d tables t u = true ↔
    TransGen (RefersAmong d tables) t u ∧ TransGen (RefersAmong d tables) u t := by
  rw [alike, Bool.and_eq_true, List.contains_iff_mem, List.contains_iff_mem, mem_reachable_iff, mem_reachable_iff,
    transGen_leads_iff distinct ht hu, transGen_leads_iff distinct hu ht]

open Classical in
/-- the tables that are like a table on a circle are its component -/
theorem filter_alike_eq (ht : t ∈ tables) (around : alike d tables t t = true) :
    tables.filter (alike d tables t) = component d tables t := by
  refine List.filter_congr fun u hu => ?_
  rw [Bool.eq_iff_iff, alike_iff distinct ht hu, decide_eq_true_iff]
  constructor
  · exact fun h => connected_of_transGen h.1 h.2
  · intro h
    by_cases same : u = t
    · subst same
      exact (alike_iff distinct hu hu).1 around
    · exact h.around same

/-- from a table of a component of two or more, a reference leads to another table of it -/
theorem FirstOfComponent.around (h : FirstOfComponent d tables t) (hu : u ∈ component d tables t) :
    ∃ v, TransGen (RefersAmong d tables) u v ∧ TransGen (RefersAmong d tables) v u := by
  have nodup : (component d tables t).Nodup := distinct.of_map.filter _
  by_cases same : u = t
  · subst same
    have another : ∃ v ∈ component d tables u, v ≠ u := by
      by_contra none
      push Not at none
      have within : component d tables u ⊆ [u] := fun v hv => List.mem_singleton.2 (none v hv)
      have size := (List.subperm_of_subset nodup within).length_le
      rw [List.length_singleton] at size
      have := h.2
      omega
    obtain ⟨v, hv, other⟩ := another
    exact ⟨v, (mem_component.1 hv).2.around other⟩
  · exact ⟨t, ((mem_component.1 hu).2.around same).symm⟩

theorem leadsGroup_alike_iff (ht : t ∈ tables) :
    leadsGroup (alike d tables) tables t = true ↔ FirstOfComponent d tables t := by
  have own : t ∈ component d tables t := mem_component.2 ⟨ht, .refl, .refl⟩
  constructor
  · intro leads
    have first : (tables.filter (alike d tables t)).head? = some t := beq_iff_eq.1 leads
    have around := (List.mem_filter.1 (List.mem_of_head? first)).2
    rw [filter_alike_eq distinct ht around] at first
    obtain ⟨u, hu, other, connected⟩ := exists_connected ((alike_iff distinct ht ht).1 around).1
    have both : [t, u] ⊆ component d tables t := by
      have : u ∈ component d tables t := mem_component.2 ⟨hu, connected⟩
      simp [own, this]
    exact ⟨first, (List.subperm_of_subset (by simpa using other.symm) both).length_le⟩
  · intro h
    obtain ⟨v, there, back⟩ := h.around distinct own
    have around := (alike_iff distinct ht ht).2 ⟨there.trans back, there.trans back⟩
    rw [leadsGroup, filter_alike_eq distinct ht around, h.1, beq_self_eq_true]

omit distinct in
theorem cycles_eq_foldl : cycles d tables = tables.foldl (fun groups t =>
    if alike d tables t t && !groups.any (·.contains t.key) then
      groups ++ [groupOf (alike d tables) tables (·.key) t] else groups) [] := by
  simp only [cycles, cycleGroups, List.foldl_map, List.map_map, List.filter_map, groupOf, alike, references,
    Bool.and_self]
  rfl

open Classical in
/-- the groups of tables that are found are the components of two or more, by their first tables -/
theorem cycles_eq : cycles d tables =
    (tables.filter fun t => FirstOfComponent d tables t).map fun t => (component d tables t).map (·.key) := by
  have same : ∀ t ∈ tables, ∀ u ∈ tables, alike d tables t u = true →
      tables.filter (alike d tables t) = tables.filter (alike d tables u) := by
    intro t ht u hu like
    obtain ⟨there, back⟩ := (alike_iff distinct ht hu).1 like
    refine List.filter_congr fun v hv => ?_
    rw [Bool.eq_iff_iff, alike_iff distinct ht hv, alike_iff distinct hu hv]
    exact ⟨fun h => ⟨back.trans h.1, h.2.trans there⟩, fun h => ⟨there.trans h.1, h.2.trans back⟩⟩
  rw [cycles_eq_foldl, foldl_groups distinct.of_map (fun t ht u hu => eq_of_key distinct ht hu) same]
  have leaders : tables.filter (leadsGroup (alike d tables) tables) =
      tables.filter fun t => FirstOfComponent d tables t := by
    refine List.filter_congr fun t ht => ?_
    rw [Bool.eq_iff_iff, leadsGroup_alike_iff distinct ht, decide_eq_true_iff]
  rw [leaders]
  refine List.map_congr_left fun t ht => ?_
  obtain ⟨ht, first⟩ := List.mem_filter.1 ht
  have leads := (leadsGroup_alike_iff distinct ht).2 (of_decide_eq_true first)
  have around := (List.mem_filter.1 (List.mem_of_head? (beq_iff_eq.1 leads))).2
  rw [groupOf, filter_alike_eq distinct ht around]

/-! ## Findings -/

omit distinct in
/-- what is reported about a component, at its first table -/
def circularFinding (first : Draft) (members : List Draft) : Finding :=
  let labels := commas (members.map fun t => t.toTable.ref.text)
  Finding.about .info .model "CIRCULAR_REFERENCE" s!"Circular foreign-key chain between tables: {labels}"
    first.source (some first.position)

/-- the findings about circles of tables -/
def circleFindings (d : Dialect) (tables : List Draft) : Except Refusal Findings :=
  ((cycles d tables).mapM (cycleFinding tables)).map List.flatten

open Classical in
/-- the table names in a finding are there, since a table of a circle has a foreign key -/
theorem circleFindings_eq (named : ∀ t ∈ tables, t.toTable.foreignKeys ≠ [] → t.name ≠ "") :
    circleFindings d tables = .ok ((tables.filter fun t => FirstOfComponent d tables t).map fun t =>
      circularFinding t (component d tables t)) := by
  have each : ∀ t ∈ tables.filter fun t => FirstOfComponent d tables t,
      cycleFinding tables ((component d tables t).map (·.key)) = .ok [circularFinding t (component d tables t)] := by
    intro t ht
    obtain ⟨ht, isFirst⟩ := List.mem_filter.1 ht
    have isFirst := of_decide_eq_true isFirst
    have members : (tables.filter fun u => ((component d tables t).map (·.key)).contains u.key) =
        component d tables t := by
      refine List.filter_congr fun u hu => ?_
      rw [Bool.eq_iff_iff, List.contains_iff_mem, decide_eq_true_iff, List.mem_map]
      constructor
      · rintro ⟨v, hv, same⟩
        obtain ⟨hv, connected⟩ := mem_component.1 hv
        rwa [← eq_of_key distinct hv hu same]
      · exact fun connected => ⟨u, mem_component.2 ⟨hu, connected⟩, rfl⟩
    have labels : (component d tables t).mapM Draft.label? =
        .ok ((component d tables t).map fun u => u.toTable.ref.text) := by
      refine mapM_eq_ok_of_forall fun u hu => Draft.label?_eq ?_
      obtain ⟨v, refers, -⟩ := isFirst.around distinct hu
      obtain ⟨_, ⟨-, -, -, k, hk, -⟩, -⟩ := TransGen.head'_iff.1 refers
      exact named u (mem_component.1 hu).1 (List.ne_nil_of_mem hk)
    have first := isFirst.1
    unfold cycleFinding
    rw [members]
    cases whole : component d tables t with
    | nil => simp [whole] at first
    | cons t' others =>
      rw [whole] at first labels
      obtain rfl := Option.some.inj first
      simp only [labels, bind, Except.bind, pure, Except.pure, circularFinding]
  have run := mapM_eq_ok_of_forall each
  rw [circleFindings, cycles_eq distinct, List.mapM_map]
  refine (congrArg (Except.map List.flatten) run).trans (congrArg Except.ok ?_)
  rw [← List.flatMap_def, ← List.map_eq_flatMap]

end

/-! ## What is reported -/

namespace Findings

variable {fs : Findings} {code : String}

theorem withCode_append (fs gs : Findings) (code : String) :
    withCode (fs ++ gs) code = fs.withCode code ++ gs.withCode code :=
  List.filter_append ..

theorem withCode_eq_nil (none : ∀ f ∈ fs, f.code ≠ code) : fs.withCode code = [] :=
  List.filter_eq_nil_iff.2 (by simpa using none)

theorem withCode_eq_self (all : ∀ f ∈ fs, f.code = code) : fs.withCode code = fs :=
  List.filter_eq_self.2 (by simpa using all)

end Findings

namespace Workspace

variable {d : Dialect} {w w' : Workspace}

/-- a table that foreign keys were resolved for has a name, for the messages -/
theorem named_of_resolvePlaced {tables : List Draft} {t : Draft} {e : Placed} {k : ForeignKey} {r : Placed × Ledger}
    (isKey : e.constraint = .foreignKey k) (done : t.resolvePlaced d tables e = .ok r) : t.name ≠ "" := by
  intro nameless
  have refused : t.resolve d tables e k = .error (.refused (.emptyField "TableRef" "name")) := by
    simp [Draft.resolve, Draft.label?, Draft.ref?, nameless, settle, Except.map, Except.mapError, bind, Except.bind]
  simp [Draft.resolvePlaced, isKey, refused] at done

/-- the resolution of foreign keys keeps the keys of tables, and those that have foreign keys have names -/
theorem resolveAll_tables (resolved : w.resolveAll d = .ok w') : w'.tables.map (·.key) = w.tables.map (·.key) ∧
    ∀ t ∈ w'.tables, t.toTable.foreignKeys ≠ [] → t.name ≠ "" := by
  simp only [resolveAll, bind_eq_ok_iff, pure_eq_ok_iff] at resolved
  obtain ⟨results, run, rfl⟩ := resolved
  constructor
  · rw [List.map_map]
    refine map_of_mapM_eq_ok _ run fun t _ r done => ?_
    obtain ⟨_, -, same, -⟩ := Draft.resolveTable_eq_ok done
    rw [Function.comp_apply, same]
  · intro t' ht' some
    obtain ⟨r, hr, rfl⟩ := List.mem_map.1 ht'
    obtain ⟨t, -, done⟩ := exists_of_mem_mapM run hr
    obtain ⟨placed, each, same, -⟩ := Draft.resolveTable_eq_ok done
    obtain ⟨k, hk⟩ := List.exists_mem_of_ne_nil _ some
    obtain ⟨c, hc, isKey⟩ := List.mem_filterMap.1 hk
    rw [same] at hc
    simp only [Draft.toTable, List.map_map, List.mem_map] at hc
    obtain ⟨⟨e', found⟩, hp, rfl⟩ := hc
    obtain ⟨e, -, settled⟩ := exists_of_mem_forall₂ each hp
    have before : ∃ k', e.constraint = .foreignKey k' := by
      cases Draft.settled_of_resolvePlaced settled with
      | plain other => simp [other] at isKey
      | resolved isKey' => exact ⟨_, isKey'⟩
      | failed isKey' => exact ⟨_, isKey'⟩
    obtain ⟨k', before⟩ := before
    rw [same]
    exact named_of_resolvePlaced before settled

theorem code_of_primaryKeyFindings {t : Draft} {findings : Findings} (made : primaryKeyFindings t = .ok findings) :
    ∀ f ∈ findings, f.code = "NO_PRIMARY_KEY" := by
  unfold primaryKeyFindings at made
  split at made
  · rw [← Except.ok.inj made]
    exact fun _ none => absurd none List.not_mem_nil
  · simp only [bind_eq_ok_iff, pure_eq_ok_iff] at made
    obtain ⟨label, -, rfl⟩ := made
    exact List.forall_mem_singleton.2 rfl

open Classical in
/-- When foreign keys are resolved, circles of references are found. For each strongly connected component of two
tables or more there is one finding, which names its tables in order and stands at the first of them; the findings
are in the order of these first tables. There are no others. -/
theorem circles_reported {statements : List Statement} (applied : applyAll d statements = .ok w)
    (resolved : w.resolveAll d = .ok w') :
    circleFindings d w'.tables = .ok ((w'.tables.filter fun t => FirstOfComponent d w'.tables t).map fun t =>
      circularFinding t (component d w'.tables t)) ∧
    ∀ findings, finalFindings d w'.tables = .ok findings → findings.withCode "CIRCULAR_REFERENCE" =
      (w'.tables.filter fun t => FirstOfComponent d w'.tables t).map fun t =>
        circularFinding t (component d w'.tables t) := by
  obtain ⟨keys, named⟩ := resolveAll_tables resolved
  have distinct : (w'.tables.map (·.key)).Nodup := keys ▸ (applyAll_regular applied).keys
  have reported := circleFindings_eq (d := d) distinct named
  refine ⟨reported, fun findings made => ?_⟩
  simp only [finalFindings, bind_eq_ok_iff, pure_eq_ok_iff] at made
  obtain ⟨keyless, keysMade, circles, circlesMade, rfl⟩ := made
  have otherCode : ∀ f ∈ keyless.flatten, f.code ≠ "CIRCULAR_REFERENCE" := by
    intro f hf
    obtain ⟨fs, hfs, hf⟩ := List.mem_flatten.1 hf
    obtain ⟨t, -, made⟩ := exists_of_mem_mapM keysMade hfs
    rw [code_of_primaryKeyFindings made f hf]
    decide
  rw [circleFindings, circlesMade, Except.map, Except.ok.injEq] at reported
  have ownCode : ∀ f ∈ circles.flatten, f.code = "CIRCULAR_REFERENCE" := by
    rw [reported]
    intro f hf
    obtain ⟨t, -, rfl⟩ := List.mem_map.1 hf
    rfl
  rw [Findings.withCode_append, Findings.withCode_eq_nil otherCode, Findings.withCode_eq_self ownCode, reported]
  rfl

end Workspace

/-- a table with one key and one column for each table that it refers to -/
def linkedTable (name : String) (targets : List String) (schema : Option String := none) : Statement :=
  let at0 : Position := ⟨1, 1, 0⟩
  ⟨.createTable
    { name := ⟨name, schema⟩
      columns := ("id" :: targets).map fun n => { name := n, type := none, position := at0 }
      constraints := .primaryKey ["id"] none at0 :: targets.map fun n =>
        .foreignKey [n] { table := ⟨n, none⟩ } none at0 }, at0, none⟩

/-- two ships that refer to each other, a log of both, and a circle of three harbours through the first of the ships -/
def shipsAndHarbours : List Statement := [
  linkedTable "log" ["ship", "sister", "log"], linkedTable "north" ["east"], linkedTable "ship" ["sister"],
  linkedTable "east" ["south", "ship"], linkedTable "sister" ["ship"], linkedTable "south" ["north"]]

theorem circles_reported_shipsAndHarbours : ∃ w w', Workspace.applyAll .sqlite shipsAndHarbours = .ok w ∧
    w.resolveAll .sqlite = .ok w' ∧ ∃ findings, circleFindings .sqlite w'.tables = .ok findings ∧
      findings.map (·.message) = [
        "Circular foreign-key chain between tables: main.north, main.east, main.south",
        "Circular foreign-key chain between tables: main.ship, main.sister"] ∧
      ∀ f ∈ findings, ∃ t ∈ w'.tables, FirstOfComponent .sqlite w'.tables t ∧
        f = circularFinding t (component .sqlite w'.tables t) := by
  have complete : ((Workspace.applyAll .sqlite shipsAndHarbours).toOption.bind fun w =>
      (w.resolveAll .sqlite).toOption.bind fun w' => (circleFindings .sqlite w'.tables).toOption.map fun findings =>
        findings.map (·.message)) = some [
        "Circular foreign-key chain between tables: main.north, main.east, main.south",
        "Circular foreign-key chain between tables: main.ship, main.sister"] := by
    decide +kernel
  obtain ⟨w, applied, complete⟩ := Option.bind_eq_some_iff.1 complete
  obtain ⟨w', resolved, complete⟩ := Option.bind_eq_some_iff.1 complete
  obtain ⟨findings, found, messages⟩ := Option.map_eq_some_iff.1 complete
  have applied := toOption_eq_some_iff.1 applied
  have resolved := toOption_eq_some_iff.1 resolved
  have found := toOption_eq_some_iff.1 found
  refine ⟨w, w', applied, resolved, findings, found, messages, fun f hf => ?_⟩
  rw [(Workspace.circles_reported applied resolved).1, Except.ok.injEq] at found
  rw [← found] at hf
  obtain ⟨t, ht, rfl⟩ := List.mem_map.1 hf
  obtain ⟨ht, first⟩ := List.mem_filter.1 ht
  exact ⟨t, ht, by simpa using first, rfl⟩

end SchemaApi
