import SchemaApi.Proofs.Api.Closure
/-!
Which names resources get.

The tables are named one after the other, each by the first of its candidates whose segment no table before it has
(`Chosen`). Some candidate always is free, so the search for it ends, and the segments of all names differ. Then the
paths of collections differ too, and each name leads back to its resource. A table is reported if it could not keep
the name that the strategy gives it; where the segments of these names differ, each table keeps its own.
-/

namespace SchemaApi.Api

/-! ## Searching for a name -/

/-- the first candidate whose segment is not used -/
def FirstUnused (used : List String) (name chosen : String) : Prop :=
  ∃ k, chosen = candidate name k ∧ segment chosen ∉ used ∧ ∀ j < k, segment (candidate name j) ∈ used

/-- all candidates before the one that is found are taken -/
theorem firstFree_first (taken : String → Bool) (name : String) (fuel k : Nat) :
    ∃ j, firstFree taken name fuel (k + 2) (candidate name k) = candidate name (k + j) ∧
      ∀ i < j, taken (candidate name (k + i)) = true := by
  induction fuel generalizing k with
  | zero => exact ⟨0, rfl, fun i hi => absurd hi (Nat.not_lt_zero i)⟩
  | succ fuel ih =>
    rw [firstFree]
    split_ifs with used
    · obtain ⟨j, found, before⟩ := ih (k + 1)
      have shift (i : Nat) : k + 1 + i = k + (i + 1) := by omega
      refine ⟨j + 1, found.trans (congrArg _ (shift j)), fun i hi => ?_⟩
      cases i with
      | zero => exact used
      | succ i => exact shift i ▸ before i (Nat.lt_of_succ_lt_succ hi)
    · exact ⟨0, rfl, fun i hi => absurd hi (Nat.not_lt_zero i)⟩

theorem freeName_firstUnused (used : List String) (name : String) :
    FirstUnused used name (freeName (fun n => used.contains (segment n)) used.length name) := by
  obtain ⟨j, found, before⟩ := firstFree_first (fun n => used.contains (segment n)) name (used.length + 1) 0
  have here (i : Nat) : candidate name (0 + i) = candidate name i := congrArg _ (Nat.zero_add i)
  refine ⟨j, found.trans (here j), segment_freeName_not_mem used name, fun i hi => ?_⟩
  have taken := before i hi
  rw [here] at taken
  exact List.contains_iff_mem.1 taken

/-- a name whose own segment is not used is kept -/
theorem FirstUnused.eq_of_not_mem {used : List String} {name chosen : String} (h : FirstUnused used name chosen)
    (free : segment name ∉ used) : chosen = name := by
  obtain ⟨k, rfl, -, before⟩ := h
  cases k with
  | zero => rfl
  | succ k => exact absurd (before 0 (Nat.succ_pos k)) free

/-! ## Naming one table after the other -/

/-- Names for tables, each with the name that it would have alone. The first one gets the first candidate that is
not used, and its segment is used from then on. -/
inductive Chosen (bases : List String) : List String → List (Table × String) → List String → Prop
  | nil (used : List String) : Chosen bases used [] []
  | cons {used : List String} {t : Table} {base name : String} {items : List (Table × String)} {names : List String}
      (first : FirstUnused used (wantedName bases t base) name)
      (others : Chosen bases (used ++ [segment name]) items names) :
      Chosen bases used ((t, base) :: items) (name :: names)

/-- what is reported about the tables that have another name than they would have alone -/
def collisions (items : List (Table × String)) (names : List String) : Findings :=
  (items.zip names).filterMap fun ((t, base), name) =>
    if name = base then none else some (collisionFinding base name t)

theorem foldl_nameTable (bases : List String) (items : List (Table × String)) (state : NamesSoFar) :
    ∃ names, Chosen bases state.used items names ∧
      (items.foldl (nameTable bases) state).names = state.names ++ (items.map (·.1.ref)).zip names ∧
      (items.foldl (nameTable bases) state).findings = state.findings ++ collisions items names := by
  induction items generalizing state with
  | nil => exact ⟨[], .nil _, by simp, by simp [collisions]⟩
  | cons item items ih =>
    obtain ⟨t, base⟩ := item
    obtain ⟨names, chosen, given, reported⟩ := ih (nameTable bases state (t, base))
    have first := freeName_firstUnused state.used (wantedName bases t base)
    refine ⟨_, .cons first chosen, ?_, ?_⟩
    · rw [List.foldl_cons, given, nameTable, List.append_assoc]
      rfl
    · rw [List.foldl_cons, reported]
      simp only [nameTable, collisions, List.zip_cons_cons, List.filterMap_cons]
      split_ifs
      · rfl
      · rw [List.append_assoc]
        rfl

namespace Chosen

variable {bases used : List String} {items : List (Table × String)} {names : List String}

theorem length_eq (h : Chosen bases used items names) : names.length = items.length := by
  induction h with
  | nil => rfl
  | cons _ _ ih => rw [List.length_cons, List.length_cons, ih]

/-- no segment is used twice -/
theorem segments_nodup (h : Chosen bases used items names) (distinct : used.Nodup) :
    (used ++ names.map segment).Nodup := by
  induction h with
  | nil used => rwa [List.map_nil, List.append_nil]
  | @cons used t base name items names first _ ih =>
    obtain ⟨k, -, free, -⟩ := first
    have more : (used ++ [segment name]).Nodup :=
      List.nodup_append.2 ⟨distinct, List.nodup_singleton _, fun a ha b hb same => by
        rw [List.mem_singleton.1 hb] at same
        exact free (same ▸ ha)⟩
    have all := ih more
    rwa [List.append_assoc] at all

/-- where no two tables would have the same segment, each gets the name that it would have alone -/
theorem eq_bases (h : Chosen bases used items names)
    (single : ∀ item ∈ items, (bases.filter fun b => segment b == segment item.2).length ≤ 1)
    (distinct : (used ++ items.map fun item => segment item.2).Nodup) : names = items.map (·.2) := by
  induction h with
  | nil => rfl
  | @cons used t base name items names first _ ih =>
    have wanted : wantedName bases t base = base :=
      if_neg (Nat.not_lt.2 (single (t, base) List.mem_cons_self))
    rw [wanted] at first
    have free : segment base ∉ used := fun taken =>
      (List.nodup_append.1 distinct).2.2 _ taken _ List.mem_cons_self rfl
    have kept : name = base := first.eq_of_not_mem free
    have later := ih (fun item hi => single item (List.mem_cons_of_mem _ hi)) (by
      rw [kept, List.append_assoc]
      exact distinct)
    rw [kept, later, List.map_cons]

end Chosen

/-- a segment that occurs once is the segment of one name -/
theorem length_filter_segment_le {bases : List String} (distinct : (bases.map segment).Nodup) (s : String) :
    (bases.filter fun b => segment b == s).length ≤ 1 := by
  have once := List.nodup_iff_count_le_one.1 distinct s
  rwa [List.count, List.countP_map, List.countP_eq_length_filter] at once

theorem collisions_eq_nil {items : List (Table × String)} {names : List String} (kept : names = items.map (·.2)) :
    collisions items names = [] := by
  subst kept
  refine List.filterMap_eq_nil_iff.2 fun entry he => ?_
  induction items with
  | nil => exact absurd he List.not_mem_nil
  | cons item items ih =>
    rw [List.map_cons, List.zip_cons_cons, List.mem_cons] at he
    rcases he with rfl | later
    · exact if_pos rfl
    · exact ih later

/-! ## Resources -/

/-- a resource is that of its table, and its path is made of its name -/
theorem sides_of_resource {s : Settings} {d : Dialect} {names : List (TableRef × String)}
    {bound : List (TableRef × Binding)} {t : Table} {r : Resource} {findings : Findings}
    (h : resource s d names bound t = .ok (r, findings)) :
    r.table = t.name ∧ r.schema = t.schema ∧ r.path = "/" ++ segment r.name := by
  unfold resource at h
  simp only [bind_eq_ok_iff] at h
  obtain ⟨parameters, -, ⟨rules, warnings⟩, -, h⟩ := h
  by_cases nameless : (nameOf? names t.ref).getD "" = ""
  · simp only [nameless, if_true, bind_eq_ok_iff, throw_eq_ok_iff, false_and, exists_false] at h
  · simp only [if_neg nameless] at h
    obtain ⟨rfl, -⟩ := Prod.mk.inj (pure_eq_ok_iff.1 h)
    exact ⟨rfl, rfl, rfl⟩

/-- a description has the resources of the tables -/
theorem exists_of_infer {s : Settings} {m : Model} {description : Description} {findings : Findings}
    (inferred : infer s m = .ok (description, findings)) : ∃ built,
      (resourceTables m).mapM (resource s m.dialect (modelNames s m) (bindings m s.mode (modelNames s m)).bindings) =
        .ok built ∧ description.resources = built.map (·.1) := by
  unfold infer at inferred
  split_ifs at inferred
  split at inferred
  · rename_i rs warnings whole
    obtain ⟨rfl, -⟩ := Prod.mk.inj (Except.ok.inj inferred)
    simp only [resources, bind_eq_ok_iff, pure_eq_ok_iff, Prod.mk.injEq] at whole
    obtain ⟨built, made, rfl, -⟩ := whole
    exact ⟨built, made, rfl⟩
  · contradiction

/-- where keys differ, the last entry of a key is the only one -/
theorem find?_reverse_of_nodup {α : Type} {key : α → String} {l : List α} (distinct : (l.map key).Nodup) {a : α}
    (ha : a ∈ l) : l.reverse.find? (fun x => key x == key a) = some a := by
  cases found : l.reverse.find? (fun x => key x == key a) with
  | none => exact absurd (beq_self_eq_true _) (List.find?_eq_none.1 found a (List.mem_reverse.2 ha))
  | some b =>
    have same : key b = key a := by simpa using List.find?_some found
    have inside : b ∈ l := List.mem_reverse.1 (List.mem_of_find?_eq_some found)
    rw [List.inj_on_of_nodup_map distinct inside ha same]

section

variable {strategy : NamingStrategy} {tables : List Table} {names : List String}

/-- the names that a strategy gives to tables -/
def baseNames (strategy : NamingStrategy) (tables : List Table) : List String :=
  tables.map fun t => strategy.apply t.name

theorem tables_zip (strategy : NamingStrategy) (tables : List Table) :
    (tables.zip (baseNames strategy tables)).map (·.1) = tables ∧
      (tables.zip (baseNames strategy tables)).map (·.2) = baseNames strategy tables :=
  ⟨List.map_fst_zip (by simp [baseNames]), List.map_snd_zip (by simp [baseNames])⟩

/-- the tables are named one after the other -/
theorem exists_chosen (strategy : NamingStrategy) (tables : List Table) : ∃ names,
    Chosen (baseNames strategy tables) [] (tables.zip (baseNames strategy tables)) names ∧
      names.length = tables.length ∧ (resourceNames strategy tables).names = (tables.map (·.ref)).zip names ∧
      (resourceNames strategy tables).findings = collisions (tables.zip (baseNames strategy tables)) names := by
  have pairs := (tables_zip strategy tables).1
  obtain ⟨names, chosen, named, reported⟩ :=
    foldl_nameTable (baseNames strategy tables) (tables.zip (baseNames strategy tables)) {}
  have refs : (tables.zip (baseNames strategy tables)).map (·.1.ref) = tables.map (·.ref) := by
    rw [← pairs, List.map_map, pairs]
    rfl
  refine ⟨names, chosen, ?_, ?_, reported⟩
  · rw [chosen.length_eq, ← congrArg List.length pairs, List.length_map]
  · rw [← refs]
    exact named

/-- each table has one name, that by which its resource is looked up -/
theorem nameOf?_of_zip (refs : (tables.map (·.ref)).Nodup) (lengths : names.length = tables.length) :
    List.Forall₂ (fun t name => nameOf? ((tables.map (·.ref)).zip names) t.ref = some name) tables names := by
  have distinct : (((tables.map (·.ref)).zip names).map (·.1)).Nodup := by
    rw [List.map_fst_zip (by simp [lengths])]
    exact refs
  refine List.forall₂_iff_zip.2 ⟨lengths.symm, fun {t name} member => ?_⟩
  rw [nameOf?_eq_some_iff distinct, List.zip_map_left]
  exact List.mem_map_of_mem (f := Prod.map Table.ref id) member

theorem Chosen.eq_baseNames (distinct : ((baseNames strategy tables).map segment).Nodup)
    (h : Chosen (baseNames strategy tables) [] (tables.zip (baseNames strategy tables)) names) :
    names = baseNames strategy tables ∧ collisions (tables.zip (baseNames strategy tables)) names = [] := by
  have seconds := (tables_zip strategy tables).2
  have segments : (tables.zip (baseNames strategy tables)).map (fun item => segment item.2) =
      (baseNames strategy tables).map segment := by
    conv_rhs => rw [← seconds, List.map_map]
    rfl
  have kept : names = (tables.zip (baseNames strategy tables)).map (·.2) := by
    refine h.eq_bases (fun item _ => length_filter_segment_le distinct _) ?_
    rwa [List.nil_append, segments]
  exact ⟨kept.trans seconds, collisions_eq_nil kept⟩

/-- resources have the names of their tables, and different paths if the segments of these differ -/
theorem resources_apart {s : Settings} {m : Model} (naming : s.naming = strategy) (exposed : resourceTables m = tables)
    (looked : List.Forall₂ (fun t name => nameOf? (resourceNames strategy tables).names t.ref = some name) tables names)
    (segments : (names.map segment).Nodup) {description : Description} {findings : Findings}
    (inferred : infer s m = .ok (description, findings)) :
    description.resources.map (·.name) = names ∧ (description.resources.map (·.path)).Nodup ∧
      ∀ r ∈ description.resources, description.resource? r.name = some r := by
  subst naming exposed
  obtain ⟨built, made, whole⟩ := exists_of_infer inferred
  have made := forall₂_of_mapM_eq_ok made
  have own : description.resources.map (·.name) = names := by
    have called : List.Forall₂ (fun t r => (nameOf? (modelNames s m) t.ref).getD "" = r.1.name)
        (resourceTables m) built := made.imp fun t r one => (madeOf_of_resource (r := r.1) one).name.symm
    have known : List.Forall₂ (fun t name => (nameOf? (modelNames s m) t.ref).getD "" = id name)
        (resourceTables m) names := looked.imp fun t name found => by rw [modelNames, found, Option.getD_some, id]
    rw [whole, List.map_map, ← List.map_id names, ← map_eq_map_of_forall₂ known]
    exact (map_eq_map_of_forall₂ called).symm
  have paths : description.resources.map (·.path) = (names.map segment).map ("/" ++ ·) := by
    rw [← own, List.map_map, List.map_map]
    refine List.map_congr_left fun r hr => ?_
    rw [whole] at hr
    obtain ⟨result, hresult, rfl⟩ := List.mem_map.1 hr
    obtain ⟨t, -, one⟩ := exists_of_mem_forall₂ made hresult
    exact (sides_of_resource one).2.2
  have distinct : (description.resources.map (·.name)).Nodup := own ▸ segments.of_map
  refine ⟨own, ?_, fun r hr => find?_reverse_of_nodup distinct hr⟩
  rw [paths]
  exact segments.map fun a b same => (String.append_right_inj _).1 same

end

/-- Tables with different references get names with different segments, each the first candidate that is free. So
the names and paths of their resources differ, and each name leads to its resource. Reported are the tables that do
not have the name that the strategy gives them, and there are none if the segments of these names differ. -/
theorem resourceNames_apart (strategy : NamingStrategy) {tables : List Table} (refs : (tables.map (·.ref)).Nodup) :
    let bases := baseNames strategy tables
    let given := resourceNames strategy tables
    ∃ names, Chosen bases [] (tables.zip bases) names ∧
      List.Forall₂ (fun t name => nameOf? given.names t.ref = some name) tables names ∧
      (names.map segment).Nodup ∧ names.Nodup ∧
      given.findings = collisions (tables.zip bases) names ∧
      ((bases.map segment).Nodup → names = bases ∧ given.findings = []) ∧
      ∀ (s : Settings) (m : Model), s.naming = strategy → resourceTables m = tables →
        ∀ (description : Description) (findings : Findings), infer s m = .ok (description, findings) →
          description.resources.map (·.name) = names ∧ (description.resources.map (·.path)).Nodup ∧
            ∀ r ∈ description.resources, description.resource? r.name = some r := by
  intro bases given
  obtain ⟨names, chosen, lengths, entries, reported⟩ := exists_chosen strategy tables
  have segments : (names.map segment).Nodup := chosen.segments_nodup List.nodup_nil
  have looked : List.Forall₂ (fun t name => nameOf? given.names t.ref = some name) tables names := by
    rw [entries]
    exact nameOf?_of_zip refs lengths
  refine ⟨names, chosen, looked, segments, segments.of_map, reported, fun distinct => ?_, ?_⟩
  · obtain ⟨kept, quiet⟩ := chosen.eq_baseNames distinct
    exact ⟨kept, reported.trans quiet⟩
  · intro s m naming exposed description findings inferred
    exact resources_apart naming exposed looked segments inferred

/-- tables of one name in two schemas, one whose name is what another one is called with its schema, and one whose
name has no letter that words are made of -/
def usersOfTwoSchemas : List Table := [
  { name := "users", schema := some "sales", key := "sales.users" },
  { name := "users", schema := some "crm", key := "crm.users" },
  { name := "crm_users", schema := some "public", key := "public.crm_users" },
  { name := "crm_users_2", schema := some "public", key := "public.crm_users_2" },
  { name := "é", schema := some "public", key := "public.é" }]

/-- the last name is its own segment, and all but that table are reported -/
theorem resourceNames_apart_usersOfTwoSchemas :
    (resourceNames .passthrough usersOfTwoSchemas).findings.length = 4 ∧
    ∃ names, names = ["sales_users", "crm_users", "crm_users_2", "crm_users_2_2", "é"] ∧
      Chosen (baseNames .passthrough usersOfTwoSchemas) []
        (usersOfTwoSchemas.zip (baseNames .passthrough usersOfTwoSchemas)) names ∧
      List.Forall₂ (fun t name => nameOf? (resourceNames .passthrough usersOfTwoSchemas).names t.ref = some name)
        usersOfTwoSchemas names ∧
      (names.map segment).Nodup := by
  have refs : (usersOfTwoSchemas.map (·.ref)).Nodup := by decide
  obtain ⟨names, chosen, looked, segments, -⟩ := resourceNames_apart .passthrough refs
  refine ⟨by decide +kernel, names, ?_, chosen, looked, segments⟩
  have found : usersOfTwoSchemas.map (fun t => nameOf? (resourceNames .passthrough usersOfTwoSchemas).names t.ref) =
      names.map some := map_eq_map_of_forall₂ looked
  have given : usersOfTwoSchemas.map (fun t => nameOf? (resourceNames .passthrough usersOfTwoSchemas).names t.ref) =
      ["sales_users", "crm_users", "crm_users_2", "crm_users_2_2", "é"].map some := by decide +kernel
  exact (List.map_inj_right fun _ _ => Option.some.inj).1 (found.symm.trans given)

end SchemaApi.Api
