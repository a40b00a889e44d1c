import Mathlib.Data.Multiset.Bind
import Mathlib.Algebra.GroupWithZero.Nat
import Mathlib.Algebra.Order.BigOperators.Group.List
import Mathlib.Algebra.Order.Group.Nat
import SchemaApi.Proofs.Api.Closure
import SchemaApi.Proofs.Schema.Circle
/-!
Bindings show every relationship from both sides.

Going through the relationships, each of them adds two bindings that mirror each other, or one warning if a side has no
resource (`bindings_adds`). They are added for references of tables. A resource gets what was added for the reference
of its table, so what it has is what was added exactly if no other resource has a table of the same reference.
-/

namespace SchemaApi

/-- the table of a resource -/
def Resource.ref (R : Resource) : TableRef := ⟨R.table, R.schema⟩

namespace Api

/-! ## What a relationship adds -/

/-- the kinds of the two bindings of a relationship belong together, and name the junction table that is behind them -/
def KindsOf (r : Relationship) (outgoing incoming : Binding) : Prop :=
  match r.kind with
  | .oneToMany => outgoing.kind = .manyToOne ∧ incoming.kind = .oneToMany ∧ outgoing.via = none ∧ incoming.via = none
  | .oneToOne => outgoing.kind = .oneToOne ∧ incoming.kind = .oneToOne ∧ outgoing.via = none ∧ incoming.via = none
  | .manyToMany => outgoing.kind = .manyToMany ∧ incoming.kind = .manyToMany ∧ outgoing.via = incoming.via ∧
      ∀ link, r.junction = some link → outgoing.via = some link.table.name

/-- two bindings show a relationship from the sides of the resources `source` and `target` -/
structure Mirrors (r : Relationship) (source target : String) (outgoing incoming : Binding) : Prop where
  resources : outgoing.targetResource = target ∧ incoming.targetResource = source
  own : outgoing.localFields = r.fromColumns ∧ incoming.localFields = r.toColumns
  other : outgoing.targetFields = incoming.localFields ∧ incoming.targetFields = outgoing.localFields
  kinds : KindsOf r outgoing incoming

theorem mirrors_sides (m : Model) (mode : RelationshipMode) (r : Relationship) (source target : String) :
    Mirrors r source target (sides m mode r source target).1 (sides m mode r source target).2 := by
  unfold sides
  cases kind : r.kind with
  | oneToMany => exact ⟨⟨rfl, rfl⟩, ⟨rfl, rfl⟩, ⟨rfl, rfl⟩, by simp [KindsOf, kind]⟩
  | oneToOne => exact ⟨⟨rfl, rfl⟩, ⟨rfl, rfl⟩, ⟨rfl, rfl⟩, by simp [KindsOf, kind]⟩
  | manyToMany => exact ⟨⟨rfl, rfl⟩, ⟨rfl, rfl⟩, ⟨rfl, rfl⟩, by simp +contextual [KindsOf, kind]⟩

/-- the bindings may get other names -/
theorem Mirrors.rename {r : Relationship} {source target : String} {outgoing incoming : Binding}
    (h : Mirrors r source target outgoing incoming) (name name' : String) :
    Mirrors r source target { outgoing with name := name } { incoming with name := name' } :=
  ⟨h.resources, h.own, h.other, h.kinds⟩

section

variable {m : Model} {mode : RelationshipMode} {names : List (TableRef × String)}

/-- what a relationship adds: a binding for each side, or a warning about the first that has no resource -/
inductive Adds (names : List (TableRef × String)) (r : Relationship) : List (TableRef × Binding) × Findings → Prop
  | bindings {source target : String} {outgoing incoming : Binding}
      (fromNamed : nameOf? names r.fromTable = some source) (toNamed : nameOf? names r.toTable = some target)
      (mirrors : Mirrors r source target outgoing incoming) :
      Adds names r ([(r.fromTable, outgoing), (r.toTable, incoming)], [])
  | fromUnnamed (absent : nameOf? names r.fromTable = none) : Adds names r ([], [unexposedFinding r r.fromTable])
  | toUnnamed {source : String} (fromNamed : nameOf? names r.fromTable = some source)
      (absent : nameOf? names r.toTable = none) : Adds names r ([], [unexposedFinding r r.toTable])

theorem BindingsSoFar.add_bindings (state : BindingsSoFar) (owner : TableRef) (b : Binding) :
    ∃ name, (state.add owner b).bindings = state.bindings ++ [(owner, { b with name := name })] :=
  ⟨_, rfl⟩

theorem bindRelationship_adds (state : BindingsSoFar) (r : Relationship) : ∃ added, Adds names r added ∧
    (bindRelationship m mode names state r).bindings = state.bindings ++ added.1 ∧
    (bindRelationship m mode names state r).findings = state.findings ++ added.2 := by
  unfold bindRelationship
  split
  · rename_i source target fromNamed toNamed
    have mirrors := mirrors_sides m mode r source target
    generalize sides m mode r source target = pair at mirrors
    obtain ⟨outgoing, incoming⟩ := pair
    obtain ⟨name, first⟩ := state.add_bindings r.fromTable outgoing
    obtain ⟨name', second⟩ := (state.add r.fromTable outgoing).add_bindings r.toTable incoming
    refine ⟨_, .bindings fromNamed toNamed (mirrors.rename name name'), ?_, (List.append_nil _).symm⟩
    rw [second, first, List.append_assoc]
    rfl
  · rename_i absent
    exact ⟨_, .fromUnnamed absent, (List.append_nil _).symm, rfl⟩
  · rename_i fromNamed absent
    exact ⟨_, .toUnnamed fromNamed absent, (List.append_nil _).symm, rfl⟩

/-- the bindings of all relationships, in their order -/
theorem bindings_adds (m : Model) (mode : RelationshipMode) (names : List (TableRef × String)) : ∃ added,
    List.Forall₂ (Adds names) m.relationships added ∧ (bindings m mode names).bindings = added.flatMap (·.1) ∧
      (bindings m mode names).findings = added.flatMap (·.2) := by
  have run : ∀ (rs : List Relationship) (state : BindingsSoFar), ∃ added, List.Forall₂ (Adds names) rs added ∧
      (rs.foldl (bindRelationship m mode names) state).bindings = state.bindings ++ added.flatMap (·.1) ∧
      (rs.foldl (bindRelationship m mode names) state).findings = state.findings ++ added.flatMap (·.2) := by
    intro rs
    induction rs with
    | nil => exact fun state => ⟨[], .nil, (List.append_nil _).symm, (List.append_nil _).symm⟩
    | cons r rs ih =>
      intro state
      obtain ⟨first, adds, bound, found⟩ := @bindRelationship_adds m mode names state r
      obtain ⟨others, addsAll, boundAll, foundAll⟩ := ih (bindRelationship m mode names state r)
      refine ⟨first :: others, .cons adds addsAll, ?_, ?_⟩
      · rw [List.foldl_cons, boundAll, bound, List.append_assoc, List.flatMap_cons]
      · rw [List.foldl_cons, foundAll, found, List.append_assoc, List.flatMap_cons]
  obtain ⟨added, adds, bound, found⟩ := run m.relationships {}
  exact ⟨added, adds, bound, found⟩

/-! ## Names -/

/-- no two bindings of a table have the same name -/
def BindingsSoFar.Distinct (state : BindingsSoFar) : Prop := ∀ owner, (state.namesOf owner).Nodup

theorem BindingsSoFar.namesOf_add_self (state : BindingsSoFar) (owner : TableRef) (b : Binding) :
    (state.add owner b).namesOf owner = state.namesOf owner ++
      [freeName (state.namesOf owner).contains (state.namesOf owner).length b.name] := by
  simp [namesOf, BindingsSoFar.add]

theorem BindingsSoFar.namesOf_add_of_ne (state : BindingsSoFar) {owner other : TableRef} (apart : owner ≠ other)
    (b : Binding) : (state.add owner b).namesOf other = state.namesOf other := by
  simp [namesOf, BindingsSoFar.add, apart]

theorem BindingsSoFar.Distinct.add {state : BindingsSoFar} (h : state.Distinct) (owner : TableRef) (b : Binding) :
    (state.add owner b).Distinct := by
  intro other
  by_cases same : owner = other
  · subst same
    have apart : Function.Injective fun k => id (candidate b.name k) :=
      Function.Injective.of_comp (f := segment) (segment_candidate_injective b.name)
    have free : freeName (state.namesOf owner).contains (state.namesOf owner).length b.name ∉ state.namesOf owner :=
      freeName_not_mem apart (state.namesOf owner)
    rw [namesOf_add_self, List.nodup_append]
    refine ⟨h owner, List.nodup_singleton _, fun a ha b' hb same => free ?_⟩
    rwa [← List.mem_singleton.1 hb, ← same]
  · rw [namesOf_add_of_ne state same]
    exact h other

theorem bindings_distinct (m : Model) (mode : RelationshipMode) (names : List (TableRef × String)) :
    (bindings m mode names).Distinct := by
  unfold bindings
  refine List.foldlRecOn (motive := BindingsSoFar.Distinct) _ _ (fun _ => List.nodup_nil) ?_
  intro state before r _
  unfold bindRelationship
  split
  · exact (before.add _ _).add _ _
  · exact before
  · exact before

end

/-! ## What resources get -/

/-- what the resource of a table has from it, its name and its bindings -/
structure HeldBy (names : List (TableRef × String)) (bound : List (TableRef × Binding)) (t : Table) (R : Resource) :
    Prop where
  ref : R.ref = t.ref
  name : R.name = (nameOf? names R.ref).getD ""
  bindings : R.bindings = (bound.filter (·.1 == R.ref)).map (·.2)

/-- the table of a resource, and what is found while it is made -/
theorem resource_eq_ok {s : Settings} {d : Dialect} {names : List (TableRef × String)}
    {bound : List (TableRef × Binding)} {t : Table} {R : Resource} {findings : Findings}
    (h : resource s d names bound t = .ok (R, findings)) : R.ref = t.ref ∧ ∃ rules warnings,
      validationRules d t = .ok (rules, warnings) ∧
        findings = if R.identity.isEmpty then identityFinding R.name t :: warnings else warnings := by
  unfold resource at h
  simp only [bind_eq_ok_iff] at h
  obtain ⟨parameters, -, ⟨rules, warnings⟩, made, h⟩ := h
  by_cases nameless : (nameOf? names t.ref).getD "" = ""
  · simp only [nameless, if_true, bind_eq_ok_iff, throw_eq_ok_iff, false_and, exists_false] at h
  · simp only [if_neg nameless] at h
    obtain ⟨rfl, rfl⟩ := Prod.mk.inj (pure_eq_ok_iff.1 h)
    exact ⟨rfl, rules, warnings, made, rfl⟩

theorem heldBy_of_resource {s : Settings} {d : Dialect} {names : List (TableRef × String)}
    {bound : List (TableRef × Binding)} {t : Table} {R : Resource} {findings : Findings}
    (h : resource s d names bound t = .ok (R, findings)) : HeldBy names bound t R := by
  have ref := (resource_eq_ok h).1
  have made := madeOf_of_resource h
  exact ⟨ref, ref ▸ made.name, ref ▸ made.bindings⟩

/-! ## Warnings -/

theorem code_of_resourceNames (strategy : NamingStrategy) (tables : List Table) :
    ∀ f ∈ (resourceNames strategy tables).findings, f.code = "RESOURCE_NAME_COLLISION" := by
  unfold resourceNames
  refine List.foldlRecOn (motive := fun state : NamesSoFar => ∀ f ∈ state.findings, f.code = "RESOURCE_NAME_COLLISION")
    _ _ (fun _ none => absurd none List.not_mem_nil) ?_
  intro state before item _
  simp only [nameTable]
  split_ifs
  · exact before
  · exact List.forall_mem_append.2 ⟨before, List.forall_mem_singleton.2 rfl⟩

theorem code_of_conditionRules {d : Dialect} {columns : List String} {expression : String}
    {column table : Option String} {answer : ConditionRules}
    (h : conditionRules d columns expression column table = .ok answer) :
    ∀ f ∈ answer.warning, f.code = "UNTRANSLATED_CHECK" := by
  unfold conditionRules at h
  split at h
  · rw [← Except.ok.inj h]
    exact fun _ none => absurd none (Option.not_mem_none _)
  · contradiction
  · rw [← Except.ok.inj h]
    exact fun f hf => Option.some.inj hf ▸ rfl

theorem code_of_validationRules {d : Dialect} {t : Table} {rules : List ValidationRule} {findings : Findings}
    (h : validationRules d t = .ok (rules, findings)) : ∀ f ∈ findings, f.code = "UNTRANSLATED_CHECK" := by
  simp only [validationRules, bind_eq_ok_iff, pure_eq_ok_iff, Prod.mk.injEq] at h
  obtain ⟨checks, made, -, rfl⟩ := h
  intro f hf
  obtain ⟨answer, ha, warning⟩ := List.mem_filterMap.1 hf
  obtain ⟨_, -, run⟩ := exists_of_mem_mapM made ha
  exact code_of_conditionRules run f warning

theorem code_of_resource {s : Settings} {d : Dialect} {names : List (TableRef × String)}
    {bound : List (TableRef × Binding)} {t : Table} {R : Resource} {findings : Findings}
    (h : resource s d names bound t = .ok (R, findings)) :
    ∀ f ∈ findings, f.code = "NO_IDENTITY" ∨ f.code = "UNTRANSLATED_CHECK" := by
  obtain ⟨-, rules, warnings, made, rfl⟩ := resource_eq_ok h
  have checks : ∀ f ∈ warnings, f.code = "NO_IDENTITY" ∨ f.code = "UNTRANSLATED_CHECK" :=
    fun f hf => Or.inr (code_of_validationRules made f hf)
  split_ifs
  · exact List.forall_mem_cons.2 ⟨Or.inl rfl, checks⟩
  · exact checks

theorem code_of_adds {names : List (TableRef × String)} {r : Relationship}
    {added : List (TableRef × Binding) × Findings} (h : Adds names r added) :
    ∀ f ∈ added.2, f.code = "RELATIONSHIP_NOT_EXPOSED" := by
  cases h with
  | bindings => exact fun _ none => absurd none List.not_mem_nil
  | fromUnnamed => exact List.forall_mem_singleton.2 rfl
  | toUnnamed => exact List.forall_mem_singleton.2 rfl

theorem code_of_bindings (m : Model) (mode : RelationshipMode) (names : List (TableRef × String)) :
    ∀ f ∈ (bindings m mode names).findings, f.code = "RELATIONSHIP_NOT_EXPOSED" := by
  obtain ⟨added, adds, -, found⟩ := bindings_adds m mode names
  rw [found]
  intro f hf
  obtain ⟨some, hs, hf⟩ := List.mem_flatMap.1 hf
  obtain ⟨r, -, one⟩ := exists_of_mem_forall₂ adds hs
  exact code_of_adds one f hf

/-- what resources are made of, and the warnings about relationships -/
theorem heldBy_of_infer {s : Settings} {m : Model} {description : Description} {findings : Findings}
    (inferred : infer s m = .ok (description, findings)) :
    List.Forall₂ (HeldBy (modelNames s m) (bindings m s.mode (modelNames s m)).bindings) (resourceTables m)
      description.resources ∧
    findings.withCode "RELATIONSHIP_NOT_EXPOSED" = (bindings m s.mode (modelNames s m)).findings := by
  unfold infer at inferred
  split_ifs at inferred
  split at inferred
  · rename_i rs found derived
    obtain ⟨rfl, rfl⟩ := Prod.mk.inj (Except.ok.inj inferred)
    simp only [resources, bind_eq_ok_iff, pure_eq_ok_iff, Prod.mk.injEq] at derived
    obtain ⟨built, made, rfl, rfl⟩ := derived
    constructor
    · rw [List.forall₂_map_right_iff]
      exact (forall₂_of_mapM_eq_ok made).imp fun t result one => heldBy_of_resource one
    · have first : ∀ f ∈ (resourceNames s.naming (resourceTables m)).findings, f.code ≠ "RELATIONSHIP_NOT_EXPOSED" := by
        intro f hf
        rw [code_of_resourceNames _ _ f hf]
        decide
      have last : ∀ f ∈ built.flatMap (·.2), f.code ≠ "RELATIONSHIP_NOT_EXPOSED" := by
        intro f hf
        obtain ⟨⟨R, warnings⟩, hR, hf⟩ := List.mem_flatMap.1 hf
        obtain ⟨t, -, run⟩ := exists_of_mem_mapM made hR
        rcases code_of_resource run f hf with code | code <;> rw [code] <;> decide
      have own := Findings.withCode_eq_self (code_of_bindings m s.mode (modelNames s m))
      change Findings.withCode ((resourceNames s.naming (resourceTables m)).findings ++
        (bindings m s.mode (modelNames s m)).findings ++ built.flatMap (·.2)) _ = _
      rw [Findings.withCode_append, Findings.withCode_append, Findings.withCode_eq_nil first, own,
        Findings.withCode_eq_nil last, List.nil_append, List.append_nil]
  · contradiction

/-! ## Both sides -/

/-- the resources of a table -/
def holders (rs : List Resource) (ref : TableRef) : List Resource := rs.filter fun R => R.ref == ref

/-- the bindings of all resources, each with its resource -/
def allBindings (rs : List Resource) : List (Resource × Binding) := rs.flatMap fun R => R.bindings.map (R, ·)

/-- A relationship has a binding on the resource of each side, which lead to each other; or there is a warning about a
side that is no resource. -/
inductive Shares (rs : List Resource) (r : Relationship) : List (Resource × Binding) × Findings → Prop
  | bindings {source target : Resource} {outgoing incoming : Binding} (fromExposed : source ∈ rs)
      (toExposed : target ∈ rs) (fromRef : source.ref = r.fromTable) (toRef : target.ref = r.toTable)
      (coincide : r.fromTable = r.toTable → source = target)
      (mirrors : Mirrors r source.name target.name outgoing incoming) :
      Shares rs r ([(source, outgoing), (target, incoming)], [])
  | warning {missing : TableRef} (side : missing = r.fromTable ∨ missing = r.toTable)
      (absent : ∀ R ∈ rs, R.ref ≠ missing) : Shares rs r ([], [unexposedFinding r missing])

/-- there are the bindings and the warnings of the relationships, and no others -/
def Symmetric (m : Model) (rs : List Resource) (findings : Findings) : Prop := ∃ shares,
  List.Forall₂ (Shares rs) m.relationships shares ∧ (allBindings rs).Perm (shares.flatMap (·.1)) ∧
    findings.withCode "RELATIONSHIP_NOT_EXPOSED" = shares.flatMap (·.2)

/-- A relationship has a binding on each resource of its sides; or there is a warning about a side that is no
resource. -/
inductive Spreads (rs : List Resource) (r : Relationship) : List (Resource × Binding) × Findings → Prop
  | bindings {outgoing incoming : Binding} (fromExposed : holders rs r.fromTable ≠ [])
      (toExposed : holders rs r.toTable ≠ []) (mirrors : ∀ source ∈ holders rs r.fromTable,
        ∀ target ∈ holders rs r.toTable, Mirrors r source.name target.name outgoing incoming) :
      Spreads rs r ((holders rs r.fromTable).map (·, outgoing) ++ (holders rs r.toTable).map (·, incoming), [])
  | warning {missing : TableRef} (side : missing = r.fromTable ∨ missing = r.toTable)
      (absent : ∀ R ∈ rs, R.ref ≠ missing) : Spreads rs r ([], [unexposedFinding r missing])

section

variable {rs : List Resource}

theorem mem_holders {ref : TableRef} {R : Resource} : R ∈ holders rs ref ↔ R ∈ rs ∧ R.ref = ref := by
  rw [holders, List.mem_filter, beq_iff_eq]

theorem holders_ne_nil {ref : TableRef} : holders rs ref ≠ [] ↔ ∃ R ∈ rs, R.ref = ref := by
  constructor
  · intro some
    obtain ⟨R, hR⟩ := List.exists_mem_of_ne_nil _ some
    exact ⟨R, mem_holders.1 hR⟩
  · rintro ⟨R, hR⟩
    exact List.ne_nil_of_mem (mem_holders.2 hR)

theorem map_filter_eq_flatMap {α β : Type} (p : α → Bool) (f : α → β) (l : List α) :
    (l.filter p).map f = l.flatMap fun a => if p a then [f a] else [] := by
  induction l with
  | nil => rfl
  | cons a l ih =>
    rw [List.filter_cons, List.flatMap_cons, ← ih]
    cases p a <;> rfl

theorem flatMap_flatMap_perm {α β γ : Type} (xs : List α) (ys : List β) (f : α → β → List γ) :
    (xs.flatMap fun x => ys.flatMap (f x)).Perm (ys.flatMap fun y => xs.flatMap (f · y)) := by
  have swap := Multiset.bind_bind (xs : Multiset α) (ys : Multiset β) (f := fun x y => (f x y : Multiset γ))
  simpa only [Multiset.coe_bind, Multiset.coe_eq_coe] using swap

/-- what resources have is what was added, for each of the resources that the table has -/
theorem allBindings_perm {names : List (TableRef × String)} {bound : List (TableRef × Binding)} {tables : List Table}
    (held : List.Forall₂ (HeldBy names bound) tables rs) :
    (allBindings rs).Perm (bound.flatMap fun entry => (holders rs entry.1).map (·, entry.2)) := by
  have own : ∀ R ∈ rs, R.bindings.map (R, ·) =
      bound.flatMap fun entry => if entry.1 == R.ref then [(R, entry.2)] else [] := by
    intro R hR
    obtain ⟨t, -, one⟩ := exists_of_mem_forall₂ held hR
    rw [one.bindings, List.map_map]
    exact map_filter_eq_flatMap _ _ _
  have swapped : ∀ entry ∈ bound, (rs.flatMap fun R => if entry.1 == R.ref then [(R, entry.2)] else []) =
      (holders rs entry.1).map (·, entry.2) := by
    intro entry _
    rw [holders, map_filter_eq_flatMap]
    exact List.flatMap_congr fun R _ => by rw [BEq.comm]
  calc List.Perm (allBindings rs)
        (rs.flatMap fun R => bound.flatMap fun entry => if entry.1 == R.ref then [(R, entry.2)] else []) :=
        .of_eq (List.flatMap_congr own)
    List.Perm _ (bound.flatMap fun entry => rs.flatMap fun R => if entry.1 == R.ref then [(R, entry.2)] else []) :=
        flatMap_flatMap_perm ..
    List.Perm _ (bound.flatMap fun entry => (holders rs entry.1).map (·, entry.2)) :=
        .of_eq (List.flatMap_congr swapped)

theorem nameOf?_eq_none_iff {names : List (TableRef × String)} {ref : TableRef} :
    nameOf? names ref = none ↔ ref ∉ names.map (·.1) := by
  rw [nameOf?, List.lookup_eq_none_iff, List.mem_map, not_exists]
  refine forall_congr' fun entry => ?_
  rw [List.mem_reverse, not_and, bne_iff_ne, ne_comm]

variable {s : Settings} {m : Model} {description : Description} {findings : Findings}

/-- a table has a name exactly if it has a resource -/
theorem nameOf?_eq_none_iff_absent {bound : List (TableRef × Binding)}
    (held : List.Forall₂ (HeldBy (modelNames s m) bound) (resourceTables m) rs) {ref : TableRef} :
    nameOf? (modelNames s m) ref = none ↔ ∀ R ∈ rs, R.ref ≠ ref := by
  have refs : (modelNames s m).map (·.1) = rs.map (·.ref) :=
    (resourceNames_given s.naming (resourceTables m)).refs.trans
      (map_eq_map_of_forall₂ (held.imp fun t R one => one.ref.symm))
  rw [nameOf?_eq_none_iff, refs, List.mem_map]
  simp

/-- each relationship is on every resource of its sides, or reported -/
theorem spreads_of_infer (inferred : infer s m = .ok (description, findings)) : ∃ shares,
    List.Forall₂ (Spreads description.resources) m.relationships shares ∧
      (allBindings description.resources).Perm (shares.flatMap (·.1)) ∧
      findings.withCode "RELATIONSHIP_NOT_EXPOSED" = shares.flatMap (·.2) := by
  obtain ⟨held, warned⟩ := heldBy_of_infer inferred
  obtain ⟨added, adds, bound, found⟩ := bindings_adds m s.mode (modelNames s m)
  have named : ∀ {ref : TableRef} {name : String}, nameOf? (modelNames s m) ref = some name →
      holders description.resources ref ≠ [] ∧ ∀ R ∈ holders description.resources ref, R.name = name := by
    intro ref name isIt
    constructor
    · intro none
      have absent : ∀ R ∈ description.resources, R.ref ≠ ref := fun R hR same =>
        List.ne_nil_of_mem (mem_holders.2 ⟨hR, same⟩) none
      rw [(nameOf?_eq_none_iff_absent held).2 absent] at isIt
      contradiction
    · intro R hR
      obtain ⟨inside, rfl⟩ := mem_holders.1 hR
      obtain ⟨t, -, one⟩ := exists_of_mem_forall₂ held inside
      rw [one.name, isIt, Option.getD_some]
  refine ⟨added.map fun one => (one.1.flatMap fun entry =>
    (holders description.resources entry.1).map (·, entry.2), one.2), ?_, ?_, ?_⟩
  · rw [List.forall₂_map_right_iff]
    refine adds.imp fun r one h => ?_
    cases h with
    | bindings fromNamed toNamed mirrors =>
      obtain ⟨fromExposed, source⟩ := named fromNamed
      obtain ⟨toExposed, target⟩ := named toNamed
      simp only [List.flatMap_cons, List.flatMap_nil, List.append_nil]
      refine .bindings fromExposed toExposed fun R hR R' hR' => ?_
      rwa [source R hR, target R' hR']
    | fromUnnamed absent => exact .warning (.inl rfl) ((nameOf?_eq_none_iff_absent held).1 absent)
    | toUnnamed _ absent => exact .warning (.inr rfl) ((nameOf?_eq_none_iff_absent held).1 absent)
  · rw [List.flatMap_map]
    have spread := allBindings_perm held
    rwa [bound, List.flatMap_assoc] at spread
  · rw [warned, found, List.flatMap_map]

/-- both sides of the relationship have resources -/
def Exposed (rs : List Resource) (r : Relationship) : Prop :=
  holders rs r.fromTable ≠ [] ∧ holders rs r.toTable ≠ []

instance (rs : List Resource) (r : Relationship) : Decidable (Exposed rs r) :=
  inferInstanceAs (Decidable (_ ∧ _))

/-- no side of an exposed relationship has a second resource -/
def SingleSided (m : Model) (rs : List Resource) : Prop := ∀ r ∈ m.relationships, Exposed rs r →
  (holders rs r.fromTable).length = 1 ∧ (holders rs r.toTable).length = 1

instance (m : Model) (rs : List Resource) : Decidable (SingleSided m rs) :=
  inferInstanceAs (Decidable (∀ r ∈ m.relationships, _ → _))

theorem not_exposed {r : Relationship} {missing : TableRef} (side : missing = r.fromTable ∨ missing = r.toTable)
    (absent : ∀ R ∈ rs, R.ref ≠ missing) : ¬ Exposed rs r := by
  have none : holders rs missing = [] := by
    by_contra some
    obtain ⟨R, hR, same⟩ := holders_ne_nil.1 some
    exact absent R hR same
  rcases side with rfl | rfl
  · exact fun h => h.1 none
  · exact fun h => h.2 none

theorem Exposed.two_le {r : Relationship} (h : Exposed rs r) :
    2 ≤ (holders rs r.fromTable).length + (holders rs r.toTable).length :=
  Nat.add_le_add (List.length_pos_iff.2 h.1) (List.length_pos_iff.2 h.2)

theorem Shares.length {r : Relationship} {share : List (Resource × Binding) × Findings} (h : Shares rs r share) :
    share.1.length = if Exposed rs r then 2 else 0 := by
  cases h with
  | bindings fromExposed toExposed fromRef toRef =>
    exact (if_pos ⟨holders_ne_nil.2 ⟨_, fromExposed, fromRef⟩, holders_ne_nil.2 ⟨_, toExposed, toRef⟩⟩).symm
  | warning side absent => exact (if_neg (not_exposed side absent)).symm

theorem Spreads.length {r : Relationship} {share : List (Resource × Binding) × Findings} (h : Spreads rs r share) :
    share.1.length =
      if Exposed rs r then (holders rs r.fromTable).length + (holders rs r.toTable).length else 0 := by
  cases h with
  | bindings fromExposed toExposed =>
    rw [if_pos ⟨fromExposed, toExposed⟩, List.length_append, List.length_map, List.length_map]
  | warning side absent => exact (if_neg (not_exposed side absent)).symm

/-- where each side has one resource, a binding on each resource of a side is one binding -/
theorem Spreads.shares {r : Relationship} {share : List (Resource × Binding) × Findings} (h : Spreads rs r share)
    (single : Exposed rs r → (holders rs r.fromTable).length = 1 ∧ (holders rs r.toTable).length = 1) :
    Shares rs r share := by
  cases h with
  | bindings fromExposed toExposed mirrors =>
    obtain ⟨one, one'⟩ := single ⟨fromExposed, toExposed⟩
    obtain ⟨source, fromOnly⟩ := List.length_eq_one_iff.1 one
    obtain ⟨target, toOnly⟩ := List.length_eq_one_iff.1 one'
    obtain ⟨fromHas, fromRef⟩ := mem_holders.1 (fromOnly ▸ List.mem_singleton_self source)
    obtain ⟨toHas, toRef⟩ := mem_holders.1 (toOnly ▸ List.mem_singleton_self target)
    rw [fromOnly, toOnly] at mirrors ⊢
    have coincide : r.fromTable = r.toTable → source = target := fun same =>
      List.singleton_inj.1 (fromOnly.symm.trans (same ▸ toOnly))
    exact .bindings fromHas toHas fromRef toRef coincide
      (mirrors source (List.mem_singleton_self source) target (List.mem_singleton_self target))
  | warning side absent => exact .warning side absent

theorem length_flatMap_of_forall₂ {α β γ : Type} {R : α → List β × γ → Prop} {size : α → Nat} {l : List α}
    {shares : List (List β × γ)} (each : List.Forall₂ R l shares)
    (sized : ∀ a share, R a share → share.1.length = size a) :
    (shares.flatMap (·.1)).length = (l.map size).sum := by
  rw [List.length_flatMap]
  exact congrArg List.sum (map_eq_map_of_forall₂ (each.imp fun a share h => (sized a share h).symm)).symm

/-- bindings are counted twice on a table that has two resources -/
theorem symmetric_iff_singleSided {shares : List (List (Resource × Binding) × Findings)}
    (spreads : List.Forall₂ (Spreads rs) m.relationships shares) (all : (allBindings rs).Perm (shares.flatMap (·.1)))
    (warned : findings.withCode "RELATIONSHIP_NOT_EXPOSED" = shares.flatMap (·.2)) :
    Symmetric m rs findings ↔ SingleSided m rs := by
  constructor
  · rintro ⟨pairs, symmetric, all', -⟩ r hr exposed
    -- The resources have as many bindings by one account as by the other. Each exposed relationship gives two in the
    -- first and at least two in the second, so it gives two in both.
    by_contra several
    have spread := all.length_eq.trans (length_flatMap_of_forall₂ spreads fun _ _ h => h.length)
    have paired := all'.length_eq.trans (length_flatMap_of_forall₂ symmetric fun _ _ h => h.length)
    refine absurd (paired.symm.trans spread) (Nat.ne_of_lt (List.sum_lt_sum _ _ ?_ ⟨r, hr, ?_⟩))
    · intro r' _
      split_ifs with exposed'
      · exact exposed'.two_le
      · exact Nat.le_refl 0
    · have source := List.length_pos_iff.2 exposed.1
      have target := List.length_pos_iff.2 exposed.2
      rw [if_pos exposed, if_pos exposed]
      omega
  · intro single
    have both := (List.forall₂_and_left m.relationships shares).2 ⟨single, spreads⟩
    exact ⟨shares, both.imp fun r share h => h.2.shares h.1, all, warned⟩

/-- Deriving an interface puts each relationship whose sides both have resources on every resource of both sides, and
reports each other relationship; there are no other bindings, and no two bindings of a resource have the same name.
So a relationship has one binding on each side, or one warning, exactly if no side of an exposed relationship has two
resources. -/
theorem infer_symmetric_iff (inferred : infer s m = .ok (description, findings)) :
    (∃ shares, List.Forall₂ (Spreads description.resources) m.relationships shares ∧
      (allBindings description.resources).Perm (shares.flatMap (·.1)) ∧
      findings.withCode "RELATIONSHIP_NOT_EXPOSED" = shares.flatMap (·.2)) ∧
    (∀ R ∈ description.resources, (R.bindings.map (·.name)).Nodup) ∧
    (Symmetric m description.resources findings ↔ SingleSided m description.resources) := by
  obtain ⟨shares, spreads, all, warned⟩ := spreads_of_infer inferred
  refine ⟨⟨shares, spreads, all, warned⟩, fun R hR => ?_, symmetric_iff_singleSided spreads all warned⟩
  obtain ⟨t, -, one⟩ := exists_of_mem_forall₂ (heldBy_of_infer inferred).1 hR
  have distinct := bindings_distinct m s.mode (modelNames s m) R.ref
  rwa [one.bindings, List.map_map]

/-- tables with different references have one resource each -/
theorem singleSided_of_refs (held : List.Forall₂ (HeldBy (modelNames s m) (bindings m s.mode (modelNames s m)).bindings)
    (resourceTables m) rs) (refs : ((resourceTables m).map (·.ref)).Nodup) : SingleSided m rs := by
  have distinct : (rs.map (·.ref)).Nodup :=
    map_eq_map_of_forall₂ (held.imp fun t R one => one.ref.symm) ▸ refs
  have one : ∀ ref, holders rs ref ≠ [] → (holders rs ref).length = 1 := by
    intro ref some
    have same : ∀ R ∈ holders rs ref, R.ref = ref := fun R hR => (mem_holders.1 hR).2
    have within : ((holders rs ref).map (·.ref)).Nodup := (List.filter_sublist.map _).nodup distinct
    rw [List.map_congr_left same, List.map_const', List.nodup_replicate] at within
    exact Nat.le_antisymm within (List.length_pos_iff.2 some)
  exact fun r _ exposed => ⟨one _ exposed.1, one _ exposed.2⟩

/-- in the description of a model without errors, whatever schema it is restricted to, each relationship has a binding
on each of its sides, or one warning -/
theorem infer_symmetric {d : Dialect} {statements : List Statement} (clear : Workspace.Unambiguous d statements)
    {schemaFilter : Option String} {b : Built} (built : buildModel d schemaFilter statements = .ok b)
    (inferred : infer s b.model = .ok (description, findings)) :
    Symmetric b.model description.resources findings := by
  obtain ⟨shares, spreads, all, warned⟩ := spreads_of_infer inferred
  refine (symmetric_iff_singleSided spreads all warned).2 ?_
  have valid : b.model.isValid = true := by
    unfold infer at inferred
    split_ifs at inferred with valid
    exact valid
  have sound := soundTables_of_valid clear built valid
  exact singleSided_of_refs (heldBy_of_infer inferred).1 ((List.filter_sublist.map _).nodup sound.wellFormed.refs)

end

/-- people, some of them the chiefs of others, the teams that they are members of, and the badges of members -/
def peopleAndTeams : List Statement := [
  linkedTable "person" ["person"], linkedTable "team" [], linkedTable "member" ["person", "team"],
  linkedTable "badge" ["member", "team", "person"]]

theorem infer_symmetric_iff_peopleAndTeams : ∃ b description findings, buildModel .sqlite none peopleAndTeams = .ok b ∧
    infer {} b.model = .ok (description, findings) ∧
    description.resources.map (fun R => (R.name, R.bindings.map (·.name))) =
      [("person", ["person", "person_2", "team", "badge"]), ("team", ["person", "badge"]),
        ("badge", ["team", "person"])] ∧
    (∀ R ∈ description.resources, (R.bindings.map (·.name)).Nodup) ∧
    Symmetric b.model description.resources findings := by
  have complete : (buildModel .sqlite none peopleAndTeams).toOption.bind (fun b =>
      (infer {} b.model).toOption.map fun (description, _) =>
        (description.resources.map (fun R => (R.name, R.bindings.map (·.name))),
          decide (SingleSided b.model description.resources))) =
      some ([("person", ["person", "person_2", "team", "badge"]), ("team", ["person", "badge"]),
        ("badge", ["team", "person"])], true) := by
    decide +kernel
  obtain ⟨b, built, complete⟩ := Option.bind_eq_some_iff.1 complete
  obtain ⟨⟨description, findings⟩, inferred, complete⟩ := Option.map_eq_some_iff.1 complete
  obtain ⟨named, single⟩ := Prod.mk.inj complete
  have inferred := toOption_eq_some_iff.1 inferred
  obtain ⟨-, distinct, symmetric⟩ := infer_symmetric_iff inferred
  exact ⟨b, description, findings, toOption_eq_some_iff.1 built, inferred, named, distinct,
    symmetric.2 (of_decide_eq_true single)⟩

/-- two tables of the same name and schema, since an empty schema is stored as the one that is meant without any -/
def twoTablesOfOneName : List Statement := [linkedTable "t" [] (some ""), linkedTable "t" [], linkedTable "a" ["t"]]

/-- the one relationship has a binding on both of the resources -/
theorem not_symmetric_of_emptySchema : ∃ b description findings,
    buildModel .postgresql none twoTablesOfOneName = .ok b ∧ infer {} b.model = .ok (description, findings) ∧
    description.resources.map (fun R => (R.name, R.bindings.map (·.targetResource))) =
      [("public_t_2", ["a"]), ("public_t_2", ["a"]), ("a", ["public_t_2"])] ∧
    b.model.relationships.length = 1 ∧ ¬ Symmetric b.model description.resources findings := by
  have complete : (buildModel .postgresql none twoTablesOfOneName).toOption.bind (fun b =>
      (infer {} b.model).toOption.map fun (description, _) =>
        (description.resources.map (fun R => (R.name, R.bindings.map (·.targetResource))),
          b.model.relationships.length, decide (SingleSided b.model description.resources))) =
      some ([("public_t_2", ["a"]), ("public_t_2", ["a"]), ("a", ["public_t_2"])], 1, false) := by
    decide +kernel
  obtain ⟨b, built, complete⟩ := Option.bind_eq_some_iff.1 complete
  obtain ⟨⟨description, findings⟩, inferred, complete⟩ := Option.map_eq_some_iff.1 complete
  obtain ⟨targets, count, several⟩ := by simpa only [Prod.mk.injEq] using complete
  have inferred := toOption_eq_some_iff.1 inferred
  obtain ⟨shares, spreads, all, warned⟩ := spreads_of_infer inferred
  refine ⟨b, description, findings, toOption_eq_some_iff.1 built, inferred, targets, count, fun symmetric => ?_⟩
  exact of_decide_eq_false several ((symmetric_iff_singleSided spreads all warned).1 symmetric)

end Api
end SchemaApi
