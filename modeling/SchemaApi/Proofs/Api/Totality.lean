import SchemaApi.Proofs.Api.Closure
import SchemaApi.Script
/-!
When an interface is derived from a model without errors.

Not always. What may be missing is one of three things for the resource of a table (`Api.Derivable`): a column of
its key, when a column was replaced by one of another spelling where case does not count; its name, when that is
`s` and is put into the singular; the rules of a condition, when a numeral is too long to be read. Where none of
these happens to any table, the interface is derived.
-/

namespace SchemaApi

/-! ## Runs over lists -/

theorem exists_mapM_eq_ok_iff {ε α β : Type} {f : α → Except ε β} {l : List α} :
    (∃ r, l.mapM f = .ok r) ↔ ∀ a ∈ l, ∃ b, f a = .ok b := by
  constructor
  · rintro ⟨r, run⟩ a ha
    obtain ⟨b, -, done⟩ := exists_of_mem_forall₂ (forall₂_of_mapM_eq_ok run).flip ha
    exact ⟨b, done⟩
  · intro each
    cases run : l.mapM f with
    | ok r => exact ⟨r, rfl⟩
    | error e =>
      obtain ⟨before, a, after, rfl, -, failed⟩ := mapM_eq_error_iff.1 run
      obtain ⟨b, done⟩ := each a (by simp)
      rw [failed] at done
      contradiction

/-! ## Conditions -/

/-- there is an answer on a condition over columns -/
def Readable (d : Dialect) (columns : List String) (expression : String) : Prop :=
  Tokenizes d expression ∧ ¬ OversizedCondition d columns expression

theorem exists_conditionRules_iff {d : Dialect} {columns : List String} {expression : String}
    {column table : Option String} :
    (∃ answer, conditionRules d columns expression column table = .ok answer) ↔ Readable d columns expression := by
  constructor
  · rintro ⟨answer, given⟩
    have fine : ∀ r, rulesOf d columns expression ≠ .error (.refused r) := by
      intro r refused
      rw [conditionRules, refused] at given
      contradiction
    have tokenizes : Tokenizes d expression := by
      intro place fault
      refine fine .noNumeral ?_
      simp only [rulesOf, fault]
      rfl
    refine ⟨tokenizes, fun oversized => ?_⟩
    obtain ⟨r, refused⟩ := (rulesOf_refused_iff tokenizes).2 oversized
    exact fine r refused
  · rintro ⟨tokenizes, sized⟩
    cases made : rulesOf d columns expression with
    | ok rules => exact ⟨{ rules := rules }, by rw [conditionRules, made]⟩
    | error e =>
      cases e with
      | refused r => exact absurd ((rulesOf_refused_iff tokenizes).1 ⟨r, made⟩) sized
      | unsupported => exact ⟨_, by rw [conditionRules, made]⟩

/-! ## Names -/

namespace Naming

theorem withCaseOf_ne_nil {pattern replacement : List Char} (filled : replacement ≠ []) :
    withCaseOf pattern replacement ≠ [] := by
  unfold withCaseOf
  split_ifs
  · cases replacement with
    | nil => exact absurd rfl filled
    | cons c rest => exact List.cons_ne_nil _ _
  · exact filled

theorem ofList_append_withCaseOf_ne_empty {head word : List Char} {other : String} (filled : other ≠ "") :
    String.ofList (head ++ withCaseOf word other.toList) ≠ "" := by
  have some := @withCaseOf_ne_nil word other.toList (by simpa using filled)
  intro empty
  rw [String.ofList_eq_empty_iff, List.append_eq_nil_iff] at empty
  exact some empty.2

/-- a replaced ending leaves nothing only if all goes and nothing comes -/
theorem replaceEnding_eq_empty {name : String} {ending : Nat × String} (empty : replaceEnding name ending = "") :
    name.length ≤ ending.1 ∧ ending.2 = "" := by
  rw [replaceEnding, String.append_eq_empty_iff, String.ofList_eq_empty_iff, List.take_eq_nil_iff] at empty
  obtain ⟨gone | none, nothing⟩ := empty
  · exact ⟨by omega, nothing⟩
  · rw [String.toList_eq_nil_iff] at none
    rw [none]
    exact ⟨Nat.zero_le _, nothing⟩

theorem plural_ne_empty {name : String} (filled : name ≠ "") : plural name ≠ "" := by
  have others : ∀ entry ∈ irregular, entry.2 ≠ "" := by decide
  intro empty
  simp only [plural] at empty
  split at empty
  · exact filled empty
  · split at empty
    · exact filled empty
    · split at empty
      · rename_i other found
        obtain ⟨before, after, split, -⟩ := List.lookup_eq_some_iff.1 found
        have member : (_, other) ∈ irregular := split ▸ List.mem_append_right before List.mem_cons_self
        exact ofList_append_withCaseOf_ne_empty (others _ member) empty
      · split_ifs at empty
        · exact filled empty
        · have ending := (replaceEnding_eq_empty empty).2
          unfold pluralEnding at ending
          split_ifs at ending <;> simp at ending

/-- the last word of a name is a part of it -/
theorem splitLast_sublist (name : List Char) : (splitLast name).2.Sublist name := by
  have word : ∀ cs : List Char, cs.Sublist name.reverse → (cs.takeWhile Char.isAlpha).reverse.Sublist name := by
    intro cs part
    have taken := ((List.takeWhile_sublist Char.isAlpha).trans part).reverse
    rwa [List.reverse_reverse] at taken
  refine word _ ?_
  split
  · rename_i before reversed
    rw [reversed]
    exact List.sublist_cons_self _ _
  · exact List.Sublist.refl _

theorem eq_of_toLower_eq_s {c : Char} (h : c.toLower = 's') : c = 's' ∨ c = 'S' := by
  unfold Char.toLower at h
  split_ifs at h with upper
  · right
    have value : c.val + ('a'.val - 'A'.val) = 's'.val := congrArg Char.val h
    have shifted : c.val + ('a'.val - 'A'.val) = 'S'.val + ('a'.val - 'A'.val) := by
      rw [value]
      decide
    exact Char.ext ((UInt32.add_left_inj _).1 shifted)
  · exact Or.inl h

/-- a text that ends in one of some endings is no shorter than the shortest of them -/
theorem length_le_of_endsIn {text : List Char} {endings : List String} {n : Nat} (ends : endsIn text endings = true)
    (long : ∀ e ∈ endings, n ≤ e.length) : n ≤ text.length := by
  obtain ⟨e, he, ending⟩ := List.any_eq_true.1 ends
  have size := (List.isSuffixOf_iff_suffix.1 ending).length_le
  rw [String.length_toList] at size
  exact Nat.le_trans (long e he) size

/-- the only names without a singular are those of one letter -/
theorem singular_eq_empty {name : String} (empty : singular name = "") : name = "" ∨ name = "s" ∨ name = "S" := by
  have others : ∀ entry ∈ irregular, entry.1 ≠ "" := by decide
  have word := (splitLast_sublist name.toList).length_le
  rw [String.length_toList] at word
  simp only [singular] at empty
  split_ifs at empty
  · exact Or.inl empty
  · exact Or.inl empty
  · split at empty
    · rename_i other found
      obtain ⟨entry, seen, rfl⟩ := Option.map_eq_some_iff.1 found
      exact absurd empty (ofList_append_withCaseOf_ne_empty (others entry (List.mem_of_find?_eq_some seen)))
    · obtain ⟨size, ending⟩ := replaceEnding_eq_empty empty
      unfold singularEnding at size ending
      split_ifs at size ending with ies ves es looks
      · simp at ending
      · simp at ending
      · have long := length_le_of_endsIn es (by decide : ∀ e ∈ ["sses", "shes", "ches", "xes", "zes"], 3 ≤ e.length)
        rw [List.length_map] at long
        omega
      · -- a plural of one letter is that letter
        have ends : endsIn ((splitLast name.toList).2.map Char.toLower) ["s"] = true :=
          (Bool.and_eq_true_iff.1 looks).1
        obtain ⟨_, hs, ending⟩ := List.any_eq_true.1 ends
        rw [List.mem_singleton.1 hs, List.isSuffixOf_iff_suffix] at ending
        obtain ⟨c, hc, lower⟩ := List.mem_map.1 (ending.subset (List.mem_singleton.2 rfl : 's' ∈ "s".toList))
        have member := (splitLast_sublist name.toList).subset hc
        have only : name.toList = [c] := by
          obtain ⟨c', single⟩ := List.length_eq_one_iff.1
            (Nat.le_antisymm (by rwa [String.length_toList]) (List.length_pos_of_mem member))
          rw [single] at member ⊢
          rw [List.mem_singleton.1 member]
        rcases eq_of_toLower_eq_s lower with rfl | rfl
        · exact Or.inr (Or.inl (String.toList_inj.1 only))
        · exact Or.inr (Or.inr (String.toList_inj.1 only))
      · exact Or.inl (String.length_eq_zero_iff.1 (Nat.le_zero.1 size))

end Naming

theorem NamingStrategy.apply_ne_empty {strategy : NamingStrategy} {name : String} (filled : name ≠ "")
    (long : strategy = .singular → name ≠ "s" ∧ name ≠ "S") : strategy.apply name ≠ "" := by
  cases strategy with
  | singular =>
    intro empty
    rcases Naming.singular_eq_empty empty with none | small | capital
    · exact filled none
    · exact (long rfl).1 small
    · exact (long rfl).2 capital
  | plural => exact Naming.plural_ne_empty filled
  | passthrough => exact filled

namespace Api

theorem freeName_ne_empty {taken : String → Bool} {count : Nat} {name : String} (filled : name ≠ "") :
    freeName taken count name ≠ "" := by
  obtain ⟨j, found, -⟩ := freeName_eq_candidate taken count name
  rw [found]
  cases j with
  | zero => exact filled
  | succ j => simp [candidate]

theorem wantedName_ne_empty {bases : List String} {t : Table} {base : String} (filled : base ≠ "") :
    wantedName bases t base ≠ "" := by
  unfold wantedName
  split_ifs
  · split
    · exact filled
    · split_ifs
      · exact filled
      · simp [filled]
  · exact filled

/-- names are not empty if no table's name is by the strategy -/
theorem resourceNames_ne_empty {strategy : NamingStrategy} {tables : List Table}
    (filled : ∀ t ∈ tables, strategy.apply t.name ≠ "") :
    ∀ entry ∈ (resourceNames strategy tables).names, entry.2 ≠ "" := by
  have run : ∀ (bases : List String) (items : List (Table × String)) (state : NamesSoFar),
      (∀ item ∈ items, item.2 ≠ "") → (∀ entry ∈ state.names, entry.2 ≠ "") →
      ∀ entry ∈ (items.foldl (nameTable bases) state).names, entry.2 ≠ "" := by
    intro bases items
    induction items with
    | nil => exact fun state _ before => before
    | cons item items ih =>
      intro state filled before
      refine ih _ (fun i hi => filled i (List.mem_cons_of_mem item hi)) fun entry he => ?_
      simp only [nameTable, List.mem_append, List.mem_singleton] at he
      rcases he with old | rfl
      · exact before entry old
      · dsimp only
        exact freeName_ne_empty (wantedName_ne_empty (filled item List.mem_cons_self))
  refine run _ _ {} (fun item hi => ?_) (by simp)
  obtain ⟨base, name⟩ := item
  obtain ⟨t, ht, e⟩ := List.mem_map.1 (List.of_mem_zip hi).2
  rw [← e]
  exact filled t ht

/-! ## Resources -/

section
variable {s : Settings} {d : Dialect} {names : List (TableRef × String)} {bound : List (TableRef × Binding)}
  {t : Table}

theorem exists_pathParameter_iff {name column : String} :
    (∃ p, pathParameter name (t.columns.map (property names t)) column = .ok p) ↔ column ∈ t.columnNames := by
  have same : column ∈ t.columnNames ↔
      ((t.columns.map (property names t)).find? fun p => p.name == column).isSome = true := by
    simp only [List.find?_isSome, List.mem_map, Table.columnNames, beq_iff_eq]
    constructor
    · rintro ⟨c, hc, own⟩
      exact ⟨_, ⟨c, hc, rfl⟩, own⟩
    · rintro ⟨_, ⟨c, hc, rfl⟩, own⟩
      exact ⟨c, hc, own⟩
  rw [same, pathParameter]
  split
  · rename_i absent
    simp [absent]
  · rename_i found
    simp [found]

theorem exists_checkRules_iff : (∃ answers, checkRules d t = .ok answers) ↔
    ∀ name expression column, .check name expression column ∈ t.constraints →
      Readable d t.columnNames expression := by
  rw [checkRules, exists_mapM_eq_ok_iff]
  constructor
  · intro each name expression column hc
    exact exists_conditionRules_iff.1 (each (expression, column) (List.mem_filterMap.2 ⟨_, hc, rfl⟩))
  · rintro each ⟨expression, column⟩ hcheck
    obtain ⟨c, hc, isCheck⟩ := List.mem_filterMap.1 hcheck
    cases c with
    | check name expression' column' =>
      obtain ⟨rfl, rfl⟩ := Prod.mk.inj (Option.some.inj isCheck)
      exact exists_conditionRules_iff.2 (each _ _ _ hc)
    | _ => contradiction

/-- nothing is missing for the resource of a table -/
structure Derivable (d : Dialect) (names : List (TableRef × String)) (t : Table) : Prop where
  /-- items are addressed by columns of the table -/
  addressed : ∀ n ∈ (identity t).1, n ∈ t.columnNames
  named : (nameOf? names t.ref).getD "" ≠ ""
  /-- there is an answer on each condition -/
  readable : ∀ name expression column, .check name expression column ∈ t.constraints →
    Readable d t.columnNames expression

theorem exists_resource_iff : (∃ given, resource s d names bound t = .ok given) ↔ Derivable d names t := by
  constructor
  · rintro ⟨⟨r, findings⟩, given⟩
    have one := madeOf_of_resource given
    obtain ⟨parameters, addressed, -⟩ := one.operations
    obtain ⟨_, ruled⟩ := one.rules
    rw [one.identity, one.properties] at addressed
    simp only [validationRules, bind_eq_ok_iff] at ruled
    obtain ⟨answers, checked, -⟩ := ruled
    refine ⟨fun n hn => ?_, ?_, exists_checkRules_iff.1 ⟨answers, checked⟩⟩
    · exact exists_pathParameter_iff.1 (exists_mapM_eq_ok_iff.1 ⟨parameters, addressed⟩ n hn)
    · intro nameless
      simp only [resource, bind_eq_ok_iff, nameless, if_true, throw_eq_ok_iff, false_and, exists_false,
        and_false] at given
  · rintro ⟨addressed, named, readable⟩
    obtain ⟨parameters, addressed⟩ := exists_mapM_eq_ok_iff.2 fun n hn =>
      (@exists_pathParameter_iff names t ((nameOf? names t.ref).getD "") n).2 (addressed n hn)
    obtain ⟨answers, checked⟩ := exists_checkRules_iff.2 readable
    have ruled : ∃ rules, validationRules d t = .ok rules := by
      rw [validationRules, checked]
      exact ⟨_, rfl⟩
    obtain ⟨⟨rules, findings⟩, ruled⟩ := ruled
    unfold resource
    simp only [addressed, ruled, if_neg named]
    exact ⟨_, rfl⟩

end

/-! ## Models -/

section
variable {d : Dialect} {statements : List Statement} {schemaFilter : Option String} {b : Built}

/-- the tables of a model have names -/
theorem name_ne_empty_of_mem (built : buildModel d schemaFilter statements = .ok b) :
    ∀ t ∈ b.model.tables, t.name ≠ "" := by
  obtain ⟨whole, all, -, tables, -⟩ := buildModel_tables built
  have named : ∀ t ∈ whole.model.tables, t.name ≠ "" := by
    simp only [buildModel, bind_eq_ok_iff, pure_eq_ok_iff] at all
    obtain ⟨w, -, w', -, final, -, finished, finishing, rfl⟩ := all
    intro t ht
    obtain ⟨draft, -, finish⟩ := exists_of_mem_mapM finishing ht
    unfold Draft.finish at finish
    split_ifs at finish with _ nameless
    rw [← Except.ok.inj finish]
    exact nameless
  rw [tables]
  cases schemaFilter with
  | none => exact named
  | some wanted =>
    intro t' ht'
    obtain ⟨t, ht, rfl⟩ := List.mem_map.1 ht'
    exact named t (List.mem_filter.1 ht).1

theorem exists_infer_iff_derivable {s : Settings} {m : Model} (valid : m.isValid = true) :
    (∃ given, infer s m = .ok given) ↔ ∀ t ∈ resourceTables m, Derivable m.dialect (modelNames s m) t := by
  have all : (∃ given, resources s m = .ok given) ↔
      ∀ t ∈ resourceTables m, Derivable m.dialect (modelNames s m) t := by
    have each := @exists_mapM_eq_ok_iff _ _ _
      (resource s m.dialect (modelNames s m) (bindings m s.mode (modelNames s m)).bindings) (resourceTables m)
    simp only [exists_resource_iff] at each
    rw [← each]
    constructor
    · rintro ⟨given, made⟩
      simp only [resources, bind_eq_ok_iff] at made
      obtain ⟨built, made, -⟩ := made
      exact ⟨built, made⟩
    · rintro ⟨built, made⟩
      exact ⟨_, bind_eq_ok_iff.2 ⟨built, made, rfl⟩⟩
  rw [← all, infer, if_pos valid]
  constructor
  · rintro ⟨given, made⟩
    split at made
    · rename_i rs findings derived
      exact ⟨_, derived⟩
    · contradiction
  · rintro ⟨⟨rs, findings⟩, derived⟩
    rw [derived]
    exact ⟨_, rfl⟩

theorem modelNames_ne_empty {s : Settings} (built : buildModel d schemaFilter statements = .ok b)
    (long : s.naming = .singular → ∀ t ∈ b.model.tables, t.name ≠ "s" ∧ t.name ≠ "S") {t : Table}
    (ht : t ∈ resourceTables b.model) : (nameOf? (modelNames s b.model) t.ref).getD "" ≠ "" := by
  have bases : ∀ t ∈ resourceTables b.model, s.naming.apply t.name ≠ "" := by
    intro t ht
    have inside := (List.mem_filter.1 ht).1
    exact NamingStrategy.apply_ne_empty (name_ne_empty_of_mem built t inside) fun singular => long singular t inside
  have filled := resourceNames_ne_empty bases
  have given : t.ref ∈ (modelNames s b.model).map (·.1) := by
    rw [modelNames, (resourceNames_given s.naming (resourceTables b.model)).refs]
    exact List.mem_map_of_mem ht
  cases named : nameOf? (modelNames s b.model) t.ref with
  | none =>
    obtain ⟨entry, he, same⟩ := List.mem_map.1 given
    have absent := List.lookup_eq_none_iff.1 named entry (List.mem_reverse.2 he)
    simp [same] at absent
  | some name =>
    obtain ⟨before, after, split, -⟩ := List.lookup_eq_some_iff.1 named
    have entry : (t.ref, name) ∈ modelNames s b.model := by
      rw [← List.mem_reverse, split]
      simp
    exact filled _ entry

/-- From a model without errors an interface is derived exactly if nothing is missing for any table that becomes
a resource. Columns of keys are missing only where statements are ambiguous, and names only where a table `s` is
put into the singular; else only conditions matter, of which all need an answer. -/
theorem exists_infer_iff (built : buildModel d schemaFilter statements = .ok b) (valid : b.model.isValid = true)
    (s : Settings) :
    ((∃ given, infer s b.model = .ok given) ↔
      ∀ t ∈ resourceTables b.model, Derivable d (modelNames s b.model) t) ∧
    (Workspace.Unambiguous d statements →
      (s.naming = .singular → ∀ t ∈ b.model.tables, t.name ≠ "s" ∧ t.name ≠ "S") →
      ((∃ given, infer s b.model = .ok given) ↔ ∀ t ∈ resourceTables b.model, ∀ name expression column,
        .check name expression column ∈ t.constraints → Readable d t.columnNames expression)) := by
  obtain ⟨whole, -, -, -, dialect, -⟩ := buildModel_tables built
  have derivable := @exists_infer_iff_derivable s b.model valid
  rw [dialect] at derivable
  refine ⟨derivable, fun clear long => ?_⟩
  have sound := (soundTables_of_valid clear built valid).wellFormed
  rw [derivable]
  constructor
  · exact fun each t ht => (each t ht).readable
  · intro each t ht
    exact ⟨mem_of_identity (sound.each t (List.mem_filter.1 ht).1), modelNames_ne_empty built long ht, each t ht⟩

/-- a primary key column replaced by one of another spelling: the model has no errors, and no interface -/
theorem no_interface_of_replaced_key : ∃ b,
    buildModel .mysql none
      (parseScript .mysql none "CREATE TABLE t (Id INT PRIMARY KEY); ALTER TABLE t MODIFY id INT;").statements =
        .ok b ∧
      b.model.isValid = true ∧ ¬ ∃ given, infer {} b.model = .ok given := by
  have failed : (buildModel .mysql none (parseScript .mysql none
      "CREATE TABLE t (Id INT PRIMARY KEY); ALTER TABLE t MODIFY id INT;").statements).toOption.map (fun b =>
        (b.model.isValid, (infer {} b.model).toOption.isSome)) = some (true, false) := by
    decide +kernel
  obtain ⟨b, built, seen⟩ := Option.map_eq_some_iff.1 failed
  obtain ⟨valid, missing⟩ := Prod.mk.inj seen
  refine ⟨b, toOption_eq_some_iff.1 built, valid, ?_⟩
  rintro ⟨given, derived⟩
  rw [derived] at missing
  contradiction

/-- two tables, whose interface is derived although one is put into the singular -/
theorem exists_infer_authorsAndBooks : ∃ b, buildModel .sqlite none authorsAndBooks = .ok b ∧
    ∃ given, infer { naming := .singular } b.model = .ok given := by
  have complete : (buildModel .sqlite none authorsAndBooks).toOption.map (fun b =>
      (b.model.isValid, b.model.tables.all fun t => t.name != "s" && t.name != "S" &&
        t.constraints.all fun c => c.isPrimaryKey || c.foreignKey?.isSome)) = some (true, true) := by
    decide +kernel
  obtain ⟨b, built, seen⟩ := Option.map_eq_some_iff.1 complete
  obtain ⟨valid, plain⟩ := Prod.mk.inj seen
  have built := toOption_eq_some_iff.1 built
  have plain : ∀ t ∈ b.model.tables, (t.name ≠ "s" ∧ t.name ≠ "S") ∧
      ∀ name expression column, .check name expression column ∉ t.constraints := by
    intro t ht
    have one := List.all_eq_true.1 plain t ht
    rw [Bool.and_eq_true, Bool.and_eq_true, bne_iff_ne, bne_iff_ne, List.all_eq_true] at one
    exact ⟨one.1, fun name expression column hc => Bool.false_ne_true (one.2 _ hc)⟩
  refine ⟨b, built, ((exists_infer_iff built valid { naming := .singular }).2 unambiguous_authorsAndBooks
    fun _ t ht => (plain t ht).1).2 fun t ht name expression column hc => ?_⟩
  exact absurd hc ((plain t (List.mem_filter.1 ht).1).2 name expression column)

end

end Api
end SchemaApi
