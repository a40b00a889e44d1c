import SchemaApi.Proofs.Schema.Model
/-!
What `ALTER TABLE ... DROP` takes from a table.

The words behind DROP say what an action may take (`Draft.Drops`): a foreign key, an index or else a unique constraint,
the primary key, or whatever constraint or index has the name. It takes one thing of that kind and leaves the rest of
the table; where the table has none (`Draft.Lacks`), the schema stays as it is and the problem is recorded. The search
for a foreign key asks for the name alone: it takes a constraint of another kind that comes first, and an index if no
constraint has the name. So the law holds exactly if the first constraint of the name is a foreign key
(`Draft.MeansForeignKey`).
-/

namespace SchemaApi

variable {d : Dialect}

/-! ## What a kind names -/

/-- the problem that there is nothing of the kind to drop -/
def ConstraintTarget.missing (target : ConstraintTarget) (label : String) : Problem :=
  match target with
  | .named n => .unknownConstraint label n
  | .primaryKey => .noPrimaryKey label
  | .foreignKey n => .unknownConstraint label n
  | .index n => .unknownConstraint label n

theorem ConstraintTarget.code_missing (target : ConstraintTarget) (label : String) :
    (target.missing label).code = "UNKNOWN_CONSTRAINT" := by
  cases target <;> rfl

/-- the first element that passes a test is taken out of a list, or none passes it -/
theorem any_eraseP_cases {α : Type} (p : α → Bool) (l : List α) :
    (l.any p = true ∧ ∃ before a after, l = before ++ a :: after ∧ l.find? p = some a ∧ l.eraseP p = before ++ after) ∨
      l.any p = false ∧ ∀ a ∈ l, p a = false := by
  cases found : l.any p with
  | true =>
    obtain ⟨a, ha, passes⟩ := List.any_eq_true.1 found
    obtain ⟨a, before, after, others, passes, split, left⟩ := List.exists_of_eraseP ha passes
    have first : l.find? p = some a := List.find?_eq_some_iff_append.2 ⟨passes, before, after, split, by simpa using others⟩
    exact Or.inl ⟨rfl, before, a, after, split, first, left⟩
  | false => exact Or.inr ⟨rfl, fun a ha => Bool.eq_false_iff.2 (List.any_eq_false.1 found a ha)⟩

/-- a foreign key of a name -/
def Constraint.isForeignKeyNamed (d : Dialect) (n : String) (c : Constraint) : Bool :=
  c.foreignKey?.isSome && hasName d c.name n

/-- a unique constraint of a name -/
def Constraint.isUniqueNamed (d : Dialect) (n : String) (c : Constraint) : Bool := c.isUnique && hasName d c.name n

namespace Draft

variable {t t' : Draft} {n : String}

/-- one constraint that passes a test is gone, and nothing else has changed -/
def LosesConstraint (p : Constraint → Bool) (t t' : Draft) : Prop :=
  ∃ before e after, t.constraints = before ++ e :: after ∧ p e.constraint = true ∧
    t' = { t with constraints := before ++ after }

/-- one index that passes a test is gone, and nothing else has changed -/
def LosesIndex (p : Index → Bool) (t t' : Draft) : Prop :=
  ∃ before i after, t.indexes = before ++ i :: after ∧ p i = true ∧ t' = { t with indexes := before ++ after }

def LacksConstraint (p : Constraint → Bool) (t : Draft) : Prop := ∀ e ∈ t.constraints, p e.constraint = false

def LacksIndex (p : Index → Bool) (t : Draft) : Prop := ∀ i ∈ t.indexes, p i = false

/-- what the words behind DROP may take from a table -/
def Drops (d : Dialect) (t t' : Draft) : ConstraintTarget → Prop
  | .named n => t.LosesConstraint (hasName d ·.name n) t' ∨
      t.LacksConstraint (hasName d ·.name n) ∧ t.LosesIndex (hasName d ·.name n) t'
  | .primaryKey => ¬ t.LacksConstraint (·.isPrimaryKey) ∧
      t' = { t with constraints := t.constraints.filter fun e => !e.constraint.isPrimaryKey }
  | .foreignKey n => t.LosesConstraint (·.isForeignKeyNamed d n) t'
  | .index n => t.LosesIndex (hasName d ·.name n) t' ∨
      t.LacksIndex (hasName d ·.name n) ∧ t.LosesConstraint (·.isUniqueNamed d n) t'

/-- the table has nothing that the words behind DROP name -/
def Lacks (d : Dialect) (t : Draft) : ConstraintTarget → Prop
  | .named n => t.LacksConstraint (hasName d ·.name n) ∧ t.LacksIndex (hasName d ·.name n)
  | .primaryKey => t.LacksConstraint (·.isPrimaryKey)
  | .foreignKey n => t.LacksConstraint (·.isForeignKeyNamed d n)
  | .index n => t.LacksIndex (hasName d ·.name n) ∧ t.LacksConstraint (·.isUniqueNamed d n)

/-- a search comes to what the words behind DROP say: to the table without it, or to nothing if there is nothing -/
def Obeys (d : Dialect) (t : Draft) (target : ConstraintTarget) (found : Option Draft) : Prop :=
  (∃ t', found = some t' ∧ t.Drops d t' target) ∨ found = none ∧ t.Lacks d target

/-! ## What is taken -/

/-- the table without what an action drops, if there is something -/
def drop? (d : Dialect) (t : Draft) : ConstraintTarget → Option Draft
  | .named n => t.dropNamed? d n
  | .primaryKey => t.dropPrimaryKey.toOption
  | .foreignKey n => t.dropNamed? d n
  | .index n => t.dropIndexNamed? d n

theorem eraseConstraint?_cases (p : Constraint → Bool) (t : Draft) :
    (∃ t', t.eraseConstraint? p = some t' ∧ t.LosesConstraint p t') ∨
      t.eraseConstraint? p = none ∧ t.LacksConstraint p := by
  unfold eraseConstraint?
  rcases any_eraseP_cases (fun e => p e.constraint) t.constraints with
    ⟨found, before, e, after, split, first, left⟩ | ⟨absent, lacks⟩
  · have passes := List.find?_some first
    rw [if_pos found, left]
    exact Or.inl ⟨_, rfl, before, e, after, split, passes, rfl⟩
  · rw [if_neg (Bool.eq_false_iff.1 absent)]
    exact Or.inr ⟨rfl, lacks⟩

theorem eraseIndex?_cases (n : String) (t : Draft) :
    (∃ t', t.eraseIndex? d n = some t' ∧ t.LosesIndex (hasName d ·.name n) t') ∨
      t.eraseIndex? d n = none ∧ t.LacksIndex (hasName d ·.name n) := by
  unfold eraseIndex?
  rcases any_eraseP_cases (fun i => hasName d i.name n) t.indexes with
    ⟨found, before, i, after, split, first, left⟩ | ⟨absent, lacks⟩
  · have passes := List.find?_some first
    rw [if_pos found, left]
    exact Or.inl ⟨_, rfl, before, i, after, split, passes, rfl⟩
  · rw [if_neg (Bool.eq_false_iff.1 absent)]
    exact Or.inr ⟨rfl, lacks⟩

/-- a constraint of a name is dropped, or else an index, or else there is neither -/
theorem obeys_dropNamed? (n : String) (t : Draft) : t.Obeys d (.named n) (t.dropNamed? d n) := by
  unfold dropNamed?
  rcases t.eraseConstraint?_cases (hasName d ·.name n) with ⟨t', dropped, loses⟩ | ⟨dropped, lacks⟩
  · rw [dropped]
    exact Or.inl ⟨t', rfl, Or.inl loses⟩
  · rw [dropped, Option.none_or]
    rcases t.eraseIndex?_cases (d := d) n with ⟨t', dropped, loses⟩ | ⟨dropped, lacksIndex⟩
    · exact Or.inl ⟨t', dropped, Or.inr ⟨lacks, loses⟩⟩
    · exact Or.inr ⟨dropped, lacks, lacksIndex⟩

theorem obeys_dropIndexNamed? (n : String) (t : Draft) : t.Obeys d (.index n) (t.dropIndexNamed? d n) := by
  unfold dropIndexNamed?
  rcases t.eraseIndex?_cases (d := d) n with ⟨t', dropped, loses⟩ | ⟨dropped, lacks⟩
  · rw [dropped]
    exact Or.inl ⟨t', rfl, Or.inl loses⟩
  · rw [dropped, Option.none_or]
    rcases t.eraseConstraint?_cases (·.isUniqueNamed d n) with ⟨t', dropped, loses⟩ | ⟨dropped, lacksConstraint⟩
    · exact Or.inl ⟨t', dropped, Or.inr ⟨lacks, loses⟩⟩
    · exact Or.inr ⟨dropped, lacks, lacksConstraint⟩

theorem dropPrimaryKey_cases (t : Draft) :
    (∃ t', t.dropPrimaryKey = .ok t' ∧ t.Drops d t' .primaryKey) ∨
      t.dropPrimaryKey = t.problem .noPrimaryKey ∧ t.Lacks d .primaryKey := by
  unfold dropPrimaryKey
  rcases any_eraseP_cases (fun e => e.constraint.isPrimaryKey) t.constraints with
    ⟨found, _, e, _, split, first, -⟩ | ⟨absent, lacks⟩
  · have isKey := List.find?_some first
    rw [if_pos found]
    refine Or.inl ⟨_, rfl, fun lacks => ?_, rfl⟩
    have other := lacks e (split ▸ List.mem_append_right _ List.mem_cons_self)
    exact Bool.noConfusion (other.symm.trans isKey)
  · rw [if_neg (Bool.eq_false_iff.1 absent)]
    exact Or.inr ⟨rfl, lacks⟩

/-! ### Foreign keys -/

/-- the first constraint of a name is a foreign key; if no constraint has the name, no index has it either -/
structure MeansForeignKey (d : Dialect) (t : Draft) (n : String) : Prop where
  first : ∀ e, t.constraints.find? (fun e => hasName d e.constraint.name n) = some e →
    e.constraint.foreignKey?.isSome = true
  indexes : t.LacksConstraint (hasName d ·.name n) → t.LacksIndex (hasName d ·.name n)

/-- a constraint is one fewer of those that pass a test if it passes the test -/
theorem countP_of_take {before after : List Placed} {e : Placed} (q : Placed → Bool) :
    (before ++ e :: after).countP q = (before ++ after).countP q + if q e then 1 else 0 := by
  rw [List.countP_append, List.countP_append, List.countP_cons, Nat.add_assoc]

/-- a table that loses a foreign key has one fewer -/
theorem LosesConstraint.foreignKeys (loses : t.LosesConstraint (·.isForeignKeyNamed d n) t') :
    t.constraints.countP (·.constraint.foreignKey?.isSome) = t'.constraints.countP (·.constraint.foreignKey?.isSome) + 1 := by
  obtain ⟨before, e, after, split, passes, rfl⟩ := loses
  have isKey : e.constraint.foreignKey?.isSome = true := (Bool.and_eq_true_iff.1 passes).1
  rw [split, countP_of_take, if_pos isKey]

/-- where a constraint has the name, the search takes the first that has it -/
theorem obeys_foreignKey_iff_of_first {before after : List Placed} {e : Placed}
    (split : t.constraints = before ++ e :: after)
    (first : t.constraints.find? (fun e => hasName d e.constraint.name n) = some e) :
    t.Obeys d (.foreignKey n) (some { t with constraints := before ++ after }) ↔ t.MeansForeignKey d n := by
  have named := List.find?_some first
  constructor
  · rintro (⟨t', same, loses⟩ | ⟨none, -⟩)
    · refine ⟨fun e' first' => ?_, fun lacks => ?_⟩
      · obtain rfl : e = e' := Option.some.inj (first.symm.trans first')
        by_contra other
        have fewer := loses.foreignKeys
        rw [← Option.some.inj same, split, countP_of_take, if_neg other] at fewer
        exact absurd fewer (by simp)
      · have unnamed := lacks e (split ▸ List.mem_append_right _ List.mem_cons_self)
        exact Bool.noConfusion (unnamed.symm.trans named)
    · simp at none
  · intro means
    have isKey := Bool.and_eq_true_iff.2 ⟨means.first e first, named⟩
    exact Or.inl ⟨_, rfl, before, e, after, split, isKey, rfl⟩

/-- where no constraint has the name, the search takes an index -/
theorem obeys_foreignKey_iff_of_lacks (lacks : t.LacksConstraint (hasName d ·.name n)) :
    t.Obeys d (.foreignKey n) (t.eraseIndex? d n) ↔ t.MeansForeignKey d n := by
  have none : t.constraints.find? (fun e => hasName d e.constraint.name n) = none :=
    List.find?_eq_none.2 fun e he => Bool.eq_false_iff.1 (lacks e he)
  rcases t.eraseIndex?_cases (d := d) n with ⟨t', dropped, before, i, after, split, named, rfl⟩ | ⟨dropped, lacksIndex⟩
  · rw [dropped]
    refine iff_of_false ?_ fun means => ?_
    · rintro (⟨t', same, loses⟩ | ⟨nothing, -⟩)
      · -- an index was dropped, so no constraint is gone
        rw [← Option.some.inj same] at loses
        exact absurd loses.foreignKeys (by simp)
      · simp at nothing
    · have unnamed := means.indexes lacks i (split ▸ List.mem_append_right _ List.mem_cons_self)
      exact Bool.noConfusion (unnamed.symm.trans named)
  · rw [dropped]
    refine iff_of_true (Or.inr ⟨rfl, fun e he => ?_⟩) ⟨fun e first => ?_, fun _ => lacksIndex⟩
    · exact Bool.and_eq_false_iff.2 (Or.inr (lacks e he))
    · simp [none] at first

/-- the search by name alone finds a foreign key, or finds that there is none, exactly if the name means one -/
theorem obeys_foreignKey_iff : t.Obeys d (.foreignKey n) (t.dropNamed? d n) ↔ t.MeansForeignKey d n := by
  unfold dropNamed? eraseConstraint?
  rcases any_eraseP_cases (fun e => hasName d e.constraint.name n) t.constraints with
    ⟨found, before, e, after, split, first, left⟩ | ⟨absent, lacks⟩
  · rw [if_pos found, left, Option.some_or]
    exact obeys_foreignKey_iff_of_first split first
  · rw [if_neg (Bool.eq_false_iff.1 absent), Option.none_or]
    exact obeys_foreignKey_iff_of_lacks lacks

/-! ### All kinds -/

/-- an action drops what its words name, or finds that there is nothing of the kind -/
theorem obeys_drop?_iff (target : ConstraintTarget) :
    t.Obeys d target (t.drop? d target) ↔ ∀ n, target = .foreignKey n → t.MeansForeignKey d n := by
  cases target with
  | named n => exact iff_of_true (t.obeys_dropNamed? n) (by simp)
  | primaryKey =>
    refine iff_of_true ?_ (by simp)
    rcases t.dropPrimaryKey_cases (d := d) with ⟨t', dropped, drops⟩ | ⟨failed, lacks⟩
    · exact Or.inl ⟨t', toOption_eq_some_iff.2 dropped, drops⟩
    · refine Or.inr ⟨?_, lacks⟩
      rw [drop?, failed, problem]
      cases t.label? <;> rfl
  | foreignKey n =>
    simp only [ConstraintTarget.foreignKey.injEq, forall_eq']
    exact obeys_foreignKey_iff
  | index n => exact iff_of_true (t.obeys_dropIndexNamed? n) (by simp)

/-- what there is to take is not lacking -/
theorem Drops.not_lacks {target : ConstraintTarget} (drops : t.Drops d t' target) : ¬ t.Lacks d target := by
  have constraint {p : Constraint → Bool} (loses : t.LosesConstraint p t') : ¬ t.LacksConstraint p := by
    obtain ⟨before, e, after, split, passes, -⟩ := loses
    exact fun lacks => Bool.noConfusion
      ((lacks e (split ▸ List.mem_append_right _ List.mem_cons_self)).symm.trans passes)
  have index {p : Index → Bool} (loses : t.LosesIndex p t') : ¬ t.LacksIndex p := by
    obtain ⟨before, i, after, split, passes, -⟩ := loses
    exact fun lacks => Bool.noConfusion
      ((lacks i (split ▸ List.mem_append_right _ List.mem_cons_self)).symm.trans passes)
  cases target with
  | named n => exact drops.elim (fun loses lacks => constraint loses lacks.1) fun h lacks => index h.2 lacks.2
  | primaryKey => exact drops.1
  | foreignKey n => exact constraint drops
  | index n => exact drops.elim (fun loses lacks => index loses lacks.1) fun h lacks => constraint h.2 lacks.2

end Draft

/-! ## The action -/

namespace Workspace

variable {w : Workspace} {site : Site} {key : String} {target : ConstraintTarget} {t : Draft}

theorem dropConstraint_eq (found : w.table? key = some t) : dropConstraint d site key target false w =
    match t.drop? d target with
    | some t' => .ok (w.updateTable key fun _ => t')
    | none => t.problem target.missing := by
  unfold dropConstraint
  simp only [found, Bool.false_eq_true, if_false]
  cases target with
  | primaryKey =>
    simp only [onTable, found, Draft.drop?]
    rcases t.dropPrimaryKey_cases (d := d) with ⟨t', same, -⟩ | ⟨same, -⟩
    · rw [same]
      rfl
    · rw [same]
      unfold Draft.problem
      cases t.label? <;> rfl
  | _ => rfl

/-- an action that drops something changes the table, or its problem is recorded -/
theorem alterActions_drop (found : w.table? key = some t) :
    alterActions d site [.dropConstraint target false] w key =
      match t.drop? d target with
      | some t' => .ok (w.updateTable key fun _ => t')
      | none =>
        if t.name = "" then .error (.emptyField "TableRef" "name")
        else .ok (w.record (target.missing t.toTable.ref.text) site.position site.source) := by
  have step : alterAction d site key (.dropConstraint target false) w =
      (dropConstraint d site key target false w).map (·, key) := rfl
  unfold alterActions
  rw [step, dropConstraint_eq found]
  cases t.drop? d target with
  | some t' => rfl
  | none =>
    unfold Draft.problem Draft.label? Draft.ref?
    split_ifs <;> rfl

/-- the tables that a key means show what they were replaced by -/
theorem updateTable_inj (found : w.table? key = some t) {t' t'' : Draft}
    (same : (w.updateTable key fun _ => t') = w.updateTable key fun _ => t'') : t' = t'' := by
  obtain ⟨ht, own⟩ := table?_eq_some found
  have each := List.map_inj_left.1 (congrArg tables same) t ht
  rwa [if_pos (beq_iff_eq.2 own), if_pos (beq_iff_eq.2 own)] at each

/-- a change of a table records nothing -/
theorem updateTable_ne_record {f : Draft → Draft} {p : Problem} {position : Position} {source : Option String} :
    w.updateTable key f ≠ w.record p position source := by
  intro same
  have more := congrArg (fun v => v.findings.length) same
  simp [updateTable, record] at more

/-- An action of `ALTER TABLE` drops what its words name and nothing else; or the table has nothing of the kind, the
schema is left as it is, and an error is recorded. -/
def DropsOnly (d : Dialect) (site : Site) (w : Workspace) (key : String) (t : Draft) (target : ConstraintTarget) :
    Prop :=
  (∃ t', t.Drops d t' target ∧
    alterActions d site [.dropConstraint target false] w key = .ok (w.updateTable key fun _ => t')) ∨
  t.Lacks d target ∧ ∃ p, p.code = "UNKNOWN_CONSTRAINT" ∧
    alterActions d site [.dropConstraint target false] w key = .ok (w.record p site.position site.source)

/-- In every schema, an action drops what its words name and nothing else, exactly if a name of a foreign key means one,
and the table has a name to be reported by. -/
theorem dropsOnly_iff (found : w.table? key = some t) (site : Site) (target : ConstraintTarget) :
    w.DropsOnly d site key t target ↔
      (∀ n, target = .foreignKey n → t.MeansForeignKey d n) ∧ (t.Lacks d target → t.name ≠ "") := by
  rw [← t.obeys_drop?_iff, Draft.Obeys, DropsOnly, alterActions_drop found]
  cases dropped : t.drop? d target with
  | some t' =>
    constructor
    · rintro (⟨t'', drops, run⟩ | ⟨-, p, -, run⟩)
      · obtain rfl := updateTable_inj found (Except.ok.inj run)
        exact ⟨Or.inl ⟨t', rfl, drops⟩, fun lacks => absurd lacks drops.not_lacks⟩
      · exact absurd (Except.ok.inj run) updateTable_ne_record
    · rintro ⟨⟨t'', same, drops⟩ | ⟨none, -⟩, -⟩
      · exact Or.inl ⟨t'', drops, by rw [Option.some.inj same]⟩
      · simp at none
  | none =>
    simp only [reduceCtorEq, false_and, exists_false, false_or, true_and]
    constructor
    · rintro (⟨t'', -, run⟩ | ⟨lacks, p, -, run⟩)
      · split_ifs at run
        exact absurd (Except.ok.inj run).symm updateTable_ne_record
      · refine ⟨lacks, fun _ unnamed => ?_⟩
        rw [if_pos unnamed] at run
        contradiction
    · rintro ⟨lacks, named⟩
      exact Or.inr ⟨lacks, _, target.code_missing _, if_neg (named lacks)⟩

/-! ### Two constraints of one name -/

/-- bookings of rooms, with constraints on their rooms -/
def bookings (constraints : List ConstraintClause) : Statement :=
  ⟨.createTable
    { name := ⟨"booking", none⟩
      columns := [{ name := "room", type := none, position := ⟨1, 1, 0⟩ }]
      constraints := constraints }, ⟨1, 1, 0⟩, none⟩

/-- a booking is of a room -/
def bookedRoom : ConstraintClause := .foreignKey ["room"] { table := ⟨"room", none⟩ } (some "booked") ⟨1, 10, 9⟩

/-- a room is booked once; the constraint has the name of the foreign key -/
def bookedOnce : ConstraintClause := .unique ["room"] (some "booked") ⟨1, 40, 39⟩

/-- a foreign key that comes first is dropped, and the unique constraint of its name stays -/
theorem dropsOnly_iff_bookings : ∃ (w : Workspace) (t : Draft), w.Reachable .mysql ∧ w.table? ".booking" = some t ∧
    t.MeansForeignKey .mysql "Booked" ∧
    w.DropsOnly .mysql ⟨⟨2, 1, 0⟩, none⟩ ".booking" t (.foreignKey "Booked") := by
  have complete : ((afterChanges .mysql [bookings [bookedRoom, bookedOnce]] 1).toOption.bind fun w =>
      (w.table? ".booking").map fun t => (t.name, t.indexes, (t.constraints.find? fun e =>
        hasName .mysql e.constraint.name "Booked").map (·.constraint.foreignKey?.isSome))) =
      some ("booking", [], some true) := by
    decide +kernel
  obtain ⟨w, before, complete⟩ := Option.bind_eq_some_iff.1 complete
  obtain ⟨t, found, same⟩ := Option.map_eq_some_iff.1 complete
  obtain ⟨named, same⟩ := Prod.mk.inj same
  obtain ⟨indexes, first⟩ := Prod.mk.inj same
  have reachable : w.Reachable .mysql :=
    ⟨[bookings [bookedRoom, bookedOnce]], 1, w, ⟨⟨2, 1, 0⟩, none⟩, [], ".booking", toOption_eq_some_iff.1 before, rfl⟩
  have means : t.MeansForeignKey .mysql "Booked" := by
    refine ⟨fun e he => ?_, fun _ i hi => ?_⟩
    · rw [he] at first
      exact Option.some.inj first
    · rw [indexes] at hi
      exact absurd hi List.not_mem_nil
  refine ⟨w, t, reachable, found, means, (dropsOnly_iff found _ _).2 ⟨fun n same => ?_, fun _ unnamed => ?_⟩⟩
  · exact ConstraintTarget.foreignKey.inj same ▸ means
  · exact absurd (named.symm.trans unnamed) (by decide)

/-- A unique constraint that comes first is dropped in the place of the foreign key of its name, which stays. -/
theorem not_dropsOnly_bookings : ∃ (w : Workspace) (t : Draft), w.Reachable .mysql ∧ w.table? ".booking" = some t ∧
    ¬ w.DropsOnly .mysql ⟨⟨2, 1, 0⟩, none⟩ ".booking" t (.foreignKey "booked") := by
  have complete : ((afterChanges .mysql [bookings [bookedOnce, bookedRoom]] 1).toOption.bind fun w =>
      (w.table? ".booking").bind fun t => (t.drop? .mysql (.foreignKey "booked")).map fun t' =>
        (t.constraints.countP (·.constraint.foreignKey?.isSome),
          t'.constraints.countP (·.constraint.foreignKey?.isSome))) = some (1, 1) := by
    decide +kernel
  obtain ⟨w, before, complete⟩ := Option.bind_eq_some_iff.1 complete
  obtain ⟨t, found, complete⟩ := Option.bind_eq_some_iff.1 complete
  obtain ⟨t', dropped, same⟩ := Option.map_eq_some_iff.1 complete
  obtain ⟨keys, left⟩ := Prod.mk.inj same
  have reachable : w.Reachable .mysql :=
    ⟨[bookings [bookedOnce, bookedRoom]], 1, w, ⟨⟨2, 1, 0⟩, none⟩, [], ".booking", toOption_eq_some_iff.1 before, rfl⟩
  refine ⟨w, t, reachable, found, ?_⟩
  have run : alterActions .mysql ⟨⟨2, 1, 0⟩, none⟩ [.dropConstraint (.foreignKey "booked") false] w ".booking" =
      .ok (w.updateTable ".booking" fun _ => t') := by
    rw [alterActions_drop found, dropped]
  rintro (⟨t'', drops, run'⟩ | ⟨-, p, -, run'⟩)
  · obtain rfl := updateTable_inj found (Except.ok.inj (run.symm.trans run'))
    have fewer := drops.foreignKeys
    rw [keys, left] at fewer
    exact absurd fewer (by decide)
  · exact absurd (Except.ok.inj (run.symm.trans run')) updateTable_ne_record

end Workspace

end SchemaApi
