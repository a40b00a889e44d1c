import SchemaApi.Proofs.Schema.Edit
/-!
What applying statements comes to, step by step.

Whatever a statement does, it does in a few kinds of steps (`Workspace.Step`): a table without columns is added, tables
are changed or dropped, other declarations change, or something is found. A table changes in a few kinds of steps too
(`Draft.Step`). So an invariant of a schema under any statements is an invariant of these steps, and its proof says
nothing about the statements themselves.
-/

namespace SchemaApi

/-! ## Steps of a table -/

/-- what is done to a table at a time -/
inductive Draft.Step (d : Dialect) (t : Draft) : Draft → Prop where
  /-- the table is called something else, or described in other words -/
  | retitle (name : String) (schema : Option String) (key : String) (comment : Option String) :
      Step d t { t with name := name, schema := schema, key := key, comment := comment }
  | addColumn (c : Column) : Step d t { t with columns := t.columns ++ [c] }
  /-- a constraint names columns that are there -/
  | addConstraint (c : Constraint) (position : Position) (source : Option String)
      (named : ∀ n ∈ c.ownColumns, d.foldName n ∈ t.identifiers d) : Step d t (t.addPlaced c position source)
  | addIndex (i : Index) (named : i.isExpression = false → ∀ n ∈ i.columns, d.foldName n ∈ t.identifiers d) :
      Step d t { t with indexes := t.indexes ++ [i] }
  /-- a column stays the same identifier -/
  | alter (name : String) (f : Column → Column)
      (same : ∀ c, d.sameName c.name name = true → d.foldName (f c).name = d.foldName c.name) :
      Step d t (t.updateColumn d name f)
  | rename (old new : String) : Step d t (t.renameColumn d old new)
  | erase (c : Column) : Step d t (t.eraseColumn d c)
  | restrict {cs : List Placed} {is : List Index} (constraints : cs.Sublist t.constraints)
      (indexes : is.Sublist t.indexes) : Step d t { t with constraints := cs, indexes := is }
  | redirect (f : ForeignKey → ForeignKey) (own : ∀ k, (f k).columns = k.columns) : Step d t (t.mapForeignKeys f)

/-- one table comes from another in any number of steps -/
abbrev Draft.Steps (d : Dialect) : Draft → Draft → Prop := Relation.ReflTransGen (Draft.Step d)

namespace Draft

variable {d : Dialect} {t t' : Draft}

theorem mem_identifiers {n : String} (h : n ∈ t.toTable.columnNames) : d.foldName n ∈ t.identifiers d := by
  obtain ⟨c, hc, rfl⟩ := List.mem_map.1 h
  exact List.mem_map_of_mem hc

theorem steps_requireValues (names : List String) : t.Steps d (t.requireValues d names) := by
  unfold requireValues
  induction names generalizing t with
  | nil => exact .refl
  | cons n names ih =>
    have first : t.Step d (t.updateColumn d n fun c => { c with nullable := false }) := .alter n _ fun _ _ => rfl
    exact .head first ih

theorem step_addIndex {elements : List IndexElement} {name : Option String} {unique : Bool}
    {method condition : Option String} (added : t.addIndex d elements name unique method condition = .ok t') :
    t.Step d t' := by
  simp only [addIndex, bind_eq_ok_iff, pure_eq_ok_iff] at added
  obtain ⟨columns, read, _, -, rfl⟩ := added
  refine .addIndex _ fun plain n hn => mem_identifiers ?_
  obtain ⟨e, he, found⟩ := exists_of_mem_mapM read hn
  exact elementColumn_eq_ok found (Bool.eq_false_iff.2 (List.any_eq_false.1 plain e he))

theorem steps_addConstraint {source : Option String} {clause : ConstraintClause}
    (added : t.addConstraint d source clause = .ok t') : t.Steps d t' := by
  cases clause with
  | primaryKey columns name position =>
    simp only [addConstraint, bind_eq_ok_iff] at added
    obtain ⟨cols, read, added⟩ := added
    split_ifs at added with present
    · exact absurd added (by simp [problem_eq_ok_iff])
    · simp only [bind_eq_ok_iff, pure_eq_ok_iff] at added
      obtain ⟨_, -, rfl⟩ := added
      refine (steps_requireValues cols).tail (.addConstraint _ _ _ fun n hn => ?_)
      rw [identifiers_requireValues]
      exact mem_identifiers (mem_columnNames_of_canonical read n hn)
  | unique columns name position =>
    simp only [addConstraint, bind_eq_ok_iff, pure_eq_ok_iff] at added
    obtain ⟨cols, read, _, -, rfl⟩ := added
    exact .single (.addConstraint _ _ _ fun n hn => mem_identifiers (mem_columnNames_of_canonical read n hn))
  | foreignKey columns reference name position =>
    simp only [addConstraint, bind_eq_ok_iff] at added
    obtain ⟨cols, read, added⟩ := added
    split_ifs at added with unnamed
    · simp [bind_eq_ok_iff, throw_eq_ok_iff] at added
    · simp only [bind_eq_ok_iff, pure_eq_ok_iff] at added
      obtain ⟨_, -, rfl⟩ := added
      exact .single (.addConstraint _ _ _ fun n hn => mem_identifiers (mem_columnNames_of_canonical read n hn))
  | check expression name column position =>
    simp only [addConstraint, bind_eq_ok_iff] at added
    obtain ⟨own, read, added⟩ := added
    split_ifs at added with empty
    · simp [fmap_eq_ok_iff, throw_eq_ok_iff] at added
    · rw [← pure_eq_ok_iff.1 added]
      refine .single (.addConstraint _ _ _ fun n hn => ?_)
      cases column with
      | none =>
        simp only [Option.mapM_none, pure_eq_ok_iff] at read
        rw [← read] at hn
        exact absurd hn List.not_mem_nil
      | some c =>
        simp only [Option.mapM_some, fmap_eq_ok_iff, map_eq_ok_iff] at read
        obtain ⟨_, ⟨x, found, rfl⟩, rfl⟩ := read
        rw [show n = x.name by simpa [Constraint.ownColumns] using hn]
        exact mem_identifiers (mem_columnNames_of_requireColumn found)
  | index elements name unique kind position => exact .single (step_addIndex added)

/-- whatever is checked before, an edit is made in steps -/
theorem Edit.steps {replaces : Prop} (edit : t.Edit d replaces t') : t.Steps d t' := by
  cases edit with
  | retitle name schema => exact .single (.retitle name schema _ t.comment)
  | comment text => exact .single (.retitle t.name t.schema t.key text)
  | addColumn c => exact .single (.addColumn c)
  | addConstraint source clause added => exact steps_addConstraint added
  | addIndex elements name unique method condition added => exact .single (step_addIndex added)
  | alter name f names => exact .single (.alter name f fun c _ => by rw [names c])
  | replace allowed name column same =>
    refine .single (.alter name _ fun c here => ?_)
    refine Eq.trans ?_ ((Dialect.sameName_iff.1 here).trans (Dialect.sameName_iff.1 same)).symm
    split_ifs <;> rfl
  | rename old new => exact .single (.rename old new)
  | erase c => exact .single (.erase c)
  | restrict constraints indexes => exact .single (.restrict constraints indexes)
  | redirect f own => exact .single (.redirect f own)

end Draft

/-! ## Steps of a schema -/

/-- what is done to a schema at a time -/
inductive Workspace.Step (d : Dialect) (w : Workspace) : Workspace → Prop where
  /-- each table comes from one that was there -/
  | tables {ts : List Draft} (each : ∀ t' ∈ ts, ∃ t ∈ w.tables, t.Steps d t') : Step d w { w with tables := ts }
  | create (t : Draft) (columns : t.columns = []) (constraints : t.constraints = []) (indexes : t.indexes = []) :
      Step d w { w with tables := w.tables ++ [t] }
  | declare (enums : List (String × EnumType)) (views : List (String × View)) :
      Step d w { w with enums := enums, views := views }
  /-- something is found that is no error -/
  | report (f : Finding) (stage : f.stage = .model) (noError : f.isError = false) :
      Step d w { w with findings := w.findings ++ [f] }
  | record (p : Problem) (position : Position) (source : Option String) : Step d w (w.record p position source)

/-- one schema comes from another in any number of steps -/
abbrev Workspace.Steps (d : Dialect) : Workspace → Workspace → Prop := Relation.ReflTransGen (Workspace.Step d)

namespace Workspace

variable {d : Dialect} {w w' : Workspace}

/-- an edit of a schema is a step, if tables are created without columns -/
theorem Edit.step {replaces : Prop} (edit : w.Edit d replaces Draft.Blank w') : w.Step d w' := by
  cases edit with
  | tables each =>
    refine .tables fun t' ht' => ?_
    obtain ⟨t, ht, edits⟩ := each t' ht'
    exact ⟨t, ht, Relation.ReflTransGen.trans_induction_on edits (fun _ => .refl) Draft.Edit.steps fun _ _ => .trans⟩
  | create t blank => exact .create t blank.columns blank.constraints blank.indexes
  | declare enums views => exact .declare enums views
  | report f stage noError => exact .report f stage noError
  | record p position source => exact .record p position source

/-- whatever the statements are, so many of them are applied in steps -/
theorem steps_afterChanges {statements : List Statement} {n : Nat} (run : afterChanges d statements n = .ok w) :
    Steps d {} w := by
  have edits : Edits d True Draft.Blank {} w :=
    edits_afterChanges (fun _ _ _ _ _ _ _ => trivial) (fun _ _ _ _ _ => ⟨rfl, rfl, rfl⟩) run
  exact Relation.ReflTransGen.mono (fun _ _ => Edit.step) _ _ edits

theorem steps_applyAll {statements : List Statement} (run : applyAll d statements = .ok w) : Steps d {} w := by
  rw [applyAll_eq_afterChanges] at run
  exact steps_afterChanges run

theorem Reachable.steps (h : w.Reachable d) : Steps d {} w := by
  obtain ⟨statements, n, w₀, site, actions, key, before, run⟩ := h
  have later : Edits d True Draft.Blank w₀ w :=
    edits_alterActions (afterChanges_regular before) (fun _ _ _ => trivial) run
  exact (steps_afterChanges before).trans (Relation.ReflTransGen.mono (fun _ _ => Edit.step) _ _ later)

end Workspace

end SchemaApi
