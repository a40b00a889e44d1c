import SchemaApi.Proofs.Schema.Edit
/-!
What is done to a table where no column is replaced by one of another name.

Where case counts, or no action replaces a column, an edit of a table never changes the name of a column unless the
column is renamed (`Draft.Move`). So every table of every schema that statements lead to comes from a table without
columns by such moves (`moved_afterChanges`), and an invariant of tables is a property that each move keeps.
-/

namespace SchemaApi

/-! ## Moves of a table -/

/-- what is done to a table at a time, if nothing stands in the way -/
inductive Draft.Move (d : Dialect) (t : Draft) : Draft → Prop where
  | retitle (name : String) (schema : Option String) (key : String) (comment : Option String) :
      Move d t { t with name := name, schema := schema, key := key, comment := comment }
  /-- the name of a new column means no column that is there -/
  | addColumn (c : Column) (new : t.column? d c.name = none) : Move d t { t with columns := t.columns ++ [c] }
  | addConstraint {t' : Draft} (source : Option String) (clause : ConstraintClause)
      (added : t.addConstraint d source clause = .ok t') : Move d t t'
  | addIndex {t' : Draft} (elements : List IndexElement) (name : Option String) (unique : Bool)
      (method condition : Option String) (added : t.addIndex d elements name unique method condition = .ok t') :
      Move d t t'
  /-- a column keeps its name, and stays NOT NULL in the primary key -/
  | alter (name : String) (f : Column → Column) (names : ∀ c, d.sameName c.name name = true → (f c).name = c.name)
      (required : ∀ c ∈ t.columns, d.sameName c.name name = true → c.name ∈ t.primaryKey?.getD [] →
        c.nullable = false → (f c).nullable = false) : Move d t (t.updateColumn d name f)
  /-- no column but the renamed one has the new name -/
  | rename (old new : String)
      (free : ∀ c ∈ t.columns, d.foldName c.name = d.foldName new → d.foldName c.name = d.foldName old) :
      Move d t (t.renameColumn d old new)
  | erase (c : Column) : Move d t (t.eraseColumn d c)
  | restrict {cs : List Placed} {is : List Index} (constraints : cs.Sublist t.constraints)
      (indexes : is.Sublist t.indexes) : Move d t { t with constraints := cs, indexes := is }
  | redirect (f : ForeignKey → ForeignKey) (own : ∀ k, (f k).columns = k.columns) : Move d t (t.mapForeignKeys f)

/-- one table comes from another by any number of moves -/
abbrev Draft.Moves (d : Dialect) : Draft → Draft → Prop := Relation.ReflTransGen (Draft.Move d)

namespace Draft

variable {d : Dialect} {t t' : Draft}

/-- an edit is a move, if columns are replaced only where case counts -/
theorem Edit.move {replaces : Prop} (exact : replaces → d.caseSensitive = true) (edit : t.Edit d replaces t') :
    t.Move d t' := by
  cases edit with
  | retitle name schema => exact .retitle name schema _ t.comment
  | comment text => exact .retitle t.name t.schema t.key text
  | addColumn c new => exact .addColumn c new
  | addConstraint source clause added => exact .addConstraint source clause added
  | addIndex elements name unique method condition added => exact .addIndex elements name unique method condition added
  | alter name f names required => exact .alter name f (fun c _ => names c) required
  | replace allowed name column same =>
    have exact := exact allowed
    have named : name = column.name := (Dialect.sameName_iff_eq exact).1 same
    refine .alter name _ (fun c here => ?_) fun c _ here inKey _ => ?_
    · rw [(Dialect.sameName_iff_eq exact).1 here, named]
      split_ifs <;> rfl
    · have own : c.name = column.name := ((Dialect.sameName_iff_eq exact).1 here).trans named
      rw [own] at inKey
      rw [if_pos (List.contains_iff_mem.2 inKey)]
  | rename old new free => exact .rename old new free
  | erase c => exact .erase c
  | restrict constraints indexes => exact .restrict constraints indexes
  | redirect f own => exact .redirect f own

/-- what every move keeps holds after any number of moves -/
theorem Moves.keeps {P : Draft → Prop} (keep : ∀ t t', P t → t.Move d t' → P t') (moves : t.Moves d t') (h : P t) :
    P t' := by
  induction moves with
  | refl => exact h
  | tail _ move ih => exact keep _ _ ih move

end Draft

/-! ## Histories -/

namespace Workspace

variable {d : Dialect} {w : Workspace}

/-- columns are replaced only where case counts -/
def Exact (d : Dialect) (statements : List Statement) : Prop :=
  ∀ st ∈ statements, ∀ alter, st.body = .alterTable alter →
    ∀ a ∈ alter.actions, replacesColumn a = true → d.caseSensitive = true

/-- every table comes from a blank one by moves -/
theorem moved_afterChanges {statements : List Statement} (replaces : Exact d statements) {n : Nat}
    (run : afterChanges d statements n = .ok w) : ∀ t' ∈ w.tables, ∃ t : Draft, t.Blank ∧ t.Moves d t' := by
  have edits : Edits d (d.caseSensitive = true) Draft.Blank {} w :=
    edits_afterChanges replaces (fun _ _ _ _ _ => ⟨rfl, rfl, rfl⟩) run
  intro t' ht'
  obtain ⟨t, blank, edits⟩ := edits.origin t' ht'
  exact ⟨t, blank, Relation.ReflTransGen.mono (fun _ _ edit => edit.move id) _ _ edits⟩

end Workspace

end SchemaApi
