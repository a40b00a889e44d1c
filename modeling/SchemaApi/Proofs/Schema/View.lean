import SchemaApi.Proofs.Schema.Execution
/-!
Views that are declared and dropped.

All views of a script are declared before the first of them is dropped. So a view that is dropped and declared again is
gone at the end, and to declare it again is a problem: the model has the views that an execution in order leaves
exactly if no view that is left is dropped anywhere, a view is declared again with OR REPLACE only, and dropped again
with IF EXISTS only.
-/

namespace SchemaApi

variable {d : Dialect}

/-! ## Entries -/

section
variable {α : Type} {entries entries' : List (String × α)}

theorem mem_keys_setEntry {key k : String} {value : α} :
    k ∈ (setEntry entries key value).map (·.1) ↔ k ∈ entries.map (·.1) ∨ k = key := by
  unfold setEntry
  split_ifs with known
  · have same : (entries.map fun entry => if entry.1 == key then (key, value) else entry).map (·.1) =
        entries.map (·.1) := by
      rw [List.map_map]
      refine List.map_congr_left fun e _ => ?_
      simp only [Function.comp_apply]
      split_ifs with own
      · exact (beq_iff_eq.1 own).symm
      · rfl
    obtain ⟨e, he, own⟩ := List.any_eq_true.1 known
    rw [same, or_iff_left_of_imp]
    rintro rfl
    exact beq_iff_eq.1 own ▸ List.mem_map_of_mem he
  · rw [List.map_append, List.mem_append, List.map_singleton, List.mem_singleton]

/-- the entries of certain names do not depend on the others -/
theorem filter_setEntry_congr {P : String → Bool}
    (same : (entries.filter fun e => P e.1) = entries'.filter fun e => P e.1)
    (key : String) (value : α) : ((setEntry entries key value).filter fun e => P e.1) =
      (setEntry entries' key value).filter fun e => P e.1 := by
  have apart : ∀ l : List (String × α), ((setEntry l key value).filter fun e => P e.1) =
      if P key then setEntry (l.filter fun e => P e.1) key value else l.filter fun e => P e.1 := by
    intro l
    have kept : ((fun e : String × α => P e.1) ∘ fun e => if e.1 == key then (key, value) else e) = fun e => P e.1 := by
      funext e
      simp only [Function.comp_apply]
      split_ifs with own
      · rw [beq_iff_eq.1 own]
      · rfl
    by_cases wanted : P key = true
    · have known : ((l.filter fun e => P e.1).any fun e => e.1 == key) = l.any fun e => e.1 == key := by
        rw [List.any_filter]
        refine List.any_congr rfl fun e => ?_
        by_cases own : e.1 = key
        · simp [own, wanted]
        · simp [own]
      rw [if_pos wanted]
      unfold setEntry
      rw [known]
      split_ifs
      · rw [List.filter_map, kept]
      · rw [List.filter_append, List.filter_singleton, wanted, cond_true]
    · rw [if_neg wanted]
      unfold setEntry
      split_ifs
      · rw [List.filter_map, kept]
        refine (List.map_congr_left fun e he => ?_).trans (List.map_id _)
        refine if_neg fun own => wanted ?_
        exact beq_iff_eq.1 own ▸ (List.mem_filter.1 he).2
      · rw [List.filter_append, List.filter_singleton, Bool.eq_false_iff.2 wanted, cond_false, List.append_nil]
  rw [apart, apart, same]

end

/-! ## Statements about views -/

namespace Statement

/-- the view that a statement declares -/
def view? (st : Statement) : Option CreateView :=
  match st.body with
  | .createView view => some view
  | _ => none

/-- the views that a statement drops -/
def viewDrop? (st : Statement) : Option DropView :=
  match st.body with
  | .dropView drop => some drop
  | _ => none

/-- the statement declares or drops views -/
def isOfViews (st : Statement) : Bool := st.view?.isSome || st.viewDrop?.isSome

theorem body_of_isOfViews {st : Statement} (ofViews : st.isOfViews = true) :
    (∃ view, st.body = .createView view) ∨ ∃ drop, st.body = .dropView drop := by
  unfold isOfViews view? viewDrop? at ofViews
  cases body : st.body with
  | createView view => exact Or.inl ⟨view, rfl⟩
  | dropView drop => exact Or.inr ⟨drop, rfl⟩
  | _ => simp [body] at ofViews

theorem declaresOrDrops_of_isOfViews {st : Statement} (ofViews : st.isOfViews = true) : st.declaresOrDrops = true := by
  rcases body_of_isOfViews ofViews with ⟨view, body⟩ | ⟨drop, body⟩
  · rw [declaresOrDrops, body]
  · rw [declaresOrDrops, body]

end Statement

def CreateView.key (d : Dialect) (view : CreateView) : String := view.name.key d

/-- the view that a declaration says -/
def CreateView.declared (d : Dialect) (view : CreateView) : View :=
  ⟨view.name.name, declaredSchema d view.name, view.query, view.materialized, view.columns⟩

def DropView.keys (d : Dialect) (drop : DropView) : List String := drop.names.map (·.key d)

/-- a statement's views among others, if nothing is dropped -/
def withView (d : Dialect) (views : List (String × View)) (numbered : Statement × Nat) : List (String × View) :=
  match numbered.1.view? with
  | some view => setEntry views (view.key d) (view.declared d)
  | none => views

namespace Workspace

variable {w w' : Workspace} {S : List Statement} {st : Statement}

def viewKeys (w : Workspace) : List String := w.views.map (·.1)

/-- there are the same tables and the same errors -/
structure SameBesideViews (w w' : Workspace) : Prop where
  tables : w'.tables = w.tables
  errors : w'.errors = w.errors

theorem SameBesideViews.refl (w : Workspace) : SameBesideViews w w := ⟨rfl, rfl⟩

theorem SameBesideViews.trans {w w' w'' : Workspace} (first : SameBesideViews w w') (second : SameBesideViews w' w'') :
    SameBesideViews w w'' :=
  ⟨second.tables.trans first.tables, second.errors.trans first.errors⟩

theorem any_views_iff {key : String} : w.views.any (·.1 == key) = true ↔ key ∈ w.viewKeys := by
  simp only [List.any_eq_true, beq_iff_eq, viewKeys, List.mem_map]

/-! ### One statement -/

theorem declareView_eq_ok_iff {view : CreateView} : declareView d view w = .ok w' ↔
    (view.key d ∈ w.viewKeys → view.orReplace = true) ∧ view.name.name ≠ "" ∧
      w' = { w with views := setEntry w.views (view.key d) (view.declared d) } := by
  simp only [declareView, any_views_iff, Bool.not_eq_true', CreateView.key]
  by_cases taken : view.name.key d ∈ w.viewKeys ∧ view.orReplace = false
  · rw [if_pos taken]
    refine iff_of_false (by simp) fun free => ?_
    exact absurd taken.2 (by simp [free.1 taken.1])
  · rw [if_neg taken]
    have free : view.name.key d ∈ w.viewKeys → view.orReplace = true := by simpa using taken
    by_cases unnamed : view.name.name = ""
    · simp [unnamed]
    · rw [if_neg unnamed, Except.ok.injEq, eq_comm]
      exact ⟨fun same => ⟨free, unnamed, same⟩, fun h => h.2.2⟩

/-- a view that is dropped is there, or may be missing -/
theorem exists_dropViewNamed_iff {drop : DropView} {name : QualifiedName} :
    (∃ w', dropViewNamed d st drop name w = .ok w') ↔ drop.ifExists = true ∨ name.key d ∈ w.viewKeys := by
  simp only [dropViewNamed, any_views_iff]
  split_ifs with there missing
  · simp [there]
  · simp [missing]
  · simp [there, missing]

theorem dropViewNamed_eq_ok {drop : DropView} {name : QualifiedName} (run : dropViewNamed d st drop name w = .ok w') :
    w'.views = (w.views.filter fun e => e.1 != name.key d) ∧ SameBesideViews w w' := by
  simp only [dropViewNamed, any_views_iff] at run
  split_ifs at run with there missing
  · rw [← Except.ok.inj run]
    exact ⟨rfl, rfl, rfl⟩
  · rw [← Except.ok.inj run]
    refine ⟨(List.filter_eq_self.2 fun e he => ?_).symm, rfl, rfl⟩
    exact bne_iff_ne.2 fun own => there (own ▸ List.mem_map_of_mem he)

/-- the views of a statement that is carried out are gone -/
theorem eachName_dropViewNamed_eq_ok {drop : DropView} {names : List QualifiedName}
    (run : eachName (dropViewNamed d st drop) names w = .ok w') :
    w'.views = (w.views.filter fun e => !(names.map (·.key d)).contains e.1) ∧ SameBesideViews w w' := by
  induction names generalizing w with
  | nil =>
    rw [← Except.ok.inj run]
    exact ⟨(List.filter_eq_self.2 fun _ _ => rfl).symm, .refl w⟩
  | cons name rest ih =>
    obtain ⟨w₁, first, later⟩ := bind_eq_ok_iff.1 ((List.foldlM_cons ..).symm.trans run)
    obtain ⟨views, same⟩ := dropViewNamed_eq_ok first
    obtain ⟨views', same'⟩ := ih later
    refine ⟨?_, same.trans same'⟩
    rw [views', views, List.filter_filter]
    refine List.filter_congr fun e _ => ?_
    rw [List.map_cons, List.contains_cons, Bool.not_or, Bool.and_comm]
    rfl

theorem mem_viewKeys_of_filter {gone : List String} (views : w'.views = w.views.filter fun e => !gone.contains e.1)
    {key : String} : key ∈ w'.viewKeys ↔ key ∈ w.viewKeys ∧ key ∉ gone := by
  simp only [viewKeys, views, List.mem_map, List.mem_filter, Bool.not_eq_true', ← Bool.not_eq_true,
    List.contains_iff_mem]
  constructor
  · rintro ⟨e, ⟨he, other⟩, rfl⟩
    exact ⟨⟨e, he, rfl⟩, other⟩
  · rintro ⟨⟨e, he, rfl⟩, other⟩
    exact ⟨e, ⟨he, other⟩, rfl⟩

/-- Without IF EXISTS a statement is carried out only if its views are different ones, and all there. -/
theorem exists_eachName_dropViewNamed_iff {drop : DropView} {names : List QualifiedName} :
    (∃ w', eachName (dropViewNamed d st drop) names w = .ok w') ↔ drop.ifExists = true ∨
      (names.map (·.key d)).Nodup ∧ ∀ key ∈ names.map (·.key d), key ∈ w.viewKeys := by
  induction names generalizing w with
  | nil => exact iff_of_true ⟨w, rfl⟩ (Or.inr ⟨List.nodup_nil, by simp⟩)
  | cons name rest ih =>
    have split : (∃ w', eachName (dropViewNamed d st drop) (name :: rest) w = .ok w') ↔
        ∃ w₁, dropViewNamed d st drop name w = .ok w₁ ∧ ∃ w', eachName (dropViewNamed d st drop) rest w₁ = .ok w' := by
      simp only [eachName, List.foldlM_cons, bind_eq_ok_iff]
      exact ⟨fun ⟨w', w₁, first, later⟩ => ⟨w₁, first, w', later⟩, fun ⟨w₁, first, w', later⟩ => ⟨w', w₁, first, later⟩⟩
    have keys : ∀ w₁, dropViewNamed d st drop name w = .ok w₁ → ∀ key,
        key ∈ w₁.viewKeys ↔ key ∈ w.viewKeys ∧ key ≠ name.key d := by
      intro w₁ first key
      have views : w₁.views = w.views.filter fun e => !([name.key d].contains e.1) :=
        (dropViewNamed_eq_ok first).1.trans (List.filter_congr fun e _ => by
          rw [List.contains_cons, List.contains_nil, Bool.or_false]
          rfl)
      rw [mem_viewKeys_of_filter views, List.mem_singleton]
    rw [split, List.map_cons, List.nodup_cons, List.forall_mem_cons]
    by_cases missing : drop.ifExists = true
    · refine iff_of_true ?_ (Or.inl missing)
      obtain ⟨w₁, first⟩ : ∃ w₁, dropViewNamed d st drop name w = .ok w₁ :=
        exists_dropViewNamed_iff.2 (Or.inl missing)
      exact ⟨w₁, first, ih.2 (Or.inl missing)⟩
    · simp only [missing, Bool.false_eq_true, false_or] at ih ⊢
      constructor
      · rintro ⟨w₁, first, later⟩
        obtain ⟨distinct, there⟩ := ih.1 later
        have here := (exists_dropViewNamed_iff.1 ⟨w₁, first⟩).resolve_left missing
        refine ⟨⟨fun again => ((keys w₁ first _).1 (there _ again)).2 rfl, distinct⟩, here, fun key hkey => ?_⟩
        exact ((keys w₁ first key).1 (there key hkey)).1
      · rintro ⟨⟨once, distinct⟩, here, there⟩
        obtain ⟨w₁, first⟩ : ∃ w₁, dropViewNamed d st drop name w = .ok w₁ :=
          exists_dropViewNamed_iff.2 (Or.inr here)
        refine ⟨w₁, first, ih.2 ⟨distinct, fun key hkey => (keys w₁ first key).2 ⟨there key hkey, ?_⟩⟩⟩
        rintro rfl
        exact once hkey

/-! ### Statements one after the other -/

variable {l : List (Statement × Nat)}

/-- the views that statements declare -/
def declaredViews (l : List (Statement × Nat)) : List CreateView := l.filterMap (·.1.view?)

/-- the views that statements drop -/
def viewDrops (l : List (Statement × Nat)) : List DropView := l.filterMap (·.1.viewDrop?)

theorem declaredViews_zipIdx (S : List Statement) : declaredViews S.zipIdx = S.filterMap (·.view?) :=
  filterMap_zipIdx _ S

theorem viewDrops_zipIdx (S : List Statement) : viewDrops S.zipIdx = S.filterMap (·.viewDrop?) :=
  filterMap_zipIdx _ S

/-- a statement of a list of statements about views, and those after it -/
theorem views_cases {n : Statement × Nat} (ofViews : ∀ m ∈ n :: l, m.1.isOfViews = true) :
    ((∃ view, n.1.body = .createView view ∧ declaredViews (n :: l) = view :: declaredViews l ∧
        viewDrops (n :: l) = viewDrops l ∧
        ∀ views, withView d views n = setEntry views (view.key d) (view.declared d)) ∨
      ∃ drop, n.1.body = .dropView drop ∧ declaredViews (n :: l) = declaredViews l ∧
        viewDrops (n :: l) = drop :: viewDrops l ∧ ∀ views, withView d views n = views) ∧
    ∀ m ∈ l, m.1.isOfViews = true := by
  refine ⟨?_, fun m hm => ofViews m (List.mem_cons_of_mem n hm)⟩
  rcases Statement.body_of_isOfViews (ofViews n List.mem_cons_self) with ⟨view, body⟩ | ⟨drop, body⟩
  · refine Or.inl ⟨view, body, ?_⟩
    simp [declaredViews, viewDrops, withView, Statement.view?, Statement.viewDrop?, body]
  · refine Or.inr ⟨drop, body, ?_⟩
    simp [declaredViews, viewDrops, withView, Statement.view?, Statement.viewDrop?, body]

theorem mem_keys_foldl_withView (ofViews : ∀ n ∈ l, n.1.isOfViews = true) {views : List (String × View)} {key : String} :
    key ∈ (l.foldl (withView d) views).map (·.1) ↔
      key ∈ views.map (·.1) ∨ key ∈ (declaredViews l).map (·.key d) := by
  induction l generalizing views with
  | nil => simp [declaredViews]
  | cons n l ih =>
    obtain ⟨⟨view, -, declared, -, with_⟩ | ⟨drop, -, declared, -, with_⟩, rest⟩ := views_cases (d := d) ofViews
    · rw [List.foldl_cons, with_, ih rest, declared, mem_keys_setEntry, List.map_cons, List.mem_cons, or_assoc]
    · rw [List.foldl_cons, with_, ih rest, declared]

theorem filter_foldl_withView_congr {P : String → Bool} {views views' : List (String × View)}
    (same : (views.filter fun e => P e.1) = views'.filter fun e => P e.1) :
    ((l.foldl (withView d) views).filter fun e => P e.1) = (l.foldl (withView d) views').filter fun e => P e.1 := by
  induction l generalizing views views' with
  | nil => exact same
  | cons n l ih =>
    refine ih ?_
    unfold withView
    split
    · exact filter_setEntry_congr same _ _
    · exact same

theorem views_of_declared (ofViews : ∀ n ∈ l, n.1.isOfViews = true)
    (run : l.foldlM (strictDeclaration d S) w = .ok w') :
    w'.views = l.foldl (withView d) w.views ∧ SameBesideViews w w' := by
  induction l generalizing w with
  | nil =>
    rw [← Except.ok.inj run]
    exact ⟨rfl, .refl w⟩
  | cons n l ih =>
    obtain ⟨w₁, first, later⟩ := bind_eq_ok_iff.1 ((List.foldlM_cons ..).symm.trans run)
    obtain ⟨⟨view, body, -, -, with_⟩ | ⟨drop, body, -, -, with_⟩, rest⟩ := views_cases (d := d) ofViews
    · simp only [strictDeclaration, body] at first
      obtain ⟨-, -, rfl⟩ := declareView_eq_ok_iff.1 first
      obtain ⟨views, same⟩ := ih rest later
      rw [List.foldl_cons, with_]
      exact ⟨views, same.tables, same.errors⟩
    · simp only [strictDeclaration, body, Except.ok.injEq] at first
      subst first
      rw [List.foldl_cons, with_]
      exact ih rest later

/-- Views are declared without a problem if those that are there already are replaced. -/
theorem exists_declared_iff (ofViews : ∀ n ∈ l, n.1.isOfViews = true) :
    (∃ w', l.foldlM (strictDeclaration d S) w = .ok w') ↔
      (∀ view ∈ declaredViews l, view.name.name ≠ "" ∧ (view.key d ∈ w.viewKeys → view.orReplace = true)) ∧
        (declaredViews l).Pairwise fun view later => later.key d = view.key d → later.orReplace = true := by
  induction l generalizing w with
  | nil => simp [declaredViews, pure, Except.pure]
  | cons n l ih =>
    obtain ⟨⟨view, body, declared, -, -⟩ | ⟨drop, body, declared, -, -⟩, rest⟩ := views_cases (d := d) ofViews
    · have split : (∃ w', (n :: l).foldlM (strictDeclaration d S) w = .ok w') ↔
          (view.key d ∈ w.viewKeys → view.orReplace = true) ∧ view.name.name ≠ "" ∧
            ∃ w', l.foldlM (strictDeclaration d S)
              { w with views := setEntry w.views (view.key d) (view.declared d) } = .ok w' := by
        simp only [List.foldlM_cons, strictDeclaration, body, bind_eq_ok_iff, declareView_eq_ok_iff]
        constructor
        · rintro ⟨w', _, ⟨free, named, rfl⟩, later⟩
          exact ⟨free, named, w', later⟩
        · rintro ⟨free, named, w', later⟩
          exact ⟨w', _, ⟨free, named, rfl⟩, later⟩
      have keys : ∀ key, key ∈ viewKeys { w with views := setEntry w.views (view.key d) (view.declared d) } ↔
          key ∈ w.viewKeys ∨ key = view.key d := fun key => mem_keys_setEntry
      rw [split, ih rest, declared, List.forall_mem_cons, List.pairwise_cons]
      simp only [keys]
      constructor
      · rintro ⟨free, named, each, pairs⟩
        exact ⟨⟨⟨named, free⟩, fun v hv => ⟨(each v hv).1, fun held => (each v hv).2 (Or.inl held)⟩⟩,
          fun v hv same => (each v hv).2 (Or.inr same), pairs⟩
      · rintro ⟨⟨⟨named, free⟩, each⟩, again, pairs⟩
        exact ⟨free, named, fun v hv => ⟨(each v hv).1, fun held => held.elim (each v hv).2 (again v hv)⟩, pairs⟩
    · have idle : (n :: l).foldlM (strictDeclaration d S) w = l.foldlM (strictDeclaration d S) w := by
        simp only [List.foldlM_cons, strictDeclaration, body]
        rfl
      rw [idle, ih rest, declared]

theorem views_of_dropped (ofViews : ∀ n ∈ l, n.1.isOfViews = true) (run : l.foldlM (strictDrop d) w = .ok w') :
    w'.views = (w.views.filter fun e => !((viewDrops l).flatMap (·.keys d)).contains e.1) ∧ SameBesideViews w w' := by
  induction l generalizing w with
  | nil =>
    rw [← Except.ok.inj run]
    exact ⟨(List.filter_eq_self.2 fun _ _ => rfl).symm, .refl w⟩
  | cons n l ih =>
    obtain ⟨w₁, first, later⟩ := bind_eq_ok_iff.1 ((List.foldlM_cons ..).symm.trans run)
    obtain ⟨⟨view, body, -, drops, -⟩ | ⟨drop, body, -, drops, -⟩, rest⟩ := views_cases (d := d) ofViews
    · simp only [strictDrop, body, Except.ok.injEq] at first
      subst first
      rw [drops]
      exact ih rest later
    · simp only [strictDrop, body] at first
      obtain ⟨views, same⟩ := eachName_dropViewNamed_eq_ok first
      obtain ⟨views', same'⟩ := ih rest later
      refine ⟨?_, same.trans same'⟩
      rw [views', views, List.filter_filter, drops, List.flatMap_cons]
      refine List.filter_congr fun e _ => ?_
      rw [List.contains_append, Bool.not_or, Bool.and_comm]
      rfl

/-- Views are dropped without a problem if those that are missing may be missing. -/
theorem exists_dropped_iff (ofViews : ∀ n ∈ l, n.1.isOfViews = true) :
    (∃ w', l.foldlM (strictDrop d) w = .ok w') ↔
      (∀ drop ∈ viewDrops l, drop.ifExists = true ∨ (drop.keys d).Nodup ∧ ∀ key ∈ drop.keys d, key ∈ w.viewKeys) ∧
        (viewDrops l).Pairwise fun drop later =>
          (∃ key ∈ later.keys d, key ∈ drop.keys d) → later.ifExists = true := by
  induction l generalizing w with
  | nil => simp [viewDrops, pure, Except.pure]
  | cons n l ih =>
    obtain ⟨⟨view, body, -, drops, -⟩ | ⟨drop, body, -, drops, -⟩, rest⟩ := views_cases (d := d) ofViews
    · have idle : (n :: l).foldlM (strictDrop d) w = l.foldlM (strictDrop d) w := by
        simp only [List.foldlM_cons, strictDrop, body]
        rfl
      rw [idle, ih rest, drops]
    · have split : (∃ w', (n :: l).foldlM (strictDrop d) w = .ok w') ↔
          ∃ w₁, eachName (dropViewNamed d n.1 drop) drop.names w = .ok w₁ ∧
            ∃ w', l.foldlM (strictDrop d) w₁ = .ok w' := by
        simp only [List.foldlM_cons, strictDrop, body, bind_eq_ok_iff]
        constructor
        · rintro ⟨w', w₁, first, later⟩
          exact ⟨w₁, first, w', later⟩
        · rintro ⟨w₁, first, w', later⟩
          exact ⟨w', w₁, first, later⟩
      have keys : ∀ w₁, eachName (dropViewNamed d n.1 drop) drop.names w = .ok w₁ → ∀ key,
          key ∈ w₁.viewKeys ↔ key ∈ w.viewKeys ∧ key ∉ drop.keys d := fun w₁ first key =>
        mem_viewKeys_of_filter (eachName_dropViewNamed_eq_ok first).1
      rw [split, drops, List.forall_mem_cons, List.pairwise_cons]
      constructor
      · rintro ⟨w₁, first, later⟩
        obtain ⟨each, pairs⟩ := (ih rest).1 later
        refine ⟨⟨exists_eachName_dropViewNamed_iff.1 ⟨w₁, first⟩, fun later hlater => ?_⟩, fun later hlater => ?_, pairs⟩
        · refine (each later hlater).imp_right fun h => ⟨h.1, fun key hkey => ?_⟩
          exact ((keys w₁ first key).1 (h.2 key hkey)).1
        · rintro ⟨key, hkey, gone⟩
          refine (each later hlater).resolve_right fun h => ?_
          exact ((keys w₁ first key).1 (h.2 key hkey)).2 gone
      · rintro ⟨⟨own, each⟩, again, pairs⟩
        obtain ⟨w₁, first⟩ : ∃ w₁, eachName (dropViewNamed d n.1 drop) drop.names w = .ok w₁ :=
          exists_eachName_dropViewNamed_iff.2 own
        refine ⟨w₁, first, (ih rest).2 ⟨fun later hlater => ?_, pairs⟩⟩
        by_cases missing : later.ifExists = true
        · exact Or.inl missing
        · obtain ⟨distinct, there⟩ := (each later hlater).resolve_left missing
          refine Or.inr ⟨distinct, fun key hkey => (keys w₁ first key).2 ⟨there key hkey, fun gone => ?_⟩⟩
          exact missing (again later hlater ⟨key, hkey, gone⟩)

/-! ### Execution -/

/-- What an execution without a problem says: declared views have names, dropped ones are there before or declared, and
of the views that are not dropped there are those that would be there if none was. -/
structure Executed (d : Dialect) (l : List (Statement × Nat)) (w w' : Workspace) : Prop where
  named : ∀ view ∈ declaredViews l, view.name.name ≠ ""
  found : ∀ drop ∈ viewDrops l, drop.ifExists = true ∨
    (drop.keys d).Nodup ∧ ∀ key ∈ drop.keys d, key ∈ w.viewKeys ∨ key ∈ (declaredViews l).map (·.key d)
  stay : ∀ P : String → Bool, (∀ drop ∈ viewDrops l, ∀ key ∈ drop.keys d, P key = false) →
    (w'.views.filter fun e => P e.1) = (l.foldl (withView d) w.views).filter fun e => P e.1

theorem executed (ofViews : ∀ n ∈ l, n.1.isOfViews = true) (run : l.foldlM (execute d) w = .ok w') :
    Executed d l w w' := by
  induction l generalizing w with
  | nil =>
    rw [← Except.ok.inj run]
    exact ⟨by simp [declaredViews], by simp [viewDrops], fun _ _ => rfl⟩
  | cons n l ih =>
    obtain ⟨w₁, first, later⟩ := bind_eq_ok_iff.1 ((List.foldlM_cons ..).symm.trans run)
    obtain ⟨⟨view, body, declared, drops, with_⟩ | ⟨drop, body, declared, drops, with_⟩, rest⟩ :=
      views_cases (d := d) ofViews
    · have first : declareView d view w = .ok w₁ := by
        simpa only [execute, strictDeclaration, strictDrop, body, bind_eq_ok_iff, Except.ok.injEq, exists_eq_right] using
          first
      obtain ⟨-, named, rfl⟩ := declareView_eq_ok_iff.1 first
      have h := ih rest later
      refine ⟨?_, ?_, fun P apart => ?_⟩
      · rw [declared]
        exact List.forall_mem_cons.2 ⟨named, h.named⟩
      · rw [drops, declared]
        refine fun drop hdrop => (h.found drop hdrop).imp_right fun found => ⟨found.1, fun key hkey => ?_⟩
        rw [List.map_cons, List.mem_cons, ← or_assoc]
        exact (found.2 key hkey).imp_left mem_keys_setEntry.1
      · rw [List.foldl_cons, with_]
        exact h.stay P (drops ▸ apart)
    · have first : eachName (dropViewNamed d n.1 drop) drop.names w = .ok w₁ := by
        simpa only [execute, strictDeclaration, strictDrop, body, bind_eq_ok_iff, Except.ok.injEq, exists_eq_left'] using
          first
      have views := (eachName_dropViewNamed_eq_ok first).1
      have h := ih rest later
      refine ⟨declared ▸ h.named, ?_, fun P apart => ?_⟩
      · rw [drops, declared]
        refine List.forall_mem_cons.2 ⟨?_, fun later hlater => ?_⟩
        · exact (exists_eachName_dropViewNamed_iff.1 ⟨w₁, first⟩).imp_right fun found =>
            ⟨found.1, fun key hkey => Or.inl (found.2 key hkey)⟩
        · refine (h.found later hlater).imp_right fun found => ⟨found.1, fun key hkey => ?_⟩
          exact (found.2 key hkey).imp_left fun there => ((mem_viewKeys_of_filter views).1 there).1
      · rw [drops] at apart
        rw [List.foldl_cons, with_, h.stay P fun drop hdrop => apart drop (List.mem_cons_of_mem _ hdrop)]
        refine filter_foldl_withView_congr ?_
        rw [views, List.filter_filter]
        refine List.filter_congr fun e _ => ?_
        by_cases gone : e.1 ∈ drop.keys d
        · rw [apart drop List.mem_cons_self e.1 gone, Bool.false_and]
        · have other : (List.map (·.key d) drop.names).contains e.1 = false := by
            rw [← Bool.not_eq_true, List.contains_iff_mem]
            exact gone
          rw [other, Bool.not_false, Bool.and_true]

/-! ### Problems that are recorded -/

/-- A step changes no table and is not refused. If no error is found, it is the strict step. -/
def Recovers (step : Except Refusal Workspace) (strict : Except Failure Workspace) (w : Workspace) : Prop :=
  ∃ w', step = .ok w' ∧ w'.tables = w.tables ∧
    (w'.errors = [] → w.errors = [] ∧ strict = .ok w')

theorem recovers_foldlM {step : Workspace → Statement × Nat → Except Refusal Workspace}
    {strict : Workspace → Statement × Nat → Except Failure Workspace}
    (each : ∀ n ∈ l, ∀ w, Recovers (step w n) (strict w n) w) : Recovers (l.foldlM step w) (l.foldlM strict w) w := by
  induction l generalizing w with
  | nil => exact ⟨w, rfl, rfl, fun quiet => ⟨quiet, rfl⟩⟩
  | cons n l ih =>
    obtain ⟨w₁, first, tables, quiet⟩ := each n List.mem_cons_self w
    obtain ⟨w', later, tables', quiet'⟩ := ih (w := w₁) fun m hm => each m (List.mem_cons_of_mem n hm)
    refine ⟨w', ?_, tables'.trans tables, fun none => ?_⟩
    · rw [List.foldlM_cons, first]
      exact later
    · obtain ⟨before, rest⟩ := quiet' none
      obtain ⟨start, own⟩ := quiet before
      refine ⟨start, ?_⟩
      rw [List.foldlM_cons, own]
      exact rest

theorem recovers_declareView {view : CreateView} (named : view.name.name ≠ "") (position : Position)
    (source : Option String) : Recovers (w.attempt position source (declareView d view)) (declareView d view w) w := by
  unfold attempt
  cases done : declareView d view w with
  | ok w' =>
    obtain ⟨-, -, rfl⟩ := declareView_eq_ok_iff.1 done
    exact ⟨_, rfl, rfl, fun quiet => ⟨quiet, rfl⟩⟩
  | error failure =>
    cases failure with
    | problem p => exact ⟨_, rfl, rfl, fun quiet => absurd quiet (List.append_ne_nil_of_right_ne_nil _ (List.cons_ne_nil _ _))⟩
    | refused r =>
      simp only [declareView, named, if_false] at done
      split_ifs at done
      simp at done

theorem recovers_dropViewNamed {drop : DropView} (names : List QualifiedName) :
    Recovers (forNames st (dropViewNamed d st drop) names w) (eachName (dropViewNamed d st drop) names w) w := by
  induction names generalizing w with
  | nil => exact ⟨w, rfl, rfl, fun quiet => ⟨quiet, rfl⟩⟩
  | cons name rest ih =>
    rw [forNames, eachName, List.foldlM_cons]
    cases done : dropViewNamed d st drop name w with
    | ok w₁ =>
      obtain ⟨-, same⟩ := dropViewNamed_eq_ok done
      obtain ⟨w', later, tables, quiet⟩ := ih (w := w₁)
      refine ⟨w', later, tables.trans same.tables, fun none => ?_⟩
      obtain ⟨before, own⟩ := quiet none
      exact ⟨same.errors ▸ before, own⟩
    | error failure =>
      cases failure with
      | problem p => exact ⟨_, rfl, rfl, fun quiet => absurd quiet (List.append_ne_nil_of_right_ne_nil _ (List.cons_ne_nil _ _))⟩
      | refused r =>
        simp only [dropViewNamed] at done
        split_ifs at done
        simp at done

theorem recovers_declarationPass {n : Statement × Nat} (ofViews : n.1.isOfViews = true)
    (named : ∀ view ∈ n.1.view?, view.name.name ≠ "") :
    Recovers (declarationPass d S w n) (strictDeclaration d S w n) w := by
  rcases Statement.body_of_isOfViews ofViews with ⟨view, body⟩ | ⟨drop, body⟩
  · simp only [declarationPass, strictDeclaration, body]
    refine recovers_declareView (named view ?_) n.1.position n.1.source
    rw [Statement.view?, body]
    rfl
  · simp only [declarationPass, strictDeclaration, body]
    exact ⟨w, rfl, rfl, fun quiet => ⟨quiet, rfl⟩⟩

theorem recovers_changePass {n : Statement × Nat} (ofViews : n.1.isOfViews = true) :
    Recovers (changePass d w n) (strictDrop d w n) w := by
  rcases Statement.body_of_isOfViews ofViews with ⟨view, body⟩ | ⟨drop, body⟩
  · simp only [changePass, strictDrop, body]
    exact ⟨w, rfl, rfl, fun quiet => ⟨quiet, rfl⟩⟩
  · simp only [changePass, strictDrop, body]
    exact recovers_dropViewNamed drop.names

end Workspace

/-! ## The model -/

/-- the order of statements about views does not matter -/
structure ViewsApart (d : Dialect) (S : List Statement) (w : Workspace) : Prop where
  /-- a view that is left is not dropped anywhere -/
  kept : ∀ drop ∈ S.filterMap (·.viewDrop?), ∀ key ∈ drop.keys d, key ∉ w.viewKeys
  /-- a view that was declared before is replaced -/
  replaced : (S.filterMap (·.view?)).Pairwise fun view later => later.key d = view.key d → later.orReplace = true
  /-- a view that was dropped before may be missing -/
  missing : (S.filterMap (·.viewDrop?)).Pairwise fun drop later =>
    (∃ key ∈ later.keys d, key ∈ drop.keys d) → later.ifExists = true

namespace Workspace

variable {S : List Statement} {w : Workspace}

theorem isOfViews_of_mem_zipIdx (ofViews : ∀ st ∈ S, st.isOfViews = true) (n : Statement × Nat) (hn : n ∈ S.zipIdx) :
    n.1.isOfViews = true :=
  ofViews n.1 (List.fst_mem_of_mem_zipIdx hn)

/-- the strict passes come to an end if views are replaced and may be missing -/
theorem exists_strict_iff (ofViews : ∀ st ∈ S, st.isOfViews = true) (h : Executed d S.zipIdx {} w) :
    (∃ p v, S.zipIdx.foldlM (strictDeclaration d S) {} = .ok p ∧ S.zipIdx.foldlM (strictDrop d) p = .ok v) ↔
      ((S.filterMap (·.view?)).Pairwise fun view later => later.key d = view.key d → later.orReplace = true) ∧
        (S.filterMap (·.viewDrop?)).Pairwise fun drop later =>
          (∃ key ∈ later.keys d, key ∈ drop.keys d) → later.ifExists = true := by
  have views := isOfViews_of_mem_zipIdx ofViews
  rw [← declaredViews_zipIdx, ← viewDrops_zipIdx]
  constructor
  · rintro ⟨p, v, declared, dropped⟩
    exact ⟨((exists_declared_iff views).1 ⟨p, declared⟩).2, ((exists_dropped_iff views).1 ⟨v, dropped⟩).2⟩
  · rintro ⟨replaced, missing⟩
    obtain ⟨p, declared⟩ := (exists_declared_iff (w := {}) (S := S) views).2
      ⟨fun view hview => ⟨h.named view hview, fun held => absurd held (List.not_mem_nil)⟩, replaced⟩
    have found : ∀ drop ∈ viewDrops S.zipIdx, drop.ifExists = true ∨
        (drop.keys d).Nodup ∧ ∀ key ∈ drop.keys d, key ∈ p.viewKeys := by
      intro drop hdrop
      refine (h.found drop hdrop).imp_right fun found => ⟨found.1, fun key hkey => ?_⟩
      rw [viewKeys, (views_of_declared views declared).1, mem_keys_foldl_withView views]
      exact found.2 key hkey
    obtain ⟨v, dropped⟩ := (exists_dropped_iff (w := p) views).2 ⟨found, missing⟩
    exact ⟨p, v, declared, dropped⟩

/-- the strict passes leave those of the executed views that are not dropped anywhere -/
theorem views_of_strict (ofViews : ∀ st ∈ S, st.isOfViews = true) (h : Executed d S.zipIdx {} w) {p v : Workspace}
    (declared : S.zipIdx.foldlM (strictDeclaration d S) {} = .ok p)
    (dropped : S.zipIdx.foldlM (strictDrop d) p = .ok v) :
    v.views = w.views.filter fun e => !((viewDrops S.zipIdx).flatMap (·.keys d)).contains e.1 := by
  have views := isOfViews_of_mem_zipIdx ofViews
  rw [(views_of_dropped views dropped).1, (views_of_declared views declared).1]
  refine (h.stay (fun key => !((viewDrops S.zipIdx).flatMap (·.keys d)).contains key) fun drop hdrop key hkey => ?_).symm
  rw [Bool.not_eq_false', List.contains_iff_mem, List.mem_flatMap]
  exact ⟨drop, hdrop, hkey⟩

/-- a list of views with some of them gone is the same only if none is gone -/
theorem map_filter_eq_map_iff {α β : Type} {f : α → β} {p : α → Bool} {l : List α} :
    (l.filter p).map f = l.map f ↔ ∀ a ∈ l, p a = true := by
  constructor
  · intro same
    have lengths := congrArg List.length same
    rw [List.length_map, List.length_map] at lengths
    exact List.length_filter_eq_length_iff.1 lengths
  · intro all
    rw [List.filter_eq_self.2 all]

/-- the strict passes leave the executed views if none of these is dropped anywhere -/
theorem views_of_strict_iff (ofViews : ∀ st ∈ S, st.isOfViews = true) (h : Executed d S.zipIdx {} w) {p v : Workspace}
    (declared : S.zipIdx.foldlM (strictDeclaration d S) {} = .ok p)
    (dropped : S.zipIdx.foldlM (strictDrop d) p = .ok v) : v.views.map (·.2) = w.views.map (·.2) ↔
      ∀ drop ∈ S.filterMap (·.viewDrop?), ∀ key ∈ drop.keys d, key ∉ w.viewKeys := by
  rw [views_of_strict ofViews h declared dropped, map_filter_eq_map_iff, ← viewDrops_zipIdx]
  simp only [Bool.not_eq_true', ← Bool.not_eq_true, List.contains_iff_mem, List.mem_flatMap, not_exists, not_and,
    viewKeys, List.mem_map]
  exact ⟨fun apart drop hdrop key hkey e he own => apart e he drop hdrop (own ▸ hkey),
    fun apart e he drop hdrop hkey => apart drop hdrop e.1 hkey e he rfl⟩

/-- The passes come to an end if all views have names, and they find no error if the strict passes come to the same. -/
theorem exists_applyAll (ofViews : ∀ st ∈ S, st.isOfViews = true) (named : ∀ view ∈ declaredViews S.zipIdx,
      view.name.name ≠ "") : ∃ v, applyAll d S = .ok v ∧ v.tables = [] ∧ (v.errors = [] ↔
        ∃ p, S.zipIdx.foldlM (strictDeclaration d S) {} = .ok p ∧ S.zipIdx.foldlM (strictDrop d) p = .ok v) := by
  have views := isOfViews_of_mem_zipIdx ofViews
  obtain ⟨p, declared, noTables, quiet⟩ := recovers_foldlM (w := {}) fun n hn w =>
    recovers_declarationPass (d := d) (S := S) (views n hn) fun view hview =>
      named view (List.mem_filterMap.2 ⟨n, hn, hview⟩)
  obtain ⟨v, dropped, tables, quiet'⟩ := recovers_foldlM (w := p) fun n hn w =>
    recovers_changePass (d := d) (w := w) (views n hn)
  have enums : S.foldlM (enumPass d) {} = .ok {} := foldlM_eq_ok_self fun st hst w =>
    enumPass_of_declaresOrDrops (Statement.declaresOrDrops_of_isOfViews (ofViews st hst))
  refine ⟨v, by simp only [applyAll, enums, bind, Except.bind, declared, dropped], tables.trans noTables, ?_⟩
  constructor
  · intro noErrors
    obtain ⟨before, dropped⟩ := quiet' noErrors
    exact ⟨p, (quiet before).2, dropped⟩
  · rintro ⟨p', declared', dropped'⟩
    rw [(views_of_dropped views dropped').2.errors, (views_of_declared views declared').2.errors]

/-- a schema without tables has a model, with its errors and its views -/
theorem exists_build_of_no_tables {v : Workspace} (none : v.tables = []) :
    ∃ b, v.build d Option.none = .ok b ∧ b.model.errors = v.errors ∧
      b.model.views = v.views.map (·.2) := by
  obtain ⟨b, built⟩ := (exists_build_iff (d := d) (w := v) Option.none).2 ⟨by simp [none], by simp [none]⟩
  refine ⟨b, built, ?_, ?_⟩
  · rw [(findings_of_build built).1, none]
    exact List.append_nil _
  · rw [model_of_build built]
    exact List.filter_eq_self.2 fun _ _ => rfl

end Workspace

/-- Where an execution in order meets no problem, the model has no errors and the views that the execution leaves,
exactly if the order of the statements does not matter. -/
theorem views_iff_apart {S : List Statement} (ofViews : ∀ st ∈ S, st.isOfViews = true) {w : Workspace}
    (run : S.zipIdx.foldlM (Workspace.execute d) {} = .ok w) : ∃ b, buildModel d none S = .ok b ∧
      (b.model.errors = [] ∧ b.model.views = w.views.map (·.2) ↔ ViewsApart d S w) := by
  have h := Workspace.executed (Workspace.isOfViews_of_mem_zipIdx ofViews) run
  obtain ⟨v, applied, noTables, strictly⟩ := Workspace.exists_applyAll (d := d) ofViews h.named
  obtain ⟨b, built, errors, shown⟩ := Workspace.exists_build_of_no_tables (d := d) noTables
  refine ⟨b, (Workspace.buildModel_of_applied applied none).trans built, ?_⟩
  rw [errors, shown, strictly]
  constructor
  · rintro ⟨⟨p, declared, dropped⟩, same⟩
    obtain ⟨replaced, missing⟩ := (Workspace.exists_strict_iff ofViews h).1 ⟨p, v, declared, dropped⟩
    exact ⟨(Workspace.views_of_strict_iff ofViews h declared dropped).1 same, replaced, missing⟩
  · rintro ⟨kept, replaced, missing⟩
    obtain ⟨p, v', declared, dropped⟩ := (Workspace.exists_strict_iff ofViews h).2 ⟨replaced, missing⟩
    have plain : ∀ st ∈ S, st.declaresOrDrops = true := fun st hst =>
      Statement.declaresOrDrops_of_isOfViews (ofViews st hst)
    obtain rfl := Except.ok.inj (applied.symm.trans (Workspace.applyAll_of_strict plain declared dropped))
    exact ⟨⟨p, declared, dropped⟩, (Workspace.views_of_strict_iff ofViews h declared dropped).2 kept⟩

/-- a view that is replaced, one that is dropped, and one that is missing -/
def replacedAndDropped : List Statement := [
  ⟨.createView { name := ⟨"v", none⟩, query := "SELECT 1" }, ⟨1, 1, 0⟩, none⟩,
  ⟨.createView { name := ⟨"u", none⟩, query := "SELECT 2" }, ⟨2, 1, 0⟩, none⟩,
  ⟨.createView { name := ⟨"V", some "main"⟩, query := "SELECT 3", orReplace := true }, ⟨3, 1, 0⟩, none⟩,
  ⟨.dropView { names := [⟨"U", none⟩] }, ⟨4, 1, 0⟩, none⟩,
  ⟨.dropView { names := [⟨"x", none⟩, ⟨"u", none⟩], ifExists := true }, ⟨5, 1, 0⟩, none⟩]

theorem views_iff_apart_replacedAndDropped : ∃ w b,
    replacedAndDropped.zipIdx.foldlM (Workspace.execute .sqlite) {} = .ok w ∧
    buildModel .sqlite none replacedAndDropped = .ok b ∧ b.model.errors = [] ∧ b.model.views = w.views.map (·.2) ∧
    w.views = [("main.v", ⟨"V", some "main", "SELECT 3", false, []⟩)] := by
  have shape : (replacedAndDropped.zipIdx.foldlM (Workspace.execute .sqlite) {}).toOption.map (·.views) =
      some [("main.v", ⟨"V", some "main", "SELECT 3", false, []⟩)] := by
    decide +kernel
  obtain ⟨w, run, views⟩ := Option.map_eq_some_iff.1 shape
  have run := toOption_eq_some_iff.1 run
  obtain ⟨b, built, same⟩ := views_iff_apart (by decide) run
  obtain ⟨errors, shown⟩ := same.2 {
    kept := by
      rw [Workspace.viewKeys, views]
      decide +kernel
    replaced := by decide +kernel
    missing := by decide +kernel }
  exact ⟨w, b, run, built, errors, shown, views⟩

/-- A view that is dropped before it is declared is lost, and one that is dropped in between is declared twice. -/
theorem views_not_in_order :
    let view : StatementBody := .createView { name := ⟨"v", none⟩, query := "SELECT 1" }
    let drop : StatementBody := .dropView { names := [⟨"v", none⟩], ifExists := true }
    let dump : List Statement := [⟨drop, ⟨1, 1, 0⟩, none⟩, ⟨view, ⟨2, 1, 0⟩, none⟩]
    let again : List Statement := [⟨view, ⟨1, 1, 0⟩, none⟩, ⟨drop, ⟨2, 1, 0⟩, none⟩, ⟨view, ⟨3, 1, 0⟩, none⟩]
    (∀ S ∈ [dump, again], (S.zipIdx.foldlM (Workspace.execute .sqlite) {}).toOption.map (·.viewKeys) =
      some ["main.v"]) ∧
    (buildModel .sqlite none dump).toOption.map (fun b => (b.model.views, b.model.errors)) = some ([], []) ∧
    (buildModel .sqlite none again).toOption.map (fun b => (b.model.views, b.model.errors.map (·.code))) =
      some ([], ["DUPLICATE_VIEW"]) := by
  decide +kernel

end SchemaApi
