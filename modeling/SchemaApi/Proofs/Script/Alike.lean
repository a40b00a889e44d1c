import SchemaApi.Script
import SchemaApi.Proofs.Reading.Statement
/-!
Scripts are read alike whose tokens are alike.

A segment is read statement by statement, and a script segment by segment. Tokens beside their counterparts fall into
segments beside each other, so that scripts are read alike if each two segments of them are.
-/

namespace SchemaApi

/-! ## Segments -/

/-- what is read from two segments, or from two scripts, is alike -/
structure ReadAlike (l : Likeness) (r r' : List Statement × Findings) : Prop where
  statements : List.Forall₂ (Statement.Alike l) r.1 r'.1
  findings : List.Forall₂ (Finding.Alike l) r.2 r'.2

theorem readFrom_cons {scope : Scope} {ts : List Token} (filled : ts ≠ []) : readFrom scope ts =
    match Reading.statement scope { rest := ts } with
    | .stop why notes => ([], notes ++ [why.finding scope.source])
    | .ok st next =>
      match next.rest with
      | [] => ([st], next.notes)
      | trailing :: _ =>
        if Reading.startsStatement trailing then
          let warning := Finding.about .warning .parse "MISSING_SEMICOLON"
            "Missing ';' between statements" scope.source (some trailing.position)
          if next.rest.length < ts.length then
            (st :: (readFrom scope next.rest).1, next.notes ++ warning :: (readFrom scope next.rest).2)
          else ([st], next.notes ++ [Stop.stalled.finding scope.source])
        else ([], next.notes ++ [(Stop.trailing trailing.text trailing.position).finding scope.source]) := by
  have notEmpty : ¬ ts.isEmpty = true := fun empty => filled (List.isEmpty_iff.1 empty)
  rw [readFrom]
  exact if_neg notEmpty

section
variable {g : Pairing}

theorem readFrom_alike {scope scope' : Scope} (scopes : scope.Alike g scope') {ts ts' : List Token}
    (h : g.Run ts ts') : ReadAlike g.toLikeness (readFrom scope ts) (readFrom scope' ts') := by
  induction size : ts.length using Nat.strongRecOn generalizing ts ts' with
  | ind n ih =>
    have length := h.length_eq
    by_cases empty : ts = []
    · obtain rfl := empty
      obtain rfl : ts' = [] := List.length_eq_zero_iff.1 length
      rw [readFrom, readFrom]
      exact ⟨.nil, .nil⟩
    have filled : ts' ≠ [] := fun empty' => empty (List.length_eq_zero_iff.1 (by rw [← length, empty']; rfl))
    have reported : ∀ {why why' : Stop} {notes notes' : Findings}, why.Alike g.toLikeness why' →
        List.Forall₂ (Finding.Alike g.toLikeness) notes notes' → List.Forall₂ (Finding.Alike g.toLikeness)
          (notes ++ [why.finding scope.source]) (notes' ++ [why'.finding scope'.source]) := by
      intro why why' notes notes' same found
      rw [scopes.source]
      exact List.rel_append found (.cons (Stop.finding_alike scope.source same) .nil)
    rw [readFrom_cons empty, readFrom_cons filled]
    rcases (Reading.statement_alike scope scope' { rest := ts } { rest := ts' } scopes ⟨h, .nil⟩).cases
      with ⟨st, st', next, next', run, run', value, left⟩ | ⟨why, why', notes, notes', run, run', same, found⟩
    · simp only [run, run']
      rcases left.rest.cases with ⟨none, none'⟩ | ⟨t, t', more, more', some, some', stands, -⟩
      · simp only [none, none']
        exact ⟨.cons value .nil, left.notes⟩
      · have goesOn := fun smaller => ih next.rest.length smaller left.rest rfl
        have fewer := left.rest.length_eq
        have place := stands.counterpart.place
        rw [some] at goesOn fewer
        rw [some'] at goesOn fewer
        simp only [some, some', stands.startsStatement]
        by_cases starts : Reading.startsStatement t = true
        · by_cases shorter : (t :: more).length < ts.length
          · have shorter' : (t' :: more').length < ts'.length := by omega
            have later := goesOn (size ▸ shorter)
            have warning := @Finding.about_alike g.toLikeness .warning .parse "MISSING_SEMICOLON"
              "Missing ';' between statements" _ (fun _ => rfl) scope.source _ _ (.some place)
            simp only [if_pos starts, if_pos shorter, if_pos shorter', scopes.source]
            exact ⟨.cons value later.statements, List.rel_append left.notes (.cons warning later.findings)⟩
          · have shorter' : ¬ (t' :: more').length < ts'.length := by omega
            simp only [if_pos starts, if_neg shorter, if_neg shorter']
            exact ⟨.cons value .nil, reported .stalled left.notes⟩
        · simp only [if_neg starts]
          exact ⟨.nil, reported (.trailing stands.counterpart.text place) left.notes⟩
    · simp only [run, run']
      exact ⟨.nil, reported same found⟩

/-- a segment and its counterpart are read alike -/
theorem readSegment_alike (g : Pairing) (source : Option String) : ReadAlike g.toLikeness
    (readSegment g.dialect source g.script (g.pairs.map Prod.fst))
    (readSegment g.dialect source g.script' (g.pairs.map Prod.snd)) := by
  have all : g.Run (g.pairs.map Prod.fst) (g.pairs.map Prod.snd) := ⟨g.pairs, List.infix_rfl, rfl, rfl⟩
  rw [readSegment, readSegment]
  refine readFrom_alike ?_ all
  refine ⟨rfl, rfl, rfl, rfl, rfl, ?_⟩
  have last := getLast?_rel all.forall₂
  generalize (g.pairs.map Prod.fst).getLast? = t at last
  generalize (g.pairs.map Prod.snd).getLast? = t' at last
  cases last with
  | none => exact .none
  | some stands => exact .some stands.counterpart.place

end

/-- the tokens of a segment beside themselves -/
def Pairing.itself (l : Likeness) (places : ∀ p, l.place p p) (d : Dialect) (script script' : Option (List Char))
    (segment : List Token) (same : ∀ run, run <:+: segment →
      l.written (Reading.spelled script run) (Reading.spelled script' run)) : Pairing where
  toLikeness := l
  dialect := d
  pairs := segment.map fun t => (t, t)
  script := script
  script' := script'
  counterpart := by
    rintro p hp
    obtain ⟨t, -, rfl⟩ := List.mem_map.1 hp
    exact ⟨rfl, rfl, rfl, fun _ => rfl, places t.position, fun _ => rfl⟩
  spelled := by
    intro run within
    obtain ⟨part, inSegment, rfl⟩ := List.infix_map_iff.1 within
    have here : part.map (Prod.fst ∘ fun t => (t, t)) = part := List.map_id part
    have there : part.map (Prod.snd ∘ fun t => (t, t)) = part := List.map_id part
    rw [List.map_map, List.map_map, here, there]
    exact same part inSegment
  types := by
    intro _ p q neighbours _
    obtain ⟨t, -, rfl⟩ := List.mem_map.1 (neighbours.subset (List.mem_cons_of_mem p List.mem_cons_self))
    rfl

/-- a segment is read alike with and without the script that it comes from, or beside itself -/
theorem readSegment_itself {l : Likeness} (places : ∀ p, l.place p p) (d : Dialect) (source : Option String)
    (script script' : Option (List Char)) (segment : List Token) (same : ∀ run, run <:+: segment →
      l.written (Reading.spelled script run) (Reading.spelled script' run)) :
    ReadAlike l (readSegment d source script segment) (readSegment d source script' segment) := by
  have read := readSegment_alike (Pairing.itself l places d script script' segment same) source
  have here : (segment.map fun t => (t, t)).map Prod.fst = segment := List.map_map.trans (List.map_id segment)
  have there : (segment.map fun t => (t, t)).map Prod.snd = segment := List.map_map.trans (List.map_id segment)
  simp only [Pairing.itself, here, there] at read
  exact read

/-! ## Scripts -/

section
variable {d : Dialect}

/-- tokens beside their counterparts fall into segments beside each other -/
theorem segmentsFrom_zip {pairs : List (Token × Token)} (same : ∀ p ∈ pairs, isSeparator d p.2 = isSeparator d p.1)
    (current : List (Token × Token)) : ∃ parts : List (List (Token × Token)),
      (∀ part ∈ parts, part <:+: current.reverse ++ pairs) ∧
      segmentsFrom d (current.map Prod.fst) (.ofList (pairs.map Prod.fst)) = parts.map (List.map Prod.fst) ∧
      segmentsFrom d (current.map Prod.snd) (.ofList (pairs.map Prod.snd)) = parts.map (List.map Prod.snd) := by
  induction pairs generalizing current with
  | nil =>
    cases current with
    | nil => exact ⟨[], fun _ none => absurd none List.not_mem_nil, rfl, rfl⟩
    | cons p current =>
      refine ⟨[(p :: current).reverse], ?_, ?_, ?_⟩
      · rw [List.append_nil]
        exact List.forall_mem_singleton.2 List.infix_rfl
      all_goals simp [TokenStream.ofList, segmentsFrom]
  | cons p pairs ih =>
    have first := same p List.mem_cons_self
    have ih := ih fun q hq => same q (List.mem_cons_of_mem p hq)
    obtain ⟨later, withinLater, start, start'⟩ := ih []
    have skip : ∀ part ∈ later, part <:+: current.reverse ++ p :: pairs := fun part hp =>
      (withinLater part hp).trans ((List.suffix_cons p pairs).trans (List.suffix_append _ _)).isInfix
    simp only [List.map_cons, TokenStream.ofList, segmentsFrom, first, List.isEmpty_map]
    simp only [List.map_nil] at start start'
    rw [start, start']
    split_ifs
    · exact ⟨later, skip, rfl, rfl⟩
    · refine ⟨current.reverse :: later, List.forall_mem_cons.2 ⟨(List.prefix_append _ _).isInfix, skip⟩, ?_, ?_⟩
      all_goals simp only [List.map_cons, List.map_reverse]
    · obtain ⟨parts, within, goesOn, goesOn'⟩ := ih (p :: current)
      simp only [List.map_cons] at goesOn goesOn'
      rw [goesOn, goesOn']
      refine ⟨parts, fun part hp => ?_, rfl, rfl⟩
      have inside := within part hp
      rwa [List.reverse_cons, List.append_assoc, List.singleton_append] at inside

/-- segments are neighbouring tokens of the script -/
theorem infix_of_mem_segments {ts segment : List Token} (h : segment ∈ segments d (.ofList ts)) : segment <:+: ts := by
  have same : ∀ p ∈ ts.map fun t => (t, t), isSeparator d p.2 = isSeparator d p.1 := by
    intro p hp
    obtain ⟨t, -, rfl⟩ := List.mem_map.1 hp
    rfl
  have here : (ts.map fun t => (t, t)).map Prod.fst = ts := List.map_map.trans (List.map_id ts)
  obtain ⟨parts, within, cut, -⟩ := segmentsFrom_zip same []
  rw [here] at cut
  rw [segments, ← List.map_nil, cut] at h
  obtain ⟨part, hp, rfl⟩ := List.mem_map.1 h
  have neighbours := (within part hp).map Prod.fst
  rwa [List.reverse_nil, List.nil_append, here] at neighbours

theorem readAlike_flatMap {l : Likeness} {α : Type} {parts : List α} {read read' : α → List Statement × Findings}
    (each : ∀ part ∈ parts, ReadAlike l (read part) (read' part)) :
    ReadAlike l ((parts.map read).flatMap (·.1), (parts.map read).flatMap (·.2))
      ((parts.map read').flatMap (·.1), (parts.map read').flatMap (·.2)) := by
  induction parts with
  | nil => exact ⟨.nil, .nil⟩
  | cons part parts ih =>
    have first := each part List.mem_cons_self
    have later := ih fun other ho => each other (List.mem_cons_of_mem part ho)
    simp only [List.map_cons, List.flatMap_cons]
    exact ⟨List.rel_append first.statements later.statements, List.rel_append first.findings later.findings⟩

/-- what two scripts are parsed to is alike -/
structure Parsed.Alike (l : Likeness) (a b : Parsed) : Prop where
  statements : List.Forall₂ (Statement.Alike l) a.statements b.statements
  findings : List.Forall₂ (Finding.Alike l) a.findings b.findings
  error : b.error = a.error

theorem dialectNotes_alike (l : Likeness) (d : Dialect) (source : Option String) :
    List.Forall₂ (Finding.Alike l) (dialectNotes d source) (dialectNotes d source) := by
  rw [dialectNotes]
  split_ifs
  · exact .cons (Finding.about_alike _ _ _ (fun _ => rfl) source .none) .nil
  · exact .nil

/-- scripts are parsed alike if their segments are read alike -/
theorem parseTokens_alike {l : Likeness} {source : Option String} {script script' : Option (List Char)}
    {pairs : List (Token × Token)} (same : ∀ p ∈ pairs, isSeparator d p.2 = isSeparator d p.1)
    (each : ∀ part, part <:+: pairs → part.map Prod.fst ∈ segments d (.ofList (pairs.map Prod.fst)) →
      ReadAlike l (readSegment d source script (part.map Prod.fst)) (readSegment d source script' (part.map Prod.snd))) :
    (parseTokens d source script (.ofList (pairs.map Prod.fst))).Alike l
      (parseTokens d source script' (.ofList (pairs.map Prod.snd))) := by
  obtain ⟨parts, within, cut, cut'⟩ := segmentsFrom_zip same []
  replace cut : segments d (.ofList (pairs.map Prod.fst)) = parts.map (List.map Prod.fst) := cut
  replace cut' : segments d (.ofList (pairs.map Prod.snd)) = parts.map (List.map Prod.snd) := cut'
  have read := readAlike_flatMap fun part hp =>
    each part (within part hp) (by rw [cut]; exact List.mem_map_of_mem hp)
  simp only [parseTokens, cut, cut', List.map_map]
  refine ⟨read.statements, List.rel_append (dialectNotes_alike l d source) read.findings, ?_⟩
  rw [TokenStream.error?_ofList, TokenStream.error?_ofList]

end

end SchemaApi
