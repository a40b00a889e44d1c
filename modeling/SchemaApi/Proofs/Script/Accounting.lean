import SchemaApi.Proofs.Fallible
import SchemaApi.Proofs.Reading.Report
import SchemaApi.Proofs.Reading.Result
import SchemaApi.Proofs.Token.Lossless
import SchemaApi.Script
/-!
No statement disappears silently.

A segment is read statement by statement until no token is left, or until a statement is lost: because it is malformed,
because it is outside the grammar, or because something else follows it. Each case leaves its mark in the findings, and
rules add nothing to these but remarks (`Reading.Proceeds`). So findings and statements of a segment balance
(`Accounted`). A statement stands at its first token and takes it, so statements stand in the order of their tokens.
-/

namespace SchemaApi

/-! ## Findings of a segment -/

/-- a statement is lost -/
def Finding.reportsLoss (f : Finding) : Bool := f.code == "PARSE_ERROR" || f.code == "UNSUPPORTED_STATEMENT"

/-- one statement follows another without a separator -/
def Finding.reportsGap (f : Finding) : Bool := f.code == "MISSING_SEMICOLON"

theorem Finding.IsRemark.silent {f : Finding} (h : f.IsRemark) : f.reportsLoss = false ∧ f.reportsGap = false := by
  have codes : ∀ code ∈ ["UNSUPPORTED_CLAUSE", "UNSUPPORTED_ALTER_ACTION"],
      (code == "PARSE_ERROR" || code == "UNSUPPORTED_STATEMENT") = false ∧ (code == "MISSING_SEMICOLON") = false := by
    decide
  exact codes f.code h.2

/-- while a statement is read, none is lost and no separator is missed -/
theorem countP_of_continues {notes : List Finding} (h : Continues Finding.IsRemark [] notes) :
    notes.countP Finding.reportsLoss = 0 ∧ notes.countP Finding.reportsGap = 0 := by
  obtain ⟨new, rfl, remarks⟩ := h
  simp only [List.countP_eq_zero, Bool.not_eq_true]
  exact ⟨fun f hf => (remarks f hf).silent.1, fun f hf => (remarks f hf).silent.2⟩

/-- where reading stops, a statement is lost -/
theorem Stop.reportsLoss_finding (source : Option String) (why : Stop) :
    (why.finding source).reportsLoss = true ∧ (why.finding source).reportsGap = false := by
  cases why <;> exact ⟨rfl, rfl⟩

/-! ## Statements of a segment -/

/-- statements are read one after another, and leave the later tokens -/
inductive ReadOff (scope : Scope) : List Token → List Statement → List Token → Prop where
  | nil (tokens : List Token) : ReadOff scope tokens [] tokens
  | cons {tokens left : List Token} {st : Statement} {next : Cursor} {sts : List Statement}
      (read : Reading.statement scope { rest := tokens } = .ok st next) (later : ReadOff scope next.rest sts left) :
      ReadOff scope tokens (st :: sts) left

/-- the statements and findings of some tokens balance -/
structure Accounted (scope : Scope) (tokens : List Token) (result : List Statement × Findings) : Prop where
  balance : result.1.length + result.2.countP Finding.reportsLoss = result.2.countP Finding.reportsGap + 1
  /-- at most one statement is lost -/
  single : result.2.countP Finding.reportsLoss ≤ 1
  /-- the statements are read off the tokens, and nothing is left exactly if none is lost -/
  read : ∃ left, ReadOff scope tokens result.1 left ∧ (left = [] ↔ result.2.countP Finding.reportsLoss = 0)

section
variable {scope : Scope} {tokens : List Token}

/-- the first statement is lost -/
theorem Accounted.lost (filled : tokens ≠ []) {notes : List Finding} (remarks : Continues Finding.IsRemark [] notes)
    {f : Finding} (loss : f.reportsLoss = true ∧ f.reportsGap = false) : Accounted scope tokens ([], notes ++ [f]) := by
  obtain ⟨none, joined⟩ := countP_of_continues remarks
  have losses : (notes ++ [f]).countP Finding.reportsLoss = 1 := by
    rw [List.countP_append, none, List.countP_singleton, if_pos loss.1]
  have gaps : (notes ++ [f]).countP Finding.reportsGap = 0 := by
    rw [List.countP_append, joined, List.countP_singleton, loss.2, if_neg Bool.false_ne_true]
  refine ⟨by simp only [losses, gaps, List.length_nil], losses.le, tokens, .nil tokens, ?_⟩
  simp only [losses, filled, Nat.one_ne_zero]

/-- nothing is left behind the first statement -/
theorem Accounted.last {st : Statement} {notes : List Finding}
    (read : Reading.statement scope { rest := tokens } = .ok st ⟨[], notes⟩)
    (remarks : Continues Finding.IsRemark [] notes) : Accounted scope tokens ([st], notes) := by
  obtain ⟨none, joined⟩ := countP_of_continues remarks
  refine ⟨by simp only [none, joined, List.length_singleton], by simp only [none, Nat.zero_le], [], ?_, ?_⟩
  · exact .cons read (.nil [])
  · simp only [none]

/-- another statement follows the first -/
theorem Accounted.more {st : Statement} {next : Cursor}
    (read : Reading.statement scope { rest := tokens } = .ok st next) (remarks : Continues Finding.IsRemark [] next.notes) {warning : Finding}
    (gap : warning.reportsLoss = false ∧ warning.reportsGap = true) {result : List Statement × Findings}
    (later : Accounted scope next.rest result) :
    Accounted scope tokens (st :: result.1, next.notes ++ warning :: result.2) := by
  obtain ⟨none, joined⟩ := countP_of_continues remarks
  have losses : (next.notes ++ warning :: result.2).countP Finding.reportsLoss =
      result.2.countP Finding.reportsLoss := by
    rw [List.countP_append, none, List.countP_cons, gap.1, if_neg Bool.false_ne_true, Nat.zero_add, Nat.add_zero]
  have gaps : (next.notes ++ warning :: result.2).countP Finding.reportsGap =
      result.2.countP Finding.reportsGap + 1 := by
    rw [List.countP_append, joined, List.countP_cons, if_pos gap.2, Nat.zero_add]
  obtain ⟨left, readOff, consumed⟩ := later.read
  refine ⟨?_, losses ▸ later.single, left, .cons read readOff, losses ▸ consumed⟩
  have balance := later.balance
  rw [losses, gaps, List.length_cons]
  omega

/-- some tokens balance, however they are read -/
theorem readFrom_accounted (filled : tokens ≠ []) : Accounted scope tokens (readFrom scope tokens) := by
  have proceeds : Reading.Proceeds Reading.statement := inferInstance
  have remarks {tokens : List Token} {st : Statement} {next : Cursor}
      (run : Reading.statement scope { rest := tokens } = .ok st next) : Continues Finding.IsRemark [] next.notes :=
    (Reading.Proceeds.of_ok run).notes
  have reads := readsTo_readFrom scope tokens
  generalize readFrom scope tokens = result at reads
  induction reads with
  | done => exact absurd rfl filled
  | refused filled run => exact .lost filled (proceeds.notes_of_stop run) (Stop.reportsLoss_finding scope.source _)
  | @last tokens st next _ run all =>
    obtain ⟨_, notes⟩ := next
    cases all
    exact .last run (remarks run)
  | more _ run left starts read ih =>
    have behind := left ▸ List.cons_ne_nil _ _
    exact .more run (remarks run) ⟨rfl, rfl⟩ (ih behind)
  | trailing filled run left other => exact .lost filled (remarks run) (Stop.reportsLoss_finding scope.source _)

/-- the statements stand at some of the tokens, in their order -/
def StandIn (tokens : List Token) (sts : List Statement) : Prop :=
  ∃ starts, starts.Sublist tokens ∧ List.Forall₂ (fun start st => st.StandsAt start) starts sts

theorem StandIn.sublist {more : List Token} {sts : List Statement} (h : StandIn tokens sts)
    (within : tokens.Sublist more) : StandIn more sts := by
  obtain ⟨starts, chosen, stand⟩ := h
  exact ⟨starts, chosen.trans within, stand⟩

theorem StandIn.append {later : List Token} {sts sts' : List Statement} (h : StandIn tokens sts)
    (h' : StandIn later sts') : StandIn (tokens ++ later) (sts ++ sts') := by
  obtain ⟨starts, chosen, stand⟩ := h
  obtain ⟨starts', chosen', stand'⟩ := h'
  exact ⟨starts ++ starts', chosen.append chosen', List.rel_append stand stand'⟩

/-- statements that are read off stand where they begin -/
theorem ReadOff.standIn {sts : List Statement} {left : List Token} (h : ReadOff scope tokens sts left) :
    StandIn tokens sts := by
  induction h with
  | nil tokens => exact ⟨[], List.nil_sublist _, .nil⟩
  | @cons tokens left st next sts read _ ih =>
    cases tokens with
    | nil =>
      obtain ⟨_, _, ⟨⟩, read⟩ := Reading.andThen_eq_ok.1 read
      contradiction
    | cons t rest =>
      obtain ⟨behind, stands⟩ := Reading.statement_takesStart t read
      obtain ⟨starts, chosen, stand⟩ := ih
      exact ⟨t :: starts, (chosen.trans behind.sublist).cons_cons _, .cons stands stand⟩

theorem readFrom_standIn (tokens : List Token) : StandIn tokens (readFrom scope tokens).1 := by
  by_cases filled : tokens = []
  · rw [filled, readFrom_nil]
    exact ⟨[], List.nil_sublist _, .nil⟩
  · obtain ⟨left, readOff, -⟩ := (readFrom_accounted filled).read
    exact readOff.standIn

end

/-! ## Segments of a script -/

section
variable {d : Dialect}

/-- Segments are the runs of tokens between separators that have a token. A fault loses the last one. -/
theorem segmentsFrom_eq (current : List Token) (joined : ∀ t ∈ current, isSeparator d t = false) (stream : TokenStream)
    (complete : stream.error? = none) : segmentsFrom d current stream =
      ((current.reverse ++ stream.toList).splitOnP (isSeparator d)).filter (!·.isEmpty) := by
  have joined' : ∀ t ∈ current.reverse, isSeparator d t = false := fun t ht => joined t (List.mem_reverse.1 ht)
  induction stream generalizing current with
  | failed e => contradiction
  | done =>
    rw [TokenStream.toList, List.append_nil, List.splitOnP_eq_singleton joined']
    cases current with
    | nil => rfl
    | cons t current =>
      have filled : (t :: current).reverse.isEmpty = false := by simp
      rw [segmentsFrom, List.filter_singleton, filled]
      · rfl
      · exact List.cons_ne_nil t current
  | token t rest ih =>
    rw [TokenStream.toList, segmentsFrom]
    by_cases separates : isSeparator d t = true
    · rw [if_pos separates, List.splitOnP_append_cons_of_forall_mem joined' t separates, List.filter_cons,
        ih [] (by simp) complete (by simp)]
      cases current with
      | nil => rfl
      | cons c current => simp
    · rw [if_neg separates]
      have joined : ∀ u ∈ t :: current, isSeparator d u = false :=
        List.forall_mem_cons.2 ⟨Bool.eq_false_iff.2 separates, joined⟩
      rw [ih (t :: current) joined complete fun u hu => joined u (List.mem_reverse.1 hu)]
      rw [List.reverse_cons, List.append_assoc, List.singleton_append]

/-- segments hold tokens of the script, in their order -/
theorem flatten_segmentsFrom_sublist (current : List Token) (stream : TokenStream) :
    (segmentsFrom d current stream).flatten.Sublist (current.reverse ++ stream.toList) := by
  induction stream generalizing current with
  | failed e =>
    rw [segmentsFrom]
    exact List.nil_sublist _
  | done =>
    cases current with
    | nil => exact List.nil_sublist _
    | cons t current => simp [segmentsFrom, TokenStream.toList]
  | token t rest ih =>
    rw [segmentsFrom, TokenStream.toList]
    split_ifs with separates empty
    · exact (ih []).trans ((List.sublist_cons_self t _).trans (List.sublist_append_right ..))
    · exact (List.Sublist.refl _).append ((ih []).trans (List.sublist_cons_self t _))
    · have further := ih (t :: current)
      rwa [List.reverse_cons, List.append_assoc, List.singleton_append] at further

theorem segments_ne_nil (current : List Token) (stream : TokenStream) :
    ∀ segment ∈ segmentsFrom d current stream, segment ≠ [] := by
  induction stream generalizing current with
  | failed e =>
    rw [segmentsFrom]
    exact fun _ nothing => absurd nothing List.not_mem_nil
  | done =>
    cases current with
    | nil => exact fun _ nothing => absurd nothing List.not_mem_nil
    | cons t current => simp [segmentsFrom]
  | token t rest ih =>
    rw [segmentsFrom]
    split_ifs with separates empty
    · exact ih []
    · refine List.forall_mem_cons.2 ⟨?_, ih []⟩
      simpa using empty
    · exact ih (t :: current)

/-- the statements of a script stand at tokens of it -/
theorem parseTokens_standIn (source : Option String) (script : Option (List Char)) (stream : TokenStream) :
    StandIn stream.toList (parseTokens d source script stream).statements := by
  have each : ∀ segments : List (List Token),
      StandIn segments.flatten ((segments.map (readSegment d source script)).flatMap (·.1)) := by
    intro segments
    induction segments with
    | nil => exact ⟨[], .slnil, .nil⟩
    | cons segment segments ih => exact (readFrom_standIn segment).append ih
  exact (each (segments d stream)).sublist (flatten_segmentsFrom_sublist [] stream)

end

/-! ## Order -/

/-- one place is before another, by characters and by lines and columns -/
structure Position.Before (p q : Position) : Prop where
  offset : p.offset < q.offset
  line : p.line < q.line ∨ p.line = q.line ∧ p.column < q.column

theorem Position.before_advance (p : Position) (c : Char) : p.Before (p.advance c) := by
  by_cases feed : c = '\n'
  · exact ⟨by simp, Or.inl (by simp [advance, feed])⟩
  · exact ⟨by simp, Or.inr (by simp [advance, feed])⟩

theorem Position.Before.trans {p q r : Position} (h : p.Before q) (h' : q.Before r) : p.Before r := by
  obtain ⟨offset, line⟩ := h
  obtain ⟨offset', line'⟩ := h'
  exact ⟨offset.trans offset', by omega⟩

theorem Position.before_after (p : Position) (c : Char) (text : List Char) : p.Before (p.after (c :: text)) := by
  induction text generalizing p c with
  | nil => exact p.before_advance c
  | cons c' text ih => exact (p.before_advance c).trans (ih (p.advance c) c')

theorem Position.eq_of {p q : Position} (line : p.line = q.line) (column : p.column = q.column)
    (offset : p.offset = q.offset) : p = q := by
  cases p
  cases q
  simp_all

/-- a token in a text stands behind the characters before it -/
theorem Token.PlacedIn.position_eq {text : List Char} {t : Token} (h : t.PlacedIn text) :
    t.position = Position.start.after (text.take t.position.offset) := by
  have inside : t.position.offset ≤ text.length := (Nat.le_add_right _ _).trans h.inside
  refine Position.eq_of ?_ ?_ ?_
  · exact h.line.trans (Position.after_line .start _).symm
  · exact h.column.trans (Position.start_after_column _).symm
  · rw [Position.after_offset, List.length_take, Nat.min_eq_left inside]
    exact (Nat.zero_add _).symm

/-- laid tokens stand one before the other -/
theorem Laid.before {d : Dialect} {text : List Char} {first : Nat} {ts : List Token} (h : Laid d text first ts) :
    ts.Pairwise fun t u => t.position.Before u.position := by
  have placed : ∀ t ∈ ts, t.PlacedIn text := by
    induction h with
    | nil => exact fun _ nothing => absurd nothing List.not_mem_nil
    | cons _ _ placed _ ih => exact List.forall_mem_cons.2 ⟨placed, ih⟩
  apply h.ordered.imp_of_mem
  intro t u ht hu apart
  have filled : 0 < t.text.length := by
    rw [Nat.pos_iff_ne_zero, ← String.length_toList, Ne, List.length_eq_zero_iff, String.toList_eq_nil_iff]
    exact (placed t ht).filled
  have farther : t.position.offset < u.position.offset := by
    rw [Token.stop] at apart
    omega
  have inside : u.position.offset ≤ text.length := (Nat.le_add_right _ _).trans (placed u hu).inside
  -- the characters before the second token are those before the first, and some more
  obtain ⟨c, more, between⟩ : ∃ c more, (text.take u.position.offset).drop t.position.offset = c :: more := by
    apply List.exists_cons_of_ne_nil
    rw [Ne, ← List.length_eq_zero_iff, List.length_drop, List.length_take]
    omega
  have split : text.take u.position.offset = text.take t.position.offset ++ c :: more :=
    calc
      _ = (text.take u.position.offset).take t.position.offset ++
          (text.take u.position.offset).drop t.position.offset := (List.take_append_drop ..).symm
      _ = _ := by rw [List.take_take, Nat.min_eq_left farther.le, between]
  rw [(placed t ht).position_eq, (placed u hu).position_eq, split, Position.after_append]
  exact Position.before_after _ c more

/-- No statement disappears silently: in each segment of a script the statements and the findings balance, at most one
statement is lost, and if none is, all tokens are read. Statements of the whole script stand one before the other. -/
theorem parseScript_accounted (d : Dialect) (source : Option String) (script : String) :
    (∀ segment ∈ segments d (tokenize d script.toList),
      Accounted ⟨d, source, some script.toList, segment.getLast?.map (·.position)⟩ segment
        (readSegment d source (some script.toList) segment)) ∧
    ((tokenize d script.toList).error? = none → segments d (tokenize d script.toList) =
      ((tokenize d script.toList).toList.splitOnP (isSeparator d)).filter (!·.isEmpty)) ∧
    (parseScript d source script).statements.Pairwise fun a b => a.position.Before b.position := by
  refine ⟨fun segment within => ?_, fun complete => ?_, ?_⟩
  · exact readFrom_accounted (segments_ne_nil [] _ segment within)
  · exact segmentsFrom_eq [] (fun _ nothing => absurd nothing List.not_mem_nil) _ complete
  · obtain ⟨starts, chosen, stand⟩ := parseTokens_standIn (d := d) source (some script.toList) (tokenize d script.toList)
    have places : (starts.map (·.position)) = (parseScript d source script).statements.map (·.position) :=
      map_eq_map_of_forall₂ (stand.imp fun _ _ stands => stands.position.symm)
    rw [← List.pairwise_map, ← places, List.pairwise_map]
    exact (covers_tokenize.1).laid.before.sublist chosen

-- statements, losses and gaps where a separator is missing, a statement is unknown, and one breaks off
example :
    ((segments .postgresql (tokenize .postgresql
        "CREATE TABLE a (x INT) CREATE TABLE b (y INT);; SELECT 1; CREATE TABLE c (".toList)).map
      (readSegment .postgresql none none)).map (fun result =>
        (result.1.length, result.2.countP Finding.reportsLoss, result.2.countP Finding.reportsGap)) =
      [(2, 0, 1), (0, 1, 0), (0, 1, 0)] := by
  decide +kernel

end SchemaApi
