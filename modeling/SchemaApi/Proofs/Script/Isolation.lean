import SchemaApi.Proofs.Token.Phrase
import SchemaApi.Proofs.Script.Alike
/-!
Statements are read on their own.

A script behind a semicolon on a line of its own is read as if it stood alone, whatever stands before it, and
so is the script in front: the segments of the two are those of each, and a segment is read alike in the script
that it comes from and in the whole.
-/

namespace SchemaApi

open Text

section
variable {d : Dialect} {e : Excerpt}

/-! ## Segments -/

theorem isSeparator_shift (s : Shift) (t : Token) : isSeparator d (t.shift s) = isSeparator d t := rfl

theorem segmentsFrom_append {first second : TokenStream} {mark : Token} (ends : isSeparator d mark = true)
    (complete : first.error? = none) (current : List Token) :
    segmentsFrom d current (first.append (.token mark second)) =
      segmentsFrom d current first ++ segmentsFrom d [] second := by
  induction first generalizing current with
  | failed _ => contradiction
  | done =>
    cases current with
    | nil => simp [TokenStream.append, segmentsFrom, ends]
    | cons t ts => simp [TokenStream.append, segmentsFrom, ends]
  | token t rest ih =>
    have rest := ih complete
    simp only [TokenStream.append, segmentsFrom, rest]
    split_ifs <;> simp

theorem segmentsFrom_shift (s : Shift) (current : List Token) (stream : TokenStream) :
    segmentsFrom d (current.map (Token.shift s)) (stream.shift s) =
      (segmentsFrom d current stream).map (List.map (Token.shift s)) := by
  induction stream generalizing current with
  | failed _ => cases current <;> rfl
  | done =>
    cases current with
    | nil => rfl
    | cons t ts => simp [TokenStream.shift, segmentsFrom]
  | token t rest ih =>
    have start := ih []
    have goesOn := ih (t :: current)
    rw [List.map_nil] at start
    rw [List.map_cons] at goesOn
    simp only [TokenStream.shift, segmentsFrom, isSeparator_shift, start, goesOn, List.isEmpty_map]
    split_ifs <;> simp

theorem mem_of_mem_segmentsFrom {current : List Token} {stream : TokenStream} {segment : List Token} {t : Token}
    (h : segment ∈ segmentsFrom d current stream) (ht : t ∈ segment) : t ∈ current ∨ t ∈ stream.toList := by
  induction stream generalizing current with
  | failed _ => cases current <;> contradiction
  | done =>
    cases current with
    | nil => contradiction
    | cons u us =>
      simp only [segmentsFrom, List.mem_singleton] at h
      exact Or.inl (List.mem_reverse.1 (h ▸ ht))
  | token u rest ih =>
    have later : ∀ {us}, segment ∈ segmentsFrom d us rest → t ∈ us ∨ t ∈ (TokenStream.token u rest).toList :=
      fun h => (ih h).imp_right (List.mem_cons_of_mem _)
    have start : segment ∈ segmentsFrom d [] rest → t ∈ current ∨ t ∈ (TokenStream.token u rest).toList := by
      intro h
      rcases later h with h | h
      · contradiction
      · exact Or.inr h
    simp only [segmentsFrom] at h
    split_ifs at h
    · exact start h
    · rcases List.mem_cons.1 h with rfl | h
      · exact Or.inl (List.mem_reverse.1 ht)
      · exact start h
    · rcases later h with h | h
      · rcases List.mem_cons.1 h with rfl | h
        · exact Or.inr List.mem_cons_self
        · exact Or.inl h
      · exact Or.inr h

/-! ## Reading a segment -/

/-- statements and findings, moved -/
def shiftRead (s : Shift) (r : List Statement × Findings) : List Statement × Findings :=
  (r.1.map (.shift s), r.2.map (.shift s))

theorem spelled_excerpt {ts : List Token} (inside : ∀ t ∈ ts, t.stop ≤ e.text.length) :
    Reading.spelled (some e.text) ts = Reading.spelled (some e.script) (ts.map (Token.shift e.shift)) := by
  cases ts with
  | nil => rfl
  | cons t rest =>
    have last : (rest.map (Token.shift e.shift)).getLastD (t.shift e.shift) = (rest.getLastD t).shift e.shift := by
      rw [List.getLastD_eq_getLast?, List.getLastD_eq_getLast?, List.getLast?_map, Option.getD_map]
    have within : (rest.getLastD t).stop ≤ e.text.length := inside _ List.getLastD_mem_cons
    simp only [List.map_cons, Reading.spelled, last, Token.stop_shift, Token.shift_position, Position.shift_offset]
    exact (e.same _ _ within).symm

/-- the tokens of a segment, beside the same ones in a script that holds their text -/
def Excerpt.pairing (e : Excerpt) (d : Dialect) (segment : List Token)
    (inside : ∀ t ∈ segment, t.stop ≤ e.text.length) : Pairing where
  toLikeness := .moved e.shift
  dialect := d
  pairs := segment.map fun t => (t, t.shift e.shift)
  script := some e.text
  script' := some e.script
  counterpart := by
    rintro p hp
    obtain ⟨t, -, rfl⟩ := List.mem_map.1 hp
    exact ⟨rfl, rfl, rfl, fun _ => rfl, rfl, fun _ => rfl⟩
  spelled := by
    intro run within
    obtain ⟨part, inSegment, rfl⟩ := List.infix_map_iff.1 within
    have here : part.map (Prod.fst ∘ fun t => (t, t.shift e.shift)) = part := List.map_id part
    rw [List.map_map, List.map_map, here]
    exact spelled_excerpt fun t ht => inside t (inSegment.subset ht)
  types := by
    intro _ p q neighbours _
    obtain ⟨t, -, rfl⟩ := List.mem_map.1 (neighbours.subset (List.mem_cons_of_mem p List.mem_cons_self))
    rfl

/-- a segment is read alike in its own text and in a script that holds the text -/
theorem readSegment_excerpt (source : Option String) {segment : List Token}
    (inside : ∀ t ∈ segment, t.stop ≤ e.text.length) :
    readSegment d source (some e.script) (segment.map (Token.shift e.shift)) =
      shiftRead e.shift (readSegment d source (some e.text) segment) := by
  have read := readSegment_alike (e.pairing d segment inside) source
  have here : (e.pairing d segment inside).pairs.map Prod.fst = segment :=
    List.map_map.trans (List.map_id segment)
  have there : (e.pairing d segment inside).pairs.map Prod.snd = segment.map (Token.shift e.shift) := List.map_map
  rw [here, there] at read
  exact Prod.ext (map_of_forall₂ Statement.eq_of_alike read.statements)
    (map_of_forall₂ Finding.eq_of_alike read.findings)

/-- what the segments of a stream are read as -/
def readParts (d : Dialect) (source : Option String) (script : List Char) (stream : TokenStream) :
    List (List Statement × Findings) :=
  (segments d stream).map (readSegment d source (some script))

theorem readParts_excerpt (source : Option String) {stream : TokenStream}
    (inside : ∀ t ∈ stream.toList, t.stop ≤ e.text.length) :
    readParts d source e.script (stream.shift e.shift) =
      (readParts d source e.text stream).map (shiftRead e.shift) := by
  have moved : segments d (stream.shift e.shift) = (segments d stream).map (List.map (Token.shift e.shift)) :=
    segmentsFrom_shift e.shift [] stream
  rw [readParts, readParts, moved, List.map_map, List.map_map]
  refine List.map_congr_left fun segment hs => ?_
  refine readSegment_excerpt source fun t ht => ?_
  rcases mem_of_mem_segmentsFrom hs ht with h | h
  · contradiction
  · exact inside t h

theorem readParts_append {script : List Char} {source : Option String} {first second : TokenStream} {mark : Token}
    (ends : isSeparator d mark = true) (complete : first.error? = none) :
    readParts d source script (first.append (.token mark second)) =
      readParts d source script first ++ readParts d source script second := by
  have parts : segments d (first.append (.token mark second)) = segments d first ++ segments d second :=
    segmentsFrom_append ends complete []
  rw [readParts, parts, List.map_append]
  rfl

/-! ## Two scripts -/

theorem shiftRead_zero : shiftRead .zero = id := by
  funext r
  rw [shiftRead, funext Statement.shift_zero, funext Finding.shift_zero]
  exact Prod.ext (List.map_id _) (List.map_id _)

theorem statements_shift (s : Shift) (parts : List (List Statement × Findings)) :
    (parts.map (shiftRead s)).flatMap (·.1) = (parts.flatMap (·.1)).map (.shift s) := by
  rw [List.flatMap_map, List.map_flatMap]
  rfl

theorem findings_shift (s : Shift) (parts : List (List Statement × Findings)) :
    (parts.map (shiftRead s)).flatMap (·.2) = (parts.flatMap (·.2)).map (.shift s) := by
  rw [List.flatMap_map, List.map_flatMap]
  rfl

theorem readParts_divided (source : Option String) {first second : List Char}
    (firstComplete : (tokenize d first).error? = none) (secondComplete : (tokenize d second).error? = none) :
    readParts d source (first ++ divider ++ second) (tokenize d (first ++ divider ++ second)) =
      readParts d source first (tokenize d first) ++
        (readParts d source second (tokenize d second)).map (shiftRead (.behind first)) := by
  have start := @readParts_excerpt d (.beginning first (divider ++ second)) source _
    (stop_le_of_mem_tokenize firstComplete)
  have rest := @readParts_excerpt d (.ending (first ++ divider) second) source _
    (stop_le_of_mem_tokenize secondComplete)
  simp only [Excerpt.beginning, TokenStream.shift_zero, shiftRead_zero, List.map_id, ← List.append_assoc] at start
  rw [tokenize_divided firstComplete secondComplete, readParts_append rfl firstComplete, start]
  exact congrArg _ rest

end

theorem parseScript_eq (d : Dialect) (source : Option String) (script : String) :
    parseScript d source script =
      { statements := (readParts d source script.toList (tokenize d script.toList)).flatMap (·.1)
        findings := dialectNotes d source ++
          (readParts d source script.toList (tokenize d script.toList)).flatMap (·.2)
        error := (tokenize d script.toList).error? } := rfl

/-- Two scripts with a semicolon on a line between them are read as each of them alone: the statements and
findings of the first, then those of the second in their place. The note on the dialect comes once. -/
theorem parseScript_divided (d : Dialect) (source : Option String) (first second : String)
    (firstComplete : (tokenize d first.toList).error? = none)
    (secondComplete : (tokenize d second.toList).error? = none) :
    let place := Shift.past (first ++ "\n;\n").toList
    let a := parseScript d source first
    let b := parseScript d source second
    parseScript d source (first ++ "\n;\n" ++ second) =
      { statements := a.statements ++ b.statements.map (.shift place)
        findings := a.findings ++ (b.findings.drop (dialectNotes d source).length).map (.shift place)
        error := none } := by
  intro place a b
  have text : (first ++ "\n;\n" ++ second).toList = first.toList ++ divider ++ second.toList := by
    rw [String.toList_append, String.toList_append]
    rfl
  have moved : place = .behind first.toList := by
    rw [Shift.behind, ← show (first ++ "\n;\n").toList = first.toList ++ divider from String.toList_append ..]
  have parts := @readParts_divided d source _ _ firstComplete secondComplete
  have error : (tokenize d (first.toList ++ divider ++ second.toList)).error? = none := by
    rw [tokenize_divided firstComplete secondComplete, TokenStream.error?_append firstComplete,
      TokenStream.error?, TokenStream.error?_shift, secondComplete]
    rfl
  have notes : b.findings.drop (dialectNotes d source).length =
      (readParts d source second.toList (tokenize d second.toList)).flatMap (·.2) := List.drop_left
  rw [notes, moved, parseScript_eq, text, error, parts]
  simp only [List.flatMap_append, statements_shift, findings_shift, ← List.append_assoc]
  rfl

/-- a table that is never closed is reported, and the statement behind it is read at its place -/
theorem parseScript_divided_unclosed :
    (parseScript .postgresql none "CREATE TABLE a (x INT").statements = [] ∧
    ∃ st, (parseScript .postgresql none "CREATE TABLE b (y INT)").statements = [st] ∧
      (parseScript .postgresql none ("CREATE TABLE a (x INT" ++ "\n;\n" ++ "CREATE TABLE b (y INT)")).statements =
        [st.shift ⟨2, 24⟩] := by
  have whole := parseScript_divided .postgresql none "CREATE TABLE a (x INT" "CREATE TABLE b (y INT)"
    (by decide +kernel) (by decide +kernel)
  have unclosed : (parseScript .postgresql none "CREATE TABLE a (x INT").statements = [] := by decide +kernel
  have single : (parseScript .postgresql none "CREATE TABLE b (y INT)").statements.length = 1 := by decide +kernel
  have place : Shift.past ("CREATE TABLE a (x INT" ++ "\n;\n").toList = ⟨2, 24⟩ := by decide +kernel
  obtain ⟨st, read⟩ := List.length_eq_one_iff.1 single
  refine ⟨unclosed, st, read, ?_⟩
  have statements := congrArg Parsed.statements whole
  simp only [unclosed, read, place, List.nil_append, List.map_cons, List.map_nil] at statements
  exact statements

end SchemaApi
