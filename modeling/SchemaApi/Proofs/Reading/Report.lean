import SchemaApi.Proofs.Reading.Grammar
import SchemaApi.Script
/-!
What is read from a segment of a script, and what is found in it.

The statements of a segment are read in a loop, which goes on behind a statement if another one begins there (`ReadsTo`).
A statement takes a token, so the loop ends. A statement adds remarks to the findings there are (`Reading.Proceeds`), and
where reading stops it adds why. So whatever is found in a script when it is parsed is of the parse stage.
-/

namespace SchemaApi

/-! ## Statements of a segment -/

/-- The loop over the statements of a segment goes from some tokens to the statements and findings; only the outcome of
each statement is looked at, and the token behind it. -/
inductive ReadsTo (scope : Scope) : List Token → List Statement × Findings → Prop where
  | done : ReadsTo scope [] ([], [])
  | refused {tokens : List Token} {why : Stop} {notes : List Finding} (filled : tokens ≠ [])
      (run : Reading.statement scope { rest := tokens } = .stop why notes) :
      ReadsTo scope tokens ([], notes ++ [why.finding scope.source])
  | last {tokens : List Token} {st : Statement} {next : Cursor} (filled : tokens ≠ [])
      (run : Reading.statement scope { rest := tokens } = .ok st next) (all : next.rest = []) :
      ReadsTo scope tokens ([st], next.notes)
  | more {tokens : List Token} {st : Statement} {next : Cursor} {t : Token} {rest : List Token}
      {later : List Statement × Findings} (filled : tokens ≠ [])
      (run : Reading.statement scope { rest := tokens } = .ok st next) (left : next.rest = t :: rest)
      (starts : Reading.startsStatement t = true) (read : ReadsTo scope next.rest later) :
      ReadsTo scope tokens (st :: later.1, next.notes ++ Finding.about .warning .parse "MISSING_SEMICOLON"
        "Missing ';' between statements" scope.source (some t.position) :: later.2)
  | trailing {tokens : List Token} {st : Statement} {next : Cursor} {t : Token} {rest : List Token}
      (filled : tokens ≠ []) (run : Reading.statement scope { rest := tokens } = .ok st next)
      (left : next.rest = t :: rest) (other : ¬ Reading.startsStatement t = true) :
      ReadsTo scope tokens ([], next.notes ++ [(Stop.trailing t.text t.position).finding scope.source])

theorem readFrom_nil (scope : Scope) : readFrom scope [] = ([], []) := by
  rw [readFrom]
  rfl

/-- the loop over the statements of a segment ends, since each of them takes a token -/
theorem readsTo_readFrom (scope : Scope) (tokens : List Token) : ReadsTo scope tokens (readFrom scope tokens) := by
  have takes : Reading.Spends (fun _ => True) Reading.statement := inferInstance
  -- the induction is on the tokens
  induction size : tokens.length using Nat.strongRecOn generalizing tokens with
  | ind n ih =>
    by_cases filled : tokens = []
    · rw [filled, readFrom_nil]
      exact .done
    · rw [readFrom, if_neg (by simpa using filled)]
      cases run : Reading.statement scope { rest := tokens } with
      | stop why notes => exact .refused filled run
      | ok st next =>
        have fewer : next.rest.length < tokens.length := takes.fewer run trivial
        dsimp only
        split
        · next all => exact .last filled run all
        · next t rest left =>
          split_ifs with starts
          · exact .more filled run left starts (ih next.rest.length (size ▸ fewer) next.rest rfl)
          · exact .trailing filled run left starts

/-! ## Findings -/

theorem Stop.stage_finding (source : Option String) (why : Stop) : (why.finding source).stage = .parse := by
  cases why <;> rfl

theorem readFrom_continues (scope : Scope) (tokens : List Token) :
    Continues (·.stage = .parse) [] (readFrom scope tokens).2 := by
  have proceeds : Reading.Proceeds Reading.statement := inferInstance
  have remarks {c : Cursor} {st : Statement} {next : Cursor} (run : Reading.statement scope c = .ok st next) :
      Continues (·.stage = .parse) c.notes next.notes := (Reading.Proceeds.of_ok run).notes.mono fun f remark => remark.1
  have reads := readsTo_readFrom scope tokens
  generalize readFrom scope tokens = result at reads
  induction reads with
  | done => exact .refl []
  | refused filled run =>
    have first := (proceeds.notes_of_stop run).mono fun f remark => remark.1
    exact first.add (Stop.stage_finding scope.source _)
  | last filled run all => exact remarks run
  | more filled run left starts read ih =>
    obtain ⟨later, found, parsed⟩ := ih
    refine (remarks run).trans ⟨_, rfl, List.forall_mem_cons.2 ⟨rfl, fun f hf => ?_⟩⟩
    rw [found] at hf
    exact parsed f hf
  | trailing filled run left other => exact (remarks run).add rfl

/-- whatever is found in a script when it is parsed is of the parse stage -/
theorem stage_of_mem_parseScript {d : Dialect} {source : Option String} {script : String} {f : Finding}
    (h : f ∈ (parseScript d source script).findings) : f.stage = .parse := by
  simp only [parseScript, parseTokens, List.mem_append, List.mem_flatMap, List.mem_map] at h
  rcases h with inNotes | ⟨_, ⟨segment, -, rfl⟩, inSegment⟩
  · unfold dialectNotes at inNotes
    split_ifs at inNotes
    · exact List.mem_singleton.1 inNotes ▸ rfl
    · exact absurd inNotes List.not_mem_nil
  · obtain ⟨new, found, parsed⟩ := readFrom_continues _ segment
    rw [readSegment, found] at inSegment
    exact parsed f inSegment

end SchemaApi
