import SchemaApi.Proofs.Token.Lossless
import SchemaApi.Proofs.Script.Isolation
import Mathlib.Data.List.Chain
/-!
A list of tokens is read like the script that it comes from.

A text that is kept as it is written is cut out of the script if there is one, and is put together from the texts of
tokens if there is none, with a space where two of them do not touch. Where nothing else than one space stands between
the tokens of a statement the two ways come to the same, and nothing but these texts depends on the script.
-/

namespace SchemaApi

section
variable {d : Dialect} {text : List Char}

theorem slice_split (text : List Char) {first middle last : Nat} (before : first ≤ middle) (behind : middle ≤ last) :
    slice text first last = slice text first middle ++ slice text middle last := by
  obtain ⟨m, rfl⟩ := Nat.exists_eq_add_of_le before
  obtain ⟨n, rfl⟩ := Nat.exists_eq_add_of_le behind
  rw [slice, slice, slice, ← String.ofList_append, Nat.add_sub_cancel_left, Nat.add_sub_cancel_left, Nat.add_assoc,
    Nat.add_sub_cancel_left, List.take_add, List.drop_drop]

/-- between two tokens stands nothing, or one space -/
def Tight (text : List Char) (t u : Token) : Prop :=
  slice text t.stop u.position.offset = "" ∨ slice text t.stop u.position.offset = " "

instance (text : List Char) (t u : Token) : Decidable (Tight text t u) := inferInstanceAs (Decidable (_ ∨ _))

/-- what stands between tight tokens is what is put there when only the tokens are known -/
theorem slice_of_tight {t u : Token} (tight : Tight text t u) (order : t.stop ≤ u.position.offset)
    (inside : u.position.offset ≤ text.length) :
    slice text t.stop u.position.offset = if t.stop < u.position.offset then " " else "" := by
  have size : (slice text t.stop u.position.offset).length = u.position.offset - t.stop := by
    rw [slice, String.length_ofList, List.length_take, List.length_drop]
    omega
  rcases tight with empty | space
  · rw [empty, String.length_empty] at size
    rw [empty, if_neg (by omega)]
  · rw [space] at size
    have one : 1 = u.position.offset - t.stop := size
    rw [space, if_pos (by omega)]

/-- the texts of tight tokens, put together, are the piece of the script that they are taken from -/
theorem spelled_of_tight {first : Nat} {run : List Token} (laid : Laid d text first run)
    (tight : run.IsChain (Tight text)) : Reading.spelled none run = Reading.spelled (some text) run := by
  induction run generalizing first with
  | nil => rfl
  | cons t rest ih =>
    cases laid with
    | cons order gap placed later =>
      cases rest with
      | nil =>
        change t.text ++ "" = slice text t.position.offset t.stop
        rw [String.append_empty, placed.written]
      | cons u rest =>
        obtain ⟨apart, tight⟩ := List.isChain_cons_cons.1 tight
        have joined := ih later tight
        cases later with
        | cons order' _ placed' later' =>
          have longer := later'.stopOf_bounds.1
          have inside : u.stop ≤ text.length := placed'.inside
          have size : u.position.offset ≤ u.stop := Nat.le_add_right _ _
          have size' : t.position.offset ≤ t.stop := Nat.le_add_right _ _
          have between := slice_of_tight apart order' (by omega)
          rw [← stop_getLastD] at longer
          have parts : slice text t.position.offset (rest.getLastD u).stop =
              t.text ++ (slice text t.stop u.position.offset ++ slice text u.position.offset (rest.getLastD u).stop) := by
            rw [← slice_split text order' (by omega), placed.written, ← slice_split text size' (by omega)]
          have last : (u :: rest).getLastD t = rest.getLastD u := List.getLastD_cons ..
          simp only [Reading.spelled, Reading.spaced, last] at joined ⊢
          rw [parts, between, ← joined, String.append_assoc]

theorem readSegment_unscripted (source : Option String) {segment : List Token}
    (same : ∀ run, run <:+: segment → Reading.spelled none run = Reading.spelled (some text) run) :
    readSegment d source none segment = readSegment d source (some text) segment := by
  have read := @readSegment_itself (.moved .zero) (fun _ => rfl) d source (some text) none segment
    fun run within => (same run within).symm
  have statements := map_of_forall₂ Statement.eq_of_alike read.statements
  have findings := map_of_forall₂ Finding.eq_of_alike read.findings
  rw [funext Statement.shift_zero, List.map_id'] at statements
  rw [funext Finding.shift_zero, List.map_id'] at findings
  exact Prod.ext statements findings

end

/-- Where nothing or one space stands between each two tokens of a segment, a script is parsed to the same from its
tokens alone: the statements and the findings are equal, and the texts that are put together from neighbouring tokens
are the pieces of the script that they come from. -/
theorem parseTokens_unscripted (d : Dialect) (source : Option String) (script : String)
    (complete : (tokenize d script.toList).error? = none)
    (tight : ∀ segment ∈ segments d (tokenize d script.toList), segment.IsChain (Tight script.toList)) :
    parseTokens d source none (.ofList (tokenize d script.toList).toList) = parseScript d source script ∧
      ∀ segment ∈ segments d (tokenize d script.toList), ∀ run, run <:+: segment →
        Reading.spelled none run = Reading.spelled (some script.toList) run := by
  have tokens := (TokenStream.eq_ofList complete).symm
  have laid := (@covers_tokenize d script.toList).1.laid
  have same : ∀ segment ∈ segments d (tokenize d script.toList), ∀ run, run <:+: segment →
      Reading.spelled none run = Reading.spelled (some script.toList) run := by
    intro segment hs run within
    have inScript := infix_of_mem_segments (tokens ▸ hs)
    obtain ⟨first, here⟩ := laid.of_within (within.trans inScript)
    have close := List.IsChain.infix (tight segment hs) within
    exact spelled_of_tight here close
  have read : ∀ segment ∈ segments d (tokenize d script.toList),
      readSegment d source none segment = readSegment d source (some script.toList) segment :=
    fun segment hs => readSegment_unscripted source (same segment hs)
  refine ⟨?_, same⟩
  rw [tokens, parseScript, parseTokens, parseTokens, List.map_congr_left read]

/-- a default of several tokens, and a condition -/
theorem parseTokens_unscripted_check :
    (parseTokens .postgresql none none
      (.ofList (tokenize .postgresql "CREATE TABLE t (a INT DEFAULT 1+ 2 CHECK (a > -(3)))".toList).toList)) =
    parseScript .postgresql none "CREATE TABLE t (a INT DEFAULT 1+ 2 CHECK (a > -(3)))" :=
  (parseTokens_unscripted .postgresql none "CREATE TABLE t (a INT DEFAULT 1+ 2 CHECK (a > -(3)))"
    (by decide +kernel) (by decide +kernel)).1

end SchemaApi
