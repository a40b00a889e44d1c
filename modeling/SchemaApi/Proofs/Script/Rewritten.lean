import SchemaApi.Proofs.Token.Bundle
import SchemaApi.Proofs.Script.Alike
/-!
Scripts in which the same is written in another way.

Two scripts whose raw tokens are the same but for the case of letters have the same tokens, whatever stands between
them. `Rewriting` is such a pair of scripts, bundle beside bundle. They are parsed alike if neighbouring tokens are
written alike, and if the one rule that looks at the characters of a token finds the same in both.
-/

namespace SchemaApi

open Text

/-- two scripts of one dialect, raw token beside raw token -/
structure Rewriting where
  dialect : Dialect
  /-- what the raw tokens of the one have in common with those of the other -/
  keeps : Token → Token → Prop
  sense : ∀ t t', keeps t t' → t.SameSense dialect t'
  script : String
  script' : String
  /-- the raw tokens of each token of the two scripts -/
  pairs : List (Bundle × Bundle)
  same : ∀ p ∈ pairs, p.1.Alike keeps p.2
  bundled : Bundled dialect (pairs.map Prod.fst)
  raw : scan dialect script.toList = .ofList (unbundled (pairs.map Prod.fst))
  raw' : scan dialect script'.toList = .ofList (unbundled (pairs.map Prod.snd))

theorem Bundle.Alike.imp {R S : Token → Token → Prop} (each : ∀ t t', R t t' → S t t') {b b' : Bundle}
    (h : b.Alike R b') : b.Alike S b' :=
  ⟨each _ _ h.first, h.more.imp each⟩

/-- scripts whose raw tokens have something in common that makes them mean the same -/
theorem exists_rewriting {d : Dialect} {script script' : String} {R : Token → Token → Prop}
    (sense : ∀ t t', R t t' → t.SameSense d t') {ts ts' : List Token} (raw : scan d script.toList = .ofList ts)
    (raw' : scan d script'.toList = .ofList ts') (same : List.Forall₂ R ts ts') :
    ∃ w : Rewriting, w.dialect = d ∧ w.keeps = R ∧ w.script = script ∧ w.script' = script' := by
  obtain ⟨bundles, bundled, rfl⟩ := exists_bundled d ts
  obtain ⟨bundles', alike, rfl⟩ := exists_alike same
  obtain ⟨size, each⟩ := List.forall₂_iff_zip.1 alike
  have here : (bundles.zip bundles').map Prod.fst = bundles := List.map_fst_zip (Nat.le_of_eq size)
  have there : (bundles.zip bundles').map Prod.snd = bundles' := List.map_snd_zip (Nat.le_of_eq size.symm)
  refine ⟨⟨d, R, sense, script, script', bundles.zip bundles', fun p hp => each hp, ?_, ?_, ?_⟩, rfl, rfl, rfl, rfl⟩
  · rwa [here]
  · rw [here, raw]
  · rw [there, raw']

namespace Rewriting

variable (w : Rewriting)

/-- a token of the first script and that of the second -/
def tokens (p : Bundle × Bundle) : Token × Token := (p.1.token w.script.toList, p.2.token w.script'.toList)

theorem alike {run : List (Bundle × Bundle)} (within : run <:+: w.pairs) :
    List.Forall₂ (Bundle.Alike w.keeps) (run.map Prod.fst) (run.map Prod.snd) := by
  rw [List.forall₂_map_left_iff, List.forall₂_map_right_iff, List.forall₂_same]
  exact fun p hp => w.same p (within.subset hp)

theorem bundled' : Bundled w.dialect (w.pairs.map Prod.snd) :=
  w.bundled.alike (fun t t' same => (w.sense t t' same).spelling?) (w.alike List.infix_rfl)

theorem tokens_fst (run : List (Bundle × Bundle)) :
    (run.map w.tokens).map Prod.fst = (run.map Prod.fst).map (Bundle.token w.script.toList) := by
  rw [List.map_map, List.map_map]
  rfl

theorem tokens_snd (run : List (Bundle × Bundle)) :
    (run.map w.tokens).map Prod.snd = (run.map Prod.snd).map (Bundle.token w.script'.toList) := by
  rw [List.map_map, List.map_map]
  rfl

theorem tokenize_eq : tokenize w.dialect w.script.toList = .ofList ((w.pairs.map w.tokens).map Prod.fst) := by
  rw [tokenize_bundled w.bundled w.raw, tokens_fst]

theorem tokenize_eq' : tokenize w.dialect w.script'.toList = .ofList ((w.pairs.map w.tokens).map Prod.snd) := by
  rw [tokenize_bundled w.bundled' w.raw', tokens_snd]

theorem word? : ∀ p ∈ w.pairs.map w.tokens, p.2.word? = p.1.word? := by
  intro p hp
  obtain ⟨bundles, here, rfl⟩ := List.mem_map.1 hp
  exact ((w.same bundles here).imp w.sense).word? _ _

/-- what two rewritten scripts may differ in, so far as it concerns their tokens -/
structure Differs (l : Likeness) : Prop where
  places : ∀ p ∈ w.pairs, l.place p.1.first.position p.2.first.position
  /-- neighbouring tokens are written as it allows -/
  spelled : ∀ run, run <:+: w.pairs → l.written
    (Reading.spelled (some w.script.toList) ((run.map w.tokens).map Prod.fst))
    (Reading.spelled (some w.script'.toList) ((run.map w.tokens).map Prod.snd))
  /-- messages, which show tokens, may differ -/
  messages : ¬ l.literal
  /-- where the columns of words do not matter -/
  plain : w.dialect ≠ .mssql
  /-- behind a word that may begin an index both scripts have the name of a type, or neither has -/
  types : w.dialect = .mysql → ∀ p q, [p, q] <:+: w.pairs.map w.tokens → p.1.startsIndex →
    (w.dialect.typeRule? q.2.text).isNone = (w.dialect.typeRule? q.1.text).isNone

variable {w} {l : Likeness}

theorem counterpart (h : w.Differs l) : ∀ p ∈ w.pairs.map w.tokens, p.1.Counterpart w.dialect l p.2 := by
  intro p hp
  obtain ⟨bundles, here, rfl⟩ := List.mem_map.1 hp
  have same := (w.same bundles here).imp w.sense
  have meaning := same.meaning w.script.toList w.script'.toList
  refine ⟨meaning.kind, meaning.value, same.word? _ _, same.name _ _, ?_, fun literal => absurd literal h.messages⟩
  rw [tokens, Bundle.token_position, Bundle.token_position]
  exact h.places bundles here

/-- some neighbouring tokens of the scripts -/
def pairing (h : w.Differs l) (part : List (Token × Token)) (within : part <:+: w.pairs.map w.tokens) : Pairing where
  toLikeness := l
  dialect := w.dialect
  pairs := part
  script := some w.script.toList
  script' := some w.script'.toList
  counterpart := fun p hp => counterpart h p (within.subset hp)
  spelled := by
    intro run inPart
    obtain ⟨bundles, here, rfl⟩ := List.infix_map_iff.1 (inPart.trans within)
    exact h.spelled bundles here
  types := fun mysql p q neighbours => h.types mysql p q (neighbours.trans within)

theorem isSeparator_eq {d : Dialect} (plain : d ≠ .mssql) (t : Token) : isSeparator d t = t.isPunct ";" := by
  rw [isSeparator, beq_eq_false_iff_ne.2 plain, Bool.false_and, Bool.false_and, Bool.or_false]

/-- rewritten scripts are parsed alike -/
theorem parseScript_alike (h : w.Differs l) (source : Option String) :
    (parseScript w.dialect source w.script).Alike l (parseScript w.dialect source w.script') := by
  rw [parseScript, parseScript, w.tokenize_eq, w.tokenize_eq']
  refine parseTokens_alike ?_ fun part within _ => readSegment_alike (pairing h part within) source
  intro p hp
  have same := counterpart h p hp
  rw [isSeparator_eq h.plain, isSeparator_eq h.plain, Token.isPunct, Token.isPunct, same.kind, same.value]

theorem parseScript_error (source : Option String) : (parseScript w.dialect source w.script).error = none := by
  rw [parseScript, parseTokens, w.tokenize_eq, TokenStream.error?_ofList]

end Rewriting

/-! ## The characters of neighbouring tokens -/

section
variable {d : Dialect} {text : List Char}

/-- neighbouring tokens are written from the first of their raw tokens to the last -/
theorem spelled_bundles {bundles : List Bundle} (raw : scan d text = .ofList (unbundled bundles)) {b : Bundle}
    {part : List Bundle} (within : b :: part <:+: bundles) :
    Reading.spelled (some text) ((b :: part).map (Bundle.token text)) =
      slice text b.first.position.offset (stopOf b.first.stop (b.more ++ unbundled part)) := by
  have laid := (@covers_scan d text).laid
  rw [raw, TokenStream.toList_ofList] at laid
  obtain ⟨first, here⟩ := laid.of_within (unbundled_within within)
  have stop := stopOf_bundles here
  rw [List.map_cons, stopOf_cons, unbundled_cons, stopOf_cons, ← stop_getLastD] at stop
  rw [List.map_cons, Reading.spelled, Bundle.token_position, stop]

/-- Neighbouring tokens are those of the characters from the first of them to the last. -/
theorem exists_part_spelled {bundles : List Bundle} (bundled : Bundled d bundles)
    (raw : scan d text = .ofList (unbundled bundles)) {part : List Bundle} (within : part <:+: bundles) :
    ∃ before piece behind part',
      text = before ++ piece ++ behind ∧
        Reading.spelled (some text) (part.map (Bundle.token text)) = String.ofList piece ∧ Bundled d part' ∧
          scan d piece = .ofList (unbundled part') ∧
            List.Forall₂ (Bundle.Alike (Token.Nearer before.length)) part part' := by
  cases part with
  | nil => exact ⟨[], [], text, [], rfl, rfl, .nil, rfl, .nil⟩
  | cons b part =>
    obtain ⟨before, piece, behind, part', split, start, stop, bundled', scanned, same⟩ := exists_part bundled raw within
    refine ⟨before, piece, behind, part', split, ?_, bundled', scanned, same⟩
    rw [spelled_bundles raw within, ← start, ← stop, split, slice_middle]

end

end SchemaApi
