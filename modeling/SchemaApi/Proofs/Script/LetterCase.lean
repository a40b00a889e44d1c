import SchemaApi.Proofs.Script.Rewritten
/-!
Words in another letter case.

In PostgreSQL unquoted words are the same in capitals and in small letters. Two scripts that differ only in the case of
such words have the same tokens at the same places, and are parsed to the same statements, apart from the texts that are
kept as they are written.
-/

namespace SchemaApi

open Text

/-- The second script is the first with letters in another case, in unquoted words and outside of tokens only: every
other token is written as it was. -/
structure Recased (d : Dialect) (script script' : List Char) : Prop where
  letters : SameLetters script script'
  kept : ∀ t ∈ (scan d script).toList, t.isWord = false ∨ t.quoted = true →
    slice script' t.position.offset t.stop = t.text

/-- scripts that differ in the case of letters -/
def recased : Likeness where
  place := Eq
  written text text' := SameLetters text.toList text'.toList
  literal := False

/-- where words fold, all other tokens are kept -/
theorem Recased.kept_of_folds {script script' : List Char} (h : Recased .postgresql script script') :
    ∀ t ∈ (scan .postgresql script).toList, t.folds .postgresql = false →
      slice script' t.position.offset t.stop = t.text := by
  intro t ht other
  refine h.kept t ht ?_
  cases word : t.isWord with
  | false => exact Or.inl rfl
  | true =>
    right
    simpa [Token.folds, Dialect.foldsUnquoted, word] using other

namespace Token.Recased

variable {t t' : Token} (h : t.Recased t')

include h

theorem stop : t'.stop = t.stop := by
  have size : t'.text.length = t.text.length := by
    rw [← String.length_toList, ← String.length_toList, h.letters.length_eq]
  rw [Token.stop, Token.stop, h.place, size]

theorem sameSense {d : Dialect} (folds : d.foldsUnquoted = true) : t.SameSense d t' := by
  refine ⟨⟨h.kind, h.value, h.quoted⟩, upper_same h.letters, ?_⟩
  simp only [Token.nameIn, Dialect.normalize, h.kind, h.value, h.quoted, folds, lower_same h.letters]
  rfl

end Token.Recased

section
variable {w : Rewriting}

theorem stopOf_recased {ts ts' : List Token} (h : List.Forall₂ Token.Recased ts ts') (first : Nat) :
    stopOf first ts' = stopOf first ts := by
  induction h generalizing first with
  | nil => rfl
  | cons same _ ih => rw [stopOf_cons, stopOf_cons, same.stop, ih]

theorem slice_recased {text text' : List Char} (h : SameLetters text text') (first last : Nat) :
    SameLetters (slice text first last).toList (slice text' first last).toList := by
  rw [slice, slice, String.toList_ofList, String.toList_ofList]
  exact List.forall₂_take _ (List.forall₂_drop _ h)

/-- neighbouring tokens are written in the same letters -/
theorem sameLetters_spelled (letters : SameLetters w.script.toList w.script'.toList)
    (kept : ∀ t t', w.keeps t t' → t.Recased t') {run : List (Bundle × Bundle)} (within : run <:+: w.pairs) :
    SameLetters (Reading.spelled (some w.script.toList) ((run.map w.tokens).map Prod.fst)).toList
      (Reading.spelled (some w.script'.toList) ((run.map w.tokens).map Prod.snd)).toList := by
  cases run with
  | nil => exact .nil
  | cons p run =>
    have spelled := spelled_bundles w.raw (within.map Prod.fst)
    have spelled' := spelled_bundles w.raw' (within.map Prod.snd)
    have same := w.same p (within.subset List.mem_cons_self)
    have rest := w.alike ((List.suffix_cons p run).isInfix.trans within)
    have first := kept _ _ same.first
    have others := (List.rel_append same.more (forall₂_unbundled rest)).imp kept
    rw [w.tokens_fst, w.tokens_snd]
    simp only [List.map_cons] at spelled spelled' ⊢
    rw [spelled, spelled', first.stop, first.place, stopOf_recased others]
    exact slice_recased letters _ _

/-- what two scripts of the same tokens in other letters differ in -/
theorem differs_recased (letters : SameLetters w.script.toList w.script'.toList)
    (kept : ∀ t t', w.keeps t t' → t.Recased t') (dialect : w.dialect = .postgresql) : w.Differs recased where
  places p hp := (kept _ _ (w.same p hp).first).place.symm
  spelled _ within := sameLetters_spelled letters kept within
  messages := id
  plain := by rw [dialect]; decide
  types mysql := by rw [dialect] at mysql; contradiction

end

/-- A PostgreSQL script that differs from another one in the case of letters alone, and in those of unquoted words or
outside of tokens only, is split into tokens, too. It is parsed to the same statements at the same places, apart from
the case of letters in texts that are kept as they are written, and with findings of the same codes at the same places. -/
theorem parseScript_recased (source : Option String) (script script' : String)
    (complete : (tokenize .postgresql script.toList).error? = none)
    (recase : Recased .postgresql script.toList script'.toList) :
    List.Forall₂ (Statement.Alike recased) (parseScript .postgresql source script).statements
        (parseScript .postgresql source script').statements ∧
      (parseScript .postgresql source script').findings.map
          (fun f => (f.severity, f.stage, f.code, f.source, f.line, f.column)) =
        (parseScript .postgresql source script).findings.map
          (fun f => (f.severity, f.stage, f.code, f.source, f.line, f.column)) ∧
      (parseScript .postgresql source script').error = none := by
  obtain ⟨raw, raw', tokens⟩ := scan_recased (complete_of_mergeFrom complete) recase.letters recase.kept_of_folds
  obtain ⟨w, dialect, keeps, rfl, rfl⟩ := exists_rewriting (fun _ _ same => same.sameSense (by decide))
    (TokenStream.eq_ofList (complete_of_mergeFrom complete)) raw' tokens
  have alike := Rewriting.parseScript_alike (differs_recased recase.letters (fun t t' => keeps ▸ id) dialect) source
  have read := w.parseScript_error source
  rw [dialect] at alike read
  refine ⟨alike.statements, ?_, alike.error.trans read⟩
  refine map_eq_of_forall₂ alike.findings fun f f' same => ?_
  obtain ⟨p, p', place, line, column, line', column'⟩ := same.place
  obtain rfl : p' = p := eq_of_rel (fun _ _ => Eq.symm) place
  rw [same.severity, same.stage, same.code, same.source, line, column, line', column']

/-- a type, a name and a default in small letters and in capitals, beside a string and a quoted name -/
theorem parseScript_recased_default :
    List.Forall₂ (Statement.Alike recased)
      (parseScript .postgresql none "create table T (Id int default E'a', \"B\" Text)").statements
      (parseScript .postgresql none "CREATE Table t (id INT Default E'a', \"B\" text)").statements :=
  (parseScript_recased none "create table T (Id int default E'a', \"B\" Text)"
    "CREATE Table t (id INT Default E'a', \"B\" text)" (by decide +kernel)
    ⟨by decide +kernel, by decide +kernel⟩).1

end SchemaApi
