import SchemaApi.Proofs.Script.Rewritten
/-!
White space and comments.

Two scripts with the same raw tokens differ in nothing but what stands between these. They are parsed to the same
statements, up to positions and to what stands between the tokens of texts that are kept as they are written. There is
one exception: whether a word like KEY begins an index inside a table declaration depends on whether the next token,
as it is written, is the name of a type, and a name of several words is one only with single spaces between them.
-/

namespace SchemaApi

open Text

/-- texts of the same raw tokens, whatever stands between them -/
structure SameTokens (d : Dialect) (text text' : String) : Prop where
  complete : (scan d text.toList).error? = none
  complete' : (scan d text'.toList).error? = none
  contents : (scan d text'.toList).toList.map Token.contents = (scan d text.toList).toList.map Token.contents

/-- scripts that differ in white space and comments -/
def laidOut (d : Dialect) : Likeness where
  place _ _ := True
  written := SameTokens d
  literal := False

/-- behind each word that may begin an index, whether the next token is written like the name of a type -/
def typesBehindIndexWords (d : Dialect) : List Token → List Bool
  | t :: u :: rest =>
    if (t.word?.map Reading.inlineIndexStarts.contains).getD false then
      (d.typeRule? u.text).isSome :: typesBehindIndexWords d (u :: rest)
    else typesBehindIndexWords d (u :: rest)
  | _ => []

section
variable {d : Dialect}

theorem Token.sameSense_of_contents {t t' : Token} (h : t'.contents = t.contents) : t.SameSense d t' := by
  have kind : t'.kind = t.kind := congrArg Prod.fst h
  have text : t'.text = t.text := congrArg (·.2.1) h
  have value : t'.value = t.value := congrArg (·.2.2.1) h
  have quoted : t'.quoted = t.quoted := congrArg (·.2.2.2) h
  exact ⟨⟨kind, value, quoted⟩, by rw [text], by rw [Token.nameIn, Token.nameIn, kind, text, value, quoted]⟩

theorem Token.startsIndex_iff {t : Token} :
    t.startsIndex ↔ (t.word?.map Reading.inlineIndexStarts.contains).getD false = true := by
  rw [Token.startsIndex]
  cases t.word? <;> simp

theorem types_of_neighbours {pairs : List (Token × Token)} (words : ∀ p ∈ pairs, p.2.word? = p.1.word?)
    (same : typesBehindIndexWords d (pairs.map Prod.snd) = typesBehindIndexWords d (pairs.map Prod.fst))
    {p q : Token × Token} (neighbours : [p, q] <:+: pairs) (starts : p.1.startsIndex) :
    (d.typeRule? q.2.text).isNone = (d.typeRule? q.1.text).isNone := by
  obtain ⟨before, behind, rfl⟩ := neighbours
  rw [List.append_assoc] at words same
  induction before with
  | nil =>
    have starts' : (p.2.word?.map Reading.inlineIndexStarts.contains).getD false = true := by
      rw [words p List.mem_cons_self]
      exact Token.startsIndex_iff.1 starts
    simp only [List.nil_append, List.cons_append, List.map_cons, typesBehindIndexWords, if_pos starts',
      if_pos (Token.startsIndex_iff.1 starts), List.cons.injEq] at same
    rw [← Option.not_isSome, ← Option.not_isSome, same.1]
  | cons r before ih =>
    obtain ⟨s, rest, next⟩ : ∃ s rest, before ++ ([p, q] ++ behind) = s :: rest :=
      List.exists_cons_of_ne_nil (by simp)
    refine ih (fun x hx => words x (List.mem_cons_of_mem r hx)) ?_
    have first := words r List.mem_cons_self
    rw [List.cons_append, next] at same
    rw [next]
    simp only [List.map_cons, typesBehindIndexWords, first] at same ⊢
    split_ifs at same
    · exact (List.cons.inj same).2
    · exact same

theorem contents_unbundled {R : Token → Token → Prop} (each : ∀ t t', R t t' → t'.contents = t.contents)
    {bundles bundles' : List Bundle} (h : List.Forall₂ (Bundle.Alike R) bundles bundles') :
    (unbundled bundles').map Token.contents = (unbundled bundles).map Token.contents :=
  map_eq_of_forall₂ (forall₂_unbundled h) each

/-- neighbouring tokens of scripts with the same raw tokens are written with the same raw tokens -/
theorem sameTokens_spelled (w : Rewriting) (kept : ∀ t t', w.keeps t t' → t'.contents = t.contents)
    {run : List (Bundle × Bundle)} (within : run <:+: w.pairs) : SameTokens w.dialect
      (Reading.spelled (some w.script.toList) ((run.map w.tokens).map Prod.fst))
      (Reading.spelled (some w.script'.toList) ((run.map w.tokens).map Prod.snd)) := by
  obtain ⟨_, piece, _, part, -, spelled, -, scanned, same⟩ :=
    exists_part_spelled w.bundled w.raw (within.map Prod.fst)
  obtain ⟨_, piece', _, part', -, spelled', -, scanned', same'⟩ :=
    exists_part_spelled w.bundled' w.raw' (within.map Prod.snd)
  have own := contents_unbundled (fun _ _ nearer => nearer.contents) same
  have own' := contents_unbundled (fun _ _ nearer => nearer.contents) same'
  have both := contents_unbundled kept (w.alike within)
  rw [w.tokens_fst, w.tokens_snd, spelled, spelled']
  constructor
  · rw [String.toList_ofList, scanned, TokenStream.error?_ofList]
  · rw [String.toList_ofList, scanned', TokenStream.error?_ofList]
  · rw [String.toList_ofList, String.toList_ofList, scanned, scanned', TokenStream.toList_ofList,
      TokenStream.toList_ofList, own', both, own]

/-- what two scripts of the same raw tokens differ in -/
theorem differs_laidOut (w : Rewriting) (kept : ∀ t t', w.keeps t t' → t'.contents = t.contents)
    (plain : w.dialect ≠ .mssql) (types : w.dialect = .mysql →
      typesBehindIndexWords w.dialect (tokenize w.dialect w.script'.toList).toList =
        typesBehindIndexWords w.dialect (tokenize w.dialect w.script.toList).toList) :
    w.Differs (laidOut w.dialect) where
  places _ _ := trivial
  spelled _ within := sameTokens_spelled w kept within
  messages := id
  plain := plain
  types mysql p q neighbours starts := by
    have same := types mysql
    rw [w.tokenize_eq, w.tokenize_eq', TokenStream.toList_ofList, TokenStream.toList_ofList] at same
    exact types_of_neighbours (fun p hp => w.word? p hp) same neighbours starts

theorem exists_rewriting_of_sameTokens {script script' : String} (same : SameTokens d script script') :
    ∃ w : Rewriting, w.dialect = d ∧ w.script = script ∧ w.script' = script' ∧
      ∀ t t', w.keeps t t' → t'.contents = t.contents := by
  have contents : List.Forall₂ Eq ((scan d script'.toList).toList.map Token.contents)
      ((scan d script.toList).toList.map Token.contents) := by
    rw [same.contents]
    exact List.forall₂_refl _
  rw [List.forall₂_map_left_iff, List.forall₂_map_right_iff] at contents
  obtain ⟨w, dialect, keeps, rfl, rfl⟩ := exists_rewriting (fun _ _ => Token.sameSense_of_contents)
    (TokenStream.eq_ofList same.complete) (TokenStream.eq_ofList same.complete') contents.flip
  exact ⟨w, dialect, rfl, rfl, fun t t' kept => by rwa [keeps] at kept⟩

end

/-- Scripts that differ in white space and comments are parsed to statements that differ in nothing but positions and
what stands between the tokens of texts that are kept as they are written, with the same sequence of codes and
severities; for MySQL where behind each word that may begin an index both have the name of a type, or neither has. -/
theorem parseScript_layout (d : Dialect) (plain : d ≠ .mssql) (source : Option String) (script script' : String)
    (same : SameTokens d script script')
    (types : d = .mysql → typesBehindIndexWords d (tokenize d script'.toList).toList =
      typesBehindIndexWords d (tokenize d script.toList).toList) :
    List.Forall₂ (Statement.Alike (laidOut d)) (parseScript d source script).statements
        (parseScript d source script').statements ∧
      (parseScript d source script').findings.map (fun f => (f.code, f.severity)) =
        (parseScript d source script).findings.map (fun f => (f.code, f.severity)) ∧
      (parseScript d source script).error = none ∧ (parseScript d source script').error = none := by
  obtain ⟨w, rfl, rfl, rfl, kept⟩ := exists_rewriting_of_sameTokens same
  have alike := Rewriting.parseScript_alike (differs_laidOut w kept plain types) source
  have complete := w.parseScript_error source
  refine ⟨alike.statements, ?_, complete, alike.error.trans complete⟩
  exact map_eq_of_forall₂ alike.findings fun f f' same => by rw [same.code, same.severity]

/-- a comment inside a phrase, and a key without blanks around it -/
theorem parseScript_layout_key :
    typesBehindIndexWords .mysql (tokenize .mysql "CREATE TABLE t (a INT NOT NULL, KEY (a))".toList).toList = [false] ∧
      List.Forall₂ (Statement.Alike (laidOut .mysql))
        (parseScript .mysql none "CREATE TABLE t (a INT NOT NULL, KEY (a))").statements
        (parseScript .mysql none "CREATE TABLE t(a INT NOT/**/NULL,KEY(a))#").statements :=
  ⟨by decide +kernel, (parseScript_layout .mysql (by decide) none "CREATE TABLE t (a INT NOT NULL, KEY (a))"
    "CREATE TABLE t(a INT NOT/**/NULL,KEY(a))#" ⟨by decide +kernel, by decide +kernel, by decide +kernel⟩
    fun _ => by decide +kernel).1⟩

/-- With a second space in the name of its type, the column called KEY is taken for an index, and the declaration is
lost. -/
theorem declaration_lost_of_layout :
    SameTokens .mysql "CREATE TABLE t (KEY DOUBLE PRECISION)" "CREATE TABLE t (KEY DOUBLE  PRECISION)" ∧
      ¬ List.Forall₂ (Statement.Alike (laidOut .mysql))
        (parseScript .mysql none "CREATE TABLE t (KEY DOUBLE PRECISION)").statements
        (parseScript .mysql none "CREATE TABLE t (KEY DOUBLE  PRECISION)").statements := by
  have read : (parseScript .mysql none "CREATE TABLE t (KEY DOUBLE PRECISION)").statements.length = 1 := by
    decide +kernel
  have lost : (parseScript .mysql none "CREATE TABLE t (KEY DOUBLE  PRECISION)").statements.length = 0 := by
    decide +kernel
  refine ⟨⟨by decide +kernel, by decide +kernel, by decide +kernel⟩, fun alike => ?_⟩
  have same := alike.length_eq
  rw [read, lost] at same
  contradiction

end SchemaApi
