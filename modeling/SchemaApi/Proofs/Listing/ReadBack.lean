import SchemaApi.Listing
import SchemaApi.Proofs.Schema.Spelling
import Mathlib.Data.List.TakeWhile
import Mathlib.Tactic.MkIffOfInductiveProp
/-!
Listings read back.

What a listing says of a table is its header and its entries, and a reader finds both again, in the order of the model
(`parse_render`). Three things carry this. An escaped text is on one line and is read as what it was. An entry begins
with a capital letter, so its line is neither blank nor a comment, whatever the rest of it says. And a line of a
relationship, the only one that holds unescaped names apart from headers, is on one line because its names are those of
tables, columns and constraints of the model.
-/

namespace SchemaApi.Listing

open Text

/-! ## Escapes -/

theorem unescape_cons {c : Char} (plain : c ≠ '\\') (rest : List Char) :
    unescape (c :: rest) = c :: unescape rest := by
  conv_lhs => unfold unescape
  split <;> simp_all

theorem unescape_escape (text : List Char) : unescape (escape text) = text := by
  induction text with
  | nil => rfl
  | cons c rest ih =>
    rw [escape, List.flatMap_cons, ← escape]
    unfold escapeChar
    split_ifs with backslash feed carriage
    · rw [backslash]; exact congrArg ('\\' :: ·) ih
    · rw [feed]; exact congrArg ('\n' :: ·) ih
    · rw [carriage]; exact congrArg ('\r' :: ·) ih
    · rw [List.singleton_append, unescape_cons backslash, ih]

theorem lineFeed_not_mem_escape (text : List Char) : '\n' ∉ escape text := by
  intro h
  obtain ⟨c, -, hc⟩ := List.mem_flatMap.1 h
  unfold escapeChar at hc
  split_ifs at hc with backslash feed carriage
  · exact absurd hc (by decide)
  · exact absurd hc (by decide)
  · exact absurd hc (by decide)
  · exact feed (List.mem_singleton.1 hc).symm

/-! ## Lines -/

theorem splitLines_append {line : List Char} (plain : '\n' ∉ line) (rest : List Char) :
    splitLines (line ++ '\n' :: rest) = line :: splitLines rest := by
  induction line with
  | nil => simp [splitLines]
  | cons c line ih =>
    have other : c ≠ '\n' := fun e => plain (by rw [e]; exact List.mem_cons_self)
    rw [List.cons_append, splitLines, if_neg other, ih fun h => plain (List.mem_cons_of_mem c h)]

/-- the lines of a text are those that it was made of, and an empty one behind the last line feed -/
theorem splitLines_join {lines : List String} (each : ∀ line ∈ lines, OneLine line) :
    splitLines (String.join (lines.map (· ++ "\n"))).toList = lines.map String.toList ++ [[]] := by
  rw [String.toList_join]
  induction lines with
  | nil => rfl
  | cons line rest ih =>
    have feed : (line ++ "\n").toList = line.toList ++ ['\n'] := String.toList_append
    rw [List.map_cons, List.flatMap_cons, feed, List.append_assoc, List.singleton_append,
      splitLines_append (each line List.mem_cons_self), ih fun l hl => each l (List.mem_cons_of_mem line hl)]
    rfl

/-! ## Entries -/

/-- the first character of a text -/
def BeginsWith (c : Char) (text : String) : Prop := ∃ rest, text.toList = c :: rest

theorem BeginsWith.append {c : Char} {a : String} (h : BeginsWith c a) (b : String) : BeginsWith c (a ++ b) := by
  obtain ⟨rest, begins⟩ := h
  exact ⟨rest ++ b.toList, by rw [String.toList_append, begins, List.cons_append]⟩

/-- the text begins with a capital letter -/
def Worded (entry : String) : Prop := ∃ c, c.isUpper = true ∧ BeginsWith c entry

theorem Worded.append {a : String} (h : Worded a) (b : String) : Worded (a ++ b) := by
  obtain ⟨c, capital, begins⟩ := h
  exact ⟨c, capital, begins.append b⟩

theorem Worded.spaced {a : String} (h : Worded a) (parts : List (Option String)) :
    Worded (spaced (some a :: parts)) := by
  have first : (some a :: parts).filterMap id = a :: parts.filterMap id := rfl
  rw [Listing.spaced, first]
  cases parts.filterMap id with
  | nil => rwa [String.intercalate_singleton]
  | cons b rest =>
    rw [String.intercalate_cons_cons, String.append_assoc]
    exact h.append _

theorem Worded.named {body : String} (h : Worded body) (name : Option String) : Worded (named name body) := by
  unfold Listing.named
  cases filled name with
  | none => exact h.spaced []
  | some n => exact Worded.spaced (.append ⟨'C', rfl, "ONSTRAINT ".toList, rfl⟩ n) _

theorem worded_entries (t : Table) (includeIndexes : Bool) : ∀ e ∈ entries t includeIndexes, Worded e := by
  intro e he
  rw [entries, List.mem_append, List.mem_append] at he
  rcases he with (column | constraint) | index
  · obtain ⟨c, -, rfl⟩ := List.mem_map.1 column
    exact Worded.spaced ⟨'C', rfl, "OLUMN".toList, rfl⟩ _
  · obtain ⟨c, -, rfl⟩ := List.mem_map.1 constraint
    cases c with
    | primaryKey => exact .named (.append ⟨'P', rfl, "RIMARY KEY ".toList, rfl⟩ _) _
    | unique => exact .named (.append ⟨'U', rfl, "NIQUE ".toList, rfl⟩ _) _
    | foreignKey => exact .named (.spaced ⟨'F', rfl, "OREIGN KEY".toList, rfl⟩ _) _
    | check => exact .named (.append (.append ⟨'C', rfl, "HECK (".toList, rfl⟩ _) _) _
  · split_ifs at index
    · obtain ⟨i, -, rfl⟩ := List.mem_map.1 index
      unfold indexEntry
      split_ifs
      · exact Worded.spaced ⟨'U', rfl, "NIQUE INDEX".toList, rfl⟩ _
      · exact Worded.spaced ⟨'I', rfl, "NDEX".toList, rfl⟩ _
    · exact absurd index List.not_mem_nil

/-! ## Reading lines -/

/-- text that is not blank at the beginning of an indented line stays when the line is stripped -/
theorem stripChars_indent {part : List Char} (plain : ∀ c ∈ part, isBlank c = false) (filled : part ≠ [])
    (behind : List Char) : ∃ rest, stripChars (indent.toList ++ (part ++ behind)) = part ++ rest := by
  have kept : ∀ {l : List Char}, (∀ c ∈ l, isBlank c = false) → l.dropWhile isBlank = l := by
    intro l plain
    refine List.dropWhile_eq_self_iff.2 fun inside blank => ?_
    rw [plain _ (List.getElem_mem inside)] at blank
    contradiction
  have start : (indent.toList ++ (part ++ behind)).dropWhile isBlank = part ++ behind := by
    obtain ⟨c, rest, rfl⟩ := List.exists_cons_of_ne_nil filled
    have first : isBlank c = false := plain c List.mem_cons_self
    rw [show indent.toList = [' ', ' '] from rfl]
    simp [first, show isBlank ' ' = true from rfl]
  have back : part.reverse.dropWhile isBlank = part.reverse := kept fun c hc => plain c (List.mem_reverse.1 hc)
  rw [stripChars, start, List.reverse_append, List.dropWhile_append, back]
  split_ifs
  · exact ⟨[], by rw [List.reverse_reverse, List.append_nil]⟩
  · exact ⟨(behind.reverse.dropWhile isBlank).reverse, by rw [List.reverse_append, List.reverse_reverse]⟩

theorem afterMark?_append (mark rest : List Char) : afterMark? mark (mark ++ rest) = some rest := by
  rw [afterMark?, if_pos (List.isPrefixOf_iff_prefix.2 (List.prefix_append mark rest)), List.drop_left]

/-- the name in a header, whether or not the table is marked -/
theorem headerName_append {name : String} (unmarked : ¬ junctionMark.toList <:+ name.toList) (marked : Prop)
    [Decidable marked] : headerName (name ++ if marked then junctionMark else "").toList = name := by
  unfold headerName
  by_cases isMarked : marked
  · have found : junctionMark.toList <:+ (name ++ junctionMark).toList := by
      rw [String.toList_append]
      exact List.suffix_append ..
    simp only [if_pos isMarked, List.isSuffixOf_iff_suffix, found, if_true]
    simp [String.toList_append]
  · simp only [if_neg isMarked, String.append_empty, List.isSuffixOf_iff_suffix, if_neg unmarked, String.ofList_toList]

/-- a table that was not there yet begins with its header -/
theorem readLine_header {state : ReadState} {m : Model} {t : Table}
    (unmarked : ¬ junctionMark.toList <:+ t.qualifiedName.toList) (new : ∀ x ∈ state.tables, x.1 ≠ t.qualifiedName) :
    readLine state (header m t).toList = ⟨state.tables ++ [(t.qualifiedName, [])], some t.qualifiedName⟩ := by
  have absent : state.tables.any (·.1 == t.qualifiedName) = false := by
    simpa [List.any_eq_false] using new
  have name : afterMark? tableMark.toList (header m t).toList =
      some (t.qualifiedName ++ if m.isJunction t then junctionMark else "").toList := by
    rw [header, String.append_assoc, String.toList_append, afterMark?_append]
  rw [readLine, name]
  simp only [headerName_append unmarked, absent, Bool.false_eq_true, if_false]

/-- an indented line is no header -/
theorem afterMark?_indent (rest : List Char) : afterMark? tableMark.toList (indent.toList ++ rest) = none := rfl

/-- what an indented line does while the entries of a table are read, if it is not blank -/
theorem readLine_indent {tables : List (String × List String)} {name : String} {rest : List Char}
    (filled : rest.all isBlank = false) : readLine ⟨tables, some name⟩ (indent.toList ++ rest) =
      if "--".toList.isPrefixOf (stripChars (indent.toList ++ rest)) then ⟨tables, some name⟩
      else ⟨addEntry tables name (String.ofList (unescape rest)), some name⟩ := by
  have notBlank : (indent.toList ++ rest).all isBlank = false := by rw [List.all_append, filled, Bool.and_false]
  have indented : indent.toList.isPrefixOf (indent.toList ++ rest) = true :=
    List.isPrefixOf_iff_prefix.2 (List.prefix_append ..)
  have text : (indent.toList ++ rest).drop indent.length = rest := rfl
  rw [readLine, afterMark?_indent]
  simp only [notBlank, indented, text, Bool.not_true, Bool.or_self, Bool.false_eq_true, if_false]

theorem plain_of_isUpper {c : Char} (capital : c.isUpper = true) :
    isBlank c = false ∧ c ≠ '-' ∧ escapeChar c = [c] := by
  have all : ∀ n < 128, (Char.ofNat n).isUpper = true →
      isBlank (Char.ofNat n) = false ∧ Char.ofNat n ≠ '-' ∧ escapeChar (Char.ofNat n) = [Char.ofNat n] := by decide
  have ascii : c.toNat < 128 := by
    unfold Char.isUpper at capital
    simp only [decide_eq_true_eq] at capital
    exact Nat.lt_of_le_of_lt capital.2 (by decide)
  have here := all c.toNat ascii
  rw [Char.ofNat_toNat] at here
  exact here capital

theorem readLine_entry {tables : List (String × List String)} {name entry : String} (worded : Worded entry) :
    readLine ⟨tables, some name⟩ (entryLine entry).toList = ⟨addEntry tables name entry, some name⟩ := by
  obtain ⟨c, capital, rest, begins⟩ := worded
  have plain : isBlank c = false ∧ c ≠ '-' ∧ escapeChar c = [c] := plain_of_isUpper capital
  have escaped : escape entry.toList = [c] ++ escape rest := by
    rw [begins, escape, List.flatMap_cons, plain.2.2, ← escape]
  have line : (entryLine entry).toList = indent.toList ++ escape entry.toList := by
    rw [entryLine, String.toList_append, String.toList_ofList]
  have visible : ∀ x ∈ [c], isBlank x = false := fun x hx => List.mem_singleton.1 hx ▸ plain.1
  obtain ⟨more, stripped⟩ := stripChars_indent visible (List.cons_ne_nil c []) (escape rest)
  rw [line, readLine_indent (by simp [escaped, plain.1]), escaped, stripped]
  rw [if_neg (by simp [plain.2.1.symm]), ← escaped, unescape_escape, String.ofList_toList]

theorem readLine_comment {tables : List (String × List String)} {name comment : String} :
    readLine ⟨tables, some name⟩ (tableLines.commentLine comment).toList = ⟨tables, some name⟩ := by
  have line : (tableLines.commentLine comment).toList =
      indent.toList ++ (['-', '-'] ++ ' ' :: escape comment.toList) := by
    simp only [tableLines.commentLine, String.toList_append, String.toList_ofList, List.append_assoc]
    rfl
  have visible : ∀ x ∈ ['-', '-'], isBlank x = false := by simp [show isBlank '-' = false from rfl]
  obtain ⟨more, stripped⟩ := stripChars_indent visible (List.cons_ne_nil _ _) (' ' :: escape comment.toList)
  rw [line, readLine_indent (by simp [show isBlank '-' = false from rfl]), stripped]
  rfl

/-- a line that is neither a header nor indented ends a table -/
theorem readLine_outside {state : ReadState} {line : List Char} (header : afterMark? tableMark.toList line = none)
    (outside : indent.toList.isPrefixOf line = false) : readLine state line = ⟨state.tables, none⟩ := by
  rw [readLine, header]
  simp only [outside, Bool.not_false, Bool.or_true, if_true]

/-! ## Reading listings -/

variable {m : Model} {t : Table} {includeIndexes : Bool}

theorem addEntry_append {tables : List (String × List String)} {name : String} (new : ∀ x ∈ tables, x.1 ≠ name)
    (read : List String) (entry : String) :
    addEntry (tables ++ [(name, read)]) name entry = tables ++ [(name, read ++ [entry])] := by
  have others : addEntry tables name entry = tables := by
    refine (List.map_congr_left fun x hx => ?_).trans (List.map_id tables)
    exact if_neg fun same => new x hx (beq_iff_eq.1 same)
  rw [addEntry, List.map_append, ← addEntry, others]
  simp

theorem foldl_readLine_entries {tables : List (String × List String)} {name : String}
    (new : ∀ x ∈ tables, x.1 ≠ name) {es : List String} (worded : ∀ e ∈ es, Worded e) (read : List String) :
    ((es.map entryLine).map String.toList).foldl readLine ⟨tables ++ [(name, read)], some name⟩ =
      ⟨tables ++ [(name, read ++ es)], some name⟩ := by
  induction es generalizing read with
  | nil => rw [List.append_nil]; rfl
  | cons e es ih =>
    rw [List.map_cons, List.map_cons, List.foldl_cons, readLine_entry (worded e List.mem_cons_self),
      addEntry_append new, ih fun e he => worded e (List.mem_cons_of_mem _ he), List.append_assoc,
      List.singleton_append]

/-- the lines of a table give the table its entries -/
theorem foldl_readLine_table {state : ReadState} (unmarked : ¬ junctionMark.toList <:+ t.qualifiedName.toList)
    (new : ∀ x ∈ state.tables, x.1 ≠ t.qualifiedName) :
    ((tableLines m t includeIndexes).map String.toList).foldl readLine state =
      ⟨state.tables ++ [(t.qualifiedName, entries t includeIndexes)], some t.qualifiedName⟩ := by
  rw [tableLines, List.cons_append, List.map_cons, List.foldl_cons, readLine_header unmarked new, List.map_append,
    List.foldl_append]
  have comment : (((filled t.comment).map fun c => tableLines.commentLine c).toList.map String.toList).foldl readLine
      ⟨state.tables ++ [(t.qualifiedName, [])], some t.qualifiedName⟩ =
      ⟨state.tables ++ [(t.qualifiedName, [])], some t.qualifiedName⟩ := by
    cases filled t.comment with
    | none => rfl
    | some c =>
      rw [Option.map_some, Option.toList_some, List.map_singleton, List.foldl_cons, readLine_comment, List.foldl_nil]
  rw [comment, foldl_readLine_entries new (worded_entries t includeIndexes), List.nil_append]

/-- the lines of several tables give each of them its entries -/
theorem foldl_readLine_tables {ts : List Table} (unmarked : ∀ t ∈ ts, ¬ junctionMark.toList <:+ t.qualifiedName.toList)
    (distinct : (ts.map Table.qualifiedName).Nodup) {state : ReadState}
    (new : ∀ t ∈ ts, ∀ x ∈ state.tables, x.1 ≠ t.qualifiedName) :
    ((([""].intercalate (ts.map fun t => tableLines m t includeIndexes)).map String.toList).foldl
      readLine state).tables =
      state.tables ++ ts.map fun t => (t.qualifiedName, entries t includeIndexes) := by
  induction ts generalizing state with
  | nil => simp
  | cons t ts ih =>
    have first : ((tableLines m t includeIndexes).map String.toList).foldl readLine state =
        ⟨state.tables ++ [(t.qualifiedName, entries t includeIndexes)], some t.qualifiedName⟩ :=
      foldl_readLine_table (unmarked t List.mem_cons_self) (new t List.mem_cons_self)
    cases ts with
    | nil => simp [first]
    | cons next ts =>
      rw [List.map_cons] at distinct
      obtain ⟨other, distinct⟩ := List.nodup_cons.1 distinct
      have behind : ∀ t' ∈ next :: ts, ∀ x ∈ state.tables ++ [(t.qualifiedName, entries t includeIndexes)],
          x.1 ≠ t'.qualifiedName := by
        intro t' ht' x hx
        rcases List.mem_append.1 hx with old | last
        · exact new t' (List.mem_cons_of_mem t ht') x old
        · rw [List.mem_singleton.1 last]
          intro same
          rw [show t.qualifiedName = t'.qualifiedName from same] at other
          exact other (List.mem_map_of_mem ht')
      have parted : [""].intercalate ((t :: next :: ts).map fun t => tableLines m t includeIndexes) =
          tableLines m t includeIndexes ++ "" :: [""].intercalate ((next :: ts).map fun t =>
            tableLines m t includeIndexes) := by
        rw [List.map_cons, List.map_cons, List.intercalate_cons_cons, List.append_assoc]
        rfl
      rw [parted, List.map_append, List.foldl_append, first, List.map_cons, List.foldl_cons,
        readLine_outside rfl rfl,
        ih (fun t' ht' => unmarked t' (List.mem_cons_of_mem t ht')) distinct behind, List.append_assoc]
      rfl

/-- lines outside tables change nothing -/
theorem foldl_readLine_outside {lines : List String} (outside : ∀ l ∈ lines,
    afterMark? tableMark.toList l.toList = none ∧ indent.toList.isPrefixOf l.toList = false) (state : ReadState) :
    ((lines.map String.toList).foldl readLine state).tables = state.tables := by
  induction lines generalizing state with
  | nil => rfl
  | cons l lines ih =>
    obtain ⟨header, indented⟩ := outside l List.mem_cons_self
    rw [List.map_cons, List.foldl_cons, ih fun l hl => outside l (List.mem_cons_of_mem _ hl),
      readLine_outside header indented]

theorem relationshipLine_outside (r : Relationship) :
    afterMark? tableMark.toList (relationshipLine r).toList = none ∧
      indent.toList.isPrefixOf (relationshipLine r).toList = false := by
  obtain ⟨rest, begins⟩ : BeginsWith 'R' (relationshipLine r) := by
    unfold relationshipLine
    repeat refine BeginsWith.append ?_ _
    exact ⟨"ELATIONSHIP ".toList, rfl⟩
  rw [begins]
  exact ⟨rfl, rfl⟩

/-- a listing whose lines are lines is read back -/
theorem parse_of_oneLine (distinct : (m.tables.map Table.qualifiedName).Nodup)
    (unmarked : ∀ t ∈ m.tables, ¬ junctionMark.toList <:+ t.qualifiedName.toList)
    (oneLine : ∀ l ∈ lines m includeIndexes, OneLine l) :
    parse (render m includeIndexes) = m.tables.map fun t => (t.qualifiedName, entries t includeIndexes) := by
  have outside : ∀ l ∈ (if m.relationships.isEmpty then [] else "" :: m.relationships.map relationshipLine) ++ [""],
      afterMark? tableMark.toList l.toList = none ∧ indent.toList.isPrefixOf l.toList = false := by
    intro l hl
    have cases : l = "" ∨ l ∈ m.relationships.map relationshipLine := by
      rcases List.mem_append.1 hl with hl | last
      · split_ifs at hl
        · exact absurd hl List.not_mem_nil
        · exact List.mem_cons.1 hl
      · exact Or.inl (List.mem_singleton.1 last)
    rcases cases with rfl | isRelationship
    · exact ⟨rfl, rfl⟩
    · obtain ⟨r, -, rfl⟩ := List.mem_map.1 isRelationship
      exact relationshipLine_outside r
  have text : splitLines (render m includeIndexes).toList = (tableBlocks m includeIndexes).map String.toList ++
      ((if m.relationships.isEmpty then [] else "" :: m.relationships.map relationshipLine) ++ [""]).map
        String.toList := by
    rw [render, splitLines_join oneLine, lines, List.map_append, List.map_append, List.append_assoc]
    rfl
  rw [parse, text, List.foldl_append, foldl_readLine_outside outside, tableBlocks,
    foldl_readLine_tables unmarked distinct fun t ht x hx => absurd hx List.not_mem_nil]
  rfl

/-! ## Names on one line -/

/-- The names of a model that its listing shows unescaped: no two tables have the same one, none ends like the header
of a marked table, and all are on one line. -/
@[mk_iff]
structure Legible (m : Model) : Prop where
  distinct : (m.tables.map Table.qualifiedName).Nodup
  unmarked : ∀ t ∈ m.tables, ¬ junctionMark.toList <:+ t.qualifiedName.toList
  tables : ∀ t ∈ m.tables, OneLine t.name ∧ ∀ s ∈ t.schema, OneLine s
  columns : ∀ t ∈ m.tables, ∀ c ∈ t.columns, OneLine c.name
  constraints : ∀ t ∈ m.tables, ∀ c ∈ t.constraints, ∀ n ∈ c.name, OneLine n

instance (m : Model) : Decidable (Legible m) := decidable_of_iff' _ (legible_iff m)

theorem oneLine_dotted {schema : Option String} {name : String} (hn : OneLine name)
    (hs : ∀ s ∈ schema, OneLine s) : OneLine (dotted schema name) := by
  unfold dotted
  split
  · exact hn
  · rename_i s
    split_ifs
    · exact hn
    · exact ((hs s rfl).append (by decide)).append hn

theorem oneLine_columnsText {names : List String} (each : ∀ n ∈ names, OneLine n) : OneLine (columnsText names) :=
  (OneLine.append (by decide) (.intercalate (by decide) each)).append (by decide)

theorem oneLine_escape (prefixed : String) (text : String) (h : OneLine prefixed) :
    OneLine (prefixed ++ String.ofList (escape text.toList)) := by
  refine h.append ?_
  rw [OneLine, String.toList_ofList]
  exact lineFeed_not_mem_escape text.toList

theorem oneLine_relationshipLine {r : Relationship} (name : OneLine r.name) (source : OneLine r.fromTable.text)
    (target : OneLine r.toTable.text) (sourceColumns : ∀ n ∈ r.fromColumns, OneLine n)
    (targetColumns : ∀ n ∈ r.toColumns, OneLine n) (junction : ∀ j, r.junction = some j → OneLine j.table.text) :
    OneLine (relationshipLine r) := by
  have kind : OneLine r.kind.name := by cases r.kind <;> decide
  have via : OneLine ((r.junction.map fun j => s!" VIA {j.table.text}").getD "") := by
    cases there : r.junction with
    | none => decide
    | some j => exact OneLine.append (by decide) (junction j there)
  have names : OneLine s!"RELATIONSHIP {r.name} {r.kind.name} {r.fromTable.text}" :=
    ((((OneLine.append (by decide) name).append (by decide)).append kind).append (by decide)).append source
  have arrow : OneLine s!" → {r.toTable.text}" := OneLine.append (by decide) target
  exact (((names.append (oneLine_columnsText sourceColumns)).append arrow).append
    (oneLine_columnsText targetColumns)).append via

section
variable {d : Dialect} (legible : Legible m) (covered : ∀ t ∈ m.tables, t.Covered d)

include legible

theorem Legible.qualifiedName (ht : t ∈ m.tables) : OneLine t.qualifiedName :=
  oneLine_dotted (legible.tables t ht).1 (legible.tables t ht).2

theorem Legible.relationshipName (ht : t ∈ m.tables) {k : ForeignKey} (hk : k ∈ t.foreignKeys)
    (columns : ∀ n ∈ k.columns, OneLine n) : OneLine (k.relationshipName t) := by
  have made : OneLine (ForeignKey.relationshipName.made k t) :=
    (((legible.tables t ht).1.append (by decide)).append (.intercalate (by decide) columns)).append (by decide)
  unfold ForeignKey.relationshipName
  split
  · rename_i n named
    split_ifs
    · exact made
    · obtain ⟨c, hc, isKey⟩ := List.mem_filterMap.1 hk
      refine legible.constraints t ht c hc n ?_
      cases c with
      | foreignKey k' => rw [Constraint.name, Option.some.inj isKey, named]; rfl
      | _ => contradiction
  · exact made

include covered

/-- the line of a relationship is one line, for its names are names of the tables -/
theorem Legible.relationshipLine {r : Relationship} (hr : r ∈ deriveRelationships m.tables) :
    OneLine (relationshipLine r) := by
  -- what a resolved key refers to
  have target : ∀ k : ForeignKey, (∃ t, resolvedTarget m.tables k = some t) →
      OneLine k.target.text ∧ ∀ n ∈ k.targetColumns, OneLine n := by
    rintro k ⟨t, found⟩
    obtain ⟨ht, ref, known⟩ := resolvedTarget_eq_some found
    exact ⟨ref ▸ legible.qualifiedName ht, (covered t ht).oneLine_uniqueSet (legible.columns t ht) known⟩
  obtain ⟨t, ht, hr⟩ := List.mem_flatMap.1 hr
  have own : ∀ k ∈ t.foreignKeys, ∀ n ∈ k.columns, OneLine n := fun k hk =>
    (covered t ht).oneLine_foreignKey (legible.columns t ht) hk
  unfold tableRelationships at hr
  split at hr
  · rename_i left right linked
    obtain ⟨toLeft, toRight⟩ := junctionKeys?_eq_some linked
    obtain rfl := List.mem_singleton.1 hr
    refine oneLine_relationshipLine (legible.tables t ht).1 (target left toLeft).1 (target right toRight).1
      (target left toLeft).2 (target right toRight).2 fun j isLink => ?_
    rw [← Option.some.inj isLink]
    exact legible.qualifiedName ht
  · obtain ⟨k, hk, rfl⟩ := List.mem_map.1 hr
    obtain ⟨hk, found⟩ := List.mem_filter.1 hk
    have there := target k (Option.isSome_iff_exists.1 found)
    exact oneLine_relationshipLine (legible.relationshipName ht hk (own k hk)) (legible.qualifiedName ht) there.1
      (own k hk) there.2 fun j isLink => by contradiction

theorem Legible.lines (relationships : m.relationships = deriveRelationships m.tables) :
    ∀ l ∈ lines m includeIndexes, OneLine l := by
  have blocks : ∀ t ∈ m.tables, ∀ l ∈ tableLines m t includeIndexes, OneLine l := by
    intro t ht l hl
    rw [tableLines, List.mem_append, List.mem_cons] at hl
    rcases hl with (rfl | comment) | entry
    · refine (OneLine.append (by decide) (legible.qualifiedName ht)).append ?_
      split_ifs <;> decide
    · obtain ⟨c, -, rfl⟩ := Option.mem_toList.1 comment |> Option.map_eq_some_iff.1
      exact oneLine_escape _ c (by decide)
    · obtain ⟨e, -, rfl⟩ := List.mem_map.1 entry
      exact oneLine_escape _ e (by decide)
  intro l hl
  rcases List.mem_append.1 hl with block | relationship
  · rcases mem_intercalate block with between | ⟨_, ofTable, line⟩
    · rw [List.mem_singleton.1 between]
      decide
    · obtain ⟨t, ht, rfl⟩ := List.mem_map.1 ofTable
      exact blocks t ht l line
  · rw [relationships] at relationship
    split_ifs at relationship
    · exact absurd relationship List.not_mem_nil
    · rcases List.mem_cons.1 relationship with rfl | line
      · decide
      · obtain ⟨r, hr, rfl⟩ := List.mem_map.1 line
        exact legible.relationshipLine covered hr

end

/-- The listing of a model reads back as the entries of its tables, in the order of the tables. -/
theorem parse_render {d : Dialect} {schemaFilter : Option String} {statements : List Statement} {b : Built}
    (built : buildModel d schemaFilter statements = .ok b) (legible : Legible b.model) (includeIndexes : Bool) :
    parse (render b.model includeIndexes) =
      b.model.tables.map fun t => (t.qualifiedName, entries t includeIndexes) := by
  obtain ⟨-, -, -, -, -, relationships, -⟩ := buildModel_tables built
  exact parse_of_oneLine legible.distinct legible.unmarked
    (legible.lines (covered_of_buildModel built) relationships)

/-- a table whose texts look like other lines of a listing, and one that refers to it -/
def mailAndReplies : List Statement := [
  ⟨.createTable
    { name := ⟨"mail", none⟩
      comment := some "TABLE x\n  COLUMN y"
      columns := [{ name := "no", type := none, position := ⟨1, 1, 0⟩ },
        { name := "body", type := none, default := some "'\\n\r\n  -- '", position := ⟨1, 1, 0⟩ }]
      constraints := [.primaryKey ["no"] none ⟨1, 1, 0⟩, .check "body <> '\nTABLE z'" none none ⟨1, 1, 0⟩] },
    ⟨1, 1, 0⟩, none⟩,
  ⟨.createTable
    { name := ⟨"reply", none⟩
      columns := [{ name := "mail", type := none, position := ⟨2, 1, 0⟩ }]
      constraints := [.foreignKey ["mail"] { table := ⟨"mail", none⟩ } none ⟨2, 1, 0⟩] }, ⟨2, 1, 0⟩, none⟩]

theorem parse_render_mailAndReplies : ∃ b, buildModel .sqlite none mailAndReplies = .ok b ∧ Legible b.model ∧
    parse (render b.model true) = b.model.tables.map (fun t => (t.qualifiedName, entries t true)) ∧
    b.model.tables.map (fun t => (t.qualifiedName, entries t true)) = [
      ("main.mail", ["COLUMN no - NOT NULL", "COLUMN body - NULL DEFAULT '\\n\r\n  -- '", "PRIMARY KEY (no)",
        "CHECK (body <> '\nTABLE z')"]),
      ("main.reply", ["COLUMN mail - NULL", "FOREIGN KEY (mail) REFERENCES main.mail (no)"])] := by
  have facts : (buildModel .sqlite none mailAndReplies).toOption.map (fun b => decide (Legible b.model ∧
      b.model.tables.map (fun t => (t.qualifiedName, entries t true)) = [
        ("main.mail", ["COLUMN no - NOT NULL", "COLUMN body - NULL DEFAULT '\\n\r\n  -- '", "PRIMARY KEY (no)",
          "CHECK (body <> '\nTABLE z')"]),
        ("main.reply", ["COLUMN mail - NULL", "FOREIGN KEY (mail) REFERENCES main.mail (no)"])])) = some true := by
    decide +kernel
  obtain ⟨b, built, facts⟩ := Option.map_eq_some_iff.1 facts
  obtain ⟨legible, tables⟩ := of_decide_eq_true facts
  have built := toOption_eq_some_iff.1 built
  exact ⟨b, built, legible, parse_render built legible true, tables⟩

end SchemaApi.Listing
