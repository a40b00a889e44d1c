import SchemaApi.Data.Json.Reader
import SchemaApi.Data.Yaml.Scalar
/-!
Reading YAML text as far as settings need it: maps and lists by indentation, maps and lists between
brackets, scalars with and without quotes, and comments. A document with anything else, such as an
anchor or a block scalar, is refused.
-/

namespace SchemaApi.Yaml

/-! ## Lines -/

/-- a line that is neither blank nor a comment: its indentation and its text -/
structure Line where
  indent : Nat
  text : List Char
  deriving Repr

/-- a blank inside a line -/
def isGap (c : Char) : Bool := c = ' ' || c = '\t'

/-- a text without blanks at its end -/
def trimEnd (cs : List Char) : List Char := (cs.reverse.dropWhile isGap).reverse

/-- nothing but blanks and perhaps a comment -/
def isVoidText (cs : List Char) : Bool :=
  match cs.dropWhile isGap with
  | [] => true
  | c :: _ => c = '#'

/-- the text of a line and its indentation, which is of spaces alone -/
def Line.ofChars (cs : List Char) : Line :=
  let text := cs.dropWhile (· = ' ')
  ⟨cs.length - text.length, trimEnd text⟩

def linesOf (cs : List Char) : List Line :=
  ((String.ofList cs).splitOn "\n").filterMap fun s =>
    if isVoidText s.toList then none else some (.ofChars s.toList)

/-- the lines as they stood, for a value that spans lines -/
def joined (lines : List Line) : List Char :=
  "\n".toList.intercalate (lines.map fun l => List.replicate l.indent ' ' ++ l.text)

/-! ## Scalars -/

/-- a character that no plain scalar begins with -/
def isIndicator (c : Char) : Bool := ",[]\x7b\x7d#&*!|>'\"%@`".toList.contains c

/-- the text of a plain scalar may begin here -/
def startsPlain : List Char → Bool
  | [] => false
  | c :: rest =>
    if c = '-' || c = '?' || c = ':' then rest.head?.any fun n => !isGap n && n ≠ '\n'
    else !isGap c && !isIndicator c

/-- how many characters stand before a comment, a colon with a blank behind it, or one of `stops` -/
def plainLength (stops : List Char) : Char → List Char → Nat
  | _, [] => 0
  | before, c :: rest =>
    if c = '\n' || stops.contains c then 0
    else if c = '#' && isGap before then 0
    else if c = ':' && rest.head?.all fun n => isGap n || n = '\n' || stops.contains n then 0
    else plainLength stops c rest + 1

/-- a plain scalar and what stands behind it -/
def plain? (stops : List Char) (cs : List Char) : Option (String × List Char) :=
  if startsPlain cs && !cs.head?.any stops.contains then
    let n := plainLength stops ' ' cs
    some (String.ofList (trimEnd (cs.take n)), cs.drop n)
  else none

/-- the rest of a text in single quotes; two of them stand for one -/
def singleQuoted? : List Char → Option (List Char × List Char)
  | [] => none
  | '\'' :: '\'' :: rest => (singleQuoted? rest).map fun (s, more) => ('\'' :: s, more)
  | '\'' :: rest => some ([], rest)
  | c :: rest => (singleQuoted? rest).map fun (s, more) => (c :: s, more)

/-- a text in quotes -/
def quoted? : List Char → Option (String × List Char)
  | '"' :: rest => Json.text? ('"' :: rest)
  | '\'' :: rest => (singleQuoted? rest).map fun (s, more) => (String.ofList s, more)
  | _ => none

/-! ## Values between brackets -/

/-- the characters that end a plain scalar between brackets -/
def flowStops : List Char := ",[]\x7b\x7d".toList

/-- drops blanks, line breaks and comments; `fuel` bounds the number of comments -/
def skipFlowGap : Nat → List Char → List Char
  | 0, cs => cs
  | fuel + 1, cs =>
    let rest := cs.dropWhile fun c => isGap c || c = '\n'
    match rest with
    | '#' :: more => skipFlowGap fuel (more.dropWhile (· ≠ '\n'))
    | _ => rest

/-- a scalar between brackets: its text, and its value -/
def flowScalar? (cs : List Char) : Option (String × Value × List Char) :=
  match quoted? cs with
  | some (s, rest) => some (s, .str s, rest)
  | none => (plain? flowStops cs).map fun (s, rest) => (s, scalar s, rest)

mutual

/-- a value that may span lines -/
def flow? : Nat → List Char → Option (Value × List Char)
  | 0, _ => none
  | fuel + 1, '[' :: rest => flowItems? fuel [] (skipFlowGap fuel rest)
  | fuel + 1, '\x7b' :: rest => flowEntries? fuel [] (skipFlowGap fuel rest)
  | _ + 1, cs => (flowScalar? cs).map fun (_, v, rest) => (v, rest)

/-- the items of a list up to its bracket; the items before are nearest first -/
def flowItems? : Nat → List Value → List Char → Option (Value × List Char)
  | 0, _, _ => none
  | fuel + 1, seen, cs =>
    match cs with
    | ']' :: rest => some (.list seen.reverse, rest)
    | cs =>
      match flow? fuel cs with
      | none => none
      | some (v, rest) =>
        match skipFlowGap fuel rest with
        | ',' :: rest => flowItems? fuel (v :: seen) (skipFlowGap fuel rest)
        | ']' :: rest => some (.list (v :: seen).reverse, rest)
        | _ => none

/-- the entries of a map up to its brace -/
def flowEntries? : Nat → List (String × Value) → List Char → Option (Value × List Char)
  | 0, _, _ => none
  | fuel + 1, seen, cs =>
    match cs with
    | '\x7d' :: rest => some (.map seen, rest)
    | cs =>
      match flowScalar? cs with
      | none => none
      | some (name, _, rest) =>
        match skipFlowGap fuel rest with
        | ':' :: rest =>
          match flowEntryValue? fuel (skipFlowGap fuel rest) with
          | none => none
          | some (v, rest) => flowEntriesEnd? fuel (setEntry seen name v) (skipFlowGap fuel rest)
        | rest => flowEntriesEnd? fuel (setEntry seen name .null) rest

/-- the value behind a colon, null if there is none -/
def flowEntryValue? : Nat → List Char → Option (Value × List Char)
  | 0, _ => none
  | fuel + 1, cs =>
    match cs with
    | ',' :: _ => some (.null, cs)
    | '\x7d' :: _ => some (.null, cs)
    | cs => flow? fuel cs

/-- what stands behind an entry of a map -/
def flowEntriesEnd? : Nat → List (String × Value) → List Char → Option (Value × List Char)
  | 0, _, _ => none
  | fuel + 1, seen, cs =>
    match cs with
    | ',' :: rest => flowEntries? fuel seen (skipFlowGap fuel rest)
    | '\x7d' :: rest => some (.map seen, rest)
    | _ => none

end

/-- a value at the head of lines that begins with a bracket or a quote, and the lines behind it -/
def inlineFlow? (lines : List Line) : Option (Value × List Line) :=
  let cs := joined lines
  match flow? (3 * cs.length + 3) (cs.dropWhile isGap) with
  | none => none
  | some (v, rest) =>
    if isVoidText (rest.takeWhile (· ≠ '\n')) then some (v, linesOf (rest.dropWhile (· ≠ '\n')))
    else none

/-! ## Values by indentation -/

/-- a name with a colon behind it at the head of a line, and the rest of the line -/
def key? (text : List Char) : Option (String × List Char) :=
  let named :=
    match quoted? text with
    | some found => some found
    | none => plain? [] text
  match named with
  | none => none
  | some (name, rest) =>
    match rest.dropWhile isGap with
    | ':' :: rest => if rest.head?.all isGap then some (name, rest.dropWhile isGap) else none
    | _ => none

/-- an item of a list at the head of a line: how far it is indented, and the rest of the line -/
def item? : List Char → Option (Nat × List Char)
  | '-' :: rest =>
    if rest.head?.all isGap then
      let text := rest.dropWhile isGap
      some (1 + (rest.length - text.length), text)
    else none
  | _ => none

/-- adds the lines, indented by `least` at least, that go on with a plain scalar; a comment behind
it ends it -/
def continued (least : Nat) (text : String) (commented : Bool) :
    List Line → Option (String × List Line)
  | [] => some (text, [])
  | l :: rest =>
    if l.indent < least then some (text, l :: rest)
    else if commented then none
    else
      let n := plainLength [] ' ' l.text
      match l.text.drop n with
      | ':' :: _ => none
      | more =>
        continued least (text ++ " " ++ String.ofList (trimEnd (l.text.take n))) (!more.isEmpty)
          rest

/-- a plain scalar that begins on a line and may go on over lines indented by `least` at least -/
def plainValue? (least : Nat) (text : List Char) (rest : List Line) :
    Option (Value × List Line) :=
  match plain? [] text with
  | some (_, ':' :: _) => none
  | some (s, more) =>
    (continued least s (!more.isEmpty) rest).map fun (s, rest) => (scalar s, rest)
  | none => none

/-- a value begins with a bracket or a quote -/
def startsFlow (text : List Char) : Bool := text.head?.any fun c => "[\x7b\"'".toList.contains c

/-- a value on the line of its name -/
def inlineValue? (indent : Nat) (text : List Char) (rest : List Line) :
    Option (Value × List Line) :=
  if startsFlow text then inlineFlow? (⟨indent + 1, text⟩ :: rest)
  else plainValue? (indent + 1) text rest

mutual

/-- the value that lines spell from the head, and the lines that are less indented than it -/
def block? : Nat → List Line → Option (Value × List Line)
  | 0, _ => none
  | _ + 1, [] => some (.null, [])
  | fuel + 1, l :: rest =>
    if (item? l.text).isSome then blockItems? fuel l.indent [] (l :: rest)
    else if (key? l.text).isSome then blockEntries? fuel l.indent [] (l :: rest)
    else if startsFlow l.text then inlineFlow? (l :: rest)
    else plainValue? l.indent l.text rest

/-- the entries of a map whose names stand at an indentation -/
def blockEntries? : Nat → Nat → List (String × Value) → List Line →
    Option (Value × List Line)
  | 0, _, _, _ => none
  | _ + 1, _, seen, [] => some (.map seen, [])
  | fuel + 1, indent, seen, l :: rest =>
    if l.indent < indent then some (.map seen, l :: rest)
    else if indent < l.indent then none
    else
      match key? l.text with
      | none => none
      | some (name, text) =>
        let value :=
          if isVoidText text then entryBlock? fuel indent rest else inlineValue? indent text rest
        match value with
        | none => none
        | some (v, rest) => blockEntries? fuel indent (setEntry seen name v) rest

/-- the value on the lines below its name: deeper lines, or the items of a list -/
def entryBlock? : Nat → Nat → List Line → Option (Value × List Line)
  | 0, _, _ => none
  | _ + 1, _, [] => some (.null, [])
  | fuel + 1, indent, l :: rest =>
    if indent < l.indent then block? fuel (l :: rest)
    else if l.indent = indent ∧ (item? l.text).isSome then
      blockItems? fuel indent [] (l :: rest)
    else some (.null, l :: rest)

/-- the value on the lines below its dash -/
def itemBlock? : Nat → Nat → List Line → Option (Value × List Line)
  | 0, _, _ => none
  | _ + 1, _, [] => some (.null, [])
  | fuel + 1, indent, l :: rest =>
    if indent < l.indent then block? fuel (l :: rest) else some (.null, l :: rest)

/-- the items of a list whose dashes stand at an indentation; the items before are nearest first -/
def blockItems? : Nat → Nat → List Value → List Line → Option (Value × List Line)
  | 0, _, _, _ => none
  | _ + 1, _, seen, [] => some (.list seen.reverse, [])
  | fuel + 1, indent, seen, l :: rest =>
    if l.indent < indent then some (.list seen.reverse, l :: rest)
    else if indent < l.indent then none
    else
      match item? l.text with
      | none => some (.list seen.reverse, l :: rest)
      | some (width, text) =>
        let value :=
          if isVoidText text then itemBlock? fuel indent rest
          else block? fuel (⟨l.indent + width, text⟩ :: rest)
        match value with
        | none => none
        | some (v, rest) => blockItems? fuel indent (v :: seen) rest

end

/-! ## Documents -/

/-- a character that may stand in a document -/
def isAllowed (c : Char) : Bool :=
  c = '\t' || c = '\n' || c = '\r' || (' ' ≤ c && c ≤ '~') || c.toNat = 0x85
    || (0xA0 ≤ c.toNat && c.toNat ≤ 0xFFFD) || 0x10000 ≤ c.toNat

/-- drops the mark at the start of a document -/
def dropStart : List Line → List Line
  | l :: rest => if l.indent = 0 ∧ l.text = "---".toList then rest else l :: rest
  | [] => []

/-- nothing but the mark at the end of a document -/
def isEnd : List Line → Bool
  | [] => true
  | [l] => l.indent = 0 && l.text = "...".toList
  | _ => false

/-- the value that a whole document spells -/
def parse? (text : String) : Option Value :=
  let cs := text.toList
  let cs := if cs.head?.any (·.toNat = 0xFEFF) then cs.drop 1 else cs
  if cs.all isAllowed then
    let lines := dropStart (linesOf cs)
    match block? (4 * cs.length + 4) lines with
    | some (v, rest) => if isEnd rest then some v else none
    | none => none
  else none

end SchemaApi.Yaml
