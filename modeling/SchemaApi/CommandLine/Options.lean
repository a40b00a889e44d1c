import SchemaApi.Settings
import SchemaApi.Text.Digit
/-!
The options of the command line.

An option is named in full, by a beginning of its long name that no other has, or by a letter;
letters may stand together behind one dash. A value stands behind its option, after an equals sign,
or right behind the letter. The scripts stand together, and behind `--` everything is a script.
-/

namespace SchemaApi.CommandLine

open Text

/-- what a word behind a dash asks for -/
inductive Switch where
  | help | version | output | format | emit | listing | validateOnly | config | dialect
  | schemaFilter | naming | mode | workers | failOnWarnings | verbose | quiet
  deriving DecidableEq, Repr

namespace Switch

def names : List (String × Switch) := [
  ("-h", help), ("--help", help), ("--version", version), ("-o", output), ("--output", output),
  ("--format", format), ("--emit", emit), ("--listing", listing),
  ("--validate-only", validateOnly), ("-c", config), ("--config", config), ("-d", dialect),
  ("--dialect", dialect), ("--schema-filter", schemaFilter), ("--naming-strategy", naming),
  ("--relationship-mode", mode), ("--workers", workers),
  ("--fail-on-warnings", failOnWarnings), ("-v", verbose), ("--verbose", verbose),
  ("-q", quiet), ("--quiet", quiet)]

/-- a value has to follow -/
def takesValue : Switch → Bool
  | output | format | emit | config | dialect | schemaFilter | naming | mode | workers => true
  | _ => false

end Switch

/-- what is written out -/
inductive Emission where
  | description | model | both
  deriving DecidableEq, Repr

structure Options where
  inputs : List String := []
  output : Option String := none
  yaml : Bool := false
  emission : Emission := .description
  listing : Bool := false
  validateOnly : Bool := false
  config : Option String := none
  dialect : Option String := none
  schemaFilter : Option String := none
  naming : Option NamingStrategy := none
  mode : Option RelationshipMode := none
  workers : Option Int := none
  failOnWarnings : Bool := false
  verbose : Nat := 0
  quiet : Bool := false
  deriving DecidableEq, Repr

/-- what a command line asks for -/
inductive Request where
  | help
  | version
  | misuse
  | run (options : Options)
  deriving DecidableEq, Repr

/-! ## Words -/

/-- one word of a command line -/
inductive Word where
  | plain (text : String)
  /-- `--` -/
  | separator
  | switch (s : Switch) (long : Bool) (value : Option String)
  | ambiguous
  | unknown
  deriving DecidableEq, Repr

/-- digits, perhaps with a point -/
def isNegativeNumber : List Char → Bool
  | '-' :: rest =>
    let whole := rest.takeWhile isDecimal
    match rest.drop whole.length with
    | [] => !whole.isEmpty
    | '.' :: fraction => !fraction.isEmpty && fraction.all isDecimal
    | _ => false
  | _ => false

/-- splits a text at its first equals sign -/
def splitEquals? (text : String) : Option (String × String) :=
  let cs := text.toList
  let name := cs.takeWhile (· ≠ '=')
  if name.length < cs.length then
    some (String.ofList name, String.ofList (cs.drop (name.length + 1)))
  else none

/-- long names begin with two dashes -/
def isLong (name : String) : Bool := "--".toList.isPrefixOf name.toList

/-- the options that a word may mean by a beginning of a long name or by a letter, with values -/
def meanings (word : String) : List Word :=
  if isLong word then
    let (start, value) :=
      match splitEquals? word with
      | some (name, value) => (name, some value)
      | none => (word, none)
    (Switch.names.filter fun n => start.toList.isPrefixOf n.1.toList).map
      fun n => .switch n.2 true value
  else
    (Switch.names.filter fun n => n.1.toList = word.toList.take 2).map
      fun n => .switch n.2 false (some (String.ofList (word.toList.drop 2)))

/-- the meaning of a word that is no full name of an option -/
def looseWord (word : String) : Word :=
  match meanings word with
  | [w] => w
  | [] => if isNegativeNumber word.toList || word.toList.contains ' ' then .plain word else .unknown
  | _ => .ambiguous

/-- the meaning of a word that stands before `--` -/
def classify (word : String) : Word :=
  if word.toList.head? ≠ some '-' then .plain word
  else
    match Switch.names.lookup word with
    | some s => .switch s (isLong word) none
    | none =>
      if word = "-" then .plain word
      else
        match splitEquals? word with
        | none => looseWord word
        | some (name, value) =>
          match Switch.names.lookup name with
          | some s => .switch s (isLong name) (some value)
          | none => looseWord word

def words : List String → List Word
  | [] => []
  | "--" :: rest => .separator :: rest.map .plain
  | word :: rest => classify word :: words rest

/-! ## Values -/

/-- digits with single underscores between them, as a number -/
def groupedNumber? : List Char → Option Nat
  | [] => none
  | cs =>
    let digits := cs.filter (· ≠ '_')
    let spaced := cs.head? ≠ some '_' && cs.getLast? ≠ some '_'
      && !(cs.zip (cs.drop 1)).any fun pair => pair.1 = '_' && pair.2 = '_'
    if spaced && digits.all isDecimal then some (decimalNumber digits) else none

/-- the whole number that a value spells -/
def number? (value : String) : Option Int :=
  match stripChars value.toList with
  | '-' :: digits => (groupedNumber? digits).map fun n => -(n : Int)
  | '+' :: digits => (groupedNumber? digits).map fun n => (n : Int)
  | digits => (groupedNumber? digits).map fun n => (n : Int)

/-- an option with its value, unless the value is none of its -/
def Options.set? (o : Options) (s : Switch) (value : String) : Option Options :=
  match s with
  | .output => some { o with output := some value }
  | .config => some { o with config := some value }
  | .dialect => some { o with dialect := some value }
  | .schemaFilter => some { o with schemaFilter := some value }
  | .format =>
    if value = "json" then some { o with yaml := false }
    else if value = "yaml" then some { o with yaml := true }
    else none
  | .emit =>
    if value = "descriptor" then some { o with emission := .description }
    else if value = "model" then some { o with emission := .model }
    else if value = "both" then some { o with emission := .both }
    else none
  | .naming => (NamingStrategy.ofName? value).map fun n => { o with naming := some n }
  | .mode => (RelationshipMode.ofName? value).map fun m => { o with mode := some m }
  | .workers => (number? value).map fun n => { o with workers := some n }
  | _ => none

/-- an option without value -/
def Options.enable (o : Options) : Switch → Options
  | .listing => { o with listing := true }
  | .validateOnly => { o with validateOnly := true }
  | .failOnWarnings => { o with failOnWarnings := true }
  | .verbose => { o with verbose := o.verbose + 1 }
  | .quiet => { o with quiet := true }
  | _ => o

/-! ## Command lines -/

/-- what is known after some words -/
structure Progress where
  options : Options := {}
  /-- the scripts were named -/
  named : Bool := false
  /-- there was a word that belongs nowhere -/
  stray : Bool := false

/-- an option without value and the letters behind it, which are options too; the first that takes a
value takes the letters left -/
def letters? : Switch → List Char → Option (List (Switch × Option String))
  | _, [] => none
  | s, c :: rest =>
    if s.takesValue then some [(s, some (String.ofList (c :: rest)))]
    else
      match Switch.names.lookup (String.ofList ['-', c]) with
      | none => none
      | some next =>
        if rest.isEmpty then some [(s, none), (next, none)]
        else (letters? next rest).map ((s, none) :: ·)

/-- the options that one word names; the last of them may still lack its value -/
def namedBy? (s : Switch) (long : Bool) : Option String → Option (List (Switch × Option String))
  | none => some [(s, none)]
  | some value =>
    if s.takesValue then some [(s, some value)]
    else if long then none
    else letters? s value.toList

/-- the text of a word that may be a value or a script -/
def Word.plain? : Word → Option String
  | plain text => some text
  | _ => none

def Word.isRunning : Word → Bool
  | plain _ => true
  | separator => true
  | _ => false

/-- Gives the last of some options its value, the next word, if it still lacks it; fails if that
word is no value. -/
def complete? : List (Switch × Option String) → List Word →
    Option (List (Switch × Option String) × List Word)
  | [], rest => some ([], rest)
  | [(s, none)], rest =>
    if s.takesValue then
      match rest with
      | .plain value :: rest => some ([(s, some value)], rest)
      | _ => none
    else some ([(s, none)], rest)
  | option :: more, rest =>
    (complete? more rest).map fun (options, rest) => (option :: options, rest)

/-- where some options lead: to an answer, or on -/
inductive Advance where
  | done (r : Request)
  | go (options : Options)

/-- takes in complete options one by one -/
def takeOptions (o : Options) : List (Switch × Option String) → Advance
  | [] => .go o
  | (.help, _) :: _ => .done .help
  | (.version, _) :: _ => .done .version
  | (s, some value) :: more =>
    match o.set? s value with
    | none => .done .misuse
    | some o => takeOptions o more
  | (s, none) :: more => takeOptions (o.enable s) more

/-- takes in the words up to the next option: the scripts, if they were not named yet -/
def takeInputs (p : Progress) (run : List Word) : Progress :=
  let texts := run.filterMap Word.plain?
  if p.named || texts.isEmpty then { p with stray := true }
  else { p with options := { p.options with inputs := texts }, named := true }

/-- goes through the words; the fuel bounds their number -/
def readWords : Nat → Progress → List Word → Request
  | 0, _, _ => .misuse
  | _ + 1, p, [] => if p.named && !p.stray then .run p.options else .misuse
  | fuel + 1, p, .switch s long value :: rest =>
    match (namedBy? s long value).bind (complete? · rest) with
    | none => .misuse
    | some (options, rest) =>
      match takeOptions p.options options with
      | .done r => r
      | .go o => readWords fuel { p with options := o } rest
  | fuel + 1, p, .unknown :: rest => readWords fuel { p with stray := true } rest
  | _ + 1, _, .ambiguous :: _ => .misuse
  | fuel + 1, p, w :: rest =>
    let run := (w :: rest).takeWhile Word.isRunning
    readWords fuel (takeInputs p run) ((w :: rest).drop run.length)

/-- what a command line asks for -/
def request (args : List String) : Request :=
  let ws := words args
  if ws.contains .ambiguous then .misuse else readWords (ws.length + 1) {} ws

end SchemaApi.CommandLine
