import SchemaApi.Text.Case
/-!
Names for paths and resources: kebab case, and the plural and singular of English nouns.

A word of a name is a run of small letters with at most one capital in front, a run of capitals (the
last of which belongs to the next word when a small letter follows it), or a run of digits. Nothing
but ASCII letters and digits is part of a word.
-/

namespace SchemaApi.Naming

open Text

/-! ## Words -/

def isSmall (c : Char) : Bool := c.isLower

def isCapital (c : Char) : Bool := c.isUpper

/-- the length of the longest beginning of one class -/
def run (p : Char → Bool) (cs : List Char) : Nat := (cs.takeWhile p).length

/-- the length of the word that begins with a character, zero when none does -/
def wordLength (c : Char) (rest : List Char) : Nat :=
  if isSmall c then 1 + run isSmall rest
  else if isCapital c then
    let small := run isSmall rest
    if 0 < small then 1 + small
    else
      let capitals := run isCapital rest
      if ((rest.drop capitals).head?.map isSmall).getD false then capitals else 1 + capitals
  else if c.isDigit then 1 + run Char.isDigit rest
  else 0

/-- The words of a name, as written. The first argument counts the characters that still belong to
the word before. -/
def wordsFrom : Nat → List Char → List (List Char)
  | _, [] => []
  | skip + 1, _ :: rest => wordsFrom skip rest
  | 0, c :: rest =>
    match wordLength c rest with
    | 0 => wordsFrom 0 rest
    | size + 1 => (c :: rest).take (size + 1) :: wordsFrom size rest

/-- the words of a name, in small letters -/
def words (name : String) : List String :=
  (wordsFrom 0 name.toList).map fun word => String.ofList (word.map Char.toLower)

/-- the words of a name, joined by hyphens -/
def kebab (name : String) : String := "-".intercalate (words name)

/-! ## Plural and singular -/

/-- nouns with a plural of their own -/
def irregular : List (String × String) := [
  ("person", "people"), ("child", "children"), ("man", "men"), ("woman", "women"),
  ("mouse", "mice"), ("datum", "data"), ("index", "indices"), ("matrix", "matrices"),
  ("vertex", "vertices"), ("axis", "axes"), ("analysis", "analyses"), ("status", "statuses"),
  ("address", "addresses"), ("category", "categories")]

/-- nouns without a plural -/
def uncountable : List String :=
  ["news", "series", "species", "metadata", "equipment", "information"]

def irregularPlural? (noun : String) : Option String := irregular.lookup noun

def irregularSingular? (noun : String) : Option String :=
  (irregular.find? fun entry => entry.2 == noun).map (·.1)

/-- the characters before and in the last word, which ends the name or stands before one final line
feed -/
def splitLast (name : List Char) : List Char × List Char :=
  let reversed :=
    match name.reverse with
    | '\n' :: before => before
    | all => all
  let word := (reversed.takeWhile Char.isAlpha).reverse
  ((reversed.dropWhile Char.isAlpha).reverse, word)

/-- the replacement begins with a capital if the pattern does -/
def withCaseOf (pattern replacement : List Char) : List Char :=
  if (pattern.head?.map Char.isUpper).getD false then
    match replacement with
    | c :: rest => c.toUpper :: rest
    | [] => []
  else replacement

/-- the text ends in one of the endings -/
def endsIn (text : List Char) (endings : List String) : Bool :=
  endings.any fun ending => ending.toList.isSuffixOf text

/-- a noun in small letters that looks like a regular plural -/
def looksPlural (noun : List Char) : Bool :=
  endsIn noun ["s"] && !endsIn noun ["ss", "us", "is"]

/-- the ending of a regular noun is replaced: how many characters go, and what comes -/
def pluralEnding (noun : List Char) : Nat × String :=
  if endsIn noun ["sh", "ch", "x", "z", "ss", "us"] then (0, "es")
  else if endsIn noun ["y"] ∧ 1 < noun.length ∧
      !endsIn noun.dropLast ["a", "e", "i", "o", "u"] then (1, "ies")
  else if endsIn noun ["fe"] then (2, "ves")
  else if endsIn noun ["f"] ∧ !endsIn noun ["ff"] then (1, "ves")
  else (0, "s")

def singularEnding (noun : List Char) : Nat × String :=
  if endsIn noun ["ies"] ∧ 3 < noun.length then (3, "y")
  else if endsIn noun ["ves"] ∧ 3 < noun.length then (3, "f")
  else if endsIn noun ["sses", "shes", "ches", "xes", "zes"] then (2, "")
  else if looksPlural noun then (1, "")
  else (0, "")

/-- drops characters from the end of a text and puts an ending there -/
def replaceEnding (name : String) (ending : Nat × String) : String :=
  String.ofList (name.toList.take (name.length - ending.1)) ++ ending.2

/-- the name with its last word in the plural -/
def plural (name : String) : String :=
  let (head, word) := splitLast name.toList
  let noun := word.map Char.toLower
  let key := String.ofList noun
  if word.isEmpty then name
  else if uncountable.contains key || (irregularSingular? key).isSome then name
  else
    match irregularPlural? key with
    | some other => String.ofList (head ++ withCaseOf word other.toList)
    | none => if looksPlural noun then name else replaceEnding name (pluralEnding noun)

/-- the name with its last word in the singular -/
def singular (name : String) : String :=
  let (head, word) := splitLast name.toList
  let noun := word.map Char.toLower
  let key := String.ofList noun
  if word.isEmpty then name
  else if uncountable.contains key || (irregularPlural? key).isSome then name
  else
    match irregularSingular? key with
    | some other => String.ofList (head ++ withCaseOf word other.toList)
    | none => replaceEnding name (singularEnding noun)

end SchemaApi.Naming
