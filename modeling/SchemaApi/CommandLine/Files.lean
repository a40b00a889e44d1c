import SchemaApi.Data.Value
/-!
Files: the paths that lead to them, what is read from them and what is left behind.
-/

namespace SchemaApi.CommandLine

/-- a path from the current directory, or from the root -/
structure Path where
  /-- the slashes in front -/
  root : String := ""
  parts : List String
  deriving DecidableEq, Repr

namespace Path

/-- the path that a text spells, without empty steps and steps on the spot -/
def ofText (text : String) : Path :=
  let slashes := (text.toList.takeWhile (· = '/')).length
  { root := if slashes = 0 then "" else if slashes = 2 then "//" else "/"
    parts := (text.splitOn "/").filter fun part => part ≠ "" && part ≠ "." }

def text (p : Path) : String :=
  let steps := p.root ++ "/".intercalate p.parts
  if steps = "" then "." else steps

/-- the last step -/
def name (p : Path) : String := (p.parts.getLast?).getD ""

/-- the steps from the current directory down, without steps back -/
def steps (p : Path) : List String :=
  p.parts.foldl (fun down part => if part = ".." then down.dropLast else down ++ [part]) []

end Path

/-- what stands at a path -/
inductive Reading where
  | missing
  | directory
  | file (bytes : ByteArray)

/-- Line breaks of all kinds become line feeds. -/
def unifyLineBreaks : List Char → List Char
  | [] => []
  | '\r' :: '\n' :: rest => '\n' :: unifyLineBreaks rest
  | '\r' :: rest => '\n' :: unifyLineBreaks rest
  | c :: rest => c :: unifyLineBreaks rest

namespace Reading

/-- the text of a file -/
def text? : Reading → Option String
  | file bytes =>
    (String.fromUTF8? bytes).map fun s => String.ofList (unifyLineBreaks s.toList)
  | _ => none

/-- the text of a script; a byte order mark in front does not belong to it -/
def script? (r : Reading) : Option String :=
  r.text?.map fun s =>
    if s.toList.head?.any (·.toNat = 0xFEFF) then String.ofList (s.toList.drop 1) else s

end Reading

/-- files and directories below the current directory, by their steps -/
structure Files where
  files : List (List String × ByteArray) := []
  directories : List (List String) := []

namespace Files

/-- some file or directory stands at these steps or below -/
def isDirectory (fs : Files) (steps : List String) : Bool :=
  steps.isEmpty || fs.directories.any (steps.isPrefixOf ·)
    || fs.files.any fun f => steps.isPrefixOf f.1 && f.1 != steps

def read (fs : Files) (p : Path) : Reading :=
  if p.root ≠ "" then .missing
  else
    match fs.files.lookup p.steps with
    | some bytes => .file bytes
    | none => if fs.isDirectory p.steps then .directory else .missing

/-- the ways to the directories of a file -/
def above (steps : List String) : List (List String) :=
  (List.range steps.length).map fun n => steps.take n

/-- puts a file at a path and makes its directories, unless something else is in the way -/
def write? (fs : Files) (p : Path) (bytes : ByteArray) : Option Files :=
  let steps := p.steps
  if p.root ≠ "" || fs.isDirectory steps || (above steps).any fun d => fs.files.any (·.1 == d)
  then none
  else some { fs with files := (steps, bytes) :: fs.files.filter (·.1 != steps) }

end Files

end SchemaApi.CommandLine
