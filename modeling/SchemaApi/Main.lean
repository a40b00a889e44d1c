import SchemaApi.CommandLine.Execution
/-!
The command: it reads what stands at the paths on its command line, and then does what the plan for
that command line says.
-/

namespace SchemaApi.CommandLine

/-- what stands at a path on disk; a directory reads as nothing -/
def readDisk (name : String) : IO Reading := do
  try
    return .file (← IO.FS.readBinFile name)
  catch _ => return .missing

/-- the paths that a command line reads from -/
def neededPaths (args : List String) : List Path :=
  match request args with
  | .run o => (o.config.toList ++ o.inputs.filter (· ≠ stdinName)).map .ofText
  | _ => []

/-- the command line reads standard input -/
def needsStdin (args : List String) : Bool :=
  match request args with
  | .run o => o.inputs.contains stdinName
  | _ => false

/-- writes a file by way of another one beside it; false if that does not work -/
def writeDisk (path : Path) (artifact : Artifact) : IO Bool := do
  try
    let parent : Path := { path with parts := path.parts.dropLast }
    IO.FS.createDirAll parent.text
    let draft := path.text ++ ".tmp"
    IO.FS.writeBinFile draft artifact.render.toUTF8
    IO.FS.rename draft path.text
    return true
  catch _ => return false

/-- shows how a command ended -/
def report (outcome : Outcome) : IO UInt32 := do
  let stdout ← IO.getStdout
  let stderr ← IO.getStderr
  for line in outcome.log do
    stderr.putStrLn ("error: " ++ line)
  for line in outcome.lines do
    stderr.putStrLn line
  stdout.putStr outcome.shown.render
  stdout.flush
  return outcome.exit.toUInt32

end SchemaApi.CommandLine

open SchemaApi SchemaApi.CommandLine in
def main (args : List String) : IO UInt32 := do
  let readings ← (neededPaths args).mapM fun path => do
    return (path, ← readDisk path.text)
  let stdin ← if needsStdin args then (← IO.getStdin).readToEnd else pure ""
  let read (path : Path) : Reading := (readings.lookup path).getD .missing
  match planOf args read stdin with
  | .error _ =>
    (← IO.getStderr).putStrLn "error: a name or a number of the script cannot be used"
    return 1
  | .ok (.finish outcome) => do
    if request args = .misuse then (← IO.getStderr).putStr usageText
    report outcome
  | .ok (.write name artifact written refused) => do
    report (if ← writeDisk (.ofText name) artifact then written else refused)
