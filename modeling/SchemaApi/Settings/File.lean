import SchemaApi.Data.Yaml.Reader
import SchemaApi.Settings
/-!
Settings from a file: JSON or YAML, told apart by the ending of its name.
-/

namespace SchemaApi

/-- why no settings can be read from a path -/
inductive SettingsFileError where
  | missing
  | notFile
  /-- the bytes of the file are no text -/
  | notText
  | invalidJson
  | invalidYaml
  | content (e : SettingsError)
  deriving DecidableEq, Repr

namespace SettingsFileError

/-- what is said about an error, without the path -/
def message : SettingsFileError → String
  | missing => "Config file not found"
  | notFile => "Config path is not a file"
  | notText => "Config file is not text"
  | invalidJson => "Invalid JSON"
  | invalidYaml => "Invalid YAML"
  | content e => e.message

end SettingsFileError

/-- the ending of a file name, from its last point; a point at either end of the name makes none -/
def fileEnding (name : String) : String :=
  let back := name.toList.reverse
  let ending := back.takeWhile (· ≠ '.')
  if ending.isEmpty || back.length ≤ ending.length + 1 then ""
  else String.ofList ('.' :: ending.reverse)

namespace Settings

/-- settings from the text of a file of a name -/
def ofText (name text : String) : Except SettingsFileError Settings :=
  let isJson := (fileEnding name).toLower = ".json"
  match if isJson then Json.parse? text else Yaml.parse? text with
  | some v => (ofValue v).mapError .content
  | none => .error (if isJson then .invalidJson else .invalidYaml)

end Settings

end SchemaApi
