import AccessControl.Ini
import AccessControl.Json.Reader
import AccessControl.Json5.Reader
import AccessControl.Ron.Reader
import AccessControl.Toml.Reader
import AccessControl.Yaml.Reader

/-! Files of settings. The ending of its name tells how a file is written. -/
namespace AccessControl

inductive SettingsFormat where
  | toml | json | json5 | yaml | ini | ron
deriving DecidableEq

namespace SettingsFormat

def ofEnding? : String → Option SettingsFormat
  | "toml" => some toml
  | "json" => some json
  | "json5" => some json5
  | "yaml" | "yml" => some yaml
  | "ini" => some ini
  | "ron" => some ron
  | _ => none

/-- The ending is what follows the last dot of the name behind the last slash, unless the name
begins with that dot. -/
def ofName? (name : String) : Option SettingsFormat :=
  let base := name.toList.reverse.takeWhile (· ≠ '/')
  let stem := (base.dropWhile (· ≠ '.')).drop 1
  if stem.isEmpty then none else ofEnding? (String.ofList (base.takeWhile (· ≠ '.')).reverse)

def read? : SettingsFormat → String → Option Datum
  | toml, text => Toml.ofText? text
  | json, text => (Json.ofText? .file text).map Datum.ofJson
  | json5, text => (Json5.ofText? text).map Datum.ofJson
  | yaml, text => Yaml.ofText? text
  | ini, text => Ini.ofText? text
  | ron, text => Ron.ofText? text

end SettingsFormat

structure SettingsFile where
  format : Option SettingsFormat
  text : String

namespace SettingsFile

def ofName (name text : String) : SettingsFile := ⟨SettingsFormat.ofName? name, text⟩

def members? (file : SettingsFile) : Option (List (String × Datum)) := do
  (← (← file.format).read? file.text).table?

end SettingsFile
end AccessControl
