import AccessControl.CommandLine

/-! The program around `CommandLine.run`: it reads the files that the command line names and writes
the report. -/
namespace AccessControl.CommandLine

/-- The environment variables that hold settings. -/
def settingVariables : List String :=
  ["GATEKEEPER__ENGINE", "GATEKEEPER__ENGINE__DEFAULT_RESOLUTION",
    "GATEKEEPER__ENGINE__UNKNOWN_OPERATORS"]

def readContent (path : String) : IO Content := do
  try return .text (← IO.FS.readFile path)
  catch
    | .noFileOrDirectory .. => return .absent
    | _ => return .unreadable

def surroundings (arguments : List String) : IO Surroundings := do
  let contents ← (namedFiles arguments).mapM fun path => do return (path, ← readContent path)
  let environment ← settingVariables.filterMapM fun name => do
    return (← IO.getEnv name).map fun value => (name, value)
  return ⟨fun path => (contents.lookup path).getD .absent, environment⟩

end AccessControl.CommandLine

open AccessControl

def main (arguments : List String) : IO UInt32 := do
  let report := CommandLine.run (← CommandLine.surroundings arguments) arguments
  IO.print report.output
  match report.failure with
  | some failure => IO.eprintln failure.message
  | none => if report.exit = 2 then IO.eprint CommandLine.helpText
  return report.exit.toUInt32
