/-! The arguments of the command line. Options are read from left to right; the first that is wrong,
or that asks for help, settles the reading. -/
namespace AccessControl.CommandLine

inductive Argument where
  | help
  | version
  | option (name : String) (attached : Option String)
  | positional (text : String)
  /-- No argument behind this one is an option. -/
  | endOfOptions
  | unknown

namespace Argument

def configOption : String := "config"

/-- The value that is attached to a short option, behind an optional equals sign. -/
def attachedToShort : List Char → Option String
  | [] => none
  | '=' :: value => some (String.ofList value)
  | value => some (String.ofList value)

def ofText (text : String) : Argument :=
  match text.toList with
  | ['-', '-'] => .endOfOptions
  | '-' :: '-' :: long =>
    let name := String.ofList (long.takeWhile (· ≠ '='))
    match long.dropWhile (· ≠ '=') with
    | _ :: value => .option name (some (String.ofList value))
    | [] =>
      if name = "help" then .help
      else if name = "version" then .version
      else .option name none
  | '-' :: 'h' :: _ => .help
  | '-' :: 'V' :: _ => .version
  | '-' :: 'c' :: rest => .option configOption (attachedToShort rest)
  | '-' :: _ :: _ => .unknown
  | _ => .positional text

/-- Whether an argument may be the value of the option before it. A lone hyphen may. -/
def isValue (text : String) : Bool :=
  match ofText text with
  | .positional _ => true
  | _ => false

end Argument

inductive Stop where
  | help
  | version
  | usage

structure OptionSpec where
  name : String
  isPath : Bool

abbrev Found := List (String × String)

def found? (name : String) (found : Found) : Option String := found.lookup name

/-- Takes down a value. No option may be given twice. -/
def OptionSpec.store (spec : OptionSpec) (value : String) (found : Found) : Except Stop Found :=
  if (found? spec.name found).isSome || (spec.isPath && value.isEmpty) then .error .usage
  else .ok ((spec.name, value) :: found)

def readOptions (specs : List OptionSpec) (atTop : Bool) :
    List String → Found → Except Stop (Found × List String)
  | [], found => .ok (found, [])
  | text :: rest, found =>
    match Argument.ofText text with
    | .help => .error .help
    | .version => .error (if atTop then .version else .usage)
    | .positional _ => .ok (found, text :: rest)
    | .endOfOptions => if rest.isEmpty then .ok (found, []) else .error .usage
    | .unknown => .error .usage
    | .option name attached =>
      match specs.find? fun spec => spec.name = name, attached, rest with
      | none, _, _ => .error .usage
      | some spec, some value, rest => do
        readOptions specs atTop rest (← spec.store value found)
      | some spec, none, value :: rest =>
        if Argument.isValue value then do
          readOptions specs atTop rest (← spec.store value found)
        else .error .usage
      | some _, none, [] => .error .usage

structure Request where
  rules : String
  subject : String
  context : Option String
  action : String

inductive Command where
  | check (request : Request) (resource : String)
  | mask (request : Request) (schema record object : String)

structure Invocation where
  config : String
  command : Command

def Request.files (request : Request) : List String :=
  request.rules :: request.subject :: request.context.toList

def Invocation.files (invocation : Invocation) : List String :=
  invocation.config :: match invocation.command with
    | .check request _ => request.files
    | .mask request schema record _ => request.files ++ [schema, record]

def configSpec : OptionSpec := ⟨Argument.configOption, false⟩

def requestSpecs : List OptionSpec :=
  [⟨"rules", true⟩, ⟨"subject", true⟩, ⟨"context", true⟩, ⟨"action", false⟩]

def checkSpecs : List OptionSpec := requestSpecs ++ [⟨"resource", false⟩]

def maskSpecs : List OptionSpec :=
  requestSpecs ++ [⟨"schema", true⟩, ⟨"record", true⟩, ⟨"object", false⟩]

def Request.ofFound? (found : Found) : Option Request := do
  return ⟨← found? "rules" found, ← found? "subject" found, found? "context" found,
    ← found? "action" found⟩

def Command.checkOfFound? (found : Found) : Option Command := do
  return .check (← Request.ofFound? found) (← found? "resource" found)

def Command.maskOfFound? (found : Found) : Option Command := do
  return .mask (← Request.ofFound? found) (← found? "schema" found) (← found? "record" found)
    (← found? "object" found)

def commandNames : List String := ["check", "mask", "help"]

def defaultConfig : String := "config.toml"

/-- The command with its options. The configuration may be named before the command too; the one
behind the command wins. -/
def readCommand (top : Found) (specs : List OptionSpec) (command? : Found → Option Command)
    (arguments : List String) : Except Stop Invocation := do
  let (found, rest) ← readOptions (configSpec :: specs) false arguments []
  if !rest.isEmpty then throw .usage
  let config := found? Argument.configOption (found ++ top)
  match command? found with
  | some command => return ⟨config.getD defaultConfig, command⟩
  | none => throw .usage

def readArguments (arguments : List String) : Except Stop Invocation := do
  let (top, rest) ← readOptions [configSpec] true arguments []
  match rest with
  | "check" :: rest => readCommand top checkSpecs Command.checkOfFound? rest
  | "mask" :: rest => readCommand top maskSpecs Command.maskOfFound? rest
  | ["help"] => throw .help
  | ["help", name] => throw (if commandNames.contains name then .help else .usage)
  | _ => throw .usage

end AccessControl.CommandLine
