import AccessControl.CommandLine.Arguments
import AccessControl.Guard.Masking
import AccessControl.Schema.Document
import AccessControl.Schema.Lift
import AccessControl.Settings.Layers

/-! The command line: `check` decides an action on a resource, `mask` masks a record. A run is a
function of the arguments, the files and the environment. -/
namespace AccessControl.CommandLine

inductive Content where
  | text (s : String)
  /-- Something that is there, but is no text, such as a directory. -/
  | unreadable
  | absent

structure Surroundings where
  content : String → Content
  environment : List (String × String)

inductive Failure where
  | unreadable (path : String)
  | invalidJson (path : String)
  | invalidSettings
  | invalidSchema
  | fault (cause : Fault)

namespace Failure

/-- The stable identifier of a failure, where it has one. -/
def code? : Failure → Option String
  | unreadable _ => some "gatekeeper::io"
  | invalidJson _ => some "gatekeeper::json"
  | invalidSettings => some "gatekeeper::config"
  | invalidSchema => none
  | fault cause => some cause.code

def message : Failure → String
  | unreadable path => "I/O error on " ++ ticked path
  | invalidJson path => "Invalid JSON in " ++ ticked path
  | invalidSettings => "Config error"
  | invalidSchema => "Invalid schema"
  | fault cause => cause.message

end Failure

structure Report where
  exit : Nat
  output : String
  failure : Option Failure

def orFail {α : Type} (result : Except Fault α) : Except Failure α := result.mapError .fault

/-- A file of settings that is not there is no failure. -/
def loadSettings (s : Surroundings) (config : String) : Except Failure Settings :=
  let settings := match s.content config with
    | .text text => Settings.load? (some (.ofName config text)) s.environment
    | .absent => Settings.load? none s.environment
    | .unreadable => none
  settings.elim (.error .invalidSettings) .ok

def readJson (s : Surroundings) (path : String) : Except Failure Json :=
  match s.content path with
  | .text text => (Json.ofText? .file text).elim (.error (.invalidJson path)) .ok
  | _ => .error (.unreadable path)

/-- The rules are read and compiled before the attributes are read. -/
def guardOf (s : Surroundings) (settings : Settings) (request : Request) :
    Except Failure Guard := do
  let rulebook ← orFail (Rulebook.ofJson settings.operators (← readJson s request.rules))
  let subject ← readJson s request.subject
  let context ← match request.context with
    | some path => readJson s path
    | none => .ok .null
  return ⟨⟨subject, context⟩, rulebook, settings.fallback⟩

def answer (s : Surroundings) (invocation : Invocation) : Except Failure Json := do
  let settings ← loadSettings s invocation.config
  match invocation.command with
  | .check request resource =>
    let guard ← guardOf s settings request
    let outcome ← orFail (guard.check resource request.action)
    return .object [("allowed", .bool outcome.allowed),
      ("decision", (outcome.decision.map Decision.toJson).getD .null)]
  | .mask request schemaPath recordPath object =>
    let guard ← guardOf s settings request
    let schema ← (Schema.ofJson? (← readJson s schemaPath)).elim (.error .invalidSchema) .ok
    let record ← orFail (schema.record object (← readJson s recordPath))
    return maskedJson (← orFail (guard.mask request.action record))

def versionText : String := "gatekeeper 0.1.0\n"

def helpText : String :=
  "Attribute-based access control decisions\n\n"
    ++ "Usage: gatekeeper [-c <CONFIG>] check --rules <RULES> --subject <SUBJECT> "
    ++ "[--context <CONTEXT>] --action <ACTION> --resource <RESOURCE>\n"
    ++ "       gatekeeper [-c <CONFIG>] mask --rules <RULES> --subject <SUBJECT> "
    ++ "[--context <CONTEXT>] --action <ACTION> --schema <SCHEMA> --record <RECORD> "
    ++ "--object <OBJECT>\n"

def namedFiles (arguments : List String) : List String :=
  match readArguments arguments with
  | .ok invocation => invocation.files
  | .error _ => []

def run (s : Surroundings) (arguments : List String) : Report :=
  match readArguments arguments with
  | .error .help => ⟨0, helpText, none⟩
  | .error .version => ⟨0, versionText, none⟩
  | .error .usage => ⟨2, "", none⟩
  | .ok invocation =>
    match answer s invocation with
    | .ok value => ⟨0, value.pretty ++ "\n", none⟩
    | .error failure => ⟨1, "", some failure⟩

end AccessControl.CommandLine
