import AccessControl.Settings
import AccessControl.Settings.File
import AccessControl.Settings.Key

/-! Settings from several layers: the initial ones, a file, and environment variables. A later layer
wins, tables are merged, and only what remains in the end is checked. -/
namespace AccessControl
namespace Layer

mutual

/-- Sets a member of a table; what is no table yet becomes one. A table is merged into the one
that is there, member by member. -/
def assign (key : String) (root : Datum) : Datum → Datum
  | .table members =>
    let inner := (root.get? key).getD (.table [])
    .table (Keyed.insert key (assignAll inner members) root.members)
  | value => .table (Keyed.insert key value root.members)

def assignAll (root : Datum) : List (String × Datum) → Datum
  | [] => root
  | (key, value) :: rest => assignAll (assign (foldCase key) root value) rest

end

/-- Where in a list a position is; before its front there is nothing. -/
def index (position : Int) (length : Nat) : Nat :=
  if position < 0 then length - position.natAbs else position.natAbs

/-- Sets what a key leads to. A name makes a table of what is none, a position a list that is long
enough. -/
def assignSteps (value : Datum) : List KeyStep → Datum → Datum
  | [], _ => value
  | [.name key], root => assign key root value
  | .name key :: rest, root =>
    let inner := (root.get? key).getD .other
    .table (Keyed.insert key (assignSteps value rest inner) root.members)
  | .item position :: rest, root =>
    let items := root.items
    let i := index position items.length
    let items := items ++ List.replicate (i + 1 - items.length) .other
    .list (items.modify i (assignSteps value rest))

def apply (root : Datum) (members : List (String × Datum)) : Datum :=
  members.foldl (fun root member => assignSteps member.2 (keySteps member.1) root) root

end Layer

def variableHead : String := "gatekeeper__"

def dotted : List Char → List Char
  | '_' :: '_' :: rest => '.' :: dotted rest
  | c :: rest => c :: dotted rest
  | [] => []

def variableKey? (name : String) : Option String :=
  let folded := foldCase name
  if variableHead.toList.isPrefixOf folded.toList then
    some (String.ofList (dotted (folded.toList.drop variableHead.length)))
  else none

namespace Settings

def tableKey : String := "engine"

/-- The choice that a datum names without case, also as the only key of a table. -/
def chosen? {α : Type} (ofName? : String → Option α) : Datum → Option α
  | .text name => ofName? (foldCase name)
  | .table [(name, _)] => ofName? (foldCase name)
  | _ => none

def fieldsOf? : Datum → Option (Option Datum × Option Datum)
  | .table members => some (Keyed.get? fallbackKey members, Keyed.get? operatorsKey members)
  | .list items => some (items[0]?, items[1]?)
  | _ => none

def ofLayers? (root : Datum) : Option Settings := do
  let (fallback, operators) ← fieldsOf? (← root.get? tableKey)
  return ⟨← choose (chosen? Resolution.ofName?) initial.fallback fallback,
    ← choose (chosen? OperatorPolicy.ofName?) initial.operators operators⟩

def load? (file : Option SettingsFile) (environment : List (String × String)) : Option Settings := do
  let fromFile ← match file with
    | some file => file.members?
    | none => some []
  let fromVariables := environment.filterMap fun entry =>
    (variableKey? entry.1).map fun key => (key, Datum.text entry.2)
  let root := Datum.table [(tableKey, .ofJson initial.toJson)]
  ofLayers? (Layer.apply (Layer.apply root fromFile) fromVariables)

end Settings
end AccessControl
