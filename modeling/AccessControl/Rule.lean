import AccessControl.Condition.Document

/-! Rules and rulebooks. A rulebook lists rules under a resource and an action, in the order of its
document; wildcards are keys like any other. -/
namespace AccessControl

inductive Resolution where
  | allow | deny
deriving DecidableEq

namespace Resolution

def name : Resolution → String
  | allow => "allow"
  | deny => "deny"

def ofName? : String → Option Resolution
  | "allow" => some allow
  | "deny" => some deny
  | _ => none

def ofText (text : String) : Except Fault Resolution :=
  (ofName? text).elim (.error (.invalidResolution text)) .ok

def allows : Resolution → Bool
  | allow => true
  | deny => false

end Resolution

structure Rule where
  condition : Condition
  mask : List String
  result : Resolution

namespace Rule

/-- The entries of a mask; the first that is no string is the fault. -/
def maskOfItems (place : String) : List Json → Except Fault (List String)
  | [] => .ok []
  | .string path :: rest => do return path :: (← maskOfItems place rest)
  | got :: _ => .error (.malformed (.maskEntry place got))

def maskOfJson (place : String) : Option Json → Except Fault (List String)
  | none | some .null => .ok []
  | some (.array items) => maskOfItems place items
  | some got => .error (.malformed (.maskNotAList place got))

def resultOfJson (place : String) : Option Json → Except Fault Resolution
  | some (.string text) =>
    (Resolution.ofName? text).elim (.error (.malformed (.unknownResult place text))) .ok
  | _ => .error (.malformed (.missingResult place))

/-- The condition is read first, then the result and last the mask. -/
def ofJson (policy : OperatorPolicy) (place : String) : Json → Except Fault Rule
  | .object members => do
    let condition ← match Keyed.get? "rule" members with
      | some value => Condition.ofJson policy (memberPlace place "rule") value
      | none => .error (.malformed (.missingCondition place))
    let result ← resultOfJson place (Keyed.get? "result" members)
    let mask ← maskOfJson place (Keyed.get? "mask" members)
    return ⟨condition, mask, result⟩
  | got => .error (.malformed (.notAnObject place got))

def listOfItems (policy : OperatorPolicy) (place : String) (index : Nat) :
    List Json → Except Fault (List Rule)
  | [] => .ok []
  | item :: rest => do
    let rule ← ofJson policy (itemPlace place index) item
    return rule :: (← listOfItems policy place (index + 1) rest)

def listOfJson (policy : OperatorPolicy) (place : String) : Json → Except Fault (List Rule)
  | .array items => listOfItems policy place 0 items
  | _ => .error (.malformed (.notAList place))

end Rule

structure Rulebook where
  resources : List (String × List (String × List Rule))

namespace Rulebook

def empty : Rulebook := ⟨[]⟩

def actionsOfMembers (policy : OperatorPolicy) (resource : String) :
    List (String × Json) → Except Fault (List (String × List Rule))
  | [] => .ok []
  | (action, value) :: rest => do
    let rules ← Rule.listOfJson policy (memberPlace resource action) value
    return (action, rules) :: (← actionsOfMembers policy resource rest)

def resourcesOfMembers (policy : OperatorPolicy) :
    List (String × Json) → Except Fault (List (String × List (String × List Rule)))
  | [] => .ok []
  | (resource, value) :: rest => do
    let actions ← match value with
      | .object members => actionsOfMembers policy resource members
      | got => .error (.malformed (.notAnObject resource got))
    return (resource, actions) :: (← resourcesOfMembers policy rest)

def ofJson (policy : OperatorPolicy) : Json → Except Fault Rulebook
  | .object members => do return ⟨← resourcesOfMembers policy members⟩
  | got => .error (.malformed (.notAnObject "rule document" got))

/-- The rules under exactly this resource and action. -/
def get? (book : Rulebook) (resource action : String) : Option (List Rule) := do
  Keyed.get? action (← Keyed.get? resource book.resources)

def rules (book : Rulebook) : List Rule :=
  book.resources.flatMap fun resource => resource.2.flatMap Prod.snd

def ruleCount (book : Rulebook) : Nat := book.rules.length

end Rulebook
end AccessControl
