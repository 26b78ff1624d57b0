import AccessControl.Evaluation
import AccessControl.Record
import AccessControl.Rule

/-! Deciding requests. A guard knows a rulebook, the attributes of subject and context, and the
resolution where no rule passes. -/
namespace AccessControl

structure Decision where
  mask : List String
  filter : Option Filter
  result : Resolution

structure Outcome where
  allowed : Bool
  decision : Option Decision

def Outcome.mask (outcome : Outcome) : List String := (outcome.decision.map Decision.mask).getD []

structure Guard where
  attributes : Attributes
  rulebook : Rulebook
  fallback : Resolution

def anyKey : String := "*"

/-- The key that stands for all actions with the same part before the first underscore. -/
def familyKey (action : String) : String :=
  String.ofList (action.toList.takeWhile (· ≠ '_')) ++ "_*"

def searchOrder (resource action : String) : List (String × String) :=
  [(resource, action), (resource, familyKey action), (resource, anyKey),
    (anyKey, action), (anyKey, familyKey action), (anyKey, anyKey)]

def Rulebook.candidates (book : Rulebook) (resource action : String) : List Rule :=
  (searchOrder resource action).flatMap fun key => (book.get? key.1 key.2).getD []

def Rule.evaluate (attributes : Attributes) (rule : Rule) : Except Fault (Bool × Decision) := do
  let residue ← Condition.evaluate attributes rule.condition
  return (residue.passed, ⟨rule.mask, Filter.bundle .all residue.filters, rule.result⟩)

/-- The decision of the first rule that passes. Rules behind it are not evaluated. -/
def firstDecision (attributes : Attributes) : List Rule → Except Fault (Option Decision)
  | [] => .ok none
  | rule :: rest => do
    let (passed, decision) ← rule.evaluate attributes
    if passed then return some decision else firstDecision attributes rest

namespace Decision

def toJson (decision : Decision) : Json :=
  .object [("mask", .array (decision.mask.map .string)),
    ("filter", (decision.filter.map Filter.toJson).getD .null),
    ("result", .string decision.result.name)]

/-- Whether the filter of a decision holds of a record. A filter that cannot be matched does not
hold. -/
def covers (decision : Decision) (record : Record) : Bool :=
  match decision.filter with
  | some filter =>
    match filter.holds (record.project filter.attributes) with
    | .ok held => held
    | .error _ => false
  | none => true

end Decision

namespace Guard

def check (guard : Guard) (resource action : String) : Except Fault Outcome := do
  match ← firstDecision guard.attributes (guard.rulebook.candidates resource action) with
  | some decision => return ⟨decision.result.allows, some decision⟩
  | none => return ⟨guard.fallback.allows, none⟩

/-- Where the decision does not cover the record, the fallback applies and the decision is still
told. -/
def checkRecord (guard : Guard) (record : Record) (action : String) : Except Fault Outcome := do
  let outcome ← guard.check record.type.name action
  match outcome.decision with
  | some decision =>
    if decision.covers record then return outcome
    else return ⟨guard.fallback.allows, some decision⟩
  | none => return outcome

end Guard
end AccessControl
