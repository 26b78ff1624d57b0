import AccessControl.Attributes
import AccessControl.Condition

/-! Evaluating conditions against known attributes. What depends on the record is left over as
filters; a residue holds of a record if it has passed and all of its filters hold. -/
namespace AccessControl

structure Residue where
  passed : Bool
  filters : List Filter

namespace Residue

def pass : Residue := ⟨true, []⟩

def fail : Residue := ⟨false, []⟩

def both (r s : Residue) : Residue := ⟨r.passed && s.passed, r.filters ++ s.filters⟩

def either (r s : Residue) : Residue := ⟨r.passed || s.passed, r.filters ++ s.filters⟩

def group (node : List Filter → Filter) (r : Residue) : Residue :=
  ⟨r.passed, (Filter.bundle node r.filters).toList⟩

end Residue

mutual

/-- Every entry is evaluated, also behind one that fails. -/
def Condition.evaluate (attributes : Attributes) : Condition → Except Fault Residue
  | [] => .ok .pass
  | entry :: rest => do
    let first ← Entry.evaluate attributes entry
    let others ← Condition.evaluate attributes rest
    return first.both others

def Entry.evaluate (attributes : Attributes) : Entry → Except Fault Residue
  | .compare operand operator value =>
    match attributes.operand operand with
    | .deferred path => do
      return ⟨true, [← Filter.leaf operator path (attributes.substitute value)]⟩
    | .known known => do return ⟨← operator.apply known (attributes.substitute value), []⟩
  | .oneOf operand values =>
    match attributes.operand operand with
    | .deferred path => .ok ⟨true, [.oneOf path (attributes.substitute values)]⟩
    | .known known => do return ⟨← contains (attributes.substitute values) known, []⟩
  | .all conditions => do return (← Condition.evaluateAll attributes conditions).group .all
  | .any conditions => do return (← Condition.evaluateAny attributes conditions).group .any
  | .unknown .. => .ok .pass

/-- Stops at the first condition that fails, and then leaves no filter. -/
def Condition.evaluateAll (attributes : Attributes) : List Condition → Except Fault Residue
  | [] => .ok .pass
  | condition :: rest => do
    let first ← Condition.evaluate attributes condition
    if first.passed then
      let others ← Condition.evaluateAll attributes rest
      return if others.passed then first.both others else .fail
    else return .fail

/-- Every condition is evaluated, and each leaves its filters, whether it passes or not. -/
def Condition.evaluateAny (attributes : Attributes) : List Condition → Except Fault Residue
  | [] => .ok .fail
  | condition :: rest => do
    let first ← Condition.evaluate attributes condition
    let others ← Condition.evaluateAny attributes rest
    return first.either others

end

end AccessControl
