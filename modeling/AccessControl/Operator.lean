/-! The closed vocabulary of conditions: operators compare one attribute with one value,
aggregators work on a list of values or of conditions. -/
namespace AccessControl

inductive Operator where
  | eq | not | lt | gt
deriving DecidableEq

inductive Aggregator where
  | oneOf | all | any
deriving DecidableEq

namespace Operator

def ofName? : String → Option Operator
  | "eq" => some .eq
  | "not" => some .not
  | "lt" => some .lt
  | "gt" => some .gt
  | _ => none

def name : Operator → String
  | .eq => "eq"
  | .not => "not"
  | .lt => "lt"
  | .gt => "gt"

theorem ofName?_eq_some_iff {s : String} {op : Operator} : ofName? s = some op ↔ s = op.name := by
  constructor
  · intro h
    unfold ofName? at h
    split at h <;> cases h <;> rfl
  · rintro rfl
    cases op <;> rfl

end Operator

namespace Aggregator

def ofName? : String → Option Aggregator
  | "in" => some .oneOf
  | "and" => some .all
  | "or" => some .any
  | _ => none

def name : Aggregator → String
  | .oneOf => "in"
  | .all => "and"
  | .any => "or"

theorem ofName?_eq_some_iff {s : String} {agg : Aggregator} :
    ofName? s = some agg ↔ s = agg.name := by
  constructor
  · intro h
    unfold ofName? at h
    split at h <;> cases h <;> rfl
  · rintro rfl
    cases agg <;> rfl

end Aggregator
end AccessControl
