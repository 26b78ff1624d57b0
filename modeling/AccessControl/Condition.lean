import AccessControl.Filter

/-! Conditions of rules: conjunctions of entries in the order of the document. -/
namespace AccessControl

inductive Entry where
  | compare (operand : String) (operator : Operator) (value : Json)
  | oneOf (operand : String) (values : Json)
  | all (conditions : List (List Entry))
  | any (conditions : List (List Entry))
  | unknown (operand operator : String) (value : Json)

abbrev Condition := List Entry

/-- Whether operators outside of the vocabulary are refused, or kept as entries that pass. -/
inductive OperatorPolicy where
  | strict | permissive
deriving DecidableEq

namespace OperatorPolicy

def name : OperatorPolicy → String
  | strict => "strict"
  | permissive => "permissive"

def ofName? : String → Option OperatorPolicy
  | "strict" => some strict
  | "permissive" => some permissive
  | _ => none

end OperatorPolicy
end AccessControl
