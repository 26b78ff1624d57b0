import AccessControl.Comparison
import AccessControl.Path

/-! Residual predicates over the attributes of a record: what is left of a condition once subject and
context are known. A filter is matched against plain data, or written as a query text. -/
namespace AccessControl

inductive Filter where
  | compare (operator : Operator) (operand : String) (value : Json)
  | oneOf (operand : String) (values : Json)
  | negate (inner : Filter)
  | all (children : List Filter)
  | any (children : List Filter)

/-- The attribute of a record that an operand names: first as a path, then as one flat key. A missing
attribute is `null`. -/
def attributeAt (data : Json) (operand : String) : Json :=
  ((data.getPath? (.ofText operand)) <|> data.get? operand).getD .null

namespace Filter

/-- One comparison. A negated operator becomes a negation around the comparison inside. -/
def leaf : Operator → String → Json → Except Fault Filter
  | .not, operand, .object [(name, inner)] => do
    let operator ← negatedOperator name
    return .negate (← leaf operator operand inner)
  | .not, _, .object members => .error (.malformed (.negationNotASinglePair none (.object members)))
  | operator, operand, value => .ok (.compare operator operand value)
termination_by structural _ _ value => value

def operatorName : Filter → String
  | compare operator _ _ => operator.name
  | oneOf .. => Aggregator.oneOf.name
  | negate _ => Operator.not.name
  | all _ => Aggregator.all.name
  | any _ => Aggregator.any.name

def operand : Filter → String
  | compare _ operand _ | oneOf operand _ => operand
  | _ => ""

def children : Filter → List Filter
  | all children | any children => children
  | _ => []

/-- Filters that must hold together as one filter; none if there is nothing to hold. -/
def bundle (node : List Filter → Filter) : List Filter → Option Filter
  | [] => none
  | filters => some (node filters)

mutual

/-- A conjunction stops at the first child that fails; a disjunction looks at every child. -/
def holds (data : Json) : Filter → Except Fault Bool
  | compare operator operand value => operator.apply (attributeAt data operand) value
  | oneOf operand values => contains values (attributeAt data operand)
  | negate inner => do return !(← holds data inner)
  | all children => allHold data children
  | any children => anyHolds data children

def allHold (data : Json) : List Filter → Except Fault Bool
  | [] => .ok true
  | child :: rest => do if ← holds data child then allHold data rest else return false

def anyHolds (data : Json) : List Filter → Except Fault Bool
  | [] => .ok false
  | child :: rest => do
    let first ← holds data child
    let others ← anyHolds data rest
    return first || others

end

mutual

def attributes : Filter → List String
  | compare _ operand _ | oneOf operand _ => [operand]
  | negate inner => inner.attributes
  | all children | any children => listAttributes children

def listAttributes : List Filter → List String
  | [] => []
  | child :: rest => child.attributes ++ listAttributes rest

end

mutual

def toJson : Filter → Json
  | compare operator operand value => node operator.name operand value
  | oneOf operand values => node Aggregator.oneOf.name operand values
  | negate inner => node Operator.not.name "" inner.toJson
  | all children => node Aggregator.all.name "" (.array (listToJson children))
  | any children => node Aggregator.any.name "" (.array (listToJson children))
where
  node (operator operand : String) (value : Json) : Json :=
    .object [("operator", .string operator), ("operand", .string operand), ("value", value)]

def listToJson : List Filter → List Json
  | [] => []
  | child :: rest => child.toJson :: listToJson rest

end

theorem listAttributes_append (fs gs : List Filter) :
    listAttributes (fs ++ gs) = listAttributes fs ++ listAttributes gs := by
  induction fs with
  | nil => rfl
  | cons f fs ih => simp [listAttributes, ih]

theorem listToJson_eq_map (fs : List Filter) : listToJson fs = fs.map toJson := by
  induction fs with
  | nil => rfl
  | cons f fs ih => simp [listToJson, ih]

end Filter
end AccessControl
