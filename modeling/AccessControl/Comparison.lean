import AccessControl.Fault
import AccessControl.Json.Equality

/-! How operators compare an operand with a value, and what `not` may wrap. -/
namespace AccessControl

def wildcard : String := "*"

/-- Equality on the operand's side; the wildcard on the value's side matches anything. -/
def agrees (operand value : Json) : Bool :=
  value.string? == some wildcard || operand.sameValue value

def contains (list operand : Json) : Except Fault Bool :=
  match list with
  | .array items => .ok (items.any fun item => item.sameValue operand)
  | .null => .ok false
  | got => .error (.typeMismatch (.notAList got))

def operatorPair? : Json → Option (String × Json)
  | .object [pair] => some pair
  | _ => none

def negatedOperator (name : String) : Except Fault Operator :=
  match Operator.ofName? name, Aggregator.ofName? name with
  | some operator, _ => .ok operator
  | none, some aggregator => .error (.unsupportedNesting none aggregator)
  | none, none => .error (.unknownOperator name Operator.not.name)

def nestedOperator (value : Json) : Except Fault (Option (Operator × Json)) :=
  if value.isObject then
    match operatorPair? value with
    | some (name, inner) => do return some (← negatedOperator name, inner)
    | none => .error (.malformed (.negationNotASinglePair none value))
  else .ok none

theorem nestedOperator_of_not_isObject {value : Json} (plain : value.isObject = false) :
    nestedOperator value = .ok none := by
  simp [nestedOperator, plain]

theorem nestedOperator_of_negatedOperator {name : String} {operator : Operator}
    (named : negatedOperator name = .ok operator) (inner : Json) :
    nestedOperator (.object [(name, inner)]) = .ok (some (operator, inner)) := by
  simp only [nestedOperator, operatorPair?, Json.isObject, named]
  rfl

/-- Numbers are compared by their view. The operand is looked at first. -/
def compareNumbers (operator : Operator) (test : Int → Int → Bool) (operand value : Json) :
    Except Fault Bool :=
  match operand.number?, value.number? with
  | some x, some y => .ok (test x.key y.key)
  | none, _ => .error (.typeMismatch (.operandNotANumber operator operand))
  | some _, none => .error (.typeMismatch (.valueNotANumber operator value))

/-- The operator between an attribute and a value. A negated operator is applied to the value
inside, at every depth. -/
def Operator.apply : Operator → Json → Json → Except Fault Bool
  | .eq, operand, value => .ok (agrees operand value)
  | .lt, operand, value => compareNumbers .lt (fun x y => x < y) operand value
  | .gt, operand, value => compareNumbers .gt (fun x y => y < x) operand value
  | .not, operand, .object [(name, inner)] => do
    let operator ← negatedOperator name
    return !(← operator.apply operand inner)
  | .not, _, .object members => .error (.malformed (.negationNotASinglePair none (.object members)))
  | .not, operand, value => .ok !operand.sameValue value
termination_by structural _ _ value => value

theorem Operator.apply_not (operand value : Json) :
    Operator.not.apply operand value = (do
      match ← nestedOperator value with
      | some (operator, inner) => return !(← operator.apply operand inner)
      | none => return !operand.sameValue value) := by
  match value with
  | .object [(name, inner)] =>
    simp only [Operator.apply, nestedOperator, operatorPair?, Json.isObject]
    cases negatedOperator name <;> rfl
  | .object [] | .object (_ :: _ :: _) => rfl
  | .null | .bool _ | .number _ | .string _ | .array _ => rfl

theorem Operator.apply_not_of_not_isObject {value : Json} (plain : value.isObject = false)
    (operand : Json) : Operator.not.apply operand value = .ok !operand.sameValue value := by
  rw [apply_not, nestedOperator_of_not_isObject plain]
  rfl

theorem Operator.apply_not_of_negatedOperator {name : String} {operator : Operator}
    (named : negatedOperator name = .ok operator) (operand inner : Json) :
    Operator.not.apply operand (.object [(name, inner)]) =
      (do return !(← operator.apply operand inner)) := by
  rw [apply_not, nestedOperator_of_negatedOperator named]
  rfl

end AccessControl
