import AccessControl.Attributes
import AccessControl.Condition

/-! Reading conditions from documents. Each key of an object gives one entry; the shape of its value
decides which. Places only enter the texts of faults. -/
namespace AccessControl

def memberPlace (place key : String) : String := place ++ "." ++ key

def Condition.rootPlace : String := "rule"

def itemPlace (place : String) (index : Nat) : String :=
  place ++ "[" ++ String.ofList (Nat.toDigits 10 index) ++ "]"

/-- A number may be compared by `lt` and `gt`; so may a reference, but not under `not`, where it
would never be resolved. -/
def checkComparable (place : String) (nested : Bool) : Operator → Json → Except Fault Unit
  | .eq, _ => .ok ()
  | .not, .object [(name, inner)] => do
    let operator ← (negatedOperator name).mapError (Fault.locate place)
    checkComparable place true operator inner
  | .not, .object members =>
    .error (.malformed (.negationNotASinglePair (some place) (.object members)))
  | .not, _ => .ok ()
  | operator, value =>
    if value.number?.isSome || (!nested && value.reference?.isSome) then .ok ()
    else .error (.malformed (.notComparable place operator nested value))
termination_by structural _ value => value

namespace Entry

def unknownUnder (policy : OperatorPolicy) (place operand operator : String) (value : Json) :
    Except Fault Entry :=
  match policy with
  | .strict => .error (.unknownOperator operator place)
  | .permissive => .ok (.unknown operand operator value)

def ofPair (policy : OperatorPolicy) (place operand operator : String) (value : Json) :
    Except Fault Entry :=
  match Operator.ofName? operator, Aggregator.ofName? operator, value with
  | some operator, _, value => do
    checkComparable place false operator value
    return .compare operand operator value
  | none, some .oneOf, .array items => .ok (.oneOf operand (.array items))
  | none, some .oneOf, value =>
    if value.reference?.isSome then .ok (.oneOf operand value)
    else .error (.malformed (.notAMembershipList place value))
  | none, some aggregator, _ => .error (.malformed (.groupAsOperator place aggregator))
  | none, none, value => unknownUnder policy place operand operator value

end Entry

mutual

def Condition.ofJson (policy : OperatorPolicy) (place : String) : Json → Except Fault Condition
  | .object members => Condition.ofMembers policy place members
  | got => .error (.malformed (.notAnObject place got))

def Condition.ofMembers (policy : OperatorPolicy) (place : String) :
    List (String × Json) → Except Fault Condition
  | [] => .ok []
  | (key, value) :: rest => do
    let entry ← Entry.ofMember policy (memberPlace place key) key value
    return entry :: (← Condition.ofMembers policy place rest)

/-- A list belongs to the group that its key names. An object pairs an operator with a value, and
anything else is compared as it stands. -/
def Entry.ofMember (policy : OperatorPolicy) (place key : String) : Json → Except Fault Entry
  | .array items =>
    match Aggregator.ofName? key with
    | some .all => do return .all (← Condition.ofItems policy place 0 items)
    | some .any => do return .any (← Condition.ofItems policy place 0 items)
    | some .oneOf => .ok (.oneOf key (.array items))
    | none => Entry.unknownUnder policy place key key (.array items)
  | .object members =>
    match operatorPair? (.object members) with
    | some (operator, value) => Entry.ofPair policy place key operator value
    | none => .error (.malformed (.notASinglePair place (.object members)))
  | value =>
    match Aggregator.ofName? key with
    | some .all | some .any => .error (.malformed (.groupNotAList place value))
    | _ => .ok (.compare key .eq value)

def Condition.ofItems (policy : OperatorPolicy) (place : String) (index : Nat) :
    List Json → Except Fault (List Condition)
  | [] => .ok []
  | item :: rest => do
    let condition ← Condition.ofJson policy (itemPlace place index) item
    return condition :: (← Condition.ofItems policy place (index + 1) rest)

end

end AccessControl
