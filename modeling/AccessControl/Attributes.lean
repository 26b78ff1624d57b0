import AccessControl.Path

/-! The attributes that are known when a request is decided: those of the subject and those of its
context. A string such as `sbj.team` refers to one of them. -/
namespace AccessControl

inductive Bag where
  | subject | context
deriving DecidableEq

namespace Bag

def name : Bag → String
  | subject => "sbj"
  | context => "ctx"

def ofName? (name : String) : Option Bag :=
  if name = subject.name then some subject
  else if name = context.name then some context
  else none

end Bag

def Json.reference? (value : Json) : Option (Bag × String) := do
  let (head, path) ← Path.cut? (← value.string?)
  return (← Bag.ofName? head, path)

structure Attributes where
  subject : Json
  context : Json

namespace Attributes

def bag (attributes : Attributes) : Bag → Json
  | .subject => attributes.subject
  | .context => attributes.context

def resolve? (attributes : Attributes) (bag : Bag) (path : String) : Option Json :=
  (attributes.bag bag).getPath? (.ofText path)

/-- A reference stands for its attribute, or for `null` if that is missing. The attribute is not
resolved any further, and nothing inside of lists or objects is. -/
def substitute (attributes : Attributes) (value : Json) : Json :=
  match value.reference? with
  | some (bag, path) => (attributes.resolve? bag path).getD .null
  | none => value

end Attributes

inductive Operand where
  /-- An attribute of the record, which is not known yet. -/
  | deferred (path : String)
  | known (value : Json)

def recordHead : String := "obj"

/-- An operand without a known head stands for `null`, never for its own text. -/
def Attributes.operand (attributes : Attributes) (operand : String) : Operand :=
  match Path.cut? operand with
  | none => .known .null
  | some (head, path) =>
    if head = recordHead then .deferred path
    else match Bag.ofName? head with
      | some bag => .known ((attributes.resolve? bag path).getD .null)
      | none => .known .null

end AccessControl
