import AccessControl.Fault
import AccessControl.Record

/-! Lifting plain data into records. Where a field is declared as a link and its value has the right
shape, the value becomes a nested record or a list of them; all else stays plain. -/
namespace AccessControl

/-- The key under which a value names its own object type. -/
def genericObjectKey : String := "_object"

def Field.target? (field : Field) (members : List (String × Json)) : Option String :=
  match field.type with
  | .object => field.link
  | .generic => (Keyed.get? genericObjectKey members).bind Json.string?
  | _ => none

/-- The object type that the items of a list value of the field become instances of. -/
def Field.itemTarget? (field : Field) (items : List Json) : Option String :=
  match field.type with
  | .array => if items.all Json.isObject then field.link else none
  | _ => none

namespace Schema

def instantiate (schema : Schema) (name : String)
    (fields : ObjectType → Except Fault (List (String × Slot Record))) : Except Fault Record :=
  match schema.object? name with
  | some type => do return ⟨type, Keyed.ofList (← fields type)⟩
  | none => .error (.invalidRecord (.unknownObject name))

mutual

def liftMembers (schema : Schema) (type : ObjectType) :
    List (String × Json) → Except Fault (List (String × Slot Record))
  | [] => .ok []
  | (key, value) :: rest => do
    let slot ← match type.field? key with
      | some field => lift schema field value
      | none => .ok (.scalar value)
    return (key, slot) :: (← liftMembers schema type rest)

def lift (schema : Schema) (field : Field) : Json → Except Fault (Slot Record)
  | .object members =>
    match field.target? members with
    | some target => do
      return .one (← schema.instantiate target fun type => liftMembers schema type members)
    | none => .ok (.scalar (.object members))
  | .array items =>
    match field.itemTarget? items with
    | some target => do return .many (← liftItems schema target items)
    | none => .ok (.scalar (.array items))
  | value => .ok (.scalar value)

def liftItems (schema : Schema) (target : String) : List Json → Except Fault (List Record)
  | [] => .ok []
  | .object members :: rest => do
    let record ← schema.instantiate target fun type => liftMembers schema type members
    return record :: (← liftItems schema target rest)
  | got :: _ => .error (.invalidRecord (.notAnObject target got))

end

def record (schema : Schema) (name : String) (value : Json) : Except Fault Record :=
  schema.instantiate name fun type =>
    match value with
    | .object members => schema.liftMembers type members
    | got => .error (.invalidRecord (.notAnObject name got))

end Schema
end AccessControl
