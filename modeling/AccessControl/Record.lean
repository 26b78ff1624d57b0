import AccessControl.Path
import AccessControl.Schema

/-! Records: instances of an object type, with fields in their own order. A field holds plain data or
nested records. -/
namespace AccessControl

inductive Slot (ρ : Type) where
  | scalar (value : Json)
  | one (record : ρ)
  | many (records : List ρ)

structure Record where
  type : ObjectType
  fields : List (String × Slot Record)

namespace Record

def empty (type : ObjectType) : Record := ⟨type, []⟩

def get? (record : Record) (key : String) : Option (Slot Record) := Keyed.get? key record.fields

def insert (record : Record) (key : String) (slot : Slot Record) : Record :=
  ⟨record.type, Keyed.insert key slot record.fields⟩

mutual

def toJson : Record → Json
  | ⟨_, fields⟩ => .object (Keyed.ofList (fieldsToJson fields))

def fieldsToJson : List (String × Slot Record) → List (String × Json)
  | [] => []
  | (key, .scalar value) :: rest => (key, value) :: fieldsToJson rest
  | (key, .one record) :: rest => (key, record.toJson) :: fieldsToJson rest
  | (key, .many records) :: rest => (key, .array (listToJson records)) :: fieldsToJson rest

def listToJson : List Record → List Json
  | [] => []
  | record :: rest => record.toJson :: listToJson rest

end

def reads (path key : String) : Bool :=
  key.toList.isPrefixOf path.toList &&
    match path.toList.drop key.length with
    | [] => true
    | c :: _ => c = '.'

/-- The plain data of those fields that some path reads. -/
def project (record : Record) (paths : List String) : Json :=
  .object (Keyed.ofList (fieldsToJson
    (record.fields.filter fun field => paths.any fun path => reads path field.1)))

/-- Whether a path leads somewhere. No path leads into a list of records. -/
def hasPath : Record → Path → Bool
  | _, [] => false
  | record, [key] => (record.get? key).isSome
  | record, key :: rest =>
    match record.get? key with
    | some (.scalar value) => (value.getPath? rest).isSome
    | some (.one inner) => inner.hasPath rest
    | some (.many _) | none => false

/-- Overwrites what a path leads to. The field must be there; inside of plain data the last segment
may be new. -/
def setPath? : Record → Path → Json → Option Record
  | _, [], _ => none
  | record, [key], new =>
    if (record.get? key).isSome then some (record.insert key (.scalar new)) else none
  | record, key :: rest, new =>
    match record.get? key with
    | some (.scalar value) => do return record.insert key (.scalar (← value.setPath? rest new))
    | some (.one inner) => do return record.insert key (.one (← inner.setPath? rest new))
    | some (.many _) | none => none

def contains (record : Record) (text : String) : Bool :=
  match _cut : Path.cut? text with
  | none => (record.get? text).isSome
  | some (head, rest) =>
    match record.get? head with
    | some (.scalar value) => (value.getPath? (.ofText rest)).isSome
    | some (.one inner) => inner.contains rest
    | some (.many _) | none => false
termination_by text.toList.length
decreasing_by simp only [Path.cut?_eq_some _cut, List.length_append, List.length_cons]; omega

/-- Overwrites a path in place: what stands before its first dot is a field, which must be there. -/
def overwrite (record : Record) (text : String) (new : Json) : Bool × Record :=
  match _cut : Path.cut? text with
  | none =>
    match record.get? text with
    | some _ => (true, record.insert text (.scalar new))
    | none => (false, record)
  | some (head, rest) =>
    match record.get? head with
    | some (.scalar value) =>
      let changed := value.overwrite rest new
      (changed.1, record.insert head (.scalar changed.2))
    | some (.one inner) =>
      let changed := inner.overwrite rest new
      (changed.1, record.insert head (.one changed.2))
    | some (.many _) | none => (false, record)
termination_by text.toList.length
decreasing_by simp only [Path.cut?_eq_some _cut, List.length_append, List.length_cons]; omega

end Record
end AccessControl
