import AccessControl.Json.Structure
import AccessControl.Schema

/-! Schemas as plain data: lists of object types, each with a name and its fields. -/
namespace AccessControl

/-- A link that is absent or `null` is none. -/
def Field.linkOfJson? : Option Json → Option (Option String)
  | none | some .null => some none
  | some (.string target) => some (some target)
  | some _ => none

def Field.ofJson? (value : Json) : Option Field :=
  match value.structure? [["name"], ["type"], ["link_meta", "linkMeta"]] with
  | some [some (.string name), some type, link] => do
    return ⟨name, ← FieldType.ofName? (← type.choice?), ← linkOfJson? link⟩
  | _ => none

def Field.toJson (field : Field) : Json :=
  .object ([("name", .string field.name), ("type", .string field.type.name)]
    ++ (field.link.map fun target => ("link_meta", .string target)).toList)

/-- Absent fields are none at all; fields that are no list are a fault. -/
def ObjectType.fieldsOfJson? : Option Json → Option (List Field)
  | none => some []
  | some (.array items) => items.mapM Field.ofJson?
  | some _ => none

def ObjectType.ofJson? (value : Json) : Option ObjectType :=
  match value.structure? [["name"], ["fields"]] with
  | some [some (.string name), fields] => do return ⟨name, ← fieldsOfJson? fields⟩
  | _ => none

def ObjectType.toJson (type : ObjectType) : Json :=
  .object [("name", .string type.name), ("fields", .array (type.fields.map Field.toJson))]

def Schema.ofJson? : Json → Option Schema
  | .array items => do return ⟨← items.mapM ObjectType.ofJson?⟩
  | _ => none

end AccessControl
