import AccessControl.Json.Basic

/-! Structures and choices written as plain data. A structure is an object with named fields, or the
list of its fields in their order; a choice is its name, or an object from its name to `null`. -/
namespace AccessControl.Json

def fieldUnder? (members : List (String × Json)) (names : List String) : Option (Option Json) :=
  match names.filterMap fun name => Keyed.get? name members with
  | [] => some none
  | [value] => some (some value)
  | _ => none

/-- The fields of a structure, each given by its names. Unknown keys are ignored; in a list, the
last fields may be left out, and further items are refused. -/
def structure? (fields : List (List String)) : Json → Option (List (Option Json))
  | .object members => fields.mapM (fieldUnder? members)
  | .array items =>
    if items.length ≤ fields.length then
      some (items.map some ++ List.replicate (fields.length - items.length) none)
    else none
  | _ => none

def choice? : Json → Option String
  | .string name => some name
  | .object [(name, .null)] => some name
  | _ => none

end AccessControl.Json
