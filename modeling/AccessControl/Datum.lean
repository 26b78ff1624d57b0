import AccessControl.Json.Basic

/-! What files of settings hold, as far as settings go: texts, lists and tables. -/
namespace AccessControl

inductive Datum where
  | text (s : String)
  | list (items : List Datum)
  | table (members : List (String × Datum))
  /-- Numbers, booleans and whatever else no setting accepts. -/
  | other

namespace Datum

def text? : Datum → Option String
  | text s => some s
  | _ => none

def table? : Datum → Option (List (String × Datum))
  | table members => some members
  | _ => none

def items : Datum → List Datum
  | list items => items
  | _ => []

def members : Datum → List (String × Datum)
  | table members => members
  | _ => []

def get? (key : String) (datum : Datum) : Option Datum := Keyed.get? key datum.members

mutual

def ofJson : Json → Datum
  | .string s => text s
  | .array items => list (ofItems items)
  | .object members => table (ofMembers members)
  | _ => other

def ofItems : List Json → List Datum
  | [] => []
  | item :: rest => ofJson item :: ofItems rest

def ofMembers : List (String × Json) → List (String × Datum)
  | [] => []
  | (key, value) :: rest => (key, ofJson value) :: ofMembers rest

end

end Datum
end AccessControl
