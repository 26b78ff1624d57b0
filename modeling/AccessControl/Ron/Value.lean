import AccessControl.Datum
import AccessControl.Keyed

/-! The values of object notation with named structures. The name of a structure does not matter, and
a choice that is there is what it holds. -/
namespace AccessControl.Ron

inductive Value where
  | text (s : String)
  | character (c : Char)
  | list (items : List Value)
  | table (members : List (Value × Value))
  | present (value : Value)
  | other

namespace Value

structure Entries where
  texts : List (String × Option Datum)
  characters : List (String × Option Datum)

namespace Entries

def add? (key : Value) (entry : Option Datum) (entries : Entries) : Option Entries :=
  match key with
  | text s => some { entries with texts := (s, entry) :: entries.texts }
  | character c =>
    some { entries with characters := (String.singleton c, entry) :: entries.characters }
  | _ => none

def settle? (entries : List (String × Option Datum)) : Option (List (String × Datum)) :=
  (Keyed.ofList entries).mapM fun entry => entry.2.map (entry.1, ·)

/-- A text counts more than a character that is spelled the same. -/
def members? (entries : Entries) : Option (List (String × Datum)) := do
  return Keyed.ofList ((← settle? entries.characters) ++ (← settle? entries.texts))

end Entries

mutual

/-- What a value says as a setting. All keys must be texts or characters. -/
def toDatum? : Value → Option Datum
  | text s => some (.text s)
  | character c => some (.text (String.singleton c))
  | list items => (toItems? items).map .list
  | table members => do return .table (← (← toEntries? members).members?)
  | present value => toDatum? value
  | other => some .other

def toItems? : List Value → Option (List Datum)
  | [] => some []
  | item :: rest => do return (← toDatum? item) :: (← toItems? rest)

def toEntries? : List (Value × Value) → Option Entries
  | [] => some ⟨[], []⟩
  | (key, value) :: rest => do (← toEntries? rest).add? key (toDatum? value)

end

end Value
end AccessControl.Ron
