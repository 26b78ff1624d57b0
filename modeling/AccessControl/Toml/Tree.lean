import AccessControl.Datum
import AccessControl.Keyed
import AccessControl.Toml.Date

/-! The tree that a TOML document builds. A table remembers how it came to be, since that decides
whether it may still be extended; a value that has been given is closed. -/
namespace AccessControl.Toml

inductive TableKind where
  | implied
  | headed
  | dotted
deriving DecidableEq

inductive Tree where
  | value (value : Datum)
  | table (kind : TableKind) (entries : List (String × Tree))
  /-- Tables with one header each: the last one, and those before it. -/
  | series (before : List (List (String × Tree))) (last : List (String × Tree))

abbrev Entries := List (String × Tree)

namespace Entries

/-- Gives a value to a key of a table. A key with dots may add to tables that dots have made, and
may pass through implied ones, but never enters a table with a header of its own. -/
def assign (entries : Entries) : List String → Datum → Option Entries
  | [], _ => none
  | [key], value =>
    match Keyed.get? key entries with
    | none => some (Keyed.insert key (.value value) entries)
    | some _ => none
  | key :: rest, value =>
    match Keyed.get? key entries with
    | none => do return Keyed.insert key (.table .dotted (← assign [] rest value)) entries
    | some (.table kind inner) =>
      if kind = .headed ∨ (kind = .implied ∧ rest.length = 1) then none
      else do return Keyed.insert key (.table kind (← assign inner rest value)) entries
    | some (.series before last) =>
      if rest.length = 1 then none
      else do return Keyed.insert key (.series before (← assign last rest value)) entries
    | some (.value _) => none

def descend (change : String → Entries → Option Entries) (entries : Entries) :
    List String → Option Entries
  | [] => none
  | [key] => change key entries
  | key :: rest =>
    match Keyed.get? key entries with
    | none => do return Keyed.insert key (.table .implied (← descend change [] rest)) entries
    | some (.table kind inner) => do
      return Keyed.insert key (.table kind (← descend change inner rest)) entries
    | some (.series before last) => do
      return Keyed.insert key (.series before (← descend change last rest)) entries
    | some (.value _) => none

/-- Opens the table of a header. A table has one header at most, and none if dots have made it. -/
def openTable (path : List String) (entries : Entries) : Option Entries :=
  entries.descend (fun key entries =>
    match Keyed.get? key entries with
    | none => some (Keyed.insert key (.table .headed []) entries)
    | some (.table .implied inner) => some (Keyed.insert key (.table .headed inner) entries)
    | some _ => none) path

def openNext (path : List String) (entries : Entries) : Option Entries :=
  entries.descend (fun key entries =>
    match Keyed.get? key entries with
    | none => some (Keyed.insert key (.series [] []) entries)
    | some (.series before last) =>
      some (Keyed.insert key (.series (before ++ [last]) []) entries)
    | some _ => none) path

def modify (f : Entries → Option Entries) (entries : Entries) : List String → Option Entries
  | [] => f entries
  | key :: rest =>
    match Keyed.get? key entries with
    | some (.table kind inner) => do
      return Keyed.insert key (.table kind (← modify f inner rest)) entries
    | some (.series before last) => do
      return Keyed.insert key (.series before (← modify f last rest)) entries
    | _ => none

end Entries

/-- A table that begins with this key is a date, which is written as a text. -/
def dateKey : String := "$__toml_private_datetime"

def tableOrDate? : List (String × Datum) → Option Datum
  | [] => some (.table [])
  | (key, value) :: rest =>
    if key ≠ dateKey then some (.table ((key, value) :: rest))
    else match value with
      | .text s => if isDate s.toList then some (.text s) else none
      | _ => none

mutual

def Tree.toDatum? : Tree → Option Datum
  | .value value => some value
  | .table _ entries => do tableOrDate? (← Entries.toMembers? entries)
  | .series before last => do
    let last ← tableOrDate? (← Entries.toMembers? last)
    return .list ((← Entries.toItems? before) ++ [last])

def Entries.toItems? : List (List (String × Tree)) → Option (List Datum)
  | [] => some []
  | entries :: rest => do
    return (← tableOrDate? (← Entries.toMembers? entries)) :: (← Entries.toItems? rest)

def Entries.toMembers? : List (String × Tree) → Option (List (String × Datum))
  | [] => some []
  | (key, tree) :: rest => do return (key, ← tree.toDatum?) :: (← Entries.toMembers? rest)

end

def Entries.toDatum? (entries : Entries) : Option Datum := do
  tableOrDate? (← Entries.toMembers? entries)

end AccessControl.Toml
