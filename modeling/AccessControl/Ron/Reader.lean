import AccessControl.Ron.Token
import AccessControl.Ron.Value

/-! Reading object notation with named structures. Values are nested only so deep: a collection and a
place in it count one each. Every function spends fuel, of which a text has as much as characters. -/
namespace AccessControl.Ron

structure Extensions where
  bareChoice : Bool

namespace Extensions

/-- Adds the extension of a name. Some matter only where the kind of a value is known before. -/
def add? (extensions : Extensions) : String → Option Extensions
  | "implicit_some" => some { extensions with bareChoice := true }
  | "unwrap_newtypes" | "unwrap_variant_newtypes" => some extensions
  | _ => none

def behindAll? : List String → List Char → Option (List Char)
  | [], cs => some cs
  | word :: words, cs => do behindAll? words (← space? (← behind? word.toList cs))

def names? (extensions : Extensions) : Nat → List Char → Option (Extensions × List Char)
  | 0, _ => none
  | fuel + 1, cs => do
    let (name, rest) ← name? cs
    let extensions ← extensions.add? name
    let (more, rest) ← comma? rest
    if !(rest.head?.any isNameChar) then return (extensions, rest)
    else if more then names? extensions fuel rest
    else none

def read? : Nat → Extensions → List Char → Option (Extensions × List Char)
  | 0, _, _ => none
  | fuel + 1, extensions, cs => do
    match ← space? cs with
    | '#' :: rest =>
      let rest ← behindAll? ["!", "[", "enable", "("] (← space? rest)
      let (extensions, rest) ← names? extensions fuel rest
      read? fuel extensions (← behindAll? [")", "]"] rest)
    | rest => return (extensions, rest)

end Extensions

def maxDepth : Nat := 128

/-- Words and marks for values that say nothing as settings. -/
def plainWord? (cs : List Char) : Option (List Char) :=
  ["true", "false", "None", "inf", "-inf", "NaN"].findSome? (behindWord? · cs)
    <|> behind? ['(', ')'] cs

def hasFields? (cs : List Char) : Option Bool :=
  match name? cs with
  | none => some false
  | some (_, rest) => do
    match ← space? rest with
    | c :: _ => return c = ':'
    | [] => none

mutual

def value? (ext : Extensions) : Nat → Nat → List Char → Option (Value × List Char)
  | 0, _, _ => none
  | fuel + 1, depth, cs =>
    match plainWord? cs with
    | some rest => some (.other, rest)
    | none =>
      match behindWord? "Some" cs with
      | some rest => choice? ext fuel depth rest
      | none =>
        match name? cs with
        | some (_, rest) => do
          match ← space? rest with
          | '(' :: rest => structure? ext fuel depth rest
          | rest => return (.other, rest)
        | none =>
          match cs with
          | '(' :: rest => structure? ext fuel depth rest
          | '[' :: rest => do
            let (items, rest) ← if depth < maxDepth then items? ext fuel (depth + 1) ']' rest else none
            return (.list items, rest)
          | '\x7b' :: rest => do
            let (members, rest) ←
              if depth < maxDepth then members? ext fuel (depth + 1) false rest else none
            return (.table members, rest)
          | '"' :: _ | 'r' :: _ => (text? cs).map fun (s, rest) => (.text s, rest)
          | '\'' :: _ => (character? cs).map fun (c, rest) => (.character c, rest)
          | '.' :: _ => (behindReal? cs).map (.other, ·)
          | c :: _ =>
            if isDigit c || c = '+' || c = '-' then (behindNumber? cs).map (.other, ·) else none
          | [] => none

/-- What a choice holds, behind the word for one that is there. -/
def choice? (ext : Extensions) : Nat → Nat → List Char → Option (Value × List Char)
  | 0, _, _ => none
  | fuel + 1, depth, cs => do
    if depth < maxDepth then
      match ← space? cs with
      | '(' :: rest =>
        let (value, rest) ← value? ext fuel (depth + 1) (← space? rest)
        match ← comma? rest with
        | (_, ')' :: rest) => return (.present value, rest)
        | _ => none
      | rest =>
        if ext.bareChoice then
          let (value, rest) ← value? ext fuel (depth + 1) rest
          return (.present value, rest)
        else none
    else none

def structure? (ext : Extensions) : Nat → Nat → List Char → Option (Value × List Char)
  | 0, _, _ => none
  | fuel + 1, depth, cs => do
    let cs ← space? cs
    let named ← hasFields? cs
    if !(depth < maxDepth) then none
    else if named then
      let (members, rest) ← members? ext fuel (depth + 1) true cs
      return (.table members, rest)
    else
      let (items, rest) ← items? ext fuel (depth + 1) ')' cs
      return (.list items, rest)

def items? (ext : Extensions) : Nat → Nat → Char → List Char → Option (List Value × List Char)
  | 0, _, _, _ => none
  | fuel + 1, depth, close, cs => do
    let cs ← space? cs
    if cs.head? = some close then return ([], cs.drop 1)
    else if depth < maxDepth then
      let (value, rest) ← value? ext fuel (depth + 1) cs
      let (more, rest) ← comma? rest
      if more then
        let (values, rest) ← items? ext fuel depth close rest
        return (value :: values, rest)
      else if rest.head? = some close then return ([value], rest.drop 1)
      else none
    else none

/-- Members up to the end of a table, or fields up to the end of a structure. -/
def members? (ext : Extensions) :
    Nat → Nat → Bool → List Char → Option (List (Value × Value) × List Char)
  | 0, _, _, _ => none
  | fuel + 1, depth, named, cs => do
    let close := if named then ')' else '\x7d'
    let cs ← space? cs
    if cs.head? = some close then return ([], cs.drop 1)
    else if depth < maxDepth then
      let (key, rest) ← if named then (name? cs).map fun (name, rest) => (Value.text name, rest)
        else value? ext fuel (depth + 1) cs
      match ← space? rest with
      | ':' :: rest =>
        let (value, rest) ← value? ext fuel (depth + 1) (← space? rest)
        let (more, rest) ← comma? rest
        if more then
          let (members, rest) ← members? ext fuel depth named rest
          return ((key, value) :: members, rest)
        else if rest.head? = some close then return ([(key, value)], rest.drop 1)
        else none
      | _ => none
    else none

end

def ofText? (text : String) : Option Datum := do
  let cs := text.toList
  let (ext, cs) ← Extensions.read? (cs.length + 1) ⟨false⟩ cs
  let (value, rest) ← value? ext (3 * cs.length + 3) 0 cs
  match ← space? rest with
  | [] => value.toDatum?
  | _ => none

end AccessControl.Ron
