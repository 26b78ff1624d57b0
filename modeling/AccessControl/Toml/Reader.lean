import AccessControl.Toml.Number
import AccessControl.Toml.Text
import AccessControl.Toml.Tree

/-! Reading TOML documents: comments, headers, keys with dots, and values of all kinds. Every function
spends fuel, of which a document has as much as characters. -/
namespace AccessControl.Toml

def isBareKeyChar (c : Char) : Bool :=
  isDigit c || ('a' ≤ c && c ≤ 'z') || ('A' ≤ c && c ≤ 'Z') || c = '_' || c = '-'

/-- How many parts a key may have, and how deep values may be nested. -/
def maxDepth : Nat := 79

def keyPart? (cs : List Char) : Option (String × List Char) :=
  let bare := cs.takeWhile isBareKeyChar
  if bare.isEmpty then quoted? cs else some (String.ofList bare, cs.drop bare.length)

def keyParts? : Nat → List Char → Option (List String × List Char)
  | 0, _ => none
  | fuel + 1, cs => do
    let (part, rest) ← keyPart? (cs.dropWhile isBlank)
    match rest.dropWhile isBlank with
    | '.' :: rest =>
      let (parts, rest) ← keyParts? fuel rest
      return (part :: parts, rest)
    | rest => return ([part], rest)

def key? (cs : List Char) : Option (List String × List Char) :=
  (keyParts? (cs.length + 1) cs).filter fun (path, _) => path.length ≤ maxDepth

def behindLine? (cs : List Char) : Option (List Char) :=
  let rest := match cs.dropWhile isBlank with
    | '#' :: comment => comment.dropWhile isPlain
    | rest => rest
  match rest with
  | [] => some []
  | '\n' :: rest => some rest
  | _ => none

def skipLines : Nat → List Char → List Char
  | 0, cs => cs
  | fuel + 1, cs =>
    match cs with
    | '#' :: comment => skipLines fuel (comment.dropWhile isPlain)
    | c :: rest => if isBlank c || c = '\n' then skipLines fuel rest else cs
    | [] => []

def scalar? (cs : List Char) : Option (Datum × List Char) :=
  match cs with
  | '"' :: _ | '\'' :: _ => (text? cs).map fun (s, rest) => (.text s, rest)
  | 't' :: 'r' :: 'u' :: 'e' :: rest | 'f' :: 'a' :: 'l' :: 's' :: 'e' :: rest =>
    some (.other, rest)
  | _ => (behindDate? cs <|> behindNumber? cs).map (.other, ·)

mutual

def value? : Nat → Nat → List Char → Option (Datum × List Char)
  | 0, _, _ => none
  | fuel + 1, depth, '[' :: rest => do
    let (items, rest) ← if depth < maxDepth then items? fuel (depth + 1) rest else none
    return (.list items, rest)
  | fuel + 1, depth, '\x7b' :: rest => do
    let (entries, rest) ← if depth < maxDepth then inline? fuel (depth + 1) [] rest else none
    return (← entries.toDatum?, rest)
  | _ + 1, _, cs => scalar? cs

/-- The items of a list up to its end. Lines may end between them, and a last comma is ignored. -/
def items? : Nat → Nat → List Char → Option (List Datum × List Char)
  | 0, _, _ => none
  | fuel + 1, depth, cs => do
    match skipLines (cs.length + 1) cs with
    | ']' :: rest => return ([], rest)
    | cs =>
      let (value, rest) ← value? fuel depth cs
      match skipLines (rest.length + 1) rest with
      | ',' :: rest =>
        let (values, rest) ← items? fuel depth rest
        return (value :: values, rest)
      | ']' :: rest => return ([value], rest)
      | _ => none

/-- The entries of an inline table up to its end. No comma stands behind the last one. -/
def inline? : Nat → Nat → Entries → List Char → Option (Entries × List Char)
  | 0, _, _, _ => none
  | fuel + 1, depth, entries, cs => do
    match entries, cs.dropWhile isBlank with
    | [], '\x7d' :: rest => return ([], rest)
    | _, cs =>
      let (key, rest) ← key? cs
      match rest with
      | '=' :: rest =>
        let (value, rest) ← value? fuel depth (rest.dropWhile isBlank)
        let entries ← entries.assign key value
        match rest.dropWhile isBlank with
        | ',' :: rest => inline? fuel depth entries rest
        | '\x7d' :: rest => return (entries, rest)
        | _ => none
      | _ => none

end

/-- The statements of a document, each on lines of its own, after the entries so far and the path of
the last header. -/
def statements? : Nat → Entries → List String → List Char → Option Entries
  | 0, _, _, _ => none
  | fuel + 1, entries, header, cs => do
    match cs.dropWhile isBlank with
    | [] => return entries
    | '\n' :: rest => statements? fuel entries header rest
    | '#' :: rest => statements? fuel entries header (← behindLine? ('#' :: rest))
    | '[' :: '[' :: rest =>
      let (header, rest) ← key? rest
      match rest with
      | ']' :: ']' :: rest =>
        statements? fuel (← entries.openNext header) header (← behindLine? rest)
      | _ => none
    | '[' :: rest =>
      let (header, rest) ← key? rest
      match rest with
      | ']' :: rest => statements? fuel (← entries.openTable header) header (← behindLine? rest)
      | _ => none
    | cs =>
      let (key, rest) ← key? cs
      match rest with
      | '=' :: rest =>
        let (value, rest) ← value? (2 * rest.length + 2) 0 (rest.dropWhile isBlank)
        let entries ← entries.modify (fun table => table.assign key value) header
        statements? fuel entries header (← behindLine? rest)
      | _ => none

def ofText? (text : String) : Option Datum := do
  let cs := withLineFeeds (match text.toList with
    | '\ufeff' :: rest => rest
    | chars => chars)
  let entries ← statements? (cs.length + 1) [] [] cs
  entries.toDatum?

end AccessControl.Toml
