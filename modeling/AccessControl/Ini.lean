import AccessControl.Blank
import AccessControl.Datum
import AccessControl.Digit

/-! INI documents: sections under headers in brackets, and in them keys and values with `=` or `:`
between. A comment is a line of its own. All values are texts. -/
namespace AccessControl.Ini

/-- Sections with their entries, last one first. What stands before all headers belongs to a
section without a name. -/
abbrev Document := List (Option String × List (String × String))

def escapedChar : Char → Char
  | '0' => '\x00'
  | 'a' => '\x07'
  | 'b' => '\x08'
  | 't' => '\t'
  | 'r' => '\r'
  | 'n' => '\n'
  | c => c

def numbered? (places : List Char) : Option Char := do
  let digits := if places.head? = some '+' then places.drop 1 else places
  let value ← digitsValue? 16 digits
  if value.isValidChar then return .ofNat value else none

def textUntil? (stop : Char → Bool) (toEnd : Bool) : List Char → Option (List Char × List Char)
  | [] => if toEnd then some ([], []) else none
  | '\\' :: '\n' :: rest => textUntil? stop toEnd rest
  | '\\' :: 'x' :: a :: b :: c :: d :: rest => do
    let char ← numbered? [a, b, c, d]
    let (text, rest) ← textUntil? stop toEnd rest
    return (char :: text, rest)
  | '\\' :: c :: rest => do
    let (text, rest) ← textUntil? stop toEnd rest
    if c = 'x' then none else return (escapedChar c :: text, rest)
  | c :: rest =>
    if stop c then some ([], c :: rest)
    else if c = '\\' then none
    else (textUntil? stop toEnd rest).map fun (text, rest) => (c :: text, rest)

def isLineEnd (c : Char) : Bool := c = '\n' || c = '\r'

def lineText? : List Char → Option (List Char × List Char) := textUntil? isLineEnd true

/-- A value up to the end of its line. It may begin with a quoted part, which may have more lines. -/
def value? (cs : List Char) : Option (String × List Char) := do
  let cs := cs.dropWhile fun c => isWhiteSpace c && !isLineEnd c
  let (quoted, cs) ← match cs with
    | [] => some ([], [])
    | quote :: rest =>
      if quote = '"' ∨ quote = '\'' then
        (textUntil? (· = quote) false rest).map fun (text, rest) => (text, rest.drop 1)
      else some ([], cs)
  let (text, rest) ← lineText? cs
  return (String.ofList (trim (quoted ++ text)), rest)

def skipBlanks (atLineStart : Bool) : List Char → Bool × List Char
  | [] => (atLineStart, [])
  | c :: rest => if isWhiteSpace c then skipBlanks (c = '\n') rest else (atLineStart, c :: rest)

def Document.add (document : Document) (key value : String) : Document :=
  match document with
  | (name, entries) :: rest => (name, entries ++ [(key, value)]) :: rest
  | [] => [(none, [(key, value)])]

def sections? : Nat → Document → String → Bool → List Char → Option Document
  | 0, _, _, _, _ => none
  | fuel + 1, document, key, atLineStart, cs =>
    match skipBlanks atLineStart cs with
    | (_, []) => some document
    | (atLineStart, c :: rest) =>
      if c = ';' ∨ c = '#' then
        if atLineStart then sections? fuel document key true ((rest.dropWhile (· ≠ '\n')).drop 1)
        else none
      else if c = '[' then do
        let (name, rest) ← textUntil? (· = ']') false rest
        let document := (some (String.ofList (trim name)), []) :: document
        sections? fuel document key false (rest.drop 1)
      else if c = '=' ∨ c = ':' then do
        let (value, rest) ← value? rest
        if key = "" then none else sections? fuel (document.add key value) "" false rest
      else do
        let (key, rest) ← textUntil? (fun c => c = '=' || c = ':') false (c :: rest)
        sections? fuel document (String.ofList (trim key)) false rest

/-- The entries without a section, then a table for each section. The last of what has one name
stays. -/
def Document.members (document : Document) : List (String × Datum) :=
  document.reverse.foldl (fun members entry =>
    let entries := entry.2.map fun e => (e.1, Datum.text e.2)
    match entry.1 with
    | none => entries.foldl (fun members e => Keyed.insert e.1 e.2 members) members
    | some name => Keyed.insert name (.table (Keyed.ofList entries)) members) []

def ofText? (text : String) : Option Datum := do
  let cs := text.toList
  let document ← sections? (cs.length + 1) [] "" true cs
  return .table document.members

end AccessControl.Ini
