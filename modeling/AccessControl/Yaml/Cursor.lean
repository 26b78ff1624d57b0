/-! Places in the text of an indented document. Indentation decides its structure, so a place knows
its line and column, and whether only blanks stand before it. -/
namespace AccessControl.Yaml

def isBlank (c : Char) : Bool := c = ' ' || c = '\t'

def isFlowIndicator (c : Char) : Bool :=
  c = ',' || c = '[' || c = ']' || c = '\x7b' || c = '\x7d'

/-- What is found behind the last character of a text; a text ends there. -/
def textEnd : Char := '\x00'

def endsLine (c : Char) : Bool := c = '\n' || c = textEnd

/-- Whether an indicator may end before a character. -/
def isGap (c : Char) : Bool := isBlank c || endsLine c

def withLineFeeds : List Char → List Char
  | '\r' :: '\n' :: rest => '\n' :: withLineFeeds rest
  | '\r' :: rest => '\n' :: withLineFeeds rest
  | c :: rest => c :: withLineFeeds rest
  | [] => []

structure Cursor where
  rest : List Char
  index : Nat
  line : Nat
  column : Nat
  leading : Bool

namespace Cursor

def ofText (text : String) : Cursor :=
  ⟨withLineFeeds (text.toList.takeWhile (· ≠ textEnd)), 0, 0, 0, true⟩

def char (c : Cursor) : Char := c.rest.headD textEnd

def next (c : Cursor) : Char := (c.rest.drop 1).headD textEnd

def step (c : Cursor) : Cursor :=
  match c.rest with
  | [] => c
  | char :: rest =>
    if char = '\n' then ⟨rest, c.index + 1, c.line + 1, 0, true⟩
    else ⟨rest, c.index + 1, c.line, c.column + 1, c.leading && isBlank char⟩

def skip : Nat → Cursor → Cursor
  | 0, c => c
  | n + 1, c => skip n c.step

def skipWhile (p : Char → Bool) (c : Cursor) : Cursor := c.skip (c.rest.takeWhile p).length

def run (p : Char → Bool) (c : Cursor) : List Char × Cursor := (c.rest.takeWhile p, c.skipWhile p)

/-- Whether a line begins here with three times a character, which marks an edge of a document. -/
def isEdge (char : Char) (c : Cursor) : Bool :=
  c.column = 0 && c.rest.take 3 == List.replicate 3 char && isGap ((c.rest.drop 3).headD textEnd)

def atEdge (c : Cursor) : Bool := c.isEdge '-' || c.isEdge '.'

/-- The blanks behind a token and the place behind them and a comment. A comment must stand apart
from what is before it. -/
def lineRest? (c : Cursor) : Option (List Char × Cursor) :=
  let (blanks, behind) := c.run isBlank
  if behind.char ≠ '#' then some (blanks, behind)
  else if blanks.isEmpty then none
  else some (blanks, behind.skipWhile (· ≠ '\n'))

end Cursor
end AccessControl.Yaml
