import AccessControl.Digit
import AccessControl.Yaml.Cursor

/-! Blocks of lines, kept as they are or folded. The first line tells how the last one ends and how
deep the lines are indented. -/
namespace AccessControl.Yaml

inductive Chomping where
  | strip | clip | keep
deriving DecidableEq

structure BlockHeader where
  chomping : Chomping
  indent : Option Nat

namespace BlockHeader

def chomping? : Char → Option Chomping
  | '-' => some .strip
  | '+' => some .keep
  | _ => none

/-- An indentation of one digit, if there is any; it must not be zero. -/
def indent? (c : Cursor) : Option (Option Nat × Cursor) :=
  if c.char = '0' then none
  else if isDigit c.char then some (some (c.char.toNat - '0'.toNat), c.step)
  else some (none, c)

def read? (c : Cursor) : Option (BlockHeader × Cursor) := do
  match chomping? c.char with
  | some chomping =>
    let (indent, c) ← indent? c.step
    return (⟨chomping, indent⟩, c)
  | none =>
    let (indent, c) ← indent? c
    match chomping? c.char with
    | some chomping => return (⟨chomping, indent⟩, c.step)
    | none => return (⟨.clip, indent⟩, c)

end BlockHeader

def skipIndent (indent : Nat) : Nat → Nat → Cursor → Nat × Cursor
  | 0, ended, c => (ended, c)
  | fuel + 1, ended, c =>
    let spaces := (c.rest.takeWhile (· = ' ')).length
    let c := c.skip (min spaces (indent - c.column))
    if c.char = '\n' then skipIndent indent fuel (ended + 1) c.step else (ended, c)

/-- The widest indentation of blank lines and the line behind them, with the place there. -/
def firstIndent : Nat → Nat → Nat → Cursor → Nat × Nat × Cursor
  | 0, widest, ended, c => (widest, ended, c)
  | fuel + 1, widest, ended, c =>
    let c := c.skipWhile (· = ' ')
    let widest := max widest c.column
    if c.char = '\n' then firstIndent fuel widest (ended + 1) c.step else (widest, ended, c)

structure LineGap where
  ended : Bool
  blank : Bool
  blankLines : Nat

namespace LineGap

def allEnds (gap : LineGap) : List Char :=
  (if gap.ended then ['\n'] else []) ++ List.replicate gap.blankLines '\n'

/-- The gap in front of a line. In a folded block the end between two lines that begin with no blank
becomes one, or is dropped where blank lines follow. -/
def text (folded blank : Bool) (gap : LineGap) : List Char :=
  if folded && gap.ended && !gap.blank && !blank then
    if gap.blankLines = 0 then [' '] else List.replicate gap.blankLines '\n'
  else gap.allEnds

end LineGap

/-- The lines of a block behind a gap, the gap that is left in the end, and the place there. -/
def blockLines (folded : Bool) (indent : Nat) :
    Nat → LineGap → Cursor → List Char × LineGap × Cursor
  | 0, gap, c => ([], gap, c)
  | fuel + 1, gap, c =>
    if c.column ≠ indent || c.char = textEnd || (indent = 0 && c.isEdge '.') then ([], gap, c)
    else
      let blank := isBlank c.char
      let (line, behind) := c.run (· ≠ '\n')
      let text := gap.text folded blank ++ line
      if behind.char = textEnd then (text, ⟨false, blank, 0⟩, behind)
      else
        let (blankLines, behind) := skipIndent indent (behind.rest.length + 1) 0 behind.step
        let (more, last) := blockLines folded indent fuel ⟨true, blank, blankLines⟩ behind
        (text ++ more, last)

def blankBlock (chomping : Chomping) (onOneLine : Bool) (ended : Nat) : List Char :=
  if onOneLine then []
  else match chomping with
    | .strip => []
    | .clip => ['\n']
    | .keep => List.replicate (max 1 ended) '\n'

def block? (least : Nat) (start : Cursor) : Option (List Char × Cursor) := do
  let folded := start.char = '>'
  let (header, c) ← BlockHeader.read? start.step
  let (_, c) ← c.lineRest?
  if !endsLine c.char || c.step.char = '\t' then none
  else
    let c := c.step
    let fuel := c.rest.length + 1
    let (indent, ended, c) := match header.indent with
      | some given =>
        let indent := (least - 1) + given
        (indent, skipIndent indent fuel 0 c)
      | none =>
        let (widest, ended, c) := firstIndent fuel 0 0 c
        (max widest least, ended, c)
    if c.char = textEnd then
      return (blankBlock header.chomping (c.line = start.line) ended, c)
    else if c.column < indent ∧ least ≤ c.column then none
    else
      let (text, gap, c) := blockLines folded indent fuel ⟨false, false, ended⟩ c
      let ends := (if gap.ended then ['\n'] else [])
        ++ (if c.char = textEnd ∧ max 1 indent ≤ c.column then ['\n'] else [])
      return (match header.chomping with
        | .strip => text
        | .clip => text ++ ends
        | .keep => text ++ ends ++ List.replicate gap.blankLines '\n', c)

end AccessControl.Yaml
