import AccessControl.Digit
import AccessControl.Yaml.Cursor

/-! Scalars of indented documents: plain ones, quoted ones, and blocks of lines. Every scalar is a
text; inside of one, ends of lines are folded. -/
namespace AccessControl.Yaml

inductive Pending where
  | blanks (chars : List Char)
  | folded (more : Nat)
  | joined (more : Nat)

namespace Pending

/-- A single end of a line becomes a blank; of more ends the first one is dropped. -/
def text : Pending → List Char
  | blanks chars => chars.reverse
  | folded 0 => [' ']
  | folded more | joined more => List.replicate more '\n'

def endLine : Pending → Pending
  | blanks _ => folded 0
  | folded more => folded (more + 1)
  | joined more => joined (more + 1)

def upTo? (tab? : Cursor → Option Cursor) : Nat → Pending → Cursor → Option (Pending × Cursor)
  | 0, _, _ => none
  | fuel + 1, pending, c =>
    if c.char = '\n' then upTo? tab? fuel pending.endLine c.step
    else if isBlank c.char then
      match pending with
      | blanks chars => upTo? tab? fuel (blanks (c.char :: chars)) c.step
      | pending => do
        let behind ← if c.char = '\t' then tab? c else some c.step
        upTo? tab? fuel pending behind
    else some (pending, c)

end Pending

def isPlain (inFlow : Bool) (char next : Char) : Bool :=
  let ends (c : Char) : Bool := inFlow && isFlowIndicator c
  !isGap char && !(char = ':' && (isGap next || ends next)) && !ends char

def plainRun (inFlow : Bool) : List Char → List Char
  | [] => []
  | c :: rest => if isPlain inFlow c (rest.headD textEnd) then c :: plainRun inFlow rest else []

/-- In the indentation a tab may only be followed by the end of its line. -/
def plainTab? (least : Nat) (c : Cursor) : Option Cursor :=
  if least ≤ c.column then some c.step
  else do
    let (_, behind) ← c.lineRest?
    if endsLine behind.char then return behind else none

/-- A plain scalar behind what waits. Its further lines begin at the column `least` or behind it. -/
def plain? (inFlow : Bool) (least : Nat) : Nat → Pending → Cursor → Option (List Char × Cursor)
  | 0, _, _ => none
  | fuel + 1, pending, c =>
    if c.atEdge || c.char = '#' then some ([], c)
    else if inFlow && c.char = '-' && isFlowIndicator c.next then none
    else do
      let run := plainRun inFlow c.rest
      let behind := c.skip run.length
      let text := if run.isEmpty then [] else pending.text ++ run
      if !isBlank behind.char && behind.char ≠ '\n' then return (text, behind)
      else
        let pending := if run.isEmpty then pending else .blanks []
        let (pending, behind) ←
          pending.upTo? (plainTab? least) (behind.rest.length + 1) behind
        if !inFlow && behind.column < least then return (text, behind)
        else
          let (more, behind) ← plain? inFlow least fuel pending behind
          return (text ++ more, behind)

def plainScalar? (inFlow : Bool) (least : Nat) (c : Cursor) : Option (List Char × Cursor) :=
  plain? inFlow least (c.rest.length + 1) (.blanks []) c

def escapedChar? : Char → Option Char
  | '0' => some '\x00'
  | 'a' => some '\x07'
  | 'b' => some '\x08'
  | 't' | '\t' => some '\t'
  | 'n' => some '\n'
  | 'v' => some '\x0b'
  | 'f' => some '\x0c'
  | 'r' => some '\r'
  | 'e' => some '\x1b'
  | ' ' => some ' '
  | '"' => some '"'
  | '/' => some '/'
  | '\\' => some '\\'
  | 'N' => some '\u0085'
  | '_' => some '\u00a0'
  | 'L' => some '\u2028'
  | 'P' => some '\u2029'
  | _ => none

def escapeDigits : Char → Nat
  | 'x' => 2
  | 'u' => 4
  | 'U' => 8
  | _ => 0

def escape? (c : Cursor) : Option (Char × Cursor) :=
  match escapeDigits c.next with
  | 0 => (escapedChar? c.next).map fun char => (char, c.skip 2)
  | count => do
    let digits := (c.rest.drop 2).take count
    let value ← digitsValue? 16 digits
    if digits.length = count && value.isValidChar then return (.ofNat value, c.skip (count + 2))
    else none

/-- The characters of a quoted scalar up to a gap or to its closing quote, and whether an escaped end
of a line stands behind them. -/
def quotedRun? (quote : Char) : Nat → Cursor → Option (List Char × Bool × Cursor)
  | 0, _ => none
  | fuel + 1, c =>
    let add (char : Char) (c : Cursor) : Option (List Char × Bool × Cursor) :=
      (quotedRun? quote fuel c).map fun (run, rest) => (char :: run, rest)
    if isGap c.char then some ([], false, c)
    else if c.char = quote then
      if quote = '\'' ∧ c.next = '\'' then add '\'' (c.skip 2) else some ([], false, c)
    else if c.char = '\\' ∧ quote = '"' then
      if c.next = '\n' then some ([], true, c.skip 2)
      else do
        let (char, behind) ← escape? c
        add char behind
    else add c.char c.step

def quoted? (quote : Char) (margin : Nat) : Nat → Cursor → Option (List Char × Cursor)
  | 0, _ => none
  | fuel + 1, c =>
    if c.atEdge || c.char = textEnd || c.column < margin then none
    else do
      let (run, cut, c) ← quotedRun? quote (c.rest.length + 1) c
      if c.char = quote then return (run, c.step)
      else
        let tab? (c : Cursor) : Option Cursor := if c.column < margin then none else some c.step
        let pending : Pending := if cut then .joined 0 else .blanks []
        let (pending, c) ← pending.upTo? tab? (c.rest.length + 1) c
        let (more, c) ← quoted? quote margin fuel c
        return (run ++ pending.text ++ more, c)

def quotedScalar? (margin : Nat) (c : Cursor) : Option (List Char × Cursor) :=
  quoted? c.char margin (c.rest.length + 1) c.step

end AccessControl.Yaml
