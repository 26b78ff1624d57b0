import AccessControl.Yaml.Block
import AccessControl.Yaml.Scalar
import AccessControl.Yaml.Token

/-! The layout of an indented document, from which its tokens follow. A block collection is open as
long as lines are indented as deep as it; whether a token begins a key shows only by the colon behind
it, so the tokens in front of a key are put in afterwards. -/
namespace AccessControl.Yaml

structure Candidate where
  required : Bool
  before : Nat
  line : Nat
  column : Nat
  index : Nat

structure Indent where
  column : Nat
  /-- Whether a block collection stands at the column, and not the content of one of its entries. -/
  block : Bool

structure Layout where
  cursor : Cursor
  tokens : List Token
  indents : List Indent
  candidate : Option Candidate
  /-- The candidates outside of each flow collection that is open, innermost first. -/
  outer : List (Option Candidate)
  keyAllowed : Bool
  adjacent : Nat
  /-- A table in a flow collection has been opened by an indicator. -/
  tableOpened : Bool
  /-- For each open flow list whether a table without brackets is open in it, innermost first. -/
  bareTables : List Bool

namespace Layout

def ofText (text : String) : Layout :=
  ⟨.ofText text, [], [], none, [], true, 0, false, []⟩

def inFlow (s : Layout) : Bool := !s.outer.isEmpty

def margin (s : Layout) : Nat := s.indents.head?.elim 0 Indent.column

def least (s : Layout) : Nat := s.indents.head?.elim 0 (·.column + 1)

def push (token : Token) (s : Layout) : Layout := { s with tokens := token :: s.tokens }

def insert (before : Nat) (token : Token) (s : Layout) : Layout :=
  { s with tokens := s.tokens.insertIdx (s.tokens.length - before) token }

def moveTo (cursor : Cursor) (s : Layout) : Layout := { s with cursor := cursor }

def allowKey (allowed : Bool) (s : Layout) : Layout := { s with keyAllowed := allowed }

def skipLineRest? (s : Layout) : Option Layout :=
  s.cursor.lineRest?.map fun (_, behind) => s.moveTo behind

/-! ### Indentations -/

def closeBeyond (column : Nat) (s : Layout) : Layout :=
  if s.inFlow then s
  else
    let closed := s.indents.takeWhile (column < ·.column)
    let ends := (closed.filter Indent.block).map fun _ => Token.blockEnd
    { s with tokens := ends ++ s.tokens, indents := s.indents.drop closed.length }

def closeAll (s : Layout) : Layout :=
  if s.inFlow then s
  else
    let ends := (s.indents.filter Indent.block).map fun _ => Token.blockEnd
    { s with tokens := ends ++ s.tokens, indents := [] }

/-- The indentations without the content of an entry at the front. -/
def withoutContent (indents : List Indent) : List Indent := indents.dropWhile (!·.block)

def openBlock (column before : Nat) (token : Token) (s : Layout) : Layout :=
  if s.inFlow then s
  else
    let indents := match s.indents with
      | ⟨content, false⟩ :: rest => if content ≤ column then rest else s.indents
      | indents => indents
    if indents.head?.all (·.column < column) then
      { s with indents := ⟨column, true⟩ :: indents }.insert before token
    else { s with indents := indents }

/-- Content of the innermost block collection must stand behind its column. -/
def openContent (s : Layout) : Layout :=
  match s.inFlow, s.indents with
  | false, ⟨column, true⟩ :: _ => { s with indents := ⟨column + 1, false⟩ :: s.indents }
  | _, _ => s

def closeContent (s : Layout) : Layout := { s with indents := withoutContent s.indents }

/-! ### Keys -/

/-- Outside of flow collections a key stands on one line and is not too long. -/
def dropStale? (s : Layout) : Option Layout :=
  match s.candidate with
  | none => some s
  | some k =>
    if s.inFlow || (s.cursor.line ≤ k.line && s.cursor.index ≤ k.index + 1024) then some s
    else if k.required then none
    else some { s with candidate := none }

def dropCandidate? (s : Layout) : Option Layout :=
  if s.candidate.any Candidate.required then none else some { s with candidate := none }

def noteCandidate (s : Layout) : Layout :=
  if s.keyAllowed then
    let c := s.cursor
    let required := !s.inFlow && s.indents.head?.any fun i => i.block && i.column = c.column
    { s with candidate := some ⟨required, s.tokens.length, c.line, c.column, c.index⟩ }
  else s

/-- Moves to the next token. In the indentation of a line with content there must be no tab. -/
def skipToToken? : Nat → Layout → Option Layout
  | 0, _ => none
  | fuel + 1, s =>
    let c := s.cursor
    if c.char = '\t' ∧ c.leading ∧ c.column < s.margin then do
      let s ← s.skipLineRest?
      if endsLine s.cursor.char then skipToToken? fuel s else none
    else if isBlank c.char then skipToToken? fuel (s.moveTo c.step)
    else if c.char = '\n' then
      skipToToken? fuel ((s.moveTo c.step).allowKey (s.keyAllowed || !s.inFlow))
    else if c.char = '#' then skipToToken? fuel (s.moveTo (c.skipWhile (· ≠ '\n')))
    else some s

def nextToken? (s : Layout) : Option Layout := s.skipToToken? (s.cursor.rest.length + 1)

/-! ### Tokens -/

def edge? (token : Token) (s : Layout) : Option Layout := do
  let s ← s.closeAll.dropCandidate?
  return ((s.moveTo (s.cursor.skip 3)).allowKey false).push token

def documentEnd? (s : Layout) : Option Layout := do
  let s ← (← s.edge? .documentEnd).skipLineRest?
  if endsLine s.cursor.char then return s else none

def directive? (s : Layout) : Option Layout := do
  let s ← s.closeAll.dropCandidate?
  let (token, c) ← Token.directive? s.cursor
  return ((s.moveTo c).allowKey false).push token

def maxFlowDepth : Nat := 255

def flowStart? (token : Token) (s : Layout) : Option Layout := do
  let s := s.noteCandidate.openContent
  if s.outer.length = maxFlowDepth then none
  else
    let s := { s with candidate := none, outer := s.candidate :: s.outer }
    let s := if token = .flowTableStart then { s with tableOpened := true }
      else { s with bareTables := false :: s.bareTables }
    let s ← ((s.moveTo s.cursor.step).allowKey true).skipLineRest?
    return s.push token

def endBareTable (s : Layout) : Layout :=
  match s.bareTables with
  | true :: rest =>
    { s with tableOpened := false, bareTables := false :: rest }.push .flowTableEnd
  | _ => s

def flowEnd? (token : Token) (s : Layout) : Option Layout := do
  let s ← s.dropCandidate?
  let s := match s.outer with
    | candidate :: outer => { s with candidate := candidate, outer := outer }
    | [] => s
  let s := if token = .flowListEnd then
      let s := s.endBareTable
      { s with bareTables := s.bareTables.drop 1 }
    else s
  let s ← ((s.moveTo s.cursor.step).allowKey false).skipLineRest?
  let s := if s.inFlow then { s with adjacent := s.cursor.index } else s
  return s.push token

def comma? (s : Layout) : Option Layout := do
  let s := (← s.dropCandidate?).endBareTable
  let s ← ((s.moveTo s.cursor.step).allowKey true).skipLineRest?
  return s.push .comma

def item? (s : Layout) : Option Layout :=
  if s.inFlow || !s.keyAllowed then none
  else do
    let column := s.cursor.column
    let (blanks, c) ← s.cursor.step.lineRest?
    if blanks.contains '\t' && c.char = '-' && isGap c.next then none
    else
      let s := (s.moveTo c).openBlock column s.tokens.length .blockListStart
      let s := if c.char = '\n' || isFlowIndicator c.char then s.openContent else s
      return ((← s.dropCandidate?).allowKey true).push .item

def skipSpace : Nat → Layout → Layout
  | 0, s => s
  | fuel + 1, s =>
    let c := s.cursor
    if c.char = ' ' then skipSpace fuel (s.moveTo c.step)
    else if c.char = '\n' then
      skipSpace fuel ((s.moveTo c.step).allowKey (s.keyAllowed || !s.inFlow))
    else if c.char = '#' then skipSpace fuel (s.moveTo (c.skipWhile (· ≠ '\n')))
    else s

/-- A question mark that begins a key. A space or the end of a line must follow, and no tab. -/
def key? (s : Layout) : Option Layout :=
  if !s.inFlow && !s.keyAllowed then none
  else do
    let s := if s.inFlow then { s with tableOpened := true }
      else s.openBlock s.cursor.column s.tokens.length .blockTableStart
    let s ← s.dropCandidate?
    let s := (s.moveTo s.cursor.step).allowKey (!s.inFlow)
    if s.cursor.char ≠ ' ' && s.cursor.char ≠ '\n' then none
    else
      let s := s.skipSpace (s.cursor.rest.length + 1)
      if s.cursor.char = '\t' then none else return s.push .key

/-- The place behind a colon, after which a tab is not enough to separate a word or a hyphen. -/
def behindColon? (c : Cursor) : Option Cursor :=
  if c.step.char = '\t' then do
    let (blanks, behind) ← c.step.lineRest?
    let isWord := behind.char = '-' || isDigit behind.char || isAsciiLetter behind.char
    if !blanks.contains ' ' && isWord then none else return behind
  else some c.step

/-- A colon, which makes a key of the candidate or follows a key with an indicator. In a flow list
the pair is a table without brackets, whose key stands on one line. -/
def value? (s : Layout) : Option Layout := do
  let line := s.cursor.line
  let column := s.cursor.column
  let bare := !s.bareTables.isEmpty && !s.tableOpened
  let s := if bare then { s with bareTables := true :: s.bareTables.drop 1 } else s
  let s := s.moveTo (← behindColon? s.cursor)
  match s.candidate with
  | some k =>
    if bare ∧ k.line < line then none
    else
      let s := s.insert k.before .key
      let s := if bare then s.insert k.before .flowTableStart else s
      let s := (s.openBlock k.column k.before .blockTableStart).openContent
      return { s with candidate := none, keyAllowed := false }.push .value
  | none =>
    let s := if bare then s.push .flowTableStart else s
    if s.inFlow then return (s.openContent.allowKey false).push .value
    else if !s.keyAllowed then none
    else
      let s := (s.openBlock column s.tokens.length .blockTableStart).openContent
      return (s.allowKey true).push .value

def named? (token : String → Token) (s : Layout) : Option Layout := do
  let (name, c) ← Token.name? s.cursor
  return ((s.noteCandidate.moveTo c).allowKey false).push (token name)

def tag? (s : Layout) : Option Layout := do
  let (token, c) ← Token.tag? s.inFlow s.cursor
  return ((s.noteCandidate.moveTo c).allowKey false).push token

def block? (s : Layout) : Option Layout := do
  let s := s.noteCandidate.closeContent
  let (text, c) ← Yaml.block? s.least s.cursor
  return ((s.moveTo c).allowKey true).push (.scalar false (String.ofList text))

/-- What may stand behind a scalar in quotes on its line. -/
def endsQuoted (inFlow : Bool) (line : Nat) (c : Cursor) : Bool :=
  endsLine c.char
    || (c.char = ':' && (inFlow || c.line = line))
    || (inFlow && (c.char = ',' || c.char = ']' || c.char = '\x7d'))

def quoted? (s : Layout) : Option Layout := do
  let line := s.cursor.line
  let s := s.noteCandidate.allowKey false
  let (text, c) ← quotedScalar? s.margin s.cursor
  let s ← (s.moveTo c).skipLineRest?
  if !endsQuoted s.inFlow line s.cursor then none
  else
    let s ← s.nextToken?
    return { s with adjacent := s.cursor.index }.push (.scalar false (String.ofList text))

def plain? (s : Layout) : Option Layout := do
  let s := s.noteCandidate.closeContent
  if s.inFlow && s.cursor.column < s.least then none
  else
    let (text, c) ← plainScalar? s.inFlow s.least s.cursor
    return ((s.moveTo c).allowKey c.leading).push (.scalar true (String.ofList text))

def atValue (s : Layout) : Bool :=
  let next := s.cursor.next
  isGap next || (s.inFlow && (isFlowIndicator next || s.cursor.index = s.adjacent))

def token? (s : Layout) : Option Layout :=
  let c := s.cursor
  if c.column = 0 ∧ c.char = '%' then s.directive?
  else if c.isEdge '-' then s.edge? .documentStart
  else if c.isEdge '.' then s.documentEnd?
  else if c.column < s.margin then none
  else match c.char with
    | '[' => s.flowStart? .flowListStart
    | '\x7b' => s.flowStart? .flowTableStart
    | ']' => s.flowEnd? .flowListEnd
    | '\x7d' => s.flowEnd? .flowTableEnd
    | ',' => s.comma?
    | '-' => if isGap c.next then s.item? else s.plain?
    | '?' => if isGap c.next then s.key? else s.plain?
    | ':' => if s.atValue then s.value? else s.plain?
    | '*' => s.named? .reference
    | '&' => s.named? .anchor
    | '!' => s.tag?
    | '|' | '>' => if s.inFlow then s.plain? else s.block?
    | '\'' | '"' => s.quoted?
    | '%' | '@' | '\x60' => none
    | _ => s.plain?

def finish? (s : Layout) : Option (List Token) :=
  if (s.candidate :: s.outer).any (·.any Candidate.required) then none
  else some s.closeAll.tokens.reverse

def tokens? : Nat → Layout → Option (List Token)
  | 0, _ => none
  | fuel + 1, s => do
    let s ← (← s.nextToken?).dropStale?
    let s := s.closeBeyond s.cursor.column
    if s.cursor.char = textEnd then s.finish? else tokens? fuel (← s.token?)

end Layout

def tokens? (text : String) : Option (List Token) :=
  let s := Layout.ofText text
  s.tokens? (s.cursor.rest.length + 1)

end AccessControl.Yaml
