import AccessControl.Blank
import AccessControl.Json.Token

/-! The tokens of relaxed notation: comments, either kind of quotes, and more escapes than the
strict one has. -/
namespace AccessControl.Json5

open Json (Token)

/-- What a scanner stands in. Words are kept last character first, texts as code units. -/
inductive Place where
  | between
  | word (done : List Char)
  | slash
  | lineComment
  | blockComment (star : Bool)
  | text (quote : Char) (done : List Nat)
  | escape (quote : Char) (done : List Nat)
  | unit (quote : Char) (done : List Nat) (value remaining : Nat)
  /-- Behind an escaped carriage return, to which a line feed may belong. -/
  | carriageReturn (quote : Char) (done : List Nat)

structure Scanner where
  place : Place
  tokens : List Token

def isLineEnd (c : Char) : Bool := c = '\n' || c = '\r' || c = '\u2028' || c = '\u2029'

def isBlank (c : Char) : Bool := (isWhiteSpace c && c ≠ '\u0085') || c = '\ufeff'

def isQuote (c : Char) : Bool := c = '"' || c = '\''

def isWordChar (c : Char) : Bool :=
  !isBlank c && !isQuote c && c ≠ '/' && (Token.punctuation? c).isNone

def escapedChar? (c : Char) : Option Char :=
  if c = 'v' then some '\x0b'
  else if c = '0' then some '\x00'
  else if isDigit c then none
  else some ((Token.escapedChar? c).getD c)

/-- The text of code units. Halves of pairs must stand in pairs. -/
def unitsText? : List Nat → Option (List Char)
  | [] => some []
  | [value] => if value.isValidChar then some [.ofNat value] else none
  | high :: low :: rest =>
    if high.isValidChar then (unitsText? (low :: rest)).map (.ofNat high :: ·)
    else if high < 0xDC00 ∧ 0xDC00 ≤ low ∧ low < 0xE000 then
      (unitsText? rest).map (.ofNat (0x10000 + (high - 0xD800) * 0x400 + (low - 0xDC00)) :: ·)
    else none

namespace Scanner

def start : Scanner := ⟨.between, []⟩

def endWord (s : Scanner) : Scanner :=
  match s.place with
  | .word done => ⟨.between, .word done.reverse :: s.tokens⟩
  | _ => s

def delimit? (s : Scanner) (c : Char) : Option Scanner :=
  if isBlank c then some s
  else if isQuote c then some ⟨.text c [], s.tokens⟩
  else if c = '/' then some ⟨.slash, s.tokens⟩
  else (Token.punctuation? c).map fun token => ⟨.between, token :: s.tokens⟩

def textStep (s : Scanner) (quote : Char) (done : List Nat) (c : Char) : Option Scanner :=
  if c = quote then
    (unitsText? done.reverse).map fun chars => ⟨.between, .text (String.ofList chars) :: s.tokens⟩
  else if c = '\\' then some ⟨.escape quote done, s.tokens⟩
  else if isLineEnd c then none
  else some ⟨.text quote (c.toNat :: done), s.tokens⟩

def step (s : Scanner) (c : Char) : Option Scanner :=
  match s.place with
  | .between => if isWordChar c then some ⟨.word [c], s.tokens⟩ else s.delimit? c
  | .word done => if isWordChar c then some ⟨.word (c :: done), s.tokens⟩ else s.endWord.delimit? c
  | .slash =>
    if c = '/' then some ⟨.lineComment, s.tokens⟩
    else if c = '*' then some ⟨.blockComment false, s.tokens⟩
    else none
  | .lineComment => some (if isLineEnd c then ⟨.between, s.tokens⟩ else s)
  | .blockComment star =>
    some ⟨if star && c = '/' then .between else .blockComment (c = '*'), s.tokens⟩
  | .text quote done => s.textStep quote done c
  | .escape quote done =>
    if c = 'u' then some ⟨.unit quote done 0 4, s.tokens⟩
    else if c = 'x' then some ⟨.unit quote done 0 2, s.tokens⟩
    else if c = '\r' then some ⟨.carriageReturn quote done, s.tokens⟩
    else if isLineEnd c then some ⟨.text quote done, s.tokens⟩
    else (escapedChar? c).map fun e => ⟨.text quote (e.toNat :: done), s.tokens⟩
  | .unit quote done value remaining => do
    let value := 16 * value + (← hexValue? c)
    if 1 < remaining then return ⟨.unit quote done value (remaining - 1), s.tokens⟩
    else return ⟨.text quote (value :: done), s.tokens⟩
  | .carriageReturn quote done =>
    if c = '\n' then some ⟨.text quote done, s.tokens⟩ else s.textStep quote done c

end Scanner

def scan (text : String) : Option (List Token) := do
  let s ← text.toList.foldlM Scanner.step .start
  match s.place with
  | .between | .word _ | .lineComment => return s.endWord.tokens.reverse
  | _ => none

end AccessControl.Json5
