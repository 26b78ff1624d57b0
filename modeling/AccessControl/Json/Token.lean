import AccessControl.Digit

/-! The tokens of written values, read one character at a time. A word, such as a literal or a
numeral, runs up to the next delimiter; what it means is for the reader of the tokens. -/
namespace AccessControl.Json

inductive Token where
  | openBrace | closeBrace | openBracket | closeBracket | comma | colon
  | text (s : String)
  | word (chars : List Char)

namespace Token

/-- What a scanner stands in. Words and texts are kept last character first. -/
inductive Place where
  | between
  | word (done : List Char)
  | text (done : List Char)
  | escape (done : List Char)
  | unit (done : List Char) (high : Option Nat) (value count : Nat)
  | afterHigh (done : List Char) (high : Nat)
  | afterHighEscape (done : List Char) (high : Nat)

structure Scanner where
  place : Place
  tokens : List Token

def punctuation? : Char → Option Token
  | '\x7b' => some .openBrace
  | '\x7d' => some .closeBrace
  | '[' => some .openBracket
  | ']' => some .closeBracket
  | ',' => some .comma
  | ':' => some .colon
  | _ => none

def isBlank (c : Char) : Bool := c = ' ' || c = '\t' || c = '\n' || c = '\r'

def isWordChar (c : Char) : Bool := !isBlank c && c ≠ '"' && (punctuation? c).isNone

def escapedChar? : Char → Option Char
  | '"' => some '"'
  | '\\' => some '\\'
  | '/' => some '/'
  | 'b' => some '\x08'
  | 'f' => some '\x0c'
  | 'n' => some '\n'
  | 'r' => some '\r'
  | 't' => some '\t'
  | _ => none

/-- The place after a complete code unit: a high half must be followed by a low one, and a low
half may stand nowhere else. -/
def afterUnit? (done : List Char) : Option Nat → Nat → Option Place
  | none, value =>
    if 0xD800 ≤ value ∧ value < 0xDC00 then some (.afterHigh done value)
    else if 0xDC00 ≤ value ∧ value < 0xE000 then none
    else some (.text (.ofNat value :: done))
  | some high, value =>
    if 0xDC00 ≤ value ∧ value < 0xE000 then
      some (.text (.ofNat (0x10000 + (high - 0xD800) * 0x400 + (value - 0xDC00)) :: done))
    else none

namespace Scanner

def start : Scanner := ⟨.between, []⟩

def endWord? (s : Scanner) : Option Scanner :=
  match s.place with
  | .word done => some ⟨.between, .word done.reverse :: s.tokens⟩
  | .between => some s
  | _ => none

/-- A character that belongs to no word, behind the end of any word. -/
def delimit? (s : Scanner) (c : Char) : Option Scanner :=
  if isBlank c then some s
  else if c = '"' then some ⟨.text [], s.tokens⟩
  else (punctuation? c).map fun token => ⟨.between, token :: s.tokens⟩

def step (s : Scanner) (c : Char) : Option Scanner :=
  match s.place with
  | .between => if isWordChar c then some ⟨.word [c], s.tokens⟩ else s.delimit? c
  | .word done =>
    if isWordChar c then some ⟨.word (c :: done), s.tokens⟩
    else do (← s.endWord?).delimit? c
  | .text done =>
    if c = '"' then some ⟨.between, .text (String.ofList done.reverse) :: s.tokens⟩
    else if c = '\\' then some ⟨.escape done, s.tokens⟩
    else if c.toNat < 0x20 then none
    else some ⟨.text (c :: done), s.tokens⟩
  | .escape done =>
    if c = 'u' then some ⟨.unit done none 0 0, s.tokens⟩
    else (escapedChar? c).map fun e => ⟨.text (e :: done), s.tokens⟩
  | .unit done high value count => do
    let value := 16 * value + (← hexValue? c)
    if count = 3 then return ⟨← afterUnit? done high value, s.tokens⟩
    else return ⟨.unit done high value (count + 1), s.tokens⟩
  | .afterHigh done high => if c = '\\' then some ⟨.afterHighEscape done high, s.tokens⟩ else none
  | .afterHighEscape done high =>
    if c = 'u' then some ⟨.unit done (some high) 0 0, s.tokens⟩ else none

end Scanner

def scan (text : String) : Option (List Token) := do
  let s ← text.toList.foldlM Scanner.step .start
  return (← s.endWord?).tokens.reverse

end Token
end AccessControl.Json
