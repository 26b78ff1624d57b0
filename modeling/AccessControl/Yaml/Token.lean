import AccessControl.Digit
import AccessControl.Yaml.Cursor

/-! The tokens of indented documents. Those that open and close block collections are not written,
they follow from the layout. Directives, tags and names of nodes are read here. -/
namespace AccessControl.Yaml

inductive Token where
  | versionDirective
  /-- What a handle of tags stands for. Directives that are not known have no effect. -/
  | tagDirective (handle meaning : String)
  | documentStart | documentEnd
  | blockListStart | blockTableStart | blockEnd
  | flowListStart | flowListEnd | flowTableStart | flowTableEnd
  | item | comma | key | value
  | reference (name : String)
  | anchor (name : String)
  | tag (handle suffix : String)
  | scalar (plain : Bool) (text : String)
deriving DecidableEq

def isAsciiLetter (c : Char) : Bool := ('a' ≤ c && c ≤ 'z') || ('A' ≤ c && c ≤ 'Z')

def isHandleChar (c : Char) : Bool := isAsciiLetter c || isDigit c || c = '_' || c = '-'

def isUriChar (c : Char) : Bool :=
  isHandleChar c || "#;/?:@&=+$,.!~*'()[]%".toList.contains c

def isTagChar (c : Char) : Bool := isUriChar c && !isFlowIndicator c && c ≠ '!'

def isAnchorChar (c : Char) : Bool := !isGap c && !isFlowIndicator c && c ≠ '\ufeff'

def uriByte? (c : Cursor) : Option (Nat × Cursor) :=
  match c.rest with
  | '%' :: high :: low :: _ => (digitsValue? 16 [high, low]).map fun byte => (byte, c.skip 3)
  | _ => none

def uriBytes? : Nat → Nat → Cursor → Option (Nat × Cursor)
  | 0, value, c => some (value, c)
  | count + 1, value, c => do
    let (byte, c) ← uriByte? c
    if byte / 0x40 = 2 then uriBytes? count (0x100 * value + byte) c else none

/-- An escaped character. Its first byte tells how many more there are. -/
def uriEscape? (c : Cursor) : Option (Char × Cursor) := do
  let (byte, c) ← uriByte? c
  let more ← if byte < 0x80 then some 0
    else if 0xC0 ≤ byte ∧ byte < 0xE0 then some 1
    else if 0xE0 ≤ byte ∧ byte < 0xF0 then some 2
    else if 0xF0 ≤ byte ∧ byte < 0xF8 then some 3
    else none
  let (value, c) ← uriBytes? more byte c
  if value.isValidChar then return (.ofNat value, c) else none

def uriText? (p : Char → Bool) : Nat → Cursor → Option (List Char × Cursor)
  | 0, _ => none
  | fuel + 1, c =>
    if !p c.char then some ([], c)
    else do
      let (char, c) ← if c.char = '%' then uriEscape? c else some (c.char, c.step)
      let (chars, c) ← uriText? p fuel c
      return (char :: chars, c)

namespace Token

def name? (c : Cursor) : Option (String × Cursor) :=
  match c.step.run isAnchorChar with
  | ([], _) => none
  | (name, behind) => some (String.ofList name, behind)

def verbatimTag? (c : Cursor) : Option (Token × Cursor) := do
  let (suffix, c) ← uriText? isUriChar (c.rest.length + 1) c
  if c.char = '>' then return (.tag "" (String.ofList suffix), c.step) else none

/-- A tag with a handle of its own or the primary one. A lone indicator is a tag, too. -/
def shorthandTag? (c : Cursor) : Option (Token × Cursor) := do
  let (word, c) := c.step.run isHandleChar
  let named := c.char = '!'
  let c := if named then c.step else c
  let (suffix, c) ← uriText? isTagChar (c.rest.length + 1) c
  if named then
    if suffix.isEmpty then none
    else return (.tag (String.ofList ('!' :: word ++ ['!'])) (String.ofList suffix), c)
  else if word.isEmpty && suffix.isEmpty then return (.tag "" "!", c)
  else return (.tag "!" (String.ofList (word ++ suffix)), c)

/-- A tag, which a gap must follow, or an indicator inside of a flow collection. -/
def tag? (inFlow : Bool) (c : Cursor) : Option (Token × Cursor) := do
  let (token, c) ← if c.next = '<' then verbatimTag? (c.skip 2) else shorthandTag? c
  if isGap c.char || (inFlow && isFlowIndicator c.char) then return (token, c) else none

def versionNumber? (c : Cursor) : Option Cursor :=
  let (digits, behind) := c.run isDigit
  if digits.isEmpty || 9 < digits.length then none else some behind

def versionDirective? (c : Cursor) : Option (Token × Cursor) := do
  let c ← versionNumber? (c.skipWhile isBlank)
  if c.char = '.' then return (.versionDirective, ← versionNumber? c.step) else none

/-- The handle of a tag directive, which ends as it begins. -/
def handle? (c : Cursor) : Option (String × Cursor) :=
  if c.char ≠ '!' then none
  else
    let (word, behind) := c.step.run isHandleChar
    if behind.char = '!' then some (String.ofList ('!' :: word ++ ['!']), behind.step)
    else if word.isEmpty then some ("!", behind)
    else none

def meaning? (c : Cursor) : Option (String × Cursor) := do
  let (first, c) ← if c.char = '!' then some ('!', c.step)
    else if !isTagChar c.char then none
    else if c.char = '%' then uriEscape? c
    else some (c.char, c.step)
  let (chars, c) ← uriText? isUriChar (c.rest.length + 1) c
  if isGap c.char then return (String.ofList (first :: chars), c) else none

def tagDirective? (c : Cursor) : Option (Token × Cursor) := do
  let (handle, c) ← handle? (c.skipWhile isBlank)
  let (meaning, c) ← meaning? (c.skipWhile isBlank)
  return (.tagDirective handle meaning, c)

def directive? (c : Cursor) : Option (Token × Cursor) := do
  let (name, c) := c.step.run isHandleChar
  if name.isEmpty || !isGap c.char then none
  else
    let (token, c) ← match String.ofList name with
      | "YAML" => versionDirective? c
      | "TAG" => tagDirective? c
      | _ => some (.tagDirective "" "", c.skipWhile (· ≠ '\n'))
    let (_, c) ← c.lineRest?
    if endsLine c.char then return (token, c.step) else none

end Token
end AccessControl.Yaml
