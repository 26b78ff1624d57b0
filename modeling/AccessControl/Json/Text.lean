import AccessControl.Json.Basic
import AccessControl.Number.Notation

/-! The written forms of a value: compact, without any blank, and indented by two blanks a level. -/
namespace AccessControl

/-- Magnitudes from `0.00001` to below `10 ^ 16` are written positionally. -/
def Number.layout : DecimalLayout := ⟨-5, 15⟩

def Number.text : Number → String
  | .integer n _ =>
    let digits := Nat.toDigits 10 n.natAbs
    String.ofList (if n < 0 then '-' :: digits else digits)
  | .float x => Number.layout.text x

namespace Json

def hexDigit (n : Nat) : Char := (Nat.toDigits 16 n).headD '0'

/-- Quotes, backslashes and controls are escaped, and nothing else. -/
def escaped (c : Char) : List Char :=
  match c with
  | '"' => ['\\', '"']
  | '\\' => ['\\', '\\']
  | '\n' => ['\\', 'n']
  | '\r' => ['\\', 'r']
  | '\t' => ['\\', 't']
  | '\x08' => ['\\', 'b']
  | '\x0c' => ['\\', 'f']
  | c =>
    if c.toNat < 0x20 then
      ['\\', 'u', '0', '0', hexDigit (c.toNat / 16), hexDigit (c.toNat % 16)]
    else [c]

def quoted (s : String) : String := String.ofList ('"' :: s.toList.flatMap escaped ++ ['"'])

def boolText (b : Bool) : String := if b then "true" else "false"

def listed : List String → String
  | [] => ""
  | [part] => part
  | part :: rest => part ++ "," ++ listed rest

mutual

def compact : Json → String
  | .null => "null"
  | .bool b => boolText b
  | .number n => n.text
  | .string s => quoted s
  | .array items => "[" ++ listed (compactItems items) ++ "]"
  | .object members => "\x7b" ++ listed (compactMembers members) ++ "\x7d"

def compactItems : List Json → List String
  | [] => []
  | item :: rest => item.compact :: compactItems rest

def compactMembers : List (String × Json) → List String
  | [] => []
  | (key, value) :: rest => (quoted key ++ ":" ++ value.compact) :: compactMembers rest

end

def lineStart (level : Nat) : String := String.ofList ('\n' :: List.replicate (2 * level) ' ')

mutual

def indented (level : Nat) : Json → String
  | .array items =>
    if items.isEmpty then "[]"
    else "[" ++ listed (indentedItems (level + 1) items) ++ lineStart level ++ "]"
  | .object members =>
    if members.isEmpty then "\x7b\x7d"
    else "\x7b" ++ listed (indentedMembers (level + 1) members) ++ lineStart level ++ "\x7d"
  | value => value.compact

def indentedItems (level : Nat) : List Json → List String
  | [] => []
  | item :: rest => (lineStart level ++ item.indented level) :: indentedItems level rest

def indentedMembers (level : Nat) : List (String × Json) → List String
  | [] => []
  | (key, value) :: rest =>
    (lineStart level ++ quoted key ++ ": " ++ value.indented level)
      :: indentedMembers level rest

end

def pretty (value : Json) : String := value.indented 0

end Json
end AccessControl
