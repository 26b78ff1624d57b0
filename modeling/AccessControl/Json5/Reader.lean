import AccessControl.Json.Reader
import AccessControl.Json5.Letter
import AccessControl.Json5.Token

/-! Reading relaxed notation: bare keys, a comma behind the last item, and more numerals than the
strict one has. -/
namespace AccessControl.Json5

def isNameStart (c : Char) : Bool := c = '$' || c = '_' || isLetter c

/-- The code units of a name. An escaped one may stand anywhere and be any. -/
def nameUnits? (first : Bool) : List Char → Option (List Nat)
  | [] => some []
  | '\\' :: 'u' :: a :: b :: c :: d :: rest => do
    let value ← digitsValue? 16 [a, b, c, d]
    return value :: (← nameUnits? false rest)
  | c :: rest =>
    if isNameStart c || (!first && isJoined c) then (nameUnits? false rest).map (c.toNat :: ·)
    else none

def name? (word : List Char) : Option String := do
  let chars ← unitsText? (← nameUnits? true word)
  if chars.isEmpty then none else return String.ofList chars

def notFinite : List String := ["Infinity", "-Infinity", "NaN", "-NaN"]

def hexadecimal? (digits : List Char) : Option Json := do
  let n ← if digits.isEmpty then none else digitsValue? 16 digits
  if n < 0x100000000 then return .ofNat n else none

def decimal? (negative : Bool) (digits : List Char) : Option Json := do
  let numeral ← (Numeral.unsigned? negative digits).filter fun n => !n.hasNeedlessZero
  let number ← numeral.number? .nearest
  let isInteger := numeral.fraction.isNone && numeral.exponent.isNone
  if isInteger && !numeral.fitsSigned then none else return .number number

/-- Numbers that are not finite read as `null`, since no value stands for them. -/
def value? (word : List Char) : Option Json :=
  match word with
  | '0' :: 'x' :: digits | '0' :: 'X' :: digits => hexadecimal? digits
  | '+' :: digits => decimal? false digits
  | '-' :: digits => if notFinite.contains (String.ofList word) then some .null
    else decimal? true digits
  | _ =>
    if notFinite.contains (String.ofList word) then some .null
    else Json.literal? word <|> decimal? false word

def ofText? (text : String) : Option Json := do
  let tokens ← scan text
  Json.ofTokens? ⟨tokens.length, value?, name?, true⟩ tokens

end AccessControl.Json5
