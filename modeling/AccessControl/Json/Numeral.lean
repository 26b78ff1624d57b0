import AccessControl.Json.Basic
import AccessControl.Number.Scaled

/-! Numerals: a sign, a whole part, a fraction and an exponent, most of which may be left out. Strict
ones have an optional minus and a whole part without needless zeros. A bare whole part is an integer
where one fits. -/
namespace AccessControl

inductive DecimalRule where
  | nearest
  | scaled

structure Numeral where
  negative : Bool
  whole : List Char
  fraction : Option (List Char)
  exponent : Option Int

namespace Numeral

def exponent? (cs : List Char) : Option Int :=
  let (negative, digits) := match cs with
    | '-' :: rest => (true, rest)
    | '+' :: rest => (false, rest)
    | _ => (false, cs)
  if digits.isEmpty || !digits.all isDigit then none
  else some (if negative then -(digitsValue digits : Int) else digitsValue digits)

/-- The parts of a numeral without its sign. Digits must stand before the point or behind it. -/
def unsigned? (negative : Bool) (cs : List Char) : Option Numeral :=
  let whole := cs.takeWhile isDigit
  let rest := cs.dropWhile isDigit
  let (fraction, rest) := match rest with
    | '.' :: tail => (some (tail.takeWhile isDigit), tail.dropWhile isDigit)
    | _ => (none, rest)
  if whole.isEmpty && (fraction.getD []).isEmpty then none
  else match rest with
    | [] => some ⟨negative, whole, fraction, none⟩
    | mark :: tail =>
      if mark = 'e' ∨ mark = 'E' then
        (exponent? tail).map fun exponent => ⟨negative, whole, fraction, some exponent⟩
      else none

def hasNeedlessZero (n : Numeral) : Bool := n.whole.length > 1 && n.whole.head? == some '0'

def fitsSigned (n : Numeral) : Bool :=
  digitsValue n.whole < 0x8000000000000000 + (if n.negative then 1 else 0)

def isStrict (n : Numeral) : Bool :=
  !n.whole.isEmpty && !n.hasNeedlessZero && n.fraction != some []

def ofChars? (cs : List Char) : Option Numeral :=
  (match cs with
    | '-' :: rest => unsigned? true rest
    | _ => unsigned? false cs).filter isStrict

/-- The integer that is meant, unless a fraction or an exponent is written or it is minus zero. -/
def integer? (n : Numeral) : Option Number :=
  match n.fraction, n.exponent with
  | none, none =>
    let value := digitsValue n.whole
    if n.negative then (if value = 0 then none else Number.ofInt? (-value)) else Number.ofInt? value
  | _, _ => none

def binary64? (rule : DecimalRule) (n : Numeral) : Option Binary64 :=
  let fraction := n.fraction.getD []
  let exponent := n.exponent.getD 0
  match rule with
  | .nearest => Binary64.ofScientific? n.negative (digitsValue (n.whole ++ fraction))
      (exponent - fraction.length)
  | .scaled => (ScaledDecimal.ofDigits n.whole fraction exponent).binary64? n.negative

/-- None where the magnitude is past every finite one. -/
def number? (rule : DecimalRule) (n : Numeral) : Option Number :=
  n.integer? <|> (n.binary64? rule).map .float

end Numeral
end AccessControl
