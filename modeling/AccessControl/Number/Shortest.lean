import AccessControl.Number.Binary64

/-! The shortest decimal that reads back as a given number: the fewest digits that fall within
the numbers rounding to it, and among those the nearest, a tie going to the even digit. -/
namespace AccessControl

structure Decimal where
  digits : List Char
  exponent : Int
deriving DecidableEq

namespace Decimal

def ofScientific (coefficient : Nat) (exponent : Int) : Decimal :=
  let digits := Nat.toDigits 10 coefficient
  ⟨(digits.reverse.dropWhile (· = '0')).reverse, exponent + digits.length - 1⟩

end Decimal

namespace Binary64

/-- Four times the distance, in last bits, from the significand to the middle of the gap below. It
is half as wide below a power of two, except at the smallest one. -/
def gapBelow (x : Binary64) : Nat := if x.significand = binade ∧ 0 < x.shift then 1 else 2

/-- Whether `coefficient * 10 ^ exponent` rounds to `x`: between the middles of the two gaps
beside it, which belong to the even neighbour. -/
def isNear (x : Binary64) (coefficient : Nat) (exponent : Int) : Bool :=
  let point := (coefficient * Nat.pow 10 exponent.toNat) <<< 1076
  let scale := Nat.pow 10 (-exponent).toNat <<< x.shift
  let low := (4 * x.significand - x.gapBelow) * scale
  let high := (4 * x.significand + 2) * scale
  if x.significand % 2 = 0 then low ≤ point && point ≤ high else low < point && point < high

def decimalExponent (x : Binary64) : Int :=
  (Nat.toDigits 10 ((x.units * Nat.pow 10 400) >>> 1074)).length - 401

def roundAt? (x : Binary64) (exponent : Int) : Option Decimal :=
  let num := x.units * Nat.pow 10 (-exponent).toNat
  let den := Nat.pow 10 exponent.toNat <<< 1074
  let below := num / den
  match x.isNear below exponent, x.isNear (below + 1) exponent with
  | true, true => some (.ofScientific (roundHalfEven num den) exponent)
  | true, false => some (.ofScientific below exponent)
  | false, true => some (.ofScientific (below + 1) exponent)
  | false, false => none

def shortest (x : Binary64) : Decimal :=
  let first := x.decimalExponent
  ((List.range 17).findSome? fun (rest : Nat) => x.roundAt? (first - rest)).getD ⟨['0'], 0⟩

end Binary64
end AccessControl
