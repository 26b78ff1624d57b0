import AccessControl.Digit
import AccessControl.Number.Binary64

/-! Decimals read by scaling. The first digits, as many as fit 64 bits, make a significand, and
powers of ten scale it in binary64. Every step rounds, so that the result may miss the nearest
number by its last bit. -/
namespace AccessControl

structure ScaledDecimal where
  significand : Nat
  exponent : Int

namespace ScaledDecimal

def append (significand : Nat) : List Char → Nat × List Char
  | [] => (significand, [])
  | c :: rest =>
    let next := 10 * significand + (c.toNat - '0'.toNat)
    if next < 0x10000000000000000 then append next rest else (significand, c :: rest)

/-- Digits left over count as zeros before the point and are dropped behind it. -/
def ofDigits (whole fraction : List Char) (exponent : Int) : ScaledDecimal :=
  let (start, beyond) := append 0 whole
  let (significand, dropped) := append start fraction
  ⟨significand, exponent + beyond.length - (fraction.length - dropped.length : Nat)⟩

def maxExponent : Nat := 308

def powerOfTen (n : Nat) : Binary64 := .ofInt (Nat.pow 10 n)

/-- A number divided by a power of ten, in two steps where one power is not enough. Two largest
powers leave nothing of a significand of 64 bits. -/
def shrink (x : Binary64) (n : Nat) : Option Binary64 :=
  if n ≤ maxExponent then x.quotient? (powerOfTen n)
  else if n ≤ 2 * maxExponent then do
    (← x.quotient? (powerOfTen maxExponent)).quotient? (powerOfTen (n - maxExponent))
  else some (.zero x.negative)

def binary64? (negative : Bool) (d : ScaledDecimal) : Option Binary64 :=
  let start : Binary64 := { Binary64.ofInt d.significand with negative := negative }
  if d.exponent < 0 then shrink start d.exponent.natAbs
  else if d.significand = 0 then some (.zero negative)
  else if maxExponent < d.exponent.natAbs then none
  else start.product? (powerOfTen d.exponent.natAbs)

end ScaledDecimal
end AccessControl
