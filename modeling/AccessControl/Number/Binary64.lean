/-! Finite binary64 numbers in exact arithmetic. A magnitude is given by its rank: ranks count the
representable magnitudes upwards from zero, so comparing numbers is comparing ranks, and rounding
a quotient is one division. -/
namespace AccessControl

/-- How many ranks there are from a power of two to the next: two to the power of 52. -/
def Binary64.binade : Nat := 0x10000000000000

def Binary64.rankLimit : Nat := 2047 * Binary64.binade

structure Binary64 where
  negative : Bool
  rank : Nat
  rank_lt : rank < Binary64.rankLimit
deriving DecidableEq

namespace Binary64

def shift (x : Binary64) : Nat := x.rank / binade - 1

def significand (x : Binary64) : Nat := x.rank - x.shift * binade

/-- The magnitude in units of the smallest positive one, which is `2 ^ -1074`. -/
def units (x : Binary64) : Nat := x.significand <<< x.shift

def key (x : Binary64) : Int := if x.negative then -(x.rank : Int) else x.rank

def roundHalfEven (num den : Nat) : Nat :=
  let quotient := num / den
  let rest := 2 * (num % den)
  if rest < den then quotient else if den < rest then quotient + 1 else quotient + quotient % 2

/-- The rank of the magnitude nearest to `num / den`, also past the last finite one. A significand
that rounds up to `2 ^ 53` carries into the next binade by itself. -/
def nearestRank (num den : Nat) : Nat :=
  let units := num <<< 1074
  let shift := Nat.log2 (units / den) - 52
  shift * binade + roundHalfEven units (den <<< shift)

def zero (negative : Bool) : Binary64 := ⟨negative, 0, by decide⟩

def ofRank? (negative : Bool) (rank : Nat) : Option Binary64 :=
  if h : rank < rankLimit then some ⟨negative, rank, h⟩ else none

def ofInt (n : Int) : Binary64 :=
  ⟨decide (n < 0), min (nearestRank n.natAbs 1) (rankLimit - 1),
    Nat.lt_of_le_of_lt (Nat.min_le_right _ _) (by decide)⟩

/-- The number nearest to `coefficient * 10 ^ exponent`, if that is finite. Outside of the guarded
range a coefficient other than zero overflows or vanishes, whatever its digits are. -/
def ofScientific? (negative : Bool) (coefficient : Nat) (exponent : Int) : Option Binary64 :=
  let magnitude := (Nat.toDigits 10 coefficient).length + exponent
  if coefficient = 0 ∨ magnitude < -330 then some (zero negative)
  else if 320 < magnitude then none
  else ofRank? negative
    (nearestRank (coefficient * Nat.pow 10 exponent.toNat) (Nat.pow 10 (-exponent).toNat))

def product? (x y : Binary64) : Option Binary64 :=
  ofRank? (x.negative != y.negative) (nearestRank (x.units * y.units) (1 <<< 2148))

def quotient? (x y : Binary64) : Option Binary64 :=
  if y.rank = 0 then none
  else ofRank? (x.negative != y.negative) (nearestRank x.units y.units)

end Binary64
end AccessControl
