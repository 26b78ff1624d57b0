import AccessControl.Number.Binary64
import Mathlib.Algebra.Group.Nat.Defs
import Mathlib.Order.Monotone.Basic

/-! Binary64 numbers by what they are worth. Ranks count magnitudes upwards, and so comparing keys is
comparing values. The number that stands for an integer is the nearest one, and of two equally near ones
the even one. -/
namespace AccessControl
namespace Binary64

/-- The units of the smallest positive magnitude that make up one. -/
def unitsInOne : Nat := 1 <<< 1074

theorem mul_unitsInOne (n : Nat) : n * unitsInOne = n <<< 1074 := by
  rw [unitsInOne, Nat.one_shiftLeft, Nat.shiftLeft_eq]

def value (x : Binary64) : Int := if x.negative then -(x.units : Int) else x.units

def rankUnits (rank : Nat) : Nat := (rank - (rank / binade - 1) * binade) <<< (rank / binade - 1)

theorem units_eq (x : Binary64) : x.units = rankUnits x.rank := rfl

@[simp] theorem rankUnits_zero : rankUnits 0 = 0 := by decide

theorem rankUnits_eq {shift significand : Nat} (low : shift = 0 ∨ binade ≤ significand)
    (high : significand ≤ 2 * binade) :
    rankUnits (shift * binade + significand) = significand * 2 ^ shift := by
  rcases Nat.lt_or_eq_of_le high with inside | rfl
  · have exponent : (shift * binade + significand) / binade - 1 = shift := by
      simp only [binade] at low inside ⊢
      omega
    rw [rankUnits, exponent, Nat.add_sub_cancel_left, Nat.shiftLeft_eq]
  · have exponent : (shift * binade + 2 * binade) / binade - 1 = shift + 1 := by
      simp only [binade]
      omega
    have rest : shift * binade + 2 * binade - (shift + 1) * binade = binade := by
      simp only [binade]
      omega
    rw [rankUnits, exponent, rest, Nat.shiftLeft_eq, Nat.pow_succ', ← Nat.mul_assoc,
      Nat.mul_comm binade 2]

theorem exists_parts (rank : Nat) : ∃ shift significand, rank = shift * binade + significand ∧
    (shift = 0 ∨ binade ≤ significand) ∧ significand < 2 * binade := by
  refine ⟨rank / binade - 1, rank - (rank / binade - 1) * binade, ?_, ?_, ?_⟩ <;>
    simp only [binade] <;> omega

theorem rankUnits_strictMono : StrictMono rankUnits := by
  refine strictMono_nat_of_lt_succ fun rank => ?_
  obtain ⟨shift, significand, rfl, low, high⟩ := exists_parts rank
  rw [rankUnits_eq low high.le, Nat.add_assoc, rankUnits_eq (low.imp_right (Nat.le_succ_of_le)) high]
  exact Nat.mul_lt_mul_of_pos_right (Nat.lt_succ_self _) (Nat.two_pow_pos _)

/-- Between two ranks that follow each other there is no magnitude. -/
theorem rankUnits_apart (rank other : Nat) :
    rankUnits other < rankUnits rank ∨ other = rank ∨ other = rank + 1 ∨
      rankUnits (rank + 1) < rankUnits other := by
  rcases Nat.lt_trichotomy other rank with below | same | above
  · exact .inl (rankUnits_strictMono below)
  · exact .inr (.inl same)
  · rcases Nat.lt_or_eq_of_le (Nat.succ_le_of_lt above) with beyond | next
    · exact .inr (.inr (.inr (rankUnits_strictMono beyond)))
    · exact .inr (.inr (.inl next.symm))

theorem key_lt_key_iff {x y : Binary64} : x.key < y.key ↔ x.value < y.value := by
  have above : x.units < y.units ↔ x.rank < y.rank := rankUnits_strictMono.lt_iff_lt
  have below : y.units < x.units ↔ y.rank < x.rank := rankUnits_strictMono.lt_iff_lt
  have null (z : Binary64) : 0 < z.units ↔ 0 < z.rank := by
    rw [units_eq, ← rankUnits_zero]
    exact rankUnits_strictMono.lt_iff_lt
  have hx := null x
  have hy := null y
  rw [key, key, value, value]
  cases x.negative <;> cases y.negative <;>
    simp only [Bool.false_eq_true, if_true, if_false] <;> omega

theorem key_eq_key_iff_value {x y : Binary64} : x.key = y.key ↔ x.value = y.value := by
  have less := key_lt_key_iff (x := x) (y := y)
  have more := key_lt_key_iff (x := y) (y := x)
  omega

theorem roundHalfEven_cases (num den : Nat) :
    (roundHalfEven num den = num / den ∧ 2 * (num % den) ≤ den ∧
        (2 * (num % den) = den → num / den % 2 = 0)) ∨
      (roundHalfEven num den = num / den + 1 ∧ den ≤ 2 * (num % den) ∧
        (2 * (num % den) = den → (num / den + 1) % 2 = 0)) := by
  unfold roundHalfEven
  dsimp only
  split
  · exact .inl ⟨rfl, by omega, by omega⟩
  · split
    · exact .inr ⟨rfl, by omega, by omega⟩
    · rcases Nat.mod_two_eq_zero_or_one (num / den) with even | odd
      · exact .inl ⟨by omega, by omega, by omega⟩
      · exact .inr ⟨by omega, by omega, by omega⟩

theorem significand_bounds (units : Nat) :
    (units.log2 - 52 = 0 ∨ binade ≤ units / 2 ^ (units.log2 - 52)) ∧
      units / 2 ^ (units.log2 - 52) < 2 * binade := by
  have scale : 0 < 2 ^ (units.log2 - 52) := Nat.two_pow_pos _
  constructor
  · rcases Nat.eq_zero_or_pos (units.log2 - 52) with none | some
    · exact .inl none
    · have nonzero : units ≠ 0 := by
        rintro rfl
        simp at some
      refine .inr ((Nat.le_div_iff_mul_le scale).2 ?_)
      calc binade * 2 ^ (units.log2 - 52) = 2 ^ (52 + (units.log2 - 52)) := by rw [Nat.pow_add]; rfl
        _ = 2 ^ units.log2 := by congr 1; omega
        _ ≤ units := Nat.log2_self_le nonzero
  · rw [Nat.div_lt_iff_lt_mul scale]
    calc units < 2 ^ (units.log2 + 1) := Nat.lt_log2_self
      _ ≤ 2 ^ (53 + (units.log2 - 52)) := Nat.pow_le_pow_right (by decide) (by omega)
      _ = 2 * binade * 2 ^ (units.log2 - 52) := by rw [Nat.pow_add]; rfl

theorem nearestRank_eq (num den : Nat) : nearestRank num den =
    ((num * unitsInOne / den).log2 - 52) * binade +
      roundHalfEven (num * unitsInOne) (den * 2 ^ ((num * unitsInOne / den).log2 - 52)) := by
  rw [nearestRank, ← mul_unitsInOne, Nat.shiftLeft_eq]

/-- A quotient lies between two ranks that follow each other, and it gets the nearer of these, or the
even one if it is in the middle. -/
theorem nearestRank_cases (num : Nat) {den : Nat} (positive : 0 < den) :
    ∃ rank, rankUnits rank * den ≤ num * unitsInOne ∧ num * unitsInOne < rankUnits (rank + 1) * den ∧
      (nearestRank num den = rank ∧
          2 * (num * unitsInOne) ≤ rankUnits rank * den + rankUnits (rank + 1) * den ∧
          (2 * (num * unitsInOne) = rankUnits rank * den + rankUnits (rank + 1) * den → rank % 2 = 0) ∨
        nearestRank num den = rank + 1 ∧
          rankUnits rank * den + rankUnits (rank + 1) * den ≤ 2 * (num * unitsInOne) ∧
          (2 * (num * unitsInOne) = rankUnits rank * den + rankUnits (rank + 1) * den →
            (rank + 1) % 2 = 0)) := by
  rw [nearestRank_eq]
  obtain ⟨low, high⟩ := significand_bounds (num * unitsInOne / den)
  generalize num * unitsInOne = units at low high ⊢
  generalize (units / den).log2 - 52 = shift at low high ⊢
  rw [Nat.div_div_eq_div_mul] at low high
  have rounded := roundHalfEven_cases units (den * 2 ^ shift)
  have rest := Nat.div_add_mod' units (den * 2 ^ shift)
  have short := Nat.mod_lt units (Nat.mul_pos positive (Nat.two_pow_pos shift))
  have parity (significand : Nat) : (shift * binade + significand) % 2 = significand % 2 := by
    simp only [binade]
    omega
  have scaled (significand : Nat) : significand * 2 ^ shift * den = significand * (den * 2 ^ shift) := by
    rw [Nat.mul_assoc, Nat.mul_comm den]
  refine ⟨shift * binade + units / (den * 2 ^ shift), ?_⟩
  rw [Nat.add_assoc, parity, parity, rankUnits_eq low high.le,
    rankUnits_eq (low.imp_right Nat.le_succ_of_le) high, scaled, scaled, Nat.succ_mul]
  refine ⟨by omega, by omega, ?_⟩
  rcases rounded with ⟨floor, near, even⟩ | ⟨ceiling, near, even⟩
  · exact .inl ⟨by rw [floor], by omega, fun half => even (by omega)⟩
  · exact .inr ⟨by rw [ceiling], by omega, fun half => even (by omega)⟩

/-- How far the magnitude of a rank is from a quotient, in units and times the denominator. -/
def rankDistance (num den rank : Nat) : Nat :=
  ((rankUnits rank * den : Nat) - (num * unitsInOne : Nat) : Int).natAbs

/-- No other rank is nearer to a quotient, and the rank is even if another is as near. -/
theorem nearestRank_nearest (num : Nat) {den : Nat} (positive : 0 < den) (other : Nat) :
    rankDistance num den (nearestRank num den) ≤ rankDistance num den other ∧
      (other ≠ nearestRank num den →
        rankDistance num den other = rankDistance num den (nearestRank num den) →
        nearestRank num den % 2 = 0) := by
  obtain ⟨rank, above, below, rounded⟩ := nearestRank_cases num positive
  have apart : rankUnits other * den < rankUnits rank * den ∨ other = rank ∨ other = rank + 1 ∨
      rankUnits (rank + 1) * den < rankUnits other * den :=
    (rankUnits_apart rank other).imp (Nat.mul_lt_mul_of_pos_right · positive)
      (Or.imp_right (Or.imp_right (Nat.mul_lt_mul_of_pos_right · positive)))
  rw [rankDistance, rankDistance]
  rcases rounded with ⟨found, near, even⟩ | ⟨found, near, even⟩
  · rw [found]
    rcases apart with less | rfl | rfl | more <;> omega
  · rw [found]
    rcases apart with less | rfl | rfl | more <;> omega

example : ofScientific? false 1 (-1) = ofRank? false 0x3fb999999999999a := by decide +kernel

example : (ofInt 1).quotient? (ofInt 10) = ofScientific? false 1 (-1) := by decide +kernel

theorem log2_shiftLeft_lt {n bits : Nat} (short : n < 2 ^ bits) (some : 0 < bits) (exponent : Nat) :
    (n <<< exponent).log2 < bits + exponent := by
  rw [Nat.shiftLeft_eq]
  rcases Nat.eq_zero_or_pos n with rfl | positive
  · rw [Nat.zero_mul, Nat.log2_zero]
    omega
  · have nonzero : n * 2 ^ exponent ≠ 0 :=
      Nat.mul_ne_zero positive.ne' (Nat.two_pow_pos exponent).ne'
    rw [Nat.log2_lt nonzero, Nat.pow_add]
    exact Nat.mul_lt_mul_of_pos_right short (Nat.two_pow_pos exponent)

theorem nearestRank_lt {n : Nat} (short : n < 2 ^ 64) : nearestRank n 1 < rankLimit := by
  have shift : (n * unitsInOne).log2 < 64 + 1074 := by
    rw [mul_unitsInOne]
    exact log2_shiftLeft_lt short (by decide) 1074
  have rounded := roundHalfEven_cases (n * unitsInOne) (2 ^ ((n * unitsInOne).log2 - 52))
  have high := (significand_bounds (n * unitsInOne)).2
  rw [nearestRank_eq, Nat.div_one, Nat.one_mul]
  simp only [rankLimit, binade] at high ⊢
  omega

def distance (x : Binary64) (n : Int) : Nat := (x.value - n * unitsInOne).natAbs

/-- The number nearest to an integer: no other is nearer, and its significand is even if another is as
near. -/
structure Nearest (x : Binary64) (n : Int) : Prop where
  least : ∀ y : Binary64, x.distance n ≤ y.distance n
  even : ∀ y : Binary64, y.value ≠ x.value → y.distance n = x.distance n → x.significand % 2 = 0

theorem significand_mod_two (x : Binary64) : x.significand % 2 = x.rank % 2 := by
  simp only [significand, shift, binade]
  omega

theorem negative_ofInt (n : Int) : (ofInt n).negative = decide (n < 0) := rfl

theorem rank_ofInt {n : Int} (short : n.natAbs < 2 ^ 64) :
    (ofInt n).rank = nearestRank n.natAbs 1 := by
  rw [ofInt]
  exact Nat.min_eq_left (Nat.le_sub_one_of_lt (nearestRank_lt short))

/-- A number on the side of an integer is as far away as their magnitudes are, and one on the other side
is behind zero. -/
theorem distance_eq (x : Binary64) (n : Int) : x.distance n =
    if x.negative = decide (n < 0) then rankDistance n.natAbs 1 x.rank
    else rankUnits x.rank + rankDistance n.natAbs 1 0 := by
  have target : n * unitsInOne = if n < 0 then -((n.natAbs * unitsInOne : Nat) : Int)
      else ((n.natAbs * unitsInOne : Nat) : Int) := by
    rw [Int.natCast_mul]
    split
    · rw [Int.ofNat_natAbs_of_nonpos (by omega), Int.neg_mul, Int.neg_neg]
    · rw [Int.natAbs_of_nonneg (by omega)]
  rw [distance, target, value, units_eq, rankDistance, rankDistance, rankUnits_zero, Nat.mul_one]
  generalize n.natAbs * unitsInOne = units
  by_cases below : n < 0 <;> cases x.negative <;>
    simp only [below, decide_true, decide_false, Bool.false_eq_true, Bool.true_eq_false, if_true,
      if_false] <;>
    omega

theorem nearest_ofInt {n : Int} (short : n.natAbs < 2 ^ 64) : (ofInt n).Nearest n := by
  have rank := rank_ofInt short
  have own : (ofInt n).distance n = rankDistance n.natAbs 1 (nearestRank n.natAbs 1) := by
    rw [distance_eq, if_pos (negative_ofInt n), rank]
  have nearest := nearestRank_nearest n.natAbs Nat.one_pos
  constructor
  · intro y
    have least := nearest 0
    rw [own, distance_eq]
    split
    · exact (nearest y.rank).1
    · omega
  · intro y apart tie
    have zero := nearest 0
    rw [own, distance_eq] at tie
    rw [significand_mod_two, rank]
    split at tie
    · rename_i side
      refine (nearest y.rank).2 (fun same => apart ?_) tie
      rw [value, value, units_eq, units_eq, rank, same, side, negative_ofInt]
    · rcases Nat.eq_zero_or_pos (nearestRank n.natAbs 1) with none | some
      · rw [none]
      · exact zero.2 some.ne (by omega)

example : ofInt 9007199254740993 = ofInt 9007199254740992 := by decide +kernel

end Binary64
end AccessControl
