import ContextPack.Decimal.Shortest
import Mathlib.Algebra.Group.Nat.Defs

namespace ContextPack
namespace Shortest

/-!
# The search for a shortest decimal ends with one

The grids get finer from one step to the next.  Once a step of the grid is no
longer than a quarter of the last binary place, the decimal below the value
rounds to it, so the search cannot fail before it.
-/

/-! ## Grids that are fine enough -/

/-- A step of the decimal grid is at most one binary place long. -/
def IsFine (exponent grid : Int) : Prop :=
  powerUp 10 grid * powerDown 2 exponent ≤ powerUp 2 exponent * powerDown 10 grid

theorem powerUp_pos {base : Nat} (pos : 0 < base) : ∀ exponent, 0 < powerUp base exponent
  | .ofNat _ => Nat.pow_pos pos
  | .negSucc _ => Nat.one_pos

theorem powerDown_pos {base : Nat} (pos : 0 < base) : ∀ exponent, 0 < powerDown base exponent
  | .ofNat _ => Nat.one_pos
  | .negSucc _ => Nat.pow_pos pos

theorem ten_pow_le_two_pow {tens twos : Nat} (le : 10 * tens ≤ 3 * twos) : 10 ^ tens ≤ 2 ^ twos := by
  refine (Nat.pow_le_pow_iff_left (n := 3) (by decide)).mp ?_
  calc (10 ^ tens) ^ 3 = (10 ^ 3) ^ tens := Nat.pow_right_comm 10 tens 3
    _ ≤ (2 ^ 10) ^ tens := Nat.pow_le_pow_left (by decide) tens
    _ = 2 ^ (10 * tens) := (Nat.pow_mul 2 10 tens).symm
    _ ≤ 2 ^ (3 * twos) := Nat.pow_le_pow_right (by decide) le
    _ = (2 ^ twos) ^ 3 := by rw [← Nat.pow_mul, Nat.mul_comm]

theorem two_pow_le_ten_pow {twos tens : Nat} (le : 10 * twos ≤ 33 * tens) : 2 ^ twos ≤ 10 ^ tens := by
  refine (Nat.pow_le_pow_iff_left (n := 10) (by decide)).mp ?_
  calc (2 ^ twos) ^ 10 = 2 ^ (10 * twos) := by rw [← Nat.pow_mul, Nat.mul_comm]
    _ ≤ 2 ^ (33 * tens) := Nat.pow_le_pow_right (by decide) le
    _ = (2 ^ 33) ^ tens := Nat.pow_mul 2 33 tens
    _ ≤ (10 ^ 10) ^ tens := Nat.pow_le_pow_left (by decide) tens
    _ = (10 ^ tens) ^ 10 := Nat.pow_right_comm 10 10 tens

/-- Twenty-three grids below the leading digit the grid is fine enough for any
number in the range of the exponents. -/
theorem isFine_of_range {digits exponent : Int} (most : digits ≤ 53) (least : -1074 ≤ exponent)
    (greatest : exponent ≤ 971) :
    IsFine (exponent - 2) ((digits + exponent) * 30103 / 100000 + 2 - 23) := by
  -- Both bases have room to spare: 10³ ≤ 2¹⁰ above one and 2³³ ≤ 10¹⁰ below it.
  generalize isGrid : (digits + exponent) * 30103 / 100000 + 2 - 23 = grid
  generalize isPlace : exponent - 2 = place
  rcases place with twos | twos <;> rcases grid with tens | tens
  · rw [Int.ofNat_eq_natCast] at isPlace isGrid
    have exponents : 10 * tens ≤ 3 * twos := by omega
    have powers := ten_pow_le_two_pow exponents
    simpa [IsFine, powerUp, powerDown] using powers
  · have powers : 0 < 2 ^ twos * 10 ^ (tens + 1) :=
      Nat.mul_pos (Nat.pow_pos Nat.two_pos) (Nat.pow_pos (by decide))
    rwa [IsFine, powerUp, powerUp, powerDown, powerDown, Nat.mul_one]
  · rw [Int.ofNat_eq_natCast] at isGrid
    omega
  · have exponents : 10 * (twos + 1) ≤ 33 * (tens + 1) := by omega
    have powers := two_pow_le_ten_pow exponents
    simpa [IsFine, powerUp, powerDown] using powers

/-! ## Hits -/

section Search

variable {range : Interval} {grid : Int}

/-- On a fine grid the decimal below the value rounds to it. -/
theorem holds_below (low : range.low < range.centre) (high : range.centre < range.high)
    (fine : IsFine range.exponent grid) :
    range.holds grid (range.centre * powerUp 2 range.exponent * powerDown 10 grid /
      (powerUp 10 grid * powerDown 2 range.exponent)) = true := by
  have stepPos : 0 < powerUp 10 grid * powerDown 2 range.exponent :=
    Nat.mul_pos (powerUp_pos (by decide) _) (powerDown_pos (by decide) _)
  have placePos : 0 < powerUp 2 range.exponent * powerDown 10 grid :=
    Nat.mul_pos (powerUp_pos (by decide) _) (powerDown_pos (by decide) _)
  rw [IsFine] at fine
  simp only [Interval.holds, compareOnGrid, Nat.mul_assoc]
  generalize powerUp 10 grid * powerDown 2 range.exponent = step at *
  generalize powerUp 2 range.exponent * powerDown 10 grid = place at *
  have atMost := Nat.div_mul_le_self (range.centre * place) step
  have close := Nat.lt_div_mul_add (a := range.centre * place) stepPos
  have belowHigh : range.centre * place < range.high * place := Nat.mul_lt_mul_of_pos_right high placePos
  have aboveLow : (range.low + 1) * place ≤ range.centre * place := Nat.mul_le_mul_right place low
  rw [Nat.add_mul, Nat.one_mul] at aboveLow
  have fromLow : compare (range.centre * place / step * step) (range.low * place) = .gt :=
    Nat.compare_eq_gt.mpr (by omega)
  have fromHigh : compare (range.centre * place / step * step) (range.high * place) = .lt :=
    Nat.compare_eq_lt.mpr (by omega)
  rw [fromLow, fromHigh]
  rfl

/-- On a fine grid there is a hit. -/
theorem isSome_onGrid? (low : range.low < range.centre) (high : range.centre < range.high)
    (fine : IsFine range.exponent grid) : (onGrid? range grid).isSome = true := by
  have holds := holds_below low high fine
  have stepPos : 0 < powerUp 10 grid * powerDown 2 range.exponent :=
    Nat.mul_pos (powerUp_pos (by decide) _) (powerDown_pos (by decide) _)
  have reaches : powerUp 10 grid * powerDown 2 range.exponent ≤
      range.centre * powerUp 2 range.exponent * powerDown 10 grid := by
    rw [Nat.mul_assoc]
    exact Nat.le_trans fine (Nat.le_mul_of_pos_left _ (by omega))
  have notZero := Nat.ne_of_gt (Nat.div_pos reaches stepPos)
  unfold onGrid?
  extract_lets top bottom below nearer other
  split
  · rfl
  · next noHit =>
      have isOther : other = below := by
        refine if_neg fun (same : nearer = below) => noHit ?_
        rw [same]
        exact ⟨notZero, holds⟩
      rw [isOther, if_pos ⟨notZero, holds⟩]
      rfl

theorem ne_zero_of_onGrid? {digits : Nat} (hit : onGrid? range grid = some digits) : digits ≠ 0 := by
  unfold onGrid? at hit
  extract_lets top bottom below nearer other at hit
  split at hit
  · next found => exact Option.some.inj hit ▸ found.1
  · split at hit
    · next found => exact Option.some.inj hit ▸ found.1
    · cases hit

/-- The search ends with digits if one of the grids it may try has a hit. -/
theorem digits_search_ne_zero {steps taken : Nat} (inTime : taken < steps)
    (hit : (onGrid? range (grid - taken)).isSome = true) : (search range steps grid).digits ≠ 0 := by
  induction steps generalizing grid taken with
  | zero => exact absurd inTime (Nat.not_lt_zero taken)
  | succ steps inductionHypothesis =>
      rw [search]
      split
      · next digits found => exact ne_zero_of_onGrid? found
      · next noHit =>
          cases taken with
          | zero =>
              rw [Int.natCast_zero, Int.sub_zero, noHit] at hit
              cases hit
          | succ taken =>
              have left : grid - 1 - taken = grid - (taken + 1 : Nat) := by omega
              exact inductionHypothesis (Nat.lt_of_succ_lt_succ inTime) (left ▸ hit)

end Search

/-! ## Results -/

theorem digits_trimZeros_ne_zero {steps : Nat} {decimal : Scientific} (notZero : decimal.digits ≠ 0) :
    (trimZeros steps decimal).digits ≠ 0 := by
  induction steps generalizing decimal with
  | zero => exact notZero
  | succ steps inductionHypothesis =>
      rw [trimZeros]
      split
      · exact inductionHypothesis (by dsimp only; omega)
      · exact notZero

/-- A positive binary number in the range of the exponents has a shortest
decimal, and its digits are not zero. -/
theorem digits_ofPositive_ne_zero {mantissa : Nat} {exponent : Int} (pos : mantissa ≠ 0)
    (most : mantissa < 2 ^ 53) (least : -1074 ≤ exponent) (greatest : exponent ≤ 971) :
    (ofPositive mantissa exponent).digits ≠ 0 := by
  have places : mantissa.log2 < 53 := (Nat.log2_lt pos).mpr most
  have digits : (mantissa.log2 : Int) + 1 ≤ 53 := by omega
  have fine := isFine_of_range digits least greatest
  have low : (Interval.of mantissa exponent).low < (Interval.of mantissa exponent).centre := by
    simp only [Interval.of]
    split <;> omega
  have high : (Interval.of mantissa exponent).centre < (Interval.of mantissa exponent).high := by
    simp only [Interval.of]
    omega
  rw [ofPositive]
  have inTime : 23 < 24 := by decide
  exact digits_trimZeros_ne_zero (digits_search_ne_zero inTime (isSome_onGrid? low high fine))

end Shortest
end ContextPack
