import ContextPack.Number.Scalar
import ContextPack.Proofs.Number.Nearest
import Mathlib.Data.Nat.Log
import Mathlib.Order.WithBot
import Mathlib.Tactic.FieldSimp

namespace ContextPack.BinaryFloat

/-!
# What binary floating point computes

An operation finds the first digits of its exact result and two bits that tell
how the rest compares with half of the last place.  That is enough to round the
result to its last place.  Here the numbers are the ones with a positive sign.
-/

open Float.Model (Format totalExponent UnpackedFloat)
open Float.Model.UnpackedFloat

/-! ## Digits and residual bits -/

/-- Truncated digits and the residual bits of a number. -/
def Describes (digits : ExtendedMantissa) (x : ℚ) : Prop :=
  match digits.roundBit, digits.stickyBit with
  | false, false => x = digits.mantissa
  | false, true => digits.mantissa < x ∧ x < digits.mantissa + 1 / 2
  | true, false => x = digits.mantissa + 1 / 2
  | true, true => digits.mantissa + 1 / 2 < x ∧ x < digits.mantissa + 1

namespace Describes

variable {digits : ExtendedMantissa} {x : ℚ}

theorem floor_eq (described : Describes digits x) : ⌊x⌋ = (digits.mantissa : ℤ) := by
  rcases digits with ⟨mantissa, roundBit, stickyBit⟩
  rw [Int.floor_eq_iff, Int.cast_natCast]
  cases roundBit <;> cases stickyBit <;> simp only [Describes] at described <;>
    constructor <;> linarith

theorem mantissa_le (described : Describes digits x) : (digits.mantissa : ℚ) ≤ x := by
  have floor := Int.floor_le x
  rwa [described.floor_eq, Int.cast_natCast] at floor

theorem lt_mantissa_add_one (described : Describes digits x) : x < digits.mantissa + 1 := by
  have floor := Int.lt_floor_add_one x
  rwa [described.floor_eq, Int.cast_natCast] at floor

/-- The residual bits decide as the number itself would. -/
theorem roundedMantissa_eq (described : Describes digits x) :
    (digits.roundedMantissa : ℤ) = nearestEven x := by
  have floor := described.floor_eq
  rcases digits with ⟨mantissa, roundBit, stickyBit⟩
  rw [nearestEven, floor, Int.cast_natCast]
  cases roundBit with
  | false =>
      have less : x - mantissa < 1 / 2 := by
        cases stickyBit <;> simp only [Describes] at described <;> linarith
      rw [if_pos less]
      cases stickyBit <;> rfl
  | true =>
      cases stickyBit with
      | false =>
          simp only [Describes] at described
          rw [if_neg (by linarith), if_neg (by linarith)]
          exact Int.natCast_add _ _
      | true =>
          simp only [Describes] at described
          rw [if_neg (by linarith), if_pos (by linarith)]
          rfl

/-- Dropping a digit moves it into the residual bits. -/
theorem shiftRightOne (described : Describes digits x) : Describes digits.shiftRightOne (x / 2) := by
  rcases digits with ⟨mantissa, roundBit, stickyBit⟩
  have parts : (mantissa : ℚ) = 2 * (mantissa / 2 : ℕ) + (mantissa % 2 : ℕ) := by
    exact_mod_cast (Nat.div_add_mod mantissa 2).symm
  rcases Nat.mod_two_eq_zero_or_one mantissa with even | odd
  · rw [even, Nat.cast_zero, add_zero] at parts
    cases roundBit <;> cases stickyBit <;>
      simp only [Describes, ExtendedMantissa.shiftRightOne, even, bne_self_eq_false, Bool.or_false,
        Bool.or_true] at described ⊢ <;>
      first | linarith | constructor <;> linarith
  · rw [odd, Nat.cast_one] at parts
    have isOdd : (1 != 0) = true := rfl
    cases roundBit <;> cases stickyBit <;>
      simp only [Describes, ExtendedMantissa.shiftRightOne, odd, isOdd, Bool.or_false,
        Bool.or_true] at described ⊢ <;>
      first | linarith | constructor <;> linarith

theorem shiftRight (described : Describes digits x) (places : ℕ) :
    Describes (digits >>> places) (x / 2 ^ places) := by
  change Describes (places.repeat ExtendedMantissa.shiftRightOne digits) _
  induction places with
  | zero => rwa [pow_zero, div_one]
  | succ places inductionHypothesis =>
      rw [pow_succ, ← div_div]
      exact inductionHypothesis.shiftRightOne

theorem exact (mantissa : ℕ) :
    Describes (ExtendedMantissa.ofMantissaAndAccuracy mantissa .exact) mantissa := rfl

theorem exact_of_value {mantissa : ℕ} {exponent : ℤ} (value : mantissa * 2 ^ exponent = x) :
    Describes (ExtendedMantissa.ofMantissaAndAccuracy mantissa .exact) (x / 2 ^ exponent) := by
  rw [← value, mul_div_cancel_right₀ _ (two_zpow_pos exponent).ne']
  exact exact mantissa

/-- A quotient is described by its integral part and how the remainder compares
with half of the divisor. -/
theorem quotient (numerator : ℕ) {divisor : ℕ} (pos : 0 < divisor) :
    Describes (ExtendedMantissa.ofMantissaAndAccuracy (numerator / divisor)
      (accuracyOfFraction (numerator % divisor) divisor)) (numerator / divisor) := by
  have isPos : (0 : ℚ) < divisor := Nat.cast_pos.mpr pos
  have parts : (numerator : ℚ) / divisor =
      (numerator / divisor : ℕ) + (numerator % divisor : ℕ) / divisor := by
    have division : (numerator : ℚ) = divisor * (numerator / divisor : ℕ) + (numerator % divisor : ℕ) := by
      exact_mod_cast (Nat.div_add_mod numerator divisor).symm
    field_simp
    linarith
  have remainder : ((numerator % divisor : ℕ) : ℚ) / divisor < 1 :=
    (div_lt_one isPos).mpr (Nat.cast_lt.mpr (Nat.mod_lt numerator pos))
  rw [parts, accuracyOfFraction]
  split
  · next none =>
      rw [none, Nat.cast_zero, zero_div, add_zero]
      exact exact _
  · next some =>
      have positive : (0 : ℚ) < (numerator % divisor : ℕ) / divisor :=
        div_pos (Nat.cast_pos.mpr (Nat.pos_of_ne_zero some)) isPos
      cases half : compare (2 * (numerator % divisor)) divisor with
      | lt =>
          have less : ((numerator % divisor : ℕ) : ℚ) / divisor < 1 / 2 := by
            rw [div_lt_div_iff₀ isPos two_pos, one_mul, mul_comm]
            exact_mod_cast Nat.compare_eq_lt.mp half
          exact ⟨lt_add_of_pos_right _ positive, add_lt_add_right less _⟩
      | eq =>
          have equal : ((numerator % divisor : ℕ) : ℚ) / divisor = 1 / 2 := by
            rw [div_eq_div_iff isPos.ne' two_ne_zero, one_mul, mul_comm]
            exact_mod_cast Nat.compare_eq_eq.mp half
          exact congrArg _ equal
      | gt =>
          have more : 1 / 2 < ((numerator % divisor : ℕ) : ℚ) / divisor := by
            rw [div_lt_div_iff₀ two_pos isPos, one_mul, mul_comm _ (2 : ℚ)]
            exact_mod_cast Nat.compare_eq_gt.mp half
          exact ⟨add_lt_add_right more _, add_lt_add_right remainder _⟩

end Describes

/-! ## Numbers -/

/-- Digits and exponent of a number of binary64, whose first digit is in its
place unless the number is too small. -/
structure IsInFormat (mantissa : ℕ) (exponent : ℤ) : Prop where
  digits : mantissa < 2 ^ 53
  least : -1074 ≤ exponent
  first : 2 ^ 52 ≤ mantissa ∨ exponent = -1074

/-- The value of a number without a negative sign, before it is known whether its
exponent is too large. -/
inductive IsNumber : UnpackedFloat → ℚ → Prop where
  | zero (sign : Sign) : IsNumber (.zero sign) 0
  | finite {mantissa : ℕ} {exponent : ℤ} (pos : 0 < mantissa)
      (inFormat : IsInFormat mantissa exponent) :
      IsNumber (.finite .positive mantissa exponent pos) (mantissa * 2 ^ exponent)

theorem shiftToExponent_eq {exponent place : ℤ} (le : exponent ≤ place) (mantissa : ℕ)
    (accuracy : Accuracy) : shiftToExponent mantissa exponent accuracy place =
      (ExtendedMantissa.ofMantissaAndAccuracy mantissa accuracy >>> (place - exponent).toNat, place) := by
  rw [shiftToExponent, Int.toNat_of_nonneg (sub_nonneg.mpr le), add_sub_cancel]

theorem targetExponent_eq (mantissa : ℕ) (exponent : ℤ) :
    Format.binary64.targetExponent (totalExponent mantissa exponent) =
      max (mantissa.log2 + exponent - 52) (-1074) := by
  have bits : (Format.binary64.mantissaBits : ℤ) = 53 := rfl
  have least : Format.binary64.minExponent = -1074 := rfl
  rw [Format.targetExponent, totalExponent, bits, least]
  omega

theorem two_zpow_log2_le {mantissa : ℕ} (pos : 0 < mantissa) : (2 : ℚ) ^ (mantissa.log2 : ℤ) ≤ mantissa := by
  rw [zpow_natCast]
  exact_mod_cast Nat.log2_self_le pos.ne'

theorem add_one_le_two_zpow_log2 (mantissa : ℕ) :
    (mantissa : ℚ) + 1 ≤ 2 ^ ((mantissa.log2 : ℤ) + 1) := by
  rw [← Nat.cast_add_one mantissa.log2, zpow_natCast]
  exact_mod_cast Nat.lt_log2_self (n := mantissa)

/-- Truncated digits show where the last place of a number is. -/
theorem targetExponent_eq_lastPlace {digits : ExtendedMantissa} {exponent : ℤ} {x : ℚ} (pos : 0 < x)
    (described : Describes digits (x / 2 ^ exponent))
    (fine : digits.mantissa = 0 → exponent ≤ lastPlace x) :
    Format.binary64.targetExponent (totalExponent digits.mantissa exponent) = lastPlace x := by
  have power := two_zpow_pos exponent
  rw [targetExponent_eq, lastPlace]
  rcases Nat.eq_zero_or_pos digits.mantissa with none | some
  · have small := described.lt_mantissa_add_one
    rw [none, Nat.cast_zero, zero_add, div_lt_one power] at small
    have log := (lt_two_zpow_iff pos).mp small
    have place := fine none
    rw [lastPlace] at place
    rw [none, Nat.log2_zero]
    omega
  · have atLeast := (two_zpow_log2_le some).trans described.mantissa_le
    have below := described.lt_mantissa_add_one.trans_le (add_one_le_two_zpow_log2 digits.mantissa)
    rw [le_div_iff₀ power, ← zpow_add₀ two_ne_zero] at atLeast
    rw [div_lt_iff₀ power, ← zpow_add₀ two_ne_zero] at below
    have lower := (two_zpow_le_iff pos).mp atLeast
    have upper := (lt_two_zpow_iff pos).mp below
    omega

/-! ## Rounding the digits -/

/-- Digits that fit stay as they are. -/
theorem shiftToTargetExponent_of_fits {mantissa : ℕ} {exponent : ℤ} (fits : mantissa < 2 ^ 53)
    (least : -1074 ≤ exponent) : shiftToTargetExponent Format.binary64 mantissa exponent .exact =
      (.ofMantissaAndAccuracy mantissa .exact, exponent) := by
  have log : mantissa.log2 ≤ 52 := by
    rcases Nat.eq_zero_or_pos mantissa with rfl | pos
    · rw [Nat.log2_zero]
      omega
    · exact Nat.le_of_lt_succ ((Nat.log2_lt pos.ne').mpr fits)
  have noShift : (max ((mantissa.log2 : ℤ) + exponent - 52) (-1074) - exponent).toNat = 0 := by omega
  rw [shiftToTargetExponent, targetExponent_eq, shiftToExponent, noShift, Nat.cast_zero, add_zero]
  rfl

/-- One digit too many is a power of two. -/
theorem shiftToTargetExponent_of_carry {exponent : ℤ} (least : -1074 ≤ exponent) :
    shiftToTargetExponent Format.binary64 (2 ^ 53) exponent .exact =
      (.ofMantissaAndAccuracy (2 ^ 52) .exact, exponent + 1) := by
  have oneShift : (max (((2 ^ 53 : ℕ).log2 : ℤ) + exponent - 52) (-1074) - exponent).toNat = 1 := by
    rw [Nat.log2_two_pow]
    omega
  rw [shiftToTargetExponent, targetExponent_eq, shiftToExponent, oneShift]
  rfl

/-- The number that rounded digits give, where rounding up may have added one. -/
def carried (sign : Sign) (mantissa : ℕ) (exponent : ℤ) : UnpackedFloat :=
  let (digits, place) := shiftToTargetExponent Format.binary64 mantissa exponent .exact
  if isZero : digits.mantissa = 0 then .zero sign
  else .finite sign digits.mantissa place (Nat.pos_of_ne_zero isZero)

theorem isNumber_carried {mantissa : ℕ} {exponent : ℤ} (digits : mantissa ≤ 2 ^ 53)
    (least : -1074 ≤ exponent) (first : 2 ^ 52 ≤ mantissa ∨ exponent = -1074) :
    IsNumber (carried .positive mantissa exponent) (mantissa * 2 ^ exponent) := by
  rw [carried]
  rcases digits.lt_or_eq with fits | rfl
  · rw [shiftToTargetExponent_of_fits fits least]
    rcases Nat.eq_zero_or_pos mantissa with rfl | pos
    · rw [Nat.cast_zero, zero_mul]
      exact .zero .positive
    · have notZero : (ExtendedMantissa.ofMantissaAndAccuracy mantissa .exact).mantissa ≠ 0 := pos.ne'
      dsimp only
      rw [dif_neg notZero]
      exact .finite pos ⟨fits, least, first⟩
  · rw [shiftToTargetExponent_of_carry least]
    have same : ((2 ^ 53 : ℕ) : ℚ) * 2 ^ exponent = (2 ^ 52 : ℕ) * 2 ^ (exponent + 1) := by
      rw [zpow_add_one₀ two_ne_zero]
      push_cast
      ring
    rw [same]
    exact .finite (by decide) ⟨by decide, by omega, Or.inl le_rfl⟩

/-- Rounding as an operation does it.  Its first digits must reach down to the
last place. -/
theorem isNumber_roundWithAccuracy {mantissa : ℕ} {exponent : ℤ} {accuracy : Accuracy} {x : ℚ}
    (pos : 0 < x)
    (described : Describes (ExtendedMantissa.ofMantissaAndAccuracy mantissa accuracy) (x / 2 ^ exponent))
    (fine : exponent ≤ lastPlace x) :
    IsNumber (roundWithAccuracy Format.binary64 .positive mantissa exponent accuracy) (rounded x) := by
  have target : Format.binary64.targetExponent (totalExponent mantissa exponent) = lastPlace x := by
    have isMantissa : (ExtendedMantissa.ofMantissaAndAccuracy mantissa accuracy).mantissa = mantissa := by
      rcases accuracy with _ | ⟨_ | _ | _⟩ <;> rfl
    rw [← isMantissa]
    exact targetExponent_eq_lastPlace pos described fun _ => fine
  have shifted := described.shiftRight (lastPlace x - exponent).toNat
  have same : x / 2 ^ exponent / 2 ^ (lastPlace x - exponent).toNat = x / 2 ^ lastPlace x := by
    rw [div_div, ← zpow_natCast, Int.toNat_of_nonneg (sub_nonneg.mpr fine), ← zpow_add₀ two_ne_zero,
      add_sub_cancel]
  rw [same] at shifted
  have isCarried : roundWithAccuracy Format.binary64 .positive mantissa exponent accuracy =
      carried .positive (ExtendedMantissa.ofMantissaAndAccuracy mantissa accuracy >>>
        (lastPlace x - exponent).toNat).roundedMantissa (lastPlace x) := by
    rw [roundWithAccuracy, shiftToTargetExponent, target, shiftToExponent_eq fine]
    rfl
  have nearest := shifted.roundedMantissa_eq
  have digits := nearestEven_le_of_pos pos
  have first := le_nearestEven_of_pos pos
  rw [isCarried, rounded, ← nearest, Int.cast_natCast]
  rw [← nearest] at digits first
  exact isNumber_carried (by exact_mod_cast digits) (le_max_right _ _) (by exact_mod_cast first)

end ContextPack.BinaryFloat
