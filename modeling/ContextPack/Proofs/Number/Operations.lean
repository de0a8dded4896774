import ContextPack.Proofs.Number.Magnitude

namespace ContextPack.BinaryFloat

/-!
# Operations round their exact results

Sums, differences, products and quotients of numbers that are not below zero are
the rounded results of exact arithmetic, if these are not below zero either.
-/

open Float.Model (Format totalExponent UnpackedFloat)
open Float.Model.UnpackedFloat

theorem IsNumber.rounded_eq {u : UnpackedFloat} {x : ℚ} (isNumber : IsNumber u x) : rounded x = x := by
  cases isNumber with
  | zero sign => exact rounded_zero
  | finite pos inFormat => exact rounded_of_digits pos inFormat.digits inFormat.least

/-! ## Sums and differences -/

theorem decreaseExponent_value (mantissa : ℕ) (exponent place : ℤ) :
    ((decreaseExponent mantissa exponent place).1 : ℚ) *
      2 ^ (decreaseExponent mantissa exponent place).2 = mantissa * 2 ^ exponent := by
  rw [decreaseExponent, Nat.shiftLeft_eq, Nat.cast_mul, Nat.cast_pow, Nat.cast_ofNat, mul_assoc,
    ← zpow_natCast, ← zpow_add₀ two_ne_zero, add_sub_cancel]

/-- More digits of the same number. -/
theorem decreaseExponent_value_of_le {exponent place : ℤ} (le : place ≤ exponent) (mantissa : ℕ) :
    ((decreaseExponent mantissa exponent place).1 : ℚ) * 2 ^ place = mantissa * 2 ^ exponent := by
  have reached : (decreaseExponent mantissa exponent place).2 = place := by
    rw [decreaseExponent, Int.toNat_of_nonneg (sub_nonneg.mpr le), sub_sub_cancel]
  have value := decreaseExponent_value mantissa exponent place
  rwa [reached] at value

theorem targetExponent_of_pos {mantissa : ℕ} (pos : 0 < mantissa) (exponent : ℤ) :
    Format.binary64.targetExponent (totalExponent mantissa exponent) =
      lastPlace (mantissa * 2 ^ exponent) :=
  targetExponent_eq_lastPlace (value_pos pos exponent) (Describes.exact_of_value rfl)
    fun none => absurd none pos.ne'

theorem isNumber_round {mantissa : ℕ} (pos : 0 < mantissa) (exponent : ℤ) :
    IsNumber (UnpackedFloat.round Format.binary64 .positive mantissa exponent)
      (rounded (mantissa * 2 ^ exponent)) := by
  have fine : (decreaseExponent mantissa exponent (lastPlace (mantissa * 2 ^ exponent))).2 ≤
      lastPlace (mantissa * 2 ^ exponent) := by
    rw [decreaseExponent]
    omega
  rw [UnpackedFloat.round, targetExponent_of_pos pos]
  exact isNumber_roundWithAccuracy (value_pos pos exponent)
    (Describes.exact_of_value (decreaseExponent_value _ _ _)) fine

theorem isNumber_normalize {mantissa : ℤ} (nonneg : 0 ≤ mantissa) (exponent : ℤ) :
    IsNumber (UnpackedFloat.normalize Format.binary64 mantissa exponent .positive)
      (rounded (mantissa * 2 ^ exponent)) := by
  rcases nonneg.lt_or_eq with pos | rfl
  · have isNat : ((mantissa.toNat : ℕ) : ℚ) = mantissa := by
      exact_mod_cast Int.toNat_of_nonneg nonneg
    rw [UnpackedFloat.normalize, Int.compare_eq_gt.mpr pos, ← isNat]
    exact isNumber_round (by omega) exponent
  · rw [Int.cast_zero, zero_mul, rounded_zero]
    exact .zero .positive

theorem isNumber_add {u v : UnpackedFloat} {x y : ℚ} (first : IsNumber u x) (second : IsNumber v y) :
    IsNumber (UnpackedFloat.add Format.binary64 u v) (rounded (x + y)) := by
  cases first with
  | zero sign =>
      rw [zero_add, second.rounded_eq]
      cases second with
      | zero other =>
          rw [UnpackedFloat.add]
          split <;> exact .zero _
      | finite pos inFormat => exact .finite pos inFormat
  | @finite mantissa exponent pos inFormat =>
      cases second with
      | zero other =>
          rw [add_zero, (IsNumber.finite pos inFormat).rounded_eq]
          exact .finite pos inFormat
      | @finite mantissa' exponent' pos' inFormat' =>
          have nonneg : (0 : ℤ) ≤ (decreaseExponent mantissa exponent (min exponent exponent')).1 +
            (decreaseExponent mantissa' exponent' (min exponent exponent')).1 := by positivity
          have sum := isNumber_normalize nonneg (min exponent exponent')
          rw [Int.cast_add, Int.cast_natCast, Int.cast_natCast, add_mul,
            decreaseExponent_value_of_le (min_le_left _ _),
            decreaseExponent_value_of_le (min_le_right _ _)] at sum
          exact sum

theorem isNumber_sub {u v : UnpackedFloat} {x y : ℚ} (first : IsNumber u x) (second : IsNumber v y)
    (le : y ≤ x) : IsNumber (UnpackedFloat.sub Format.binary64 u v) (rounded (x - y)) := by
  cases second with
  | zero other =>
      rw [sub_zero, first.rounded_eq]
      cases first with
      | zero sign =>
          rw [UnpackedFloat.sub]
          split <;> exact .zero _
      | finite pos inFormat => exact .finite pos inFormat
  | @finite mantissa' exponent' pos' inFormat' =>
      cases first with
      | zero sign => exact absurd le (not_le.mpr (value_pos pos' exponent'))
      | @finite mantissa exponent pos inFormat =>
          have nonneg : (0 : ℤ) ≤ (decreaseExponent mantissa exponent (min exponent exponent')).1 -
              (decreaseExponent mantissa' exponent' (min exponent exponent')).1 := by
            rw [← decreaseExponent_value_of_le (min_le_left exponent exponent') mantissa,
              ← decreaseExponent_value_of_le (min_le_right exponent exponent') mantissa',
              mul_le_mul_iff_left₀ (two_zpow_pos _), Nat.cast_le] at le
            omega
          have difference := isNumber_normalize nonneg (min exponent exponent')
          rw [Int.cast_sub, Int.cast_natCast, Int.cast_natCast, sub_mul,
            decreaseExponent_value_of_le (min_le_left _ _),
            decreaseExponent_value_of_le (min_le_right _ _)] at difference
          exact difference

/-! ## Products and quotients -/

/-- A product has digits enough, or ends below the least place. -/
theorem add_le_lastPlace {mantissa mantissa' : ℕ} {exponent exponent' : ℤ} (pos : 0 < mantissa)
    (pos' : 0 < mantissa') (inFormat : IsInFormat mantissa exponent)
    (inFormat' : IsInFormat mantissa' exponent') :
    exponent + exponent' ≤
      lastPlace ((mantissa * mantissa' : ℕ) * 2 ^ (exponent + exponent')) := by
  have productPos := Nat.mul_pos pos pos'
  rw [← targetExponent_of_pos productPos, targetExponent_eq]
  by_cases full : 2 ^ 52 ≤ mantissa * mantissa'
  · have log := (Nat.le_log2 productPos.ne').mpr full
    omega
  · have small : mantissa < 2 ^ 52 := by nlinarith
    have small' : mantissa' < 2 ^ 52 := by nlinarith
    have least := inFormat.first.resolve_left (Nat.not_le.mpr small)
    have least' := inFormat'.first.resolve_left (Nat.not_le.mpr small')
    omega

theorem isNumber_mul {u v : UnpackedFloat} {x y : ℚ} (first : IsNumber u x) (second : IsNumber v y) :
    IsNumber (UnpackedFloat.mul Format.binary64 u v) (rounded (x * y)) := by
  cases first with
  | zero sign =>
      rw [zero_mul, rounded_zero]
      cases second with
      | zero other => exact .zero _
      | finite pos inFormat => exact .zero _
  | @finite mantissa exponent pos inFormat =>
      cases second with
      | zero other =>
          rw [mul_zero, rounded_zero]
          exact .zero _
      | @finite mantissa' exponent' pos' inFormat' =>
          have value : ((mantissa * mantissa' : ℕ) : ℚ) * 2 ^ (exponent + exponent') =
              mantissa * 2 ^ exponent * (mantissa' * 2 ^ exponent') := by
            rw [Nat.cast_mul, zpow_add₀ two_ne_zero]
            ring
          have fine := add_le_lastPlace pos pos' inFormat inFormat'
          rw [value] at fine
          exact isNumber_roundWithAccuracy (mul_pos (value_pos pos _) (value_pos pos' _))
            (Describes.exact_of_value value) fine

theorem targetExponent_quotient (mantissa mantissa' : ℕ) (exponent exponent' : ℤ) :
    Format.binary64.targetExponent (totalExponent mantissa exponent - totalExponent mantissa' exponent') =
      max (mantissa.log2 + exponent - (mantissa'.log2 + exponent') - 53) (-1074) := by
  have bits : (Format.binary64.mantissaBits : ℤ) = 53 := rfl
  have least : Format.binary64.minExponent = -1074 := rfl
  rw [Format.targetExponent, totalExponent, totalExponent, bits, least]
  omega

/-- The operands show about where the last place of their quotient is. -/
theorem le_lastPlace_div {mantissa mantissa' : ℕ} (pos : 0 < mantissa) (pos' : 0 < mantissa')
    (exponent exponent' : ℤ) :
    max (mantissa.log2 + exponent - (mantissa'.log2 + exponent') - 53) (-1074) ≤
      lastPlace (mantissa * 2 ^ exponent / (mantissa' * 2 ^ exponent')) := by
  have divisorPos := value_pos pos' exponent'
  have lower : (2 : ℚ) ^ ((mantissa.log2 : ℤ) + exponent - (mantissa'.log2 + exponent') - 1) ≤
      mantissa * 2 ^ exponent / (mantissa' * 2 ^ exponent') := by
    have divisor : (mantissa' : ℚ) * 2 ^ exponent' ≤ 2 ^ ((mantissa'.log2 : ℤ) + 1 + exponent') := by
      have bound := add_one_le_two_zpow_log2 mantissa'
      rw [zpow_add₀ two_ne_zero _ exponent']
      exact mul_le_mul_of_nonneg_right (by linarith) (two_zpow_pos exponent').le
    rw [le_div_iff₀ divisorPos]
    calc (2 : ℚ) ^ ((mantissa.log2 : ℤ) + exponent - (mantissa'.log2 + exponent') - 1) *
          (mantissa' * 2 ^ exponent')
      _ ≤ 2 ^ ((mantissa.log2 : ℤ) + exponent - (mantissa'.log2 + exponent') - 1) *
            2 ^ ((mantissa'.log2 : ℤ) + 1 + exponent') :=
          mul_le_mul_of_nonneg_left divisor (two_zpow_pos _).le
      _ = 2 ^ (mantissa.log2 : ℤ) * 2 ^ exponent := by
          rw [← zpow_add₀ two_ne_zero, ← zpow_add₀ two_ne_zero]
          congr 1
          ring
      _ ≤ mantissa * 2 ^ exponent :=
          mul_le_mul_of_nonneg_right (two_zpow_log2_le pos) (two_zpow_pos exponent).le
  have log := (two_zpow_le_iff (div_pos (value_pos pos exponent) divisorPos)).mp lower
  rw [lastPlace]
  omega

theorem isNumber_div {u v : UnpackedFloat} {x y : ℚ} (first : IsNumber u x) (second : IsNumber v y)
    (pos : 0 < y) : IsNumber (UnpackedFloat.div Format.binary64 u v) (rounded (x / y)) := by
  cases second with
  | zero other => exact absurd pos (lt_irrefl 0)
  | @finite mantissa' exponent' pos' inFormat' =>
      cases first with
      | zero sign =>
          rw [zero_div, rounded_zero]
          exact .zero _
      | @finite mantissa exponent pos inFormat =>
          rw [UnpackedFloat.div, divCore, targetExponent_quotient]
          refine isNumber_roundWithAccuracy (div_pos (value_pos pos exponent) (value_pos pos' exponent'))
            ?_ ((min_le_right _ _).trans (le_lastPlace_div pos pos' exponent exponent'))
          generalize isPlace : min (exponent - exponent') _ = place
          have digits := decreaseExponent_value_of_le
            (isPlace ▸ min_le_left _ _ : place ≤ exponent - exponent') mantissa
          have quotient := Describes.quotient (mantissa <<< (exponent - exponent' - place).toNat) pos'
          have value : (mantissa : ℚ) * 2 ^ exponent / (mantissa' * 2 ^ exponent') / 2 ^ place =
              (mantissa <<< (exponent - exponent' - place).toNat : ℕ) / mantissa' := by
            rw [decreaseExponent, zpow_sub₀ two_ne_zero] at digits
            have divisorPos : (0 : ℚ) < mantissa' := Nat.cast_pos.mpr pos'
            have power := two_zpow_pos place
            have power' := two_zpow_pos exponent'
            field_simp at digits ⊢
            linarith
          rw [value]
          exact quotient

end ContextPack.BinaryFloat
