import Mathlib.Algebra.Order.Field.Rat
import Mathlib.Data.Int.Log
import Mathlib.Data.Rat.Floor
import Mathlib.Tactic.Linarith
import Mathlib.Tactic.NormNum

namespace ContextPack.BinaryFloat

/-!
# Rounding to 53 digits

An exact result is rounded to a multiple of its last place, which is 53 binary
digits below its first one unless there is no such small number any more.  A
larger number may have a larger last place; but where the place changes there is
a power of two, which is not rounded, so that rounding keeps the order of
numbers.
-/

/-! ## The nearest integer -/

/-- The nearest integer, and of two that are equally near the even one. -/
def nearestEven (x : ℚ) : ℤ :=
  if x - ⌊x⌋ < 1 / 2 then ⌊x⌋
  else if 1 / 2 < x - ⌊x⌋ then ⌊x⌋ + 1
  else ⌊x⌋ + ⌊x⌋ % 2

@[simp] theorem nearestEven_intCast (n : ℤ) : nearestEven n = n := by
  rw [nearestEven, Int.floor_intCast, sub_self, if_pos one_half_pos]

theorem nearestEven_two_pow (n : ℕ) : nearestEven (2 ^ n) = 2 ^ n := by
  have power := nearestEven_intCast (2 ^ n)
  rwa [Int.cast_pow, Int.cast_ofNat] at power

theorem floor_le_nearestEven (x : ℚ) : ⌊x⌋ ≤ nearestEven x := by
  rw [nearestEven]
  split
  · exact le_rfl
  · split
    · omega
    · omega

theorem nearestEven_le (x : ℚ) : nearestEven x ≤ ⌊x⌋ + 1 := by
  rw [nearestEven]
  split
  · omega
  · split
    · exact le_rfl
    · omega

theorem nearestEven_mono {x y : ℚ} (le : x ≤ y) : nearestEven x ≤ nearestEven y := by
  rcases (Int.floor_mono le).lt_or_eq with below | same
  · calc nearestEven x
      _ ≤ ⌊x⌋ + 1 := nearestEven_le x
      _ ≤ ⌊y⌋ := below
      _ ≤ nearestEven y := floor_le_nearestEven y
  · have parts : x - ⌊x⌋ ≤ y - ⌊x⌋ := sub_le_sub_right le _
    rw [nearestEven, nearestEven, ← same]
    split
    · split
      · exact le_rfl
      · split
        · omega
        · omega
    · next noLess =>
        have notLess : ¬y - ⌊x⌋ < 1 / 2 := fun less => noLess (parts.trans_lt less)
        rw [if_neg notLess]
        split
        · next more =>
            rw [if_pos (more.trans_le parts)]
        · split
          · omega
          · exact le_rfl

/-! ## The last place -/

theorem two_zpow_le_iff {x : ℚ} (pos : 0 < x) {k : ℤ} : 2 ^ k ≤ x ↔ k ≤ Int.log 2 x := by
  rw [← Int.zpow_le_iff_le_log Nat.one_lt_two pos, Nat.cast_ofNat]

theorem lt_two_zpow_iff {x : ℚ} (pos : 0 < x) {k : ℤ} : x < 2 ^ k ↔ Int.log 2 x < k := by
  rw [← Int.lt_zpow_iff_log_lt Nat.one_lt_two pos, Nat.cast_ofNat]

theorem two_zpow_pos (k : ℤ) : (0 : ℚ) < 2 ^ k := zpow_pos two_pos k

/-- The exponent of the last digit that is kept of a positive number. -/
def lastPlace (x : ℚ) : ℤ := max (Int.log 2 x - 52) (-1074)

theorem lastPlace_mono {x y : ℚ} (pos : 0 < x) (le : x ≤ y) : lastPlace x ≤ lastPlace y :=
  max_le_max_right _ (sub_le_sub_right (Int.log_mono_right pos le) 52)

/-- Numbers of 53 digits have no digits below their last place. -/
theorem lastPlace_le {mantissa : ℕ} {exponent : ℤ} (pos : 0 < mantissa) (digits : mantissa < 2 ^ 53)
    (least : -1074 ≤ exponent) : lastPlace (mantissa * 2 ^ exponent) ≤ exponent := by
  have isPos : (0 : ℚ) < mantissa * 2 ^ exponent :=
    mul_pos (Nat.cast_pos.mpr pos) (two_zpow_pos exponent)
  have bound : (mantissa : ℚ) * 2 ^ exponent < 2 ^ (53 + exponent) := by
    rw [zpow_add₀ two_ne_zero]
    exact mul_lt_mul_of_pos_right (by exact_mod_cast digits) (two_zpow_pos exponent)
  have log := (lt_two_zpow_iff isPos).mp bound
  exact max_le (by omega) least

/-! ## Rounding -/

/-- A number that is not below zero, rounded to its last place. -/
def rounded (x : ℚ) : ℚ := nearestEven (x / 2 ^ lastPlace x) * 2 ^ lastPlace x

@[simp] theorem rounded_zero : rounded 0 = 0 := by
  have zero : nearestEven 0 = 0 := nearestEven_intCast 0
  rw [rounded, zero_div, zero, Int.cast_zero, zero_mul]

/-- Multiples of the last place are not rounded. -/
theorem nearestEven_div_of_le {k place : ℤ} (le : place ≤ k) (n : ℤ) :
    (nearestEven (n * 2 ^ k / 2 ^ place) : ℚ) * 2 ^ place = n * 2 ^ k := by
  have multiple : (n : ℚ) * 2 ^ k / 2 ^ place = ((n * 2 ^ (k - place).toNat : ℤ) : ℚ) := by
    have power : ((2 : ℚ) ^ (k - place).toNat) = 2 ^ (k - place) := by
      rw [← zpow_natCast, Int.toNat_of_nonneg (sub_nonneg.mpr le)]
    rw [Int.cast_mul, Int.cast_pow, Int.cast_ofNat, power, zpow_sub₀ two_ne_zero, mul_div_assoc]
  rw [multiple, nearestEven_intCast, ← multiple, div_mul_cancel₀ _ (two_zpow_pos place).ne']

/-- Numbers of 53 digits are not rounded. -/
theorem rounded_of_digits {mantissa : ℕ} {exponent : ℤ} (pos : 0 < mantissa)
    (digits : mantissa < 2 ^ 53) (least : -1074 ≤ exponent) :
    rounded (mantissa * 2 ^ exponent) = mantissa * 2 ^ exponent := by
  have place := lastPlace_le pos digits least
  exact_mod_cast nearestEven_div_of_le place (mantissa : ℤ)

/-- No more digits are kept than 53, or a one that was carried before them. -/
theorem nearestEven_le_of_pos {x : ℚ} (pos : 0 < x) : nearestEven (x / 2 ^ lastPlace x) ≤ 2 ^ 53 := by
  have below : x < 2 ^ (53 + lastPlace x) := by
    have least : Int.log 2 x - 52 ≤ lastPlace x := le_max_left _ _
    exact (lt_two_zpow_iff pos).mpr (by omega)
  rw [zpow_add₀ two_ne_zero, zpow_ofNat, ← div_lt_iff₀ (two_zpow_pos _)] at below
  rw [← nearestEven_two_pow 53]
  exact nearestEven_mono below.le

/-- Unless there are no more places all 53 digits are kept. -/
theorem le_nearestEven_of_pos {x : ℚ} (pos : 0 < x) :
    2 ^ 52 ≤ nearestEven (x / 2 ^ lastPlace x) ∨ lastPlace x = -1074 := by
  rcases max_choice (Int.log 2 x - 52) (-1074) with first | last
  · left
    have above : 2 ^ (52 + lastPlace x) ≤ x :=
      (two_zpow_le_iff pos).mpr (by rw [lastPlace, first]; omega)
    rw [zpow_add₀ two_ne_zero, zpow_ofNat, ← le_div_iff₀ (two_zpow_pos _)] at above
    rw [← nearestEven_two_pow 52]
    exact nearestEven_mono above
  · exact Or.inr last

/-- Rounding at one place keeps the order. -/
theorem nearestEven_div_mono {x y : ℚ} (le : x ≤ y) (place : ℤ) :
    (nearestEven (x / 2 ^ place) : ℚ) * 2 ^ place ≤ nearestEven (y / 2 ^ place) * 2 ^ place := by
  have pos := two_zpow_pos place
  exact mul_le_mul_of_nonneg_right (Int.cast_le.mpr (nearestEven_mono
    (div_le_div_of_nonneg_right le pos.le))) pos.le

theorem rounded_mono_of_pos {x y : ℚ} (pos : 0 < x) (le : x ≤ y) : rounded x ≤ rounded y := by
  rcases (lastPlace_mono pos le).lt_or_eq with below | same
  · -- The last place of the larger number is that of a power of two between them.
    have above : -1074 < lastPlace y := (le_max_right _ _).trans_lt below
    have first : lastPlace y = Int.log 2 y - 52 :=
      max_eq_left ((lt_max_iff.mp above).resolve_right (lt_irrefl _)).le
    have log : Int.log 2 x < Int.log 2 y := by
      have bound : Int.log 2 x - 52 ≤ lastPlace x := le_max_left _ _
      omega
    have power {place : ℤ} (noDigits : place ≤ Int.log 2 y) :
        (nearestEven (2 ^ Int.log 2 y / 2 ^ place) : ℚ) * 2 ^ place = 2 ^ Int.log 2 y := by
      simpa only [Int.cast_one, one_mul] using nearestEven_div_of_le noDigits 1
    have upper := (lt_two_zpow_iff pos).mpr log
    have lower := (two_zpow_le_iff (pos.trans_le le)).mpr (le_refl (Int.log 2 y))
    calc rounded x
      _ ≤ nearestEven (2 ^ Int.log 2 y / 2 ^ lastPlace x) * 2 ^ lastPlace x :=
          nearestEven_div_mono upper.le _
      _ = 2 ^ Int.log 2 y := power (by omega)
      _ = nearestEven (2 ^ Int.log 2 y / 2 ^ lastPlace y) * 2 ^ lastPlace y := (power (by omega)).symm
      _ ≤ rounded y := nearestEven_div_mono lower _
  · rw [rounded, rounded, ← same]
    exact nearestEven_div_mono le _

theorem rounded_nonneg {x : ℚ} (nonneg : 0 ≤ x) : 0 ≤ rounded x := by
  have zero := nearestEven_mono (div_nonneg nonneg (two_zpow_pos (lastPlace x)).le)
  rw [show nearestEven 0 = 0 from nearestEven_intCast 0] at zero
  exact mul_nonneg (Int.cast_nonneg zero) (two_zpow_pos _).le

/-- Rounding keeps the order of numbers that are not below zero. -/
theorem rounded_mono {x y : ℚ} (nonneg : 0 ≤ x) (le : x ≤ y) : rounded x ≤ rounded y := by
  rcases nonneg.lt_or_eq with pos | rfl
  · exact rounded_mono_of_pos pos le
  · rw [rounded_zero]
    exact rounded_nonneg le

end ContextPack.BinaryFloat
