import Mathlib
import ContextPack.Proofs.Number.Digits

namespace ContextPack.BinaryFloat

/-!
# Numbers of binary floating point

A number that is not below zero has a magnitude: a rational number, or more than
all of them for what is too large.  Comparison of two numbers is comparison of
their magnitudes.
-/

open Float.Model (Format totalExponent UnpackedFloat)
open Float.Model.UnpackedFloat

/-! ## Fields -/

theorem toNat_one_append (mantissa : BitVec 52) : (1#1 ++ mantissa).toNat = 2 ^ 52 + mantissa.toNat := by
  rw [BitVec.toNat_append, ← Nat.shiftLeft_add_eq_or_of_lt mantissa.isLt]
  rfl

theorem finite_congr {sign : Sign} {first second : ℕ} {exponent other : ℤ} {pos : 0 < first}
    {pos' : 0 < second} (sameDigits : first = second) (sameExponent : exponent = other) :
    UnpackedFloat.finite sign first exponent pos = .finite sign second other pos' := by
  subst sameDigits sameExponent
  rfl

/-- The fields of a number with all 53 digits, the first of which is not stored. -/
theorem unpack_packComponents {exponent : BitVec 11} (notLast : exponent ≠ -1#11)
    (notFirst : exponent ≠ 0#11) (sign : Sign) (mantissa : BitVec 52) {digits : ℕ} {place : ℤ}
    (pos : 0 < digits) (isDigits : 2 ^ 52 + mantissa.toNat = digits)
    (isPlace : (exponent.toNat : ℤ) - 1075 = place) :
    UnpackedFloat.unpack Format.binary64 (packComponents Format.binary64 sign exponent mantissa) =
      .finite sign digits place pos := by
  simp only [UnpackedFloat.unpack, unpackExponent_packComponents, unpackMantissa_packComponents,
    unpackSign_packComponents, Sign.ofBitVec_toBitVec]
  rw [if_neg notLast, if_neg notFirst]
  exact finite_congr ((toNat_one_append mantissa).trans isDigits) isPlace

/-- The fields of a number that is too small for 53 digits. -/
theorem unpack_packComponents_zero {mantissa : BitVec 52} (some : mantissa ≠ 0#52) (sign : Sign)
    {digits : ℕ} (pos : 0 < digits) (isDigits : mantissa.toNat = digits) :
    UnpackedFloat.unpack Format.binary64 (packComponents Format.binary64 sign 0#11 mantissa) =
      .finite sign digits (-1074) pos := by
  have notLast : (0#11 : BitVec 11) ≠ -1#11 := by decide
  simp only [UnpackedFloat.unpack, unpackExponent_packComponents, unpackMantissa_packComponents,
    unpackSign_packComponents, Sign.ofBitVec_toBitVec]
  rw [if_neg notLast, if_pos trivial, dif_neg some]
  exact finite_congr isDigits rfl

/-- A number whose exponent is small enough has fields of its own. -/
theorem unpack_pack {mantissa : ℕ} {exponent : ℤ} (pos : 0 < mantissa)
    (inFormat : IsInFormat mantissa exponent) (fits : exponent ≤ 971) (sign : Sign) :
    (Float.Model.pack (.finite sign mantissa exponent pos)).unpack =
      .finite sign mantissa exponent pos := by
  have least := inFormat.least
  have bias : (Format.binary64.exponentBias : ℤ) = 1023 := rfl
  change UnpackedFloat.unpack Format.binary64 (UnpackedFloat.pack Format.binary64 _) = _
  rw [UnpackedFloat.pack, bias, if_neg (by change ¬2 ^ 11 ≤ (exponent + 1023 + 52).toNat + 1; omega)]
  rcases Nat.lt_or_ge mantissa (2 ^ 52) with small | full
  · have log := (Nat.log2_lt pos.ne').mpr small
    have isLeast : exponent = -1074 := inFormat.first.resolve_left (Nat.not_le.mpr small)
    have same : (BitVec.ofNat 52 mantissa).toNat = mantissa := by
      rw [BitVec.toNat_ofNat, Nat.mod_eq_of_lt small]
    have notZero : BitVec.ofNat 52 mantissa ≠ 0#52 := by
      intro isZero
      rw [isZero] at same
      exact pos.ne same
    rw [if_neg (by change ¬mantissa.log2 + 1 = 53; omega), isLeast]
    exact unpack_packComponents_zero notZero sign pos same
  · have atLeast := (Nat.le_log2 pos.ne').mpr full
    have below := (Nat.log2_lt pos.ne').mpr inFormat.digits
    have biased : (BitVec.ofNat 11 (exponent + 1023 + 52).toNat).toNat =
        (exponent + 1023 + 52).toNat := by
      rw [BitVec.toNat_ofNat, Nat.mod_eq_of_lt (by omega)]
    rw [if_pos (by change mantissa.log2 + 1 = 53; omega)]
    refine unpack_packComponents ?_ ?_ sign _ pos ?_ ?_
    · intro last
      have field := biased.symm.trans (congrArg BitVec.toNat last)
      change _ = 2047 at field
      omega
    · intro isZero
      have field := biased.symm.trans (congrArg BitVec.toNat isZero)
      change _ = 0 at field
      omega
    · have digits := inFormat.digits
      change 2 ^ 52 + (BitVec.ofNat 52 mantissa).toNat = mantissa
      rw [BitVec.toNat_ofNat]
      omega
    · change ((BitVec.ofNat 11 (exponent + 1023 + 52).toNat).toNat : ℤ) - 1075 = exponent
      rw [biased]
      omega

/-- A number whose exponent is too large becomes infinite. -/
theorem unpack_pack_of_large {mantissa : ℕ} {exponent : ℤ} (pos : 0 < mantissa) (large : 971 < exponent) :
    (Float.Model.pack (.finite .positive mantissa exponent pos)).unpack = .infinity .positive := by
  have bias : (Format.binary64.exponentBias : ℤ) = 1023 := rfl
  change UnpackedFloat.unpack Format.binary64 (UnpackedFloat.pack Format.binary64 _) = _
  rw [UnpackedFloat.pack, bias, if_pos (by change 2 ^ 11 ≤ (exponent + 1023 + 52).toNat + 1; omega)]
  rfl

/-- What the fields hold is in the format. -/
theorem inFormat_of_packComponents {sign other : Sign} {field : BitVec 11} {stored : BitVec 52}
    {mantissa : ℕ} {exponent : ℤ} {pos : 0 < mantissa}
    (isFinite : UnpackedFloat.unpack Format.binary64 (packComponents Format.binary64 sign field stored) =
      .finite other mantissa exponent pos) : IsInFormat mantissa exponent ∧ exponent ≤ 971 := by
  have digits : stored.toNat < 2 ^ 52 := stored.isLt
  rcases eq_or_ne field (-1#11) with rfl | notLast
  · simp only [UnpackedFloat.unpack, unpackExponent_packComponents, unpackMantissa_packComponents,
      ite_true] at isFinite
    split at isFinite
    · cases isFinite
    · cases isFinite
  · rcases eq_or_ne field 0#11 with rfl | notZero
    · rcases eq_or_ne stored 0#52 with rfl | some
      · have isZero : UnpackedFloat.unpack Format.binary64
            (packComponents Format.binary64 sign 0#11 0#52) = .zero sign := unpack_packedZero
        rw [isZero] at isFinite
        cases isFinite
      · have storedPos : 0 < stored.toNat :=
          Nat.pos_of_ne_zero fun isZero => some (BitVec.eq_of_toNat_eq isZero)
        rw [unpack_packComponents_zero some sign storedPos rfl] at isFinite
        cases isFinite
        exact ⟨⟨by omega, le_rfl, Or.inr rfl⟩, by decide⟩
    · have above : field.toNat ≠ 0 := fun isZero => notZero (BitVec.eq_of_toNat_eq isZero)
      have below : field.toNat ≠ 2047 := fun isLast => notLast (BitVec.eq_of_toNat_eq isLast)
      have bound : field.toNat < 2 ^ 11 := field.isLt
      rw [unpack_packComponents notLast notZero sign stored (by omega) rfl rfl] at isFinite
      cases isFinite
      exact ⟨⟨by omega, by omega, by omega⟩, by omega⟩

theorem inFormat_of_unpack {x : Float.Model} {sign : Sign} {mantissa : ℕ} {exponent : ℤ}
    {pos : 0 < mantissa} (isFinite : x.unpack = .finite sign mantissa exponent pos) :
    IsInFormat mantissa exponent ∧ exponent ≤ 971 := by
  have fields := @packComponents_unpackSign_unpackExponent_unpackMantissa
    Format.binary64 x.toBits.toBitVec
  rw [Float.Model.unpack, ← fields] at isFinite
  exact inFormat_of_packComponents isFinite

/-! ## Comparison -/

theorem lt_eq (x y : Float) : Scalar.lt x y = x.toModel.unpack.lt y.toModel.unpack := by
  have model : (x.toModel < y.toModel) ↔ x.toModel.unpack.lt y.toModel.unpack = true := Iff.rfl
  have same : x < y ↔ x.toModel.unpack.lt y.toModel.unpack = true := by
    change decide (x.toModel < y.toModel) = true ↔ _
    rw [decide_eq_true_iff, model]
  rw [Bool.eq_iff_iff, ← same]
  exact decide_eq_true_iff

theorem le_eq (x y : Float) : Scalar.le x y = x.toModel.unpack.le y.toModel.unpack := by
  have model : (x.toModel ≤ y.toModel) ↔ x.toModel.unpack.le y.toModel.unpack = true := Iff.rfl
  have same : x ≤ y ↔ x.toModel.unpack.le y.toModel.unpack = true := by
    change decide (x.toModel ≤ y.toModel) = true ↔ _
    rw [decide_eq_true_iff, model]
  rw [Bool.eq_iff_iff, ← same]
  exact decide_eq_true_iff

/-! ## Magnitudes -/

/-- The magnitude of a number that is not below zero: more than any rational
number if it is infinite. -/
inductive HasMagnitude : UnpackedFloat → WithTop ℚ → Prop where
  | infinite : HasMagnitude (.infinity .positive) ⊤
  | number {u : UnpackedFloat} {x : ℚ} : IsNumber u x → HasMagnitude u x

/-- Numbers from two to the power of 1024 on are infinite. -/
def overflowed (x : ℚ) : WithTop ℚ := if x < 2 ^ 1024 then x else ⊤

theorem overflowed_mono {x y : ℚ} (le : x ≤ y) : overflowed x ≤ overflowed y := by
  rw [overflowed, overflowed]
  split
  · split
    · exact WithTop.coe_le_coe.mpr le
    · exact le_top
  · next large =>
      rw [if_neg fun less => large (le.trans_lt less)]

theorem value_pos {mantissa : ℕ} (pos : 0 < mantissa) (exponent : ℤ) :
    (0 : ℚ) < mantissa * 2 ^ exponent :=
  mul_pos (Nat.cast_pos.mpr pos) (two_zpow_pos exponent)

/-- Without leading zeros a greater exponent makes a greater number. -/
theorem value_lt_of_exponent_lt {mantissa other : ℕ} {exponent place : ℤ}
    (inFormat : IsInFormat mantissa exponent) (alsoInFormat : IsInFormat other place)
    (below : exponent < place) : (mantissa : ℚ) * 2 ^ exponent < other * 2 ^ place := by
  have full : 2 ^ 52 ≤ other :=
    alsoInFormat.first.resolve_right fun isLeast => by
      have least := inFormat.least
      omega
  calc (mantissa : ℚ) * 2 ^ exponent
    _ < 2 ^ 53 * 2 ^ exponent :=
        mul_lt_mul_of_pos_right (by exact_mod_cast inFormat.digits) (two_zpow_pos exponent)
    _ = 2 ^ 52 * 2 ^ (exponent + 1) := by
        rw [zpow_add_one₀ two_ne_zero]
        ring
    _ ≤ 2 ^ 52 * 2 ^ place :=
        mul_le_mul_of_nonneg_left (zpow_le_zpow_right₀ one_le_two below) (by positivity)
    _ ≤ other * 2 ^ place :=
        mul_le_mul_of_nonneg_right (by exact_mod_cast full) (two_zpow_pos place).le

/-- In the format the exponent tells whether a number is too large. -/
theorem lt_overflow_iff {mantissa : ℕ} {exponent : ℤ} (inFormat : IsInFormat mantissa exponent) :
    (mantissa : ℚ) * 2 ^ exponent < 2 ^ 1024 ↔ exponent ≤ 971 := by
  have limit : ((2 ^ 52 : ℕ) : ℚ) * 2 ^ (972 : ℤ) = 2 ^ 1024 := by
    rw [Nat.cast_pow, Nat.cast_ofNat, zpow_ofNat, ← pow_add]
  have limitInFormat : IsInFormat (2 ^ 52) 972 := ⟨by decide, by decide, Or.inl le_rfl⟩
  rw [← limit]
  constructor
  · intro less
    by_contra large
    have full : 2 ^ 52 ≤ mantissa := inFormat.first.resolve_right (by omega)
    have atLeast : (2 : ℚ) ^ (972 : ℤ) ≤ 2 ^ exponent := zpow_le_zpow_right₀ one_le_two (by omega)
    exact absurd less (not_lt.mpr (mul_le_mul (Nat.cast_le.mpr full) atLeast (two_zpow_pos _).le
      (Nat.cast_nonneg _)))
  · intro fits
    exact value_lt_of_exponent_lt inFormat limitInFormat (by omega)

/-- Numbers in the format compare by exponent first. -/
theorem compare_isLE_iff {mantissa other : ℕ} {exponent place : ℤ}
    (inFormat : IsInFormat mantissa exponent) (alsoInFormat : IsInFormat other place) :
    ((compare exponent place).then (compare mantissa other)).isLE = true ↔
      (mantissa : ℚ) * 2 ^ exponent ≤ other * 2 ^ place := by
  rcases lt_trichotomy exponent place with below | rfl | above
  · rw [compare_lt_iff_lt.mpr below]
    exact iff_of_true rfl (value_lt_of_exponent_lt inFormat alsoInFormat below).le
  · rw [compare_eq_iff_eq.mpr rfl, mul_le_mul_iff_left₀ (two_zpow_pos exponent), Nat.cast_le]
    exact Nat.isLE_compare
  · rw [compare_gt_iff_gt.mpr above]
    exact iff_of_false (nomatch ·) (not_le.mpr (value_lt_of_exponent_lt alsoInFormat inFormat above))

theorem compare_eq_lt_iff {mantissa other : ℕ} {exponent place : ℤ}
    (inFormat : IsInFormat mantissa exponent) (alsoInFormat : IsInFormat other place) :
    (compare exponent place).then (compare mantissa other) = .lt ↔
      (mantissa : ℚ) * 2 ^ exponent < other * 2 ^ place := by
  rcases lt_trichotomy exponent place with below | rfl | above
  · rw [compare_lt_iff_lt.mpr below]
    exact iff_of_true rfl (value_lt_of_exponent_lt inFormat alsoInFormat below)
  · rw [compare_eq_iff_eq.mpr rfl, mul_lt_mul_iff_left₀ (two_zpow_pos exponent), Nat.cast_lt]
    exact compare_lt_iff_lt
  · rw [compare_gt_iff_gt.mpr above]
    exact iff_of_false nofun (value_lt_of_exponent_lt alsoInFormat inFormat above).not_gt

/-- Packing shows whether a number is too large. -/
theorem hasMagnitude_pack {u : UnpackedFloat} {x : ℚ} (isNumber : IsNumber u x) :
    HasMagnitude (Float.Model.pack u).unpack (overflowed x) := by
  rw [overflowed]
  cases isNumber with
  | zero sign =>
      have isZero : (Float.Model.pack (.zero sign)).unpack = .zero sign := unpack_packedZero
      rw [isZero, if_pos (by positivity)]
      exact .number (.zero sign)
  | @finite mantissa exponent pos inFormat =>
      by_cases fits : exponent ≤ 971
      · rw [unpack_pack pos inFormat fits, if_pos ((lt_overflow_iff inFormat).mpr fits)]
        exact .number (.finite pos inFormat)
      · rw [unpack_pack_of_large pos (not_le.mp fits), if_neg fun less =>
          fits ((lt_overflow_iff inFormat).mp less)]
        exact .infinite

/-- Numbers compare as their magnitudes do. -/
theorem le_iff_of_hasMagnitude {u v : UnpackedFloat} {a b : WithTop ℚ} (first : HasMagnitude u a)
    (second : HasMagnitude v b) : u.le v = true ↔ a ≤ b := by
  cases first with
  | infinite =>
      cases second with
      | infinite => exact iff_of_true rfl le_rfl
      | number isNumber =>
          refine iff_of_false ?_ (not_le.mpr (WithTop.coe_lt_top _))
          cases isNumber <;> nofun
  | number isNumber =>
      cases second with
      | infinite =>
          refine iff_of_true ?_ le_top
          cases isNumber <;> rfl
      | number alsoNumber =>
          rw [WithTop.coe_le_coe]
          cases isNumber with
          | zero sign =>
              cases alsoNumber with
              | zero other => exact iff_of_true rfl le_rfl
              | finite pos inFormat => exact iff_of_true rfl (value_pos pos _).le
          | finite pos inFormat =>
              cases alsoNumber with
              | zero other => exact iff_of_false nofun (not_le.mpr (value_pos pos _))
              | finite alsoPos alsoInFormat => exact compare_isLE_iff inFormat alsoInFormat

theorem lt_iff_of_hasMagnitude {u v : UnpackedFloat} {a b : WithTop ℚ} (first : HasMagnitude u a)
    (second : HasMagnitude v b) : u.lt v = true ↔ a < b := by
  cases first with
  | infinite =>
      refine iff_of_false ?_ not_top_lt
      cases second with
      | infinite => nofun
      | number isNumber => cases isNumber <;> nofun
  | number isNumber =>
      cases second with
      | infinite =>
          refine iff_of_true ?_ (WithTop.coe_lt_top _)
          cases isNumber <;> rfl
      | number alsoNumber =>
          rw [WithTop.coe_lt_coe]
          cases isNumber with
          | zero sign =>
              cases alsoNumber with
              | zero other => exact iff_of_false nofun (lt_irrefl 0)
              | finite pos inFormat => exact iff_of_true rfl (value_pos pos _)
          | finite pos inFormat =>
              cases alsoNumber with
              | zero other => exact iff_of_false nofun (value_pos pos _).not_gt
              | finite alsoPos alsoInFormat =>
                  rw [← compare_eq_lt_iff inFormat alsoInFormat, UnpackedFloat.lt, beq_iff_eq]
                  exact Option.some_inj

/-- What is not below a number is not below zero. -/
theorem zero_le_of_hasMagnitude {u v : UnpackedFloat} {a : WithTop ℚ} (hasMagnitude : HasMagnitude u a)
    (le : u.le v = true) : (UnpackedFloat.zero .positive).le v = true := by
  cases v with
  | notANumber =>
      cases hasMagnitude with
      | infinite => cases le
      | number isNumber => cases isNumber <;> cases le
  | infinity sign =>
      cases sign with
      | positive => rfl
      | negative =>
          cases hasMagnitude with
          | infinite => cases le
          | number isNumber => cases isNumber <;> cases le
  | zero sign => rfl
  | finite sign mantissa exponent pos =>
      cases sign with
      | positive => rfl
      | negative =>
          cases hasMagnitude with
          | infinite => cases le
          | number isNumber => cases isNumber <;> cases le

theorem zero_le_of_not_lt {u v : UnpackedFloat} {b : WithTop ℚ} (finite : u.isFinite = true)
    (hasMagnitude : HasMagnitude v b) (notLess : u.lt v = false) :
    (UnpackedFloat.zero .positive).le u = true := by
  cases u with
  | notANumber => cases finite
  | infinity sign => cases finite
  | zero sign => rfl
  | finite sign mantissa exponent pos =>
      cases sign with
      | positive => rfl
      | negative =>
          cases hasMagnitude with
          | infinite => cases notLess
          | number isNumber => cases isNumber <;> cases notLess

theorem le_of_lt_unpacked {u v : UnpackedFloat} (less : u.lt v = true) : u.le v = true := by
  rw [UnpackedFloat.lt, beq_iff_eq] at less
  rw [UnpackedFloat.le, less]
  rfl

/-- What is not below zero is a number. -/
theorem exists_hasMagnitude {x : Float} (nonneg : Scalar.le Scalar.zero x = true) :
    ∃ a, HasMagnitude x.toModel.unpack a := by
  rw [le_eq] at nonneg
  cases kind : x.toModel.unpack with
  | notANumber =>
      rw [kind] at nonneg
      cases nonneg
  | infinity sign =>
      rw [kind] at nonneg
      cases sign with
      | positive => exact ⟨_, .infinite⟩
      | negative => cases nonneg
  | zero sign => exact ⟨_, .number (.zero sign)⟩
  | finite sign mantissa exponent pos =>
      rw [kind] at nonneg
      cases sign with
      | positive => exact ⟨_, .number (.finite pos (inFormat_of_unpack kind).1)⟩
      | negative => cases nonneg

end ContextPack.BinaryFloat
