import ContextPack.Proofs.Number.Operations
import ContextPack.Proofs.Number.Real

namespace ContextPack

/-!
# Laws of order

Weights are computed from numbers that are not below zero.  Arithmetic keeps
their order even when it rounds each result, which exact numbers and floating
point numbers have in common.  What is not below zero is a number, so that the
laws need not speak of values that are no numbers.
-/

class MonotoneLaws (α : Type) [Scalar α] : Prop where
  zero_le_zero : Scalar.le (Scalar.zero : α) Scalar.zero = true
  zero_le_one : Scalar.le (Scalar.zero : α) Scalar.one = true
  /-- How far apart floating point numbers are at one. -/
  zero_le_spacing : Scalar.le (Scalar.zero : α) (Scalar.one / Scalar.ofNat 4503599627370496) = true
  isFinite_one : Scalar.isFinite (Scalar.one : α) = true
  le_refl {x : α} : Scalar.le Scalar.zero x = true → Scalar.le x x = true
  le_trans {x y z : α} : Scalar.le Scalar.zero x = true → Scalar.le x y = true →
    Scalar.le y z = true → Scalar.le x z = true
  lt_of_not_le {x y : α} : Scalar.le Scalar.zero x = true → Scalar.le Scalar.zero y = true →
    Scalar.le x y = false → Scalar.lt y x = true
  not_lt_of_le {x y : α} : Scalar.le Scalar.zero x = true → Scalar.le x y = true →
    Scalar.lt y x = false
  /-- A finite number that is not less than one that is not below zero. -/
  le_of_not_lt {x y : α} : Scalar.isFinite x = true → Scalar.le Scalar.zero y = true →
    Scalar.lt x y = false → Scalar.le y x = true
  minimum_le {x y : α} : Scalar.le Scalar.zero (Scalar.minimum x y) = true →
    Scalar.le Scalar.zero y = true → Scalar.le (Scalar.minimum x y) y = true
  isFinite_of_le {x y : α} : Scalar.le Scalar.zero x = true → Scalar.le x y = true →
    Scalar.isFinite y = true → Scalar.isFinite x = true
  sub_le_sub {x y z : α} : Scalar.le Scalar.zero z = true → Scalar.le z x = true →
    Scalar.le x y = true → Scalar.isFinite y = true → Scalar.le (x - z) (y - z) = true
  zero_le_sub {x z : α} : Scalar.le Scalar.zero z = true → Scalar.le z x = true →
    Scalar.isFinite x = true → Scalar.le Scalar.zero (x - z) = true
  isFinite_sub {x z : α} : Scalar.le Scalar.zero z = true → Scalar.le z x = true →
    Scalar.isFinite x = true → Scalar.isFinite (x - z) = true
  div_le_div {x y z : α} : Scalar.le Scalar.zero x = true → Scalar.le x y = true →
    Scalar.isFinite y = true → Scalar.lt Scalar.zero z = true → Scalar.isFinite z = true →
    Scalar.le (x / z) (y / z) = true
  zero_le_div {x z : α} : Scalar.le Scalar.zero x = true → Scalar.isFinite x = true →
    Scalar.lt Scalar.zero z = true → Scalar.isFinite z = true → Scalar.le Scalar.zero (x / z) = true
  mul_le_mul {x y z : α} : Scalar.le Scalar.zero x = true → Scalar.le x y = true →
    Scalar.isFinite y = true → Scalar.le Scalar.zero z = true → Scalar.isFinite z = true →
    Scalar.le (x * z) (y * z) = true
  zero_le_mul {x z : α} : Scalar.le Scalar.zero x = true → Scalar.isFinite x = true →
    Scalar.le Scalar.zero z = true → Scalar.isFinite z = true → Scalar.le Scalar.zero (x * z) = true
  add_le_add {x y z : α} : Scalar.le Scalar.zero z = true → Scalar.isFinite z = true →
    Scalar.le Scalar.zero x = true → Scalar.le x y = true → Scalar.le (z + x) (z + y) = true
  le_add {x z : α} : Scalar.le Scalar.zero z = true → Scalar.isFinite z = true →
    Scalar.le Scalar.zero x = true → Scalar.le z (z + x) = true

instance : MonotoneLaws ℝ where
  zero_le_zero := by simp
  zero_le_one := by simp
  zero_le_spacing := by
    rw [Scalar.le_real, decide_eq_true_eq, Scalar.zero_real, Scalar.one_real]
    exact div_nonneg zero_le_one (Nat.cast_nonneg _)
  isFinite_one := rfl
  le_refl _ := by simp
  le_trans _ first second := by
    simp only [Scalar.le_real, decide_eq_true_eq] at first second ⊢
    exact first.trans second
  lt_of_not_le _ _ less := by simpa using less
  not_lt_of_le _ le := by simpa using le
  le_of_not_lt _ _ less := by simpa using less
  minimum_le _ _ := by simp
  isFinite_of_le _ _ _ := rfl
  sub_le_sub _ _ le _ := by simpa using le
  zero_le_sub _ le _ := by simpa using le
  isFinite_sub _ _ _ := rfl
  div_le_div _ le _ pos _ := by
    simp only [Scalar.le_real, Scalar.lt_real, Scalar.zero_real, decide_eq_true_eq] at le pos ⊢
    exact div_le_div_of_nonneg_right le pos.le
  zero_le_div nonneg _ pos _ := by
    simp only [Scalar.le_real, Scalar.lt_real, Scalar.zero_real, decide_eq_true_eq] at nonneg pos ⊢
    exact div_nonneg nonneg pos.le
  mul_le_mul _ le _ nonneg _ := by
    simp only [Scalar.le_real, Scalar.zero_real, decide_eq_true_eq] at le nonneg ⊢
    exact mul_le_mul_of_nonneg_right le nonneg
  zero_le_mul first _ second _ := by
    simp only [Scalar.le_real, Scalar.zero_real, decide_eq_true_eq] at first second ⊢
    exact mul_nonneg first second
  add_le_add _ _ _ le := by simpa using le
  le_add _ _ nonneg := by simpa using nonneg

/-! ## Bounds and clamping -/

namespace Scalar

variable {α : Type} [Scalar α] [MonotoneLaws α] {x y : α}

theorem zero_le_trans (nonneg : le zero x = true) (inOrder : le x y = true) : le zero y = true :=
  MonotoneLaws.le_trans MonotoneLaws.zero_le_zero nonneg inOrder

theorem isFinite_of_le_one (nonneg : le zero x = true) (atMost : le x one = true) :
    isFinite x = true :=
  MonotoneLaws.isFinite_of_le nonneg atMost MonotoneLaws.isFinite_one

/-- What is not below zero is only cut at one. -/
theorem clamp_of_nonneg (nonneg : le zero x = true) :
    clamp x zero one = if lt one x then one else x := by
  rw [clamp, MonotoneLaws.not_lt_of_le MonotoneLaws.zero_le_zero nonneg,
    if_neg Bool.false_ne_true]

theorem zero_le_clamp (nonneg : le zero x = true) : le zero (clamp x zero one) = true := by
  rw [clamp_of_nonneg nonneg]
  split
  · exact MonotoneLaws.zero_le_one
  · exact nonneg

theorem clamp_le_one (nonneg : le zero x = true) : le (clamp x zero one) one = true := by
  rw [clamp_of_nonneg nonneg]
  split
  · exact MonotoneLaws.le_refl MonotoneLaws.zero_le_one
  · next notMore =>
      exact MonotoneLaws.le_of_not_lt MonotoneLaws.isFinite_one nonneg
        (Bool.eq_false_iff.mpr notMore)

theorem clamp_mono (nonneg : le zero x = true) (inOrder : le x y = true) :
    le (clamp x zero one) (clamp y zero one) = true := by
  have alsoNonneg : le zero y = true := zero_le_trans nonneg inOrder
  rw [clamp_of_nonneg alsoNonneg]
  split
  · exact clamp_le_one nonneg
  · next notMore =>
      have atMost : le y one = true := MonotoneLaws.le_of_not_lt MonotoneLaws.isFinite_one
        alsoNonneg (Bool.eq_false_iff.mpr notMore)
      have notCut : lt one x = false :=
        MonotoneLaws.not_lt_of_le nonneg (MonotoneLaws.le_trans nonneg inOrder atMost)
      rw [clamp_of_nonneg nonneg, notCut, if_neg Bool.false_ne_true]
      exact inOrder

end Scalar

/-! ## Floating point -/

namespace BinaryFloat

open Float.Model (Format UnpackedFloat)

theorem IsNumber.unique {u : UnpackedFloat} {p q : ℚ} (first : IsNumber u p) (second : IsNumber u q) :
    p = q := by
  cases first <;> cases second <;> rfl

theorem HasMagnitude.nonneg {u : UnpackedFloat} {a : WithTop ℚ} (hasMagnitude : HasMagnitude u a) :
    0 ≤ a := by
  cases hasMagnitude with
  | infinite => exact le_top
  | number isNumber =>
      refine WithTop.coe_le_coe.mpr ?_
      cases isNumber with
      | zero sign => exact le_rfl
      | finite pos inFormat => exact (value_pos pos _).le

variable {x y : Float} {a b : WithTop ℚ} {p q : ℚ}

theorem le_iff (first : HasMagnitude x.toModel.unpack a) (second : HasMagnitude y.toModel.unpack b) :
    Scalar.le x y = true ↔ a ≤ b := by
  rw [le_eq]
  exact le_iff_of_hasMagnitude first second

theorem lt_iff (first : HasMagnitude x.toModel.unpack a) (second : HasMagnitude y.toModel.unpack b) :
    Scalar.lt x y = true ↔ a < b := by
  rw [lt_eq]
  exact lt_iff_of_hasMagnitude first second

theorem zero_hasMagnitude : HasMagnitude (Scalar.zero : Float).toModel.unpack ((0 : ℚ) : WithTop ℚ) :=
  .number (.zero .positive)

theorem zero_le (hasMagnitude : HasMagnitude x.toModel.unpack a) : Scalar.le Scalar.zero x = true :=
  (le_iff zero_hasMagnitude hasMagnitude).mpr hasMagnitude.nonneg

/-- What is not less than a number is a number as well. -/
theorem exists_hasMagnitude_of_le (hasMagnitude : HasMagnitude x.toModel.unpack a)
    (le : Scalar.le x y = true) : ∃ b, HasMagnitude y.toModel.unpack b ∧ a ≤ b := by
  have nonneg : Scalar.le Scalar.zero y = true := by
    rw [le_eq] at le ⊢
    exact zero_le_of_hasMagnitude hasMagnitude le
  rcases exists_hasMagnitude nonneg with ⟨b, alsoMagnitude⟩
  exact ⟨b, alsoMagnitude, (le_iff hasMagnitude alsoMagnitude).mp le⟩

theorem exists_isNumber (hasMagnitude : HasMagnitude x.toModel.unpack a)
    (finite : Scalar.isFinite x = true) : ∃ q : ℚ, a = q ∧ IsNumber x.toModel.unpack q := by
  change x.toModel.unpack.isFinite = true at finite
  generalize x.toModel.unpack = u at hasMagnitude finite
  cases hasMagnitude with
  | infinite => cases finite
  | number isNumber => exact ⟨_, rfl, isNumber⟩

theorem exists_values (nonneg : Scalar.le Scalar.zero x = true) (le : Scalar.le x y = true)
    (finite : Scalar.isFinite y = true) :
    ∃ p q, IsNumber x.toModel.unpack p ∧ IsNumber y.toModel.unpack q ∧ 0 ≤ p ∧ p ≤ q := by
  rcases exists_hasMagnitude nonneg with ⟨a, ofX⟩
  rcases exists_hasMagnitude_of_le ofX le with ⟨b, ofY, ab⟩
  rcases exists_isNumber ofY finite with ⟨q, rfl, isY⟩
  have xFinite : Scalar.isFinite x = true := by
    change x.toModel.unpack.isFinite = true
    generalize x.toModel.unpack = u at ofX
    cases ofX with
    | infinite => exact absurd ab (not_le.mpr (WithTop.coe_lt_top q))
    | number isNumber => cases isNumber <;> rfl
  rcases exists_isNumber ofX xFinite with ⟨p, rfl, isX⟩
  exact ⟨p, q, isX, isY, WithTop.coe_le_coe.mp ofX.nonneg, WithTop.coe_le_coe.mp ab⟩

theorem exists_value (nonneg : Scalar.le Scalar.zero x = true) (finite : Scalar.isFinite x = true) :
    ∃ q, IsNumber x.toModel.unpack q ∧ 0 ≤ q := by
  rcases exists_hasMagnitude nonneg with ⟨a, ofX⟩
  rcases exists_isNumber ofX finite with ⟨q, rfl, isNumber⟩
  exact ⟨q, isNumber, WithTop.coe_le_coe.mp ofX.nonneg⟩

theorem exists_value_of_pos (pos : Scalar.lt Scalar.zero x = true) (finite : Scalar.isFinite x = true) :
    ∃ q, IsNumber x.toModel.unpack q ∧ 0 < q := by
  have nonneg : Scalar.le Scalar.zero x = true := by
    rw [lt_eq] at pos
    rw [le_eq]
    exact le_of_lt_unpacked pos
  rcases exists_value nonneg finite with ⟨q, isNumber, -⟩
  exact ⟨q, isNumber, WithTop.coe_lt_coe.mp ((lt_iff zero_hasMagnitude (.number isNumber)).mp pos)⟩

/-- What is stored is not too large. -/
theorem overflowed_of_unpack (isNumber : IsNumber x.toModel.unpack q) : overflowed q = q := by
  generalize kind : x.toModel.unpack = u at isNumber
  cases isNumber with
  | zero sign => exact if_pos (by positivity)
  | finite pos inFormat => exact if_pos ((lt_overflow_iff inFormat).mpr (inFormat_of_unpack kind).2)

theorem isFinite_of_isNumber (isNumber : IsNumber x.toModel.unpack q) : Scalar.isFinite x = true := by
  change x.toModel.unpack.isFinite = true
  generalize x.toModel.unpack = u at isNumber
  cases isNumber <;> rfl

/-- The smaller of a value and a number is the number, unless the number is not
less than the value. -/
theorem minimum_cases (x : Float) (ofY : HasMagnitude y.toModel.unpack b) :
    Scalar.minimum x y = y ∨ Scalar.minimum x y = x ∧ Scalar.lt y x = false := by
  have isNumber : y.isNaN = false := by
    change y.toModel.unpack.isNaN = false
    generalize y.toModel.unpack = v at ofY
    cases ofY with
    | infinite => rfl
    | number isNumber => cases isNumber <;> rfl
  change minimum x y = y ∨ minimum x y = x ∧ decide (y < x) = false
  rw [minimum, isNumber]
  split
  · exact Or.inl rfl
  · rw [if_neg Bool.false_ne_true]
    split
    · exact Or.inl rfl
    · next notLess => exact Or.inr ⟨rfl, decide_eq_false notLess⟩

/-! ### Results -/

/-- A float that holds the rounded value of an exact result. -/
def HoldsResult (x : Float) (q : ℚ) : Prop :=
  HasMagnitude x.toModel.unpack (overflowed (rounded q))

theorem HoldsResult.le (first : HoldsResult x p) (second : HoldsResult y q) (nonneg : 0 ≤ p)
    (le : p ≤ q) : Scalar.le x y = true :=
  (le_iff first second).mpr (overflowed_mono (rounded_mono nonneg le))

theorem HoldsResult.zero_le (holds : HoldsResult x p) : Scalar.le Scalar.zero x = true :=
  (le_iff zero_hasMagnitude holds).mpr (HasMagnitude.nonneg holds)

/-- Numbers are results themselves. -/
theorem IsNumber.holdsResult (isNumber : IsNumber x.toModel.unpack q) : HoldsResult x q := by
  rw [HoldsResult, isNumber.rounded_eq, overflowed_of_unpack isNumber]
  exact .number isNumber

/-- A result that is not more than a number is finite. -/
theorem HoldsResult.isFinite (first : HoldsResult x p) (second : IsNumber y.toModel.unpack q)
    (nonneg : 0 ≤ p) (le : p ≤ q) : Scalar.isFinite x = true := by
  rcases exists_values first.zero_le (first.le second.holdsResult nonneg le)
    (isFinite_of_isNumber second) with ⟨p, -, isX, -⟩
  exact isFinite_of_isNumber isX

theorem add_holdsResult (first : IsNumber x.toModel.unpack p) (second : IsNumber y.toModel.unpack q) :
    HoldsResult (x + y) (p + q) :=
  hasMagnitude_pack (isNumber_add first second)

theorem sub_holdsResult (first : IsNumber x.toModel.unpack p) (second : IsNumber y.toModel.unpack q)
    (le : q ≤ p) : HoldsResult (x - y) (p - q) :=
  hasMagnitude_pack (isNumber_sub first second le)

theorem mul_holdsResult (first : IsNumber x.toModel.unpack p) (second : IsNumber y.toModel.unpack q) :
    HoldsResult (x * y) (p * q) :=
  hasMagnitude_pack (isNumber_mul first second)

theorem div_holdsResult (first : IsNumber x.toModel.unpack p) (second : IsNumber y.toModel.unpack q)
    (pos : 0 < q) : HoldsResult (x / y) (p / q) :=
  hasMagnitude_pack (isNumber_div first second pos)

/-- A sum with something infinite is infinite. -/
theorem add_infinite (first : IsNumber x.toModel.unpack p) (second : HasMagnitude y.toModel.unpack ⊤) :
    HasMagnitude (x + y).toModel.unpack ⊤ := by
  change HasMagnitude (Float.Model.pack (UnpackedFloat.add Format.binary64 x.toModel.unpack
    y.toModel.unpack)).unpack ⊤
  generalize x.toModel.unpack = u at first
  generalize y.toModel.unpack = v at second
  have packed : (Float.Model.pack (.infinity .positive)).unpack = .infinity .positive := rfl
  cases second
  have sum : UnpackedFloat.add Format.binary64 u (.infinity .positive) = .infinity .positive := by
    cases first <;> rfl
  rw [sum, packed]
  exact .infinite

/-- A sum is infinite only with something infinite, or when it overflows. -/
theorem add_cases (first : IsNumber x.toModel.unpack p) (second : HasMagnitude y.toModel.unpack b) :
    (b = ⊤ ∧ HasMagnitude (x + y).toModel.unpack ⊤) ∨
      ∃ q : ℚ, b = q ∧ 0 ≤ q ∧ IsNumber y.toModel.unpack q ∧ HoldsResult (x + y) (p + q) := by
  cases b with
  | top => exact Or.inl ⟨rfl, add_infinite first second⟩
  | coe q =>
      have isNumber : IsNumber y.toModel.unpack q := by
        generalize y.toModel.unpack = v at second
        cases second with
        | number isNumber => exact isNumber
      exact Or.inr ⟨q, rfl, WithTop.coe_le_coe.mp second.nonneg, isNumber,
        add_holdsResult first isNumber⟩

end BinaryFloat

open BinaryFloat in
instance : MonotoneLaws Float where
  zero_le_zero := by decide +kernel
  zero_le_one := by decide +kernel
  zero_le_spacing := by decide +kernel
  isFinite_one := by decide +kernel
  le_refl nonneg := by
    rcases exists_hasMagnitude nonneg with ⟨a, ofX⟩
    exact (le_iff ofX ofX).mpr le_rfl
  le_trans {x y z} nonneg first second := by
    rcases exists_hasMagnitude nonneg with ⟨a, ofX⟩
    rcases exists_hasMagnitude_of_le ofX first with ⟨b, ofY, ab⟩
    rcases exists_hasMagnitude_of_le ofY second with ⟨c, ofZ, bc⟩
    exact (le_iff ofX ofZ).mpr (ab.trans bc)
  lt_of_not_le {x y} nonneg alsoNonneg notLe := by
    rcases exists_hasMagnitude nonneg with ⟨a, ofX⟩
    rcases exists_hasMagnitude alsoNonneg with ⟨b, ofY⟩
    rw [lt_iff ofY ofX, ← not_le, ← le_iff ofX ofY, notLe]
    exact Bool.false_ne_true
  not_lt_of_le {x y} nonneg le := by
    rcases exists_hasMagnitude nonneg with ⟨a, ofX⟩
    rcases exists_hasMagnitude_of_le ofX le with ⟨b, ofY, ab⟩
    rw [Bool.eq_false_iff, ne_eq, lt_iff ofY ofX, not_lt]
    exact ab
  le_of_not_lt {x y} finite nonneg notLess := by
    rcases exists_hasMagnitude nonneg with ⟨b, ofY⟩
    have xNonneg : Scalar.le Scalar.zero x = true := by
      rw [lt_eq] at notLess
      rw [le_eq]
      exact zero_le_of_not_lt finite ofY notLess
    rcases exists_hasMagnitude xNonneg with ⟨a, ofX⟩
    rw [Bool.eq_false_iff, ne_eq, lt_iff ofX ofY, not_lt] at notLess
    exact (le_iff ofY ofX).mpr notLess
  minimum_le {x y} nonneg alsoNonneg := by
    rcases exists_hasMagnitude alsoNonneg with ⟨b, ofY⟩
    rcases minimum_cases x ofY with isRight | ⟨isLeft, notLess⟩
    · rw [isRight]
      exact (le_iff ofY ofY).mpr le_rfl
    · rw [isLeft] at nonneg ⊢
      rcases exists_hasMagnitude nonneg with ⟨a, ofX⟩
      rw [Bool.eq_false_iff, ne_eq, lt_iff ofY ofX, not_lt] at notLess
      exact (le_iff ofX ofY).mpr notLess
  isFinite_of_le {x y} nonneg le finite := by
    rcases exists_values nonneg le finite with ⟨p, -, isX, -⟩
    exact isFinite_of_isNumber isX
  sub_le_sub {x y z} zNonneg zx xy finite := by
    rcases exists_hasMagnitude zNonneg with ⟨c, ofZ⟩
    rcases exists_hasMagnitude_of_le ofZ zx with ⟨a, ofX, -⟩
    rcases exists_values (zero_le ofX) xy finite with ⟨p, q, isX, isY, -, pq⟩
    rcases exists_values zNonneg zx (isFinite_of_isNumber isX) with ⟨r, p', isZ, isX', -, rp⟩
    obtain rfl := isX.unique isX'
    exact (sub_holdsResult isX isZ rp).le (sub_holdsResult isY isZ (rp.trans pq))
      (sub_nonneg.mpr rp) (sub_le_sub_right pq r)
  zero_le_sub {x z} zNonneg zx finite := by
    rcases exists_values zNonneg zx finite with ⟨r, p, isZ, isX, -, rp⟩
    exact (sub_holdsResult isX isZ rp).zero_le
  isFinite_sub {x z} zNonneg zx finite := by
    rcases exists_values zNonneg zx finite with ⟨r, p, isZ, isX, nonneg, rp⟩
    exact (sub_holdsResult isX isZ rp).isFinite isX (sub_nonneg.mpr rp) (sub_le_self p nonneg)
  div_le_div {x y z} nonneg xy yFinite pos zFinite := by
    rcases exists_values nonneg xy yFinite with ⟨p, q, isX, isY, pNonneg, pq⟩
    rcases exists_value_of_pos pos zFinite with ⟨r, isZ, rPos⟩
    exact (div_holdsResult isX isZ rPos).le (div_holdsResult isY isZ rPos)
      (div_nonneg pNonneg rPos.le) (div_le_div_of_nonneg_right pq rPos.le)
  zero_le_div {x z} nonneg xFinite pos zFinite := by
    rcases exists_value nonneg xFinite with ⟨p, isX, -⟩
    rcases exists_value_of_pos pos zFinite with ⟨r, isZ, rPos⟩
    exact (div_holdsResult isX isZ rPos).zero_le
  mul_le_mul {x y z} nonneg xy yFinite zNonneg zFinite := by
    rcases exists_values nonneg xy yFinite with ⟨p, q, isX, isY, pNonneg, pq⟩
    rcases exists_value zNonneg zFinite with ⟨r, isZ, rNonneg⟩
    exact (mul_holdsResult isX isZ).le (mul_holdsResult isY isZ) (mul_nonneg pNonneg rNonneg)
      (mul_le_mul_of_nonneg_right pq rNonneg)
  zero_le_mul {x z} nonneg xFinite zNonneg zFinite := by
    rcases exists_value nonneg xFinite with ⟨p, isX, -⟩
    rcases exists_value zNonneg zFinite with ⟨r, isZ, -⟩
    exact (mul_holdsResult isX isZ).zero_le
  add_le_add {x y z} zNonneg zFinite nonneg xy := by
    rcases exists_value zNonneg zFinite with ⟨r, isZ, rNonneg⟩
    rcases exists_hasMagnitude nonneg with ⟨a, ofX⟩
    rcases exists_hasMagnitude_of_le ofX xy with ⟨b, ofY, ab⟩
    rcases add_cases isZ ofX with ⟨rfl, unbounded⟩ | ⟨p, rfl, pNonneg, -, first⟩
    · rw [top_le_iff] at ab
      subst ab
      exact (le_iff unbounded (add_infinite isZ ofY)).mpr le_rfl
    · rcases add_cases isZ ofY with ⟨-, unbounded⟩ | ⟨q, rfl, -, -, second⟩
      · exact (le_iff first unbounded).mpr le_top
      · exact first.le second (add_nonneg rNonneg pNonneg)
          (add_le_add_right (WithTop.coe_le_coe.mp ab) r)
  le_add {x z} zNonneg zFinite nonneg := by
    rcases exists_value zNonneg zFinite with ⟨r, isZ, rNonneg⟩
    rcases exists_hasMagnitude nonneg with ⟨a, ofX⟩
    rcases add_cases isZ ofX with ⟨-, unbounded⟩ | ⟨p, -, pNonneg, -, sum⟩
    · exact (le_iff isZ.holdsResult unbounded).mpr le_top
    · exact isZ.holdsResult.le sum rNonneg (le_add_of_nonneg_right pNonneg)

end ContextPack
