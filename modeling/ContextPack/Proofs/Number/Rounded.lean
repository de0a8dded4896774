import Mathlib
import ContextPack.Proofs.Number.Finite
import ContextPack.Proofs.Number.Magnitude
import ContextPack.Proofs.Number.Zero

namespace ContextPack
namespace BinaryFloat

/-!
# Zero and infinity in binary floating point

An operation with zero, or with something infinite, is not rounded.  So the
laws hold for floating point numbers bit by bit, and only infinities, values
that are no number and the sign of zero have to be looked at.
-/

open Float.Model (UnpackedFloat Format)
open Float.Model.UnpackedFloat (Sign)

/-- Unpacking a number and packing it again changes nothing. -/
theorem ofModel_pack_unpack (x : Float) : Float.ofModel (Float.Model.pack x.toModel.unpack) = x := by
  rcases x with ⟨bits, valid⟩
  simp only [Float.Model.pack, Float.Model.unpack, UnpackedFloat.pack_unpack_of_valid valid]

@[simp] theorem unpack_zero : (Scalar.zero : Float).toModel.unpack = .zero .positive := rfl

@[simp] theorem unpack_pack_zero (sign : Sign) :
    (Float.Model.pack (.zero sign)).unpack = .zero sign :=
  UnpackedFloat.unpack_packedZero

/-- The sign of a zero is of no account in comparisons. -/
theorem zero_lt_congr (first second : Sign) (x : UnpackedFloat) :
    (UnpackedFloat.zero first).lt x = (UnpackedFloat.zero second).lt x := by
  cases x with
  | notANumber => rfl
  | zero sign => rfl
  | infinity sign =>
      cases sign with
      | positive => rfl
      | negative => rfl
  | finite sign mantissa exponent mantissa_pos =>
      cases sign with
      | positive => rfl
      | negative => rfl

/-- Adding zero changes at most the sign of a zero. -/
theorem add_zero_cases (x : Float) :
    x + Scalar.zero = x ∨
      x.toModel.unpack = .zero .negative ∧ x + Scalar.zero = (Scalar.zero : Float) := by
  have sum : x + Scalar.zero = Float.ofModel (Float.Model.pack
      (UnpackedFloat.add Format.binary64 x.toModel.unpack (.zero .positive))) := rfl
  have whole := ofModel_pack_unpack x
  cases kind : x.toModel.unpack with
  | notANumber =>
      left
      rw [kind] at sum whole
      exact sum.trans whole
  | infinity sign =>
      left
      rw [kind] at sum whole
      exact sum.trans whole
  | finite sign mantissa exponent pos =>
      left
      rw [kind] at sum whole
      exact sum.trans whole
  | zero sign =>
      rw [kind] at sum whole
      cases sign with
      | positive =>
          left
          exact sum.trans whole
      | negative =>
          right
          exact ⟨rfl, sum⟩

/-- A number above zero is finite or infinite, and its sign is positive. -/
theorem pos_cases {x : Float} (pos : Scalar.lt Scalar.zero x = true) :
    x.toModel.unpack = .infinity .positive ∨ ∃ mantissa exponent mantissa_pos,
      x.toModel.unpack = .finite .positive mantissa exponent mantissa_pos := by
  rw [lt_eq, unpack_zero] at pos
  cases kind : x.toModel.unpack with
  | notANumber =>
      rw [kind] at pos
      cases pos
  | infinity sign =>
      rw [kind] at pos
      cases sign with
      | positive => exact Or.inl rfl
      | negative => cases pos
  | zero sign =>
      rw [kind] at pos
      cases pos
  | finite sign mantissa exponent mantissa_pos =>
      rw [kind] at pos
      cases sign with
      | positive => exact Or.inr ⟨mantissa, exponent, mantissa_pos, rfl⟩
      | negative => cases pos

theorem zero_div_of_pos {x : Float} (pos : Scalar.lt Scalar.zero x = true) :
    Scalar.zero / x = (Scalar.zero : Float) := by
  have quotient : Scalar.zero / x = Float.ofModel (Float.Model.pack
      (UnpackedFloat.div Format.binary64 (.zero .positive) x.toModel.unpack)) := rfl
  rcases pos_cases pos with isInfinite | ⟨mantissa, exponent, mantissa_pos, isFinite⟩
  · rw [isInfinite] at quotient
    exact quotient
  · rw [isFinite] at quotient
    exact quotient

/-- A finite number leaves nothing of zero, up to its sign. -/
theorem mul_zero_of_isFinite {x : Float} (isFinite : Scalar.isFinite x = true) :
    ∃ sign, (x * Scalar.zero : Float).toModel.unpack = .zero sign := by
  have product : (x * Scalar.zero).toModel = Float.Model.pack
      (UnpackedFloat.mul Format.binary64 x.toModel.unpack (.zero .positive)) := rfl
  change x.toModel.unpack.isFinite = true at isFinite
  rw [product]
  cases kind : x.toModel.unpack with
  | notANumber =>
      rw [kind] at isFinite
      cases isFinite
  | infinity sign =>
      rw [kind] at isFinite
      cases isFinite
  | zero sign => exact ⟨_, unpack_pack_zero _⟩
  | finite sign mantissa exponent mantissa_pos => exact ⟨_, unpack_pack_zero _⟩

theorem add_zero_zero (first second : Sign) :
    ∃ sign, UnpackedFloat.add Format.binary64 (.zero first) (.zero second) = .zero sign := by
  rw [UnpackedFloat.add]
  split
  · exact ⟨first, rfl⟩
  · exact ⟨.positive, rfl⟩

/-- Two zeros of any sign, added to zero, leave it. -/
theorem zero_add_of_unpack {x y : Float} {first second : Sign}
    (isZero : x.toModel.unpack = .zero first) (alsoZero : y.toModel.unpack = .zero second) :
    Scalar.zero + (x + y) = (Scalar.zero : Float) := by
  have inner : (x + y).toModel = Float.Model.pack
      (UnpackedFloat.add Format.binary64 x.toModel.unpack y.toModel.unpack) := rfl
  have sum : Scalar.zero + (x + y) = Float.ofModel (Float.Model.pack
      (UnpackedFloat.add Format.binary64 (.zero .positive) (x + y).toModel.unpack)) := rfl
  rcases add_zero_zero first second with ⟨sign, together⟩
  rw [isZero, alsoZero, together] at inner
  rw [inner, unpack_pack_zero] at sum
  cases sign with
  | positive => exact sum
  | negative => exact sum

/-! ## What is not finite stays so -/

theorem isFinite_of_pack {u : UnpackedFloat} (finite : (Float.Model.pack u).unpack.isFinite = true) :
    u.isFinite = true := by
  cases u with
  | notANumber =>
      have isNone : (Float.Model.pack .notANumber).unpack = .notANumber :=
        UnpackedFloat.unpack_packedNaN
      rw [isNone] at finite
      exact finite
  | infinity sign =>
      cases sign with
      | positive => cases finite
      | negative => cases finite
  | zero sign => rfl
  | finite sign mantissa exponent mantissa_pos => rfl

theorem isFinite_of_add {u v : UnpackedFloat}
    (finite : (UnpackedFloat.add Format.binary64 u v).isFinite = true) :
    u.isFinite = true ∧ v.isFinite = true := by
  cases u <;> cases v <;> grind [UnpackedFloat.add, UnpackedFloat.isFinite]

theorem isFinite_of_sub {u v : UnpackedFloat}
    (finite : (UnpackedFloat.sub Format.binary64 u v).isFinite = true) :
    u.isFinite = true ∧ v.isFinite = true := by
  cases u <;> cases v <;> grind [UnpackedFloat.sub, UnpackedFloat.isFinite]

theorem isFinite_of_mul {u v : UnpackedFloat}
    (finite : (UnpackedFloat.mul Format.binary64 u v).isFinite = true) :
    u.isFinite = true ∧ v.isFinite = true := by
  cases u <;> cases v <;> grind [UnpackedFloat.mul, UnpackedFloat.isFinite]

/-- Only the divisor may be infinite. -/
theorem isFinite_of_div {u v : UnpackedFloat}
    (finite : (UnpackedFloat.div Format.binary64 u v).isFinite = true) : u.isFinite = true := by
  cases u <;> cases v <;> grind [UnpackedFloat.div, UnpackedFloat.isFinite]

theorem isFinite_of_abs {u : UnpackedFloat} (finite : u.abs.isFinite = true) : u.isFinite = true := by
  cases u <;> exact finite

theorem isFinite_of_isZero {x : Float} (isZero : Scalar.isZero x = true) :
    x.toModel.unpack.isFinite = true := by
  rw [Scalar.isZero, le_eq, le_eq, unpack_zero] at isZero
  cases kind : x.toModel.unpack with
  | notANumber =>
      rw [kind] at isZero
      cases isZero
  | infinity sign =>
      rw [kind] at isZero
      cases sign with
      | positive => cases isZero
      | negative => cases isZero
  | zero sign => rfl
  | finite sign mantissa exponent mantissa_pos => rfl

/-! ## What is not below zero -/

/-- Zero, positive or no number. -/
def NotBelow (u : UnpackedFloat) : Prop := u.lt (.zero .positive) = false

theorem notBelow_abs (u : UnpackedFloat) : NotBelow u.abs := by
  cases u <;> rfl

theorem notBelow_unpack (exponent : BitVec 11) (mantissa : BitVec 52) :
    NotBelow (UnpackedFloat.unpack Format.binary64
      (UnpackedFloat.packComponents Format.binary64 .positive exponent mantissa)) := by
  have isPositive : Sign.ofBitVec (UnpackedFloat.unpackSign
      (UnpackedFloat.packComponents Format.binary64 .positive exponent mantissa)) = .positive := by
    rw [UnpackedFloat.unpackSign_packComponents, Sign.ofBitVec_toBitVec]
  rw [UnpackedFloat.unpack]
  simp only [isPositive]
  split
  · split
    · rfl
    · rfl
  · split
    · split
      · rfl
      · rfl
    · rfl

theorem notBelow_pack {u : UnpackedFloat} (notBelow : NotBelow u) :
    NotBelow (Float.Model.pack u).unpack := by
  cases u with
  | notANumber => exact notBelow_unpack _ _
  | infinity sign =>
      cases sign with
      | positive => exact notBelow_unpack _ _
      | negative => cases notBelow
  | zero sign =>
      rw [unpack_pack_zero]
      exact notBelow
  | finite sign mantissa exponent mantissa_pos =>
      cases sign with
      | negative => cases notBelow
      | positive =>
          change NotBelow (UnpackedFloat.unpack _ (UnpackedFloat.pack _ _))
          rw [UnpackedFloat.pack]
          dsimp only
          split
          · exact notBelow_unpack _ _
          · split
            · exact notBelow_unpack _ _
            · exact notBelow_unpack _ _

theorem notBelow_normalize {mantissa : Int} (nonneg : 0 ≤ mantissa) (exponent : Int) :
    NotBelow (UnpackedFloat.normalize Format.binary64 mantissa exponent .positive) := by
  rw [UnpackedFloat.normalize]
  split
  · next isNegative => exact absurd (Int.compare_eq_lt.mp isNegative) (not_lt.mpr nonneg)
  · rfl
  · rw [UnpackedFloat.round]
    simp only [UnpackedFloat.roundWithAccuracy]
    split
    · rfl
    · rfl

theorem notBelow_add {u v : UnpackedFloat} (first : NotBelow u) (second : NotBelow v) :
    NotBelow (UnpackedFloat.add Format.binary64 u v) := by
  cases u with
  | notANumber => rfl
  | infinity sign =>
      cases sign with
      | negative => cases first
      | positive =>
          cases v with
          | infinity other =>
              cases other with
              | negative => cases second
              | positive => rfl
          | notANumber => rfl
          | zero other => rfl
          | finite => rfl
  | zero sign =>
      cases v with
      | zero other =>
          rcases add_zero_zero sign other with ⟨sum, isZero⟩
          rw [isZero]
          rfl
      | notANumber => rfl
      | infinity other => exact second
      | finite => exact second
  | finite sign mantissa exponent mantissa_pos =>
      cases v with
      | finite other mantissa' exponent' mantissa_pos' =>
          cases sign with
          | negative => cases first
          | positive =>
              cases other with
              | negative => cases second
              | positive =>
                  exact notBelow_normalize
                    (Int.add_nonneg (Int.natCast_nonneg _) (Int.natCast_nonneg _)) _
      | notANumber => rfl
      | infinity other => exact second
      | zero other => exact first

/-- Only negative infinity is less than another number and not finite. -/
theorem isFinite_of_lt {u v : UnpackedFloat} (notBelow : NotBelow u) (less : u.lt v = true) :
    u.isFinite = true := by
  cases u with
  | notANumber => cases less
  | infinity sign =>
      cases sign with
      | negative => cases notBelow
      | positive =>
          cases v with
          | infinity other =>
              cases other with
              | negative => cases less
              | positive => cases less
          | notANumber => cases less
          | zero other => cases less
          | finite => cases less
  | zero sign => rfl
  | finite sign mantissa exponent mantissa_pos => rfl

end BinaryFloat

instance : ZeroLaws Float where
  isZero_zero := by decide +kernel
  absolute_sub_zero := by decide +kernel
  lt_add_zero_left x y := by
    rcases BinaryFloat.add_zero_cases x with same | ⟨isNegative, isZero⟩
    · rw [same]
    · rw [isZero, BinaryFloat.lt_eq, BinaryFloat.lt_eq, isNegative, BinaryFloat.unpack_zero]
      exact BinaryFloat.zero_lt_congr _ _ _
  lt_zero_add_zero x := by
    rcases BinaryFloat.add_zero_cases x with same | ⟨isNegative, isZero⟩
    · rw [same]
    · rw [isZero, BinaryFloat.lt_eq, BinaryFloat.lt_eq, isNegative]
      rfl
  add_zero_of_pos {x} pos := by
    rcases BinaryFloat.add_zero_cases x with same | ⟨isNegative, -⟩
    · exact same
    · rw [BinaryFloat.lt_eq, isNegative] at pos
      cases pos
  zero_div_of_pos := BinaryFloat.zero_div_of_pos
  zero_add_shares isFinite alsoFinite := by
    rcases BinaryFloat.mul_zero_of_isFinite isFinite with ⟨first, isZero⟩
    rcases BinaryFloat.mul_zero_of_isFinite alsoFinite with ⟨second, alsoZero⟩
    exact BinaryFloat.zero_add_of_unpack isZero alsoZero

instance : FiniteLaws Float where
  of_add finite := BinaryFloat.isFinite_of_add (BinaryFloat.isFinite_of_pack finite)
  of_sub finite := BinaryFloat.isFinite_of_sub (BinaryFloat.isFinite_of_pack finite)
  of_mul finite := BinaryFloat.isFinite_of_mul (BinaryFloat.isFinite_of_pack finite)
  of_div finite := BinaryFloat.isFinite_of_div (BinaryFloat.isFinite_of_pack finite)
  of_absolute finite := BinaryFloat.isFinite_of_abs (BinaryFloat.isFinite_of_pack finite)
  of_isZero := BinaryFloat.isFinite_of_isZero
  of_lt notBelow less := by
    rw [BinaryFloat.lt_eq] at notBelow less
    exact BinaryFloat.isFinite_of_lt notBelow less
  emptySum_le_zero := by decide +kernel
  emptySum_lt_zero := by decide +kernel
  add_absolute_lt_zero y notBelow := by
    rw [BinaryFloat.lt_eq] at notBelow ⊢
    have magnitude := BinaryFloat.notBelow_pack (BinaryFloat.notBelow_abs y.toModel.unpack)
    exact BinaryFloat.notBelow_pack (BinaryFloat.notBelow_add notBelow magnitude)

end ContextPack
