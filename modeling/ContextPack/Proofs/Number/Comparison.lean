import ContextPack.Proofs.Number.Magnitude

namespace ContextPack.BinaryFloat

/-!
# Comparisons that fail

Of two numbers, infinities included, one comes first or they are equal, so that the
opposite of a failed comparison holds.  With a value that is no number all of them fail.
-/

open Float.Model (UnpackedFloat)
open Float.Model.UnpackedFloat

theorem compare_swap (u v : UnpackedFloat) : v.compare u = (u.compare v).map Ordering.swap := by
  cases u with
  | notANumber => cases v <;> rfl
  | zero sign =>
      cases v with
      | infinity other => cases other <;> rfl
      | finite other => cases other <;> rfl
      | _ => rfl
  | infinity sign =>
      cases v with
      | infinity other => cases sign <;> cases other <;> rfl
      | _ => cases sign <;> rfl
  | finite sign mantissa exponent =>
      cases v with
      | infinity other => cases other <;> cases sign <;> rfl
      | finite other otherMantissa otherExponent =>
          have exponents : compare otherExponent exponent = (compare exponent otherExponent).swap :=
            Std.OrientedCmp.eq_swap
          have mantissas : compare otherMantissa mantissa = (compare mantissa otherMantissa).swap :=
            Std.OrientedCmp.eq_swap
          cases sign <;> cases other <;>
            simp [UnpackedFloat.compare, exponents, mantissas, Ordering.swap_then]
      | _ => cases sign <;> rfl

/-- Nothing but a value that is no number escapes comparison. -/
theorem isNone_compare (u v : UnpackedFloat) : (u.compare v).isNone = (u.isNaN || v.isNaN) := by
  cases u with
  | notANumber => rfl
  | zero sign =>
      cases v with
      | infinity other => cases other <;> rfl
      | finite other => cases other <;> rfl
      | _ => rfl
  | infinity sign =>
      cases v with
      | infinity other => rfl
      | _ => cases sign <;> rfl
  | finite sign =>
      cases v with
      | infinity other => cases sign <;> cases other <;> rfl
      | finite other => cases sign <;> cases other <;> rfl
      | _ => cases sign <;> rfl

theorem isNaN_or_isNaN (x y : Float) :
    (x.isNaN || y.isNaN) = (x.toModel.unpack.compare y.toModel.unpack).isNone :=
  (isNone_compare x.toModel.unpack y.toModel.unpack).symm

/-- What is not below a number is at least as large, unless one of the two is no number. -/
theorem le_swap (x y : Float) :
    Scalar.le y x = !(Scalar.lt x y || (x.isNaN || y.isNaN)) := by
  rw [le_eq, lt_eq, isNaN_or_isNaN, UnpackedFloat.le, UnpackedFloat.lt, compare_swap]
  cases x.toModel.unpack.compare y.toModel.unpack with
  | none => rfl
  | some outcome => cases outcome <;> rfl

/-- What is not at most a number is larger, unless one of the two is no number. -/
theorem lt_swap (x y : Float) :
    Scalar.lt y x = !(Scalar.le x y || (x.isNaN || y.isNaN)) := by
  rw [le_eq, lt_eq, isNaN_or_isNaN, UnpackedFloat.le, UnpackedFloat.lt, compare_swap]
  cases x.toModel.unpack.compare y.toModel.unpack with
  | none => rfl
  | some outcome => cases outcome <;> rfl

end ContextPack.BinaryFloat
