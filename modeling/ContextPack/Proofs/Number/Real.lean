import ContextPack.Proofs.Number.Exact
import Mathlib.Algebra.Order.Floor.Semiring
import Mathlib.Analysis.SpecialFunctions.Log.Basic
import Mathlib.Analysis.SpecialFunctions.Sqrt

namespace ContextPack

/-!
# Real scalars

Lexical weighting needs logarithms and roots besides arithmetic.  Without
rounding its laws are laws of the real numbers.
-/

noncomputable instance : Analytic ℝ where
  ofNat n := n
  decimal digits places := digits / 10 ^ places
  emptySum := 0
  isFinite _ := true
  lt x y := decide (x < y)
  le x y := decide (x ≤ y)
  order := compare
  absolute x := |x|
  maximum := max
  minimum := min
  ceilNat x := ⌈x⌉₊
  ln := Real.log
  sqrt := Real.sqrt

namespace Scalar

@[simp] theorem zero_real : (zero : ℝ) = 0 := Nat.cast_zero

@[simp] theorem one_real : (one : ℝ) = 1 := Nat.cast_one

@[simp] theorem lt_real (x y : ℝ) : lt x y = decide (x < y) := rfl

@[simp] theorem le_real (x y : ℝ) : le x y = decide (x ≤ y) := rfl

@[simp] theorem minimum_real (x y : ℝ) : minimum x y = min x y := rfl

@[simp] theorem sqrt_real (x : ℝ) : Analytic.sqrt x = √x := rfl

@[simp] theorem sum_real (terms : List ℝ) : sum terms = terms.sum :=
  List.sum_eq_foldl.symm

instance : Std.TransCmp (order : ℝ → ℝ → Ordering) :=
  inferInstanceAs (Std.TransCmp (compare : ℝ → ℝ → Ordering))

end Scalar

end ContextPack
