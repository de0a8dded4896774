import ContextPack.Proofs.Number.Exact

namespace ContextPack

/-!
# Laws of zero

A node that nothing relates to the seeds takes part in sums and products with
a mass of zero.  What such a mass can do to the other numbers is said by a few
laws, which exact numbers keep, and rounded ones as well.
-/

class ZeroLaws (α : Type) [Scalar α] : Prop where
  isZero_zero : Scalar.isZero (Scalar.zero : α) = true
  absolute_sub_zero : Scalar.absolute (Scalar.zero - Scalar.zero : α) = Scalar.zero
  lt_add_zero_left (x y : α) : Scalar.lt (x + Scalar.zero) y = Scalar.lt x y
  lt_zero_add_zero (x : α) : Scalar.lt Scalar.zero (x + Scalar.zero) = Scalar.lt Scalar.zero x
  add_zero_of_pos {x : α} : Scalar.lt Scalar.zero x = true → x + Scalar.zero = x
  zero_div_of_pos {x : α} : Scalar.lt Scalar.zero x = true → Scalar.zero / x = Scalar.zero
  /-- What is no number, or infinite, would leave something of a zero share. -/
  zero_add_shares {x y : α} : Scalar.isFinite x = true → Scalar.isFinite y = true →
    Scalar.zero + (x * Scalar.zero + y * Scalar.zero) = Scalar.zero

instance : ZeroLaws ℚ where
  isZero_zero := rfl
  absolute_sub_zero := by simp
  lt_add_zero_left x y := by simp
  lt_zero_add_zero x := by simp
  add_zero_of_pos _ := by simp
  zero_div_of_pos _ := by simp
  zero_add_shares _ _ := by simp

/-! ## Sums that end in zeros -/

section Sums

variable {α : Type} [Scalar α]

open Scalar (zero lt)

/-- A sum that goes on with so many zeros. -/
def addZeros (more : Nat) (total : α) : α := (List.replicate more zero).foldl (· + ·) total

theorem addZeros_succ (more : Nat) (total : α) :
    addZeros (more + 1) total = addZeros more (total + zero) := by
  rw [addZeros, addZeros, List.replicate_succ, List.foldl_cons]

variable [ZeroLaws α]

theorem lt_addZeros_left (more : Nat) (total bound : α) :
    lt (addZeros more total) bound = lt total bound := by
  induction more generalizing total with
  | zero => rfl
  | succ more inductionHypothesis =>
      rw [addZeros_succ, inductionHypothesis, ZeroLaws.lt_add_zero_left]

theorem lt_zero_addZeros (more : Nat) (total : α) :
    lt zero (addZeros more total) = lt zero total := by
  induction more generalizing total with
  | zero => rfl
  | succ more inductionHypothesis =>
      rw [addZeros_succ, inductionHypothesis, ZeroLaws.lt_zero_add_zero]

theorem addZeros_of_pos (more : Nat) {total : α} (pos : lt zero total = true) :
    addZeros more total = total := by
  induction more with
  | zero => rfl
  | succ more inductionHypothesis =>
      rw [addZeros_succ, ZeroLaws.add_zero_of_pos pos, inductionHypothesis]

end Sums

end ContextPack
