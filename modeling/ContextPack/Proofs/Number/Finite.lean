import ContextPack.Proofs.Number.Exact

namespace ContextPack

/-!
# Laws of finite numbers

An operation with something infinite, or with what is no number, does not give
a finite number again, except that a divisor may be infinite.  So a finite sum
says that each of its terms is finite.
-/

class FiniteLaws (α : Type) [Scalar α] : Prop where
  of_add {x y : α} : Scalar.isFinite (x + y) = true →
    Scalar.isFinite x = true ∧ Scalar.isFinite y = true
  of_sub {x y : α} : Scalar.isFinite (x - y) = true →
    Scalar.isFinite x = true ∧ Scalar.isFinite y = true
  of_mul {x y : α} : Scalar.isFinite (x * y) = true →
    Scalar.isFinite x = true ∧ Scalar.isFinite y = true
  of_div {x y : α} : Scalar.isFinite (x / y) = true → Scalar.isFinite x = true
  of_absolute {x : α} : Scalar.isFinite (Scalar.absolute x) = true → Scalar.isFinite x = true
  of_isZero {x : α} : Scalar.isZero x = true → Scalar.isFinite x = true
  /-- Below zero there is an infinite number that is less than others. -/
  of_lt {x y : α} : Scalar.lt x Scalar.zero = false → Scalar.lt x y = true →
    Scalar.isFinite x = true
  emptySum_le_zero : Scalar.le (Scalar.emptySum : α) Scalar.zero = true
  emptySum_lt_zero : Scalar.lt (Scalar.emptySum : α) Scalar.zero = false
  add_absolute_lt_zero {x : α} (y : α) : Scalar.lt x Scalar.zero = false →
    Scalar.lt (x + Scalar.absolute y) Scalar.zero = false

instance : FiniteLaws ℚ where
  of_add _ := ⟨rfl, rfl⟩
  of_sub _ := ⟨rfl, rfl⟩
  of_mul _ := ⟨rfl, rfl⟩
  of_div _ := rfl
  of_absolute _ := rfl
  of_isZero _ := rfl
  of_lt _ _ := rfl
  emptySum_le_zero := rfl
  emptySum_lt_zero := rfl
  add_absolute_lt_zero {x} y bounded := by
    have nonneg : 0 ≤ x := by simpa using bounded
    simpa using add_nonneg nonneg (abs_nonneg y)

section Sums

variable {α : Type} [Scalar α]

open Scalar (zero lt isFinite)

/-- If no step makes a total finite, a finite result has been reached by steps
with a finite result. -/
theorem isFinite_foldl {β : Type} {next : α → β → α}
    (keeps : ∀ total element, isFinite (next total element) = true → isFinite total = true)
    {elements : List β} {total : α} (finite : isFinite (elements.foldl next total) = true) :
    isFinite total = true ∧ ∀ element ∈ elements, ∃ before, isFinite (next before element) = true := by
  induction elements generalizing total with
  | nil => exact ⟨finite, nofun⟩
  | cons first rest inductionHypothesis =>
      rcases inductionHypothesis finite with ⟨reached, later⟩
      exact ⟨keeps total first reached, List.forall_mem_cons.mpr ⟨⟨total, reached⟩, later⟩⟩

variable [FiniteLaws α]

theorem isFinite_of_mem_sum {terms : List α} (finite : isFinite (Scalar.sum terms) = true) {term : α}
    (member : term ∈ terms) : isFinite term = true := by
  rcases (isFinite_foldl (fun _ _ sum => (FiniteLaws.of_add sum).1) finite).2 term member
    with ⟨before, sum⟩
  exact (FiniteLaws.of_add sum).2

theorem sum_absolute_lt_zero (terms : List α) :
    lt (Scalar.sum (terms.map Scalar.absolute)) zero = false := by
  have bounded (total : α) (start : lt total zero = false) :
      lt ((terms.map Scalar.absolute).foldl (· + ·) total) zero = false := by
    induction terms generalizing total with
    | nil => exact start
    | cons first rest inductionHypothesis =>
        exact inductionHypothesis _ (FiniteLaws.add_absolute_lt_zero first start)
  exact bounded _ FiniteLaws.emptySum_lt_zero

end Sums

end ContextPack
