import ContextPack.Number.Scalar
import Mathlib.Algebra.BigOperators.Group.Finset.Basic
import Mathlib.Algebra.Order.Field.Rat
import Mathlib.Algebra.Order.Floor.Semiring
import Mathlib.Data.List.Nodup
import Mathlib.Data.Rat.Floor

namespace ContextPack

/-!
# Exact scalars

The laws of weights and scores are laws of arithmetic without rounding.  The
rational numbers are the scalars in which they are stated; every definition of
the library that is written over `Scalar` can be read, and run, over them.
-/

instance : Scalar ℚ where
  ofNat n := n
  decimal digits places := digits / 10 ^ places
  emptySum := 0
  isFinite _ := true
  lt x y := decide (x < y)
  le x y := decide (x ≤ y)
  order := compare
  absolute x := |x|
  maximum := max
  minimum := min
  ceilNat x := ⌈x⌉₊

namespace Scalar

@[simp] theorem ofNat_rat (n : Nat) : (ofNat n : ℚ) = n := rfl

@[simp] theorem decimal_rat (digits places : Nat) :
    (decimal digits places : ℚ) = digits / 10 ^ places := rfl

@[simp] theorem zero_rat : (zero : ℚ) = 0 := Nat.cast_zero

@[simp] theorem one_rat : (one : ℚ) = 1 := Nat.cast_one

@[simp] theorem isFinite_rat (x : ℚ) : isFinite x = true := rfl

@[simp] theorem lt_rat (x y : ℚ) : lt x y = decide (x < y) := rfl

@[simp] theorem le_rat (x y : ℚ) : le x y = decide (x ≤ y) := rfl

@[simp] theorem absolute_rat (x : ℚ) : absolute x = |x| := rfl

@[simp] theorem maximum_rat (x y : ℚ) : maximum x y = max x y := rfl

/-- Without rounding the order in which a sum is taken does not matter. -/
@[simp] theorem sum_rat (terms : List ℚ) : sum terms = terms.sum :=
  List.sum_eq_foldl.symm

@[simp] theorem isPositive_rat (x : ℚ) : isPositive x = decide (0 < x) := by
  rw [isPositive, zero_rat, lt_rat]

@[simp] theorem isZero_rat (x : ℚ) : isZero x = decide (x = 0) := by
  rw [isZero, zero_rat, le_rat, le_rat, ← Bool.decide_and]
  exact decide_eq_decide.mpr antisymm_iff

/-! ## The order of numbers

Results are sorted by `Scalar.order`.  It is transitive for exact numbers and
for floating point numbers alike, where it also ranks what is no number, so that
sorting by it is well defined whatever was computed.
-/

instance : Std.TransCmp (order : ℚ → ℚ → Ordering) :=
  inferInstanceAs (Std.TransCmp (compare : ℚ → ℚ → Ordering))

instance : Std.TransCmp (order : Float → Float → Ordering) :=
  inferInstanceAs (Std.TransCmp (compareOn BinaryFloat.orderKey))

end Scalar

theorem add_pos_iff_of_nonneg {x y : ℚ} (x_nonneg : 0 ≤ x) (y_nonneg : 0 ≤ y) :
    0 < x + y ↔ 0 < x ∨ 0 < y := by
  constructor
  · intro positive
    by_contra none
    rw [not_or, not_lt, not_lt] at none
    exact absurd (add_nonpos none.1 none.2) (not_le.mpr positive)
  · rintro (x_pos | y_pos)
    · exact add_pos_of_pos_of_nonneg x_pos y_nonneg
    · exact add_pos_of_nonneg_of_pos x_nonneg y_pos

/-! ## Sums over lists -/

theorem sum_map_flatMap {β γ : Type} (elements : List β) (parts : β → List γ) (count : γ → ℚ) :
    ((elements.flatMap parts).map count).sum =
      (elements.map fun element => ((parts element).map count).sum).sum := by
  induction elements with
  | nil => rfl
  | cons first rest inductionHypothesis =>
      rw [List.flatMap_cons, List.map_append, List.sum_append, inductionHypothesis, List.map_cons,
        List.sum_cons]

/-- A sum in which one element of a list without repeats counts is what that
element counts. -/
theorem sum_map_eq_of_unique {β : Type} {elements : List β} (nodup : elements.Nodup) {one : β}
    (member : one ∈ elements) {count : β → ℚ}
    (others : ∀ other ∈ elements, other ≠ one → count other = 0) :
    (elements.map count).sum = count one := by
  classical
  rw [← List.sum_toFinset count nodup]
  refine Finset.sum_eq_single_of_mem one (List.mem_toFinset.mpr member) fun other inside => ?_
  exact others other (List.mem_toFinset.mp inside)

/-- Entries that are filtered out count nothing. -/
theorem sum_map_filter {β : Type} (elements : List β) (keeps : β → Bool) (count : β → ℚ) :
    ((elements.filter keeps).map count).sum =
      (elements.map fun element => if keeps element then count element else 0).sum := by
  induction elements with
  | nil => rfl
  | cons first rest inductionHypothesis =>
      rw [List.filter_cons, List.map_cons, List.sum_cons, ← inductionHypothesis]
      split
      · rw [List.map_cons, List.sum_cons]
      · rw [zero_add]

theorem sum_map_filterMap {R β γ : Type} [AddCommMonoid R] (elements : List β) (part : β → Option γ)
    (count : γ → R) :
    ((elements.filterMap part).map count).sum =
      (elements.map fun element => ((part element).map count).getD 0).sum := by
  induction elements with
  | nil => rfl
  | cons first rest inductionHypothesis =>
      rw [List.map_cons, List.sum_cons, ← inductionHypothesis, List.filterMap_cons]
      cases part first with
      | none => exact (zero_add _).symm
      | some kept => rw [List.map_cons, List.sum_cons, Option.map_some, Option.getD_some]

theorem sum_map_range (n : Nat) (count : Nat → ℚ) :
    ((List.range n).map count).sum = ∑ i ∈ Finset.range n, count i := by
  have isRange : (List.range n).toFinset = Finset.range n := by
    ext i
    rw [List.mem_toFinset, List.mem_range, Finset.mem_range]
  rw [← isRange, List.sum_toFinset count List.nodup_range]

/-- A loop that adds something at every element computes a sum. -/
theorem foldl_eq_sum {β M : Type} [AddMonoid M] {step : M → β → M} (count : β → M)
    (adds : ∀ total element, step total element = total + count element) (total : M)
    (elements : List β) : elements.foldl step total = total + (elements.map count).sum := by
  induction elements generalizing total with
  | nil => exact (add_zero total).symm
  | cons first rest inductionHypothesis =>
      rw [List.foldl_cons, adds, inductionHypothesis, List.map_cons, List.sum_cons, add_assoc]

/-- Of entries with distinct keys at most one counts, and looking up its key
finds it. -/
theorem sum_eq_getD_find? {κ : Type} [DecidableEq κ] {entries : List (κ × ℚ)}
    (nodup : (entries.map Prod.fst).Nodup) (key : κ) :
    (entries.map fun entry => if entry.1 = key then entry.2 else 0).sum =
      ((entries.find? fun entry => entry.1 = key).map Prod.snd).getD 0 := by
  cases found : entries.find? fun entry => entry.1 = key with
  | none =>
      refine List.sum_eq_zero fun share member => ?_
      rcases List.mem_map.mp member with ⟨entry, inside, rfl⟩
      exact if_neg fun same => List.find?_eq_none.mp found entry inside (decide_eq_true same)
  | some entry =>
      have holds := List.find?_some found
      have hasKey : entry.1 = key := of_decide_eq_true holds
      have inside := List.mem_of_find?_eq_some found
      rw [sum_map_eq_of_unique nodup.of_map inside, if_pos hasKey]
      · rfl
      · exact fun other isOther different => if_neg fun same =>
          different (List.inj_on_of_nodup_map nodup isOther inside (same.trans hasKey.symm))

end ContextPack
