import ContextPack.Proofs.Data.Sorting
import ContextPack.Proofs.Number.Exact
import ContextPack.Proofs.Pack.Assembly
import Mathlib.Order.Lattice.Nat

namespace ContextPack

/-!
# Which file comes first

Candidates are sorted by score, hops and path.  The comparison ranks any two of
them, and only candidates with one path can tie.  So the list that packing
works through is known from its members alone.
-/

/-- A number of hops, where no number at all is more than any other. -/
def hopsOf (distance : Option Nat) : WithTop Nat :=
  match distance with
  | some hops => hops
  | none => ⊤

namespace Assembler

theorem compareDistance_eq (first second : Option Nat) :
    compareDistance first second = compare (hopsOf first) (hopsOf second) := by
  cases first with
  | none =>
      cases second with
      | none => exact (compare_eq_iff_eq.mpr rfl).symm
      | some hops => exact (compare_gt_iff_gt.mpr (WithTop.coe_lt_top hops)).symm
  | some hops =>
      cases second with
      | none => exact (compare_lt_iff_lt.mpr (WithTop.coe_lt_top hops)).symm
      | some others =>
          have inOrder : (compare hops others).Compares hops others :=
            (compare_iff hops others).mp rfl
          exact ((compare_iff _ _).mpr (WithTop.coe_strictMono.compares.mpr inOrder)).symm

variable {α : Type} [Scalar α]

/-- Stands before another file: it has the higher score, or with the same score
fewer hops, or with the same hops as well the lesser path. -/
def Precedes (first second : Ranked α) : Prop :=
  Scalar.order second.score first.score = .lt ∨
    Scalar.order second.score first.score = .eq ∧
      (hopsOf first.candidate.distance < hopsOf second.candidate.distance ∨
        hopsOf first.candidate.distance = hopsOf second.candidate.distance ∧
          first.candidate.path < second.candidate.path)

/-- The comparison behind `rankedLe`. -/
def rankedOrder : Ranked α → Ranked α → Ordering :=
  compareLex (fun first second => Scalar.order second.score first.score)
    (compareLex
      (fun first second => compareDistance first.candidate.distance second.candidate.distance)
      (fun first second => Text.order first.candidate.path second.candidate.path))

theorem rankedLe_eq_isLE (first second : Ranked α) :
    rankedLe first second = (rankedOrder first second).isLE := by
  rw [rankedLe, rankedOrder, compareLex, compareLex, Text.le_eq_isLE]
  cases Scalar.order second.score first.score with
  | lt => rfl
  | gt => rfl
  | eq =>
      cases compareDistance first.candidate.distance second.candidate.distance with
      | lt => rfl
      | gt => rfl
      | eq => rfl

theorem rankedOrder_eq_lt_iff (first second : Ranked α) :
    rankedOrder first second = .lt ↔ Precedes first second := by
  rw [rankedOrder, compareLex, compareLex, Ordering.then_eq_lt, Ordering.then_eq_lt,
    compareDistance_eq, compare_lt_iff_lt, compare_eq_iff_eq, Text.order_eq_lt_iff, Precedes]

theorem path_eq_of_rankedOrder {first second : Ranked α} (tie : rankedOrder first second = .eq) :
    first.candidate.path = second.candidate.path := by
  rw [rankedOrder, compareLex, compareLex, Ordering.then_eq_eq, Ordering.then_eq_eq,
    Text.order_eq_eq_iff] at tie
  exact tie.2.2

section Transitive

variable [Std.TransCmp (Scalar.order : α → α → Ordering)]

instance : Std.TransCmp (rankedOrder : Ranked α → Ranked α → Ordering) := by
  have byScore : Std.TransCmp fun first second : Ranked α =>
      Scalar.order second.score first.score :=
    @transCmp_of_key _ _ (fun first second : α => Scalar.order second first) inferInstance
      Ranked.score
  have byDistance : Std.TransCmp fun first second : Ranked α =>
      compareDistance first.candidate.distance second.candidate.distance := by
    simp only [compareDistance_eq]
    exact transCmp_of_key fun ranked : Ranked α => hopsOf ranked.candidate.distance
  have byPath : Std.TransCmp fun first second : Ranked α =>
      Text.order first.candidate.path second.candidate.path :=
    transCmp_of_key fun ranked : Ranked α => ranked.candidate.path
  exact inferInstanceAs (Std.TransCmp (compareLex _ (compareLex _ _)))

/-- Sorted files with different paths stand in the order of precedence. -/
theorem pairwise_precedes_mergeSort {files : List (Ranked α)}
    (distinct : (files.map fun ranked => ranked.candidate.path).Nodup) :
    (files.mergeSort rankedLe).Pairwise Precedes := by
  have tie (first second : Ranked α) (same : rankedOrder first second = .eq) :
      first.candidate.path = second.candidate.path := path_eq_of_rankedOrder same
  exact (pairwise_mergeSort_lt rankedLe_eq_isLE tie distinct).imp fun {first second} before =>
    (rankedOrder_eq_lt_iff first second).mp before

end Transitive

/-! ## One entry for each path -/

section Eligible

variable (assembler : Assembler α) (candidates : List (Candidate α))

/-- Being eligible takes no candidate twice. -/
theorem map_candidate_eligible (seedPaths : List String) :
    ((assembler.eligible seedPaths candidates).map Ranked.candidate).Sublist candidates := by
  refine map_filterMap_sublist (fun candidate ranked isRanked => ?_) candidates
  split at isRanked
  · cases isRanked
  · simp only at isRanked
    split at isRanked
    · cases isRanked
      rfl
    · cases isRanked

theorem nodup_map_path_fitting (distinct : (candidates.map Candidate.path).Nodup)
    (seedPaths : List String) :
    (((assembler.eligible seedPaths candidates).filter (hasFittingSize assembler.limits)).map
      fun ranked => ranked.candidate.path).Nodup := by
  have eligible := ((map_candidate_eligible assembler candidates seedPaths).map
    Candidate.path).nodup distinct
  rw [List.map_map] at eligible
  exact (List.filter_sublist.map _).nodup eligible

end Eligible

end Assembler
end ContextPack
