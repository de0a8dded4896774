import ContextPack.Proofs.Number.Comparison
import ContextPack.Settings.Check

namespace ContextPack

/-!
# Documented ranges

Each rule of the check stands for a range that it documents.  Some rules ask that a value
lies in its range, others that it does not lie beyond it.  For numbers and infinities this
is the same.  A value that is no number lies neither in a range nor beyond one: the rules
of the first kind refuse it, and those of the second let it pass.
-/

/-- One side of a documented range. -/
inductive RangeSide where
  /-- The count is at least one. -/
  | counts (count : Nat)
  | below (lower upper : Float)
  | atMost (lower upper : Float)

namespace RangeSide

/-- Whether the values are as the side of the range demands. -/
def holds : RangeSide → Bool
  | counts count => 1 ≤ count
  | below lower upper => Scalar.lt lower upper
  | atMost lower upper => Scalar.le lower upper

/-- Whether one of the values is no number, so that they cannot be compared. -/
def isUndecided : RangeSide → Bool
  | counts _ => false
  | below lower upper | atMost lower upper => lower.isNaN || upper.isNaN

/-- Whether a rule lets the values pass that asks for this side of a range, or, if it is
lenient, only that it is not exceeded. -/
def passes (lenient : Bool) (side : RangeSide) : Bool :=
  side.holds || (lenient && side.isUndecided)

theorem passes_counts (lenient : Bool) (count : Nat) :
    passes lenient (counts count) = !(count == 0) := by
  cases count <;> simp [passes, holds, isUndecided]

theorem passes_of_strict (side : RangeSide) : passes false side = side.holds := by
  rw [passes, Bool.false_and, Bool.or_false]

theorem passes_below (lower upper : Float) :
    passes true (below lower upper) = !Scalar.le upper lower := by
  rw [BinaryFloat.le_swap, Bool.not_not]
  rfl

theorem passes_atMost (lower upper : Float) :
    passes true (atMost lower upper) = !Scalar.lt upper lower := by
  rw [BinaryFloat.lt_swap, Bool.not_not]
  rfl

end RangeSide

/-- Whether the rule only asks that no value lies beyond its range. -/
def SettingsProblem.isLenient : SettingsProblem Float → Bool
  | tolerance | lexicalWeights | referenceWeights | cochangeWeight | siblingWeight | fusionWeights =>
    true
  | _ => false

/-- The range that a rule documents. -/
structure DocumentedRange where
  problem : SettingsProblem Float
  sides : List RangeSide

namespace DocumentedRange

/-- Whether all values are in the range. -/
def isKept (range : DocumentedRange) : Bool := range.sides.all RangeSide.holds

/-- Whether the rule lets the values pass. -/
def isPassed (range : DocumentedRange) : Bool :=
  range.sides.all (RangeSide.passes range.problem.isLenient)

end DocumentedRange

open Scalar (zero one)
open RangeSide

/-- The weights of a weighted sum, none of which may be negative. -/
def Fusion.sides : Fusion Float → List RangeSide
  | .weighted walk lexical cochange => [atMost zero walk, atMost zero lexical, atMost zero cochange]
  | _ => []

/-- What each rule documents, in report order. -/
def Settings.ranges (settings : Settings Float) : List DocumentedRange :=
  let walk := settings.walk
  let lexical := settings.lexical
  let references := settings.references
  [⟨.noFragments, [counts settings.limits.maxFragments]⟩,
   ⟨.noDefaultBudget, [counts settings.limits.defaultBudget]⟩,
   ⟨.alphaOutside walk.alpha, [below zero walk.alpha, below walk.alpha one]⟩,
   ⟨.tolerance, [below zero walk.tolerance]⟩,
   ⟨.noIterations, [counts walk.maxIterations]⟩,
   ⟨.minSimilarity, [atMost zero lexical.minSimilarity, atMost lexical.minSimilarity one]⟩,
   ⟨.hubPercentile, [below zero lexical.hubPercentile, atMost lexical.hubPercentile one]⟩,
   ⟨.maxDocumentRatio, [below zero lexical.maxDocumentRatio, atMost lexical.maxDocumentRatio one]⟩,
   ⟨.lexicalWeights, [atMost zero lexical.weightMin, atMost lexical.weightMin lexical.weightMax]⟩,
   ⟨.lexicalBackwardFactor, [atMost zero lexical.backwardFactor, atMost lexical.backwardFactor one]⟩,
   ⟨.noPostings, [counts lexical.maxPostings]⟩,
   ⟨.referenceBackwardFactor,
     [atMost zero references.backwardFactor, below references.backwardFactor one]⟩,
   ⟨.referenceWeights, [atMost zero references.symbolWeight, atMost zero references.importWeight]⟩,
   ⟨.cochangeWeight, [atMost zero settings.cochange.weight]⟩,
   ⟨.noMinCount, [counts settings.cochange.minCount]⟩,
   ⟨.siblingWeight, [atMost zero settings.sibling.edgeWeight]⟩,
   ⟨.fusionWeights, settings.assembly.fusion.sides⟩]

namespace Settings

/-! ## Rules and ranges -/

theorem isPassed_fusionWeights (fusion : Fusion Float) :
    DocumentedRange.isPassed ⟨.fusionWeights, fusion.sides⟩ = !fusion.hasNegativeWeight := by
  cases fusion <;>
    simp [DocumentedRange.isPassed, SettingsProblem.isLenient, Fusion.sides,
      Fusion.hasNegativeWeight, passes_atMost, Bool.and_assoc]

/-- A rule is broken just if its range is not passed. -/
theorem rules_eq (settings : Settings Float) :
    settings.rules = settings.ranges.map fun range => (!range.isPassed, range.problem) := by
  simp only [rules, ranges, List.map_cons, List.map_nil, isPassed_fusionWeights, Bool.not_not]
  simp [DocumentedRange.isPassed, SettingsProblem.isLenient, passes_counts, passes_below,
    passes_atMost, passes_of_strict, RangeSide.holds, Scalar.within]

theorem problems_eq (settings : Settings Float) :
    settings.problems =
      (settings.ranges.filter fun range => !range.isPassed).map DocumentedRange.problem := by
  rw [problems, rules_eq, List.filterMap_map, ← List.filterMap_eq_map, List.filterMap_filter]
  refine List.filterMap_congr fun range _ => ?_
  cases passed : range.isPassed <;> simp [passed]

/-! ## The check -/

theorem check_eq_ok_iff (settings : Settings Float) :
    settings.check = .ok () ↔ settings.problems = [] := by
  rw [check]
  cases settings.problems with
  | nil => simp
  | cons problem others => simp

theorem check_of_problems {settings : Settings Float} (refused : settings.problems ≠ []) :
    settings.check = .error (.invalidConfig (problemReport Shortest.plain settings.problems)) := by
  rw [check]
  cases found : settings.problems with
  | nil => exact absurd found refused
  | cons problem others => rfl

/-- Settings are accepted just if whatever is not in a documented range is no number and
met by a lenient rule.  The report has one message for each range that is not passed, and
without such values these are the ranges that are not kept. -/
theorem check_follows_ranges (settings : Settings Float) :
    (settings.check = .ok () ↔ ∀ range ∈ settings.ranges, ∀ side ∈ range.sides,
      side.holds = true ∨ range.problem.isLenient = true ∧ side.isUndecided = true) ∧
    (settings.check ≠ .ok () → settings.check = .error (.invalidConfig (String.intercalate "; "
      ((settings.ranges.filter fun range => !range.isPassed).map fun range =>
        range.problem.message Shortest.plain)))) ∧
    ((∀ range ∈ settings.ranges, range.problem.isLenient = true →
        ∀ side ∈ range.sides, side.isUndecided = false) →
      ∀ range ∈ settings.ranges, range.isPassed = range.isKept) := by
  refine ⟨?_, fun refused => ?_, fun decided range isRange => ?_⟩
  · rw [check_eq_ok_iff, problems_eq, List.map_eq_nil_iff, List.filter_eq_nil_iff]
    simp only [DocumentedRange.isPassed, RangeSide.passes, Bool.not_eq_true', Bool.not_eq_false,
      List.all_eq_true, Bool.or_eq_true, Bool.and_eq_true]
  · rw [check_of_problems (mt (check_eq_ok_iff settings).mpr refused), problemReport, problems_eq,
      List.map_map]
    rfl
  · rw [DocumentedRange.isPassed, DocumentedRange.isKept, Bool.eq_iff_iff, List.all_eq_true,
      List.all_eq_true]
    refine forall₂_congr fun side isSide => ?_
    cases lenient : range.problem.isLenient with
    | false => rw [passes_of_strict]
    | true => rw [RangeSide.passes, decided range isRange lenient side isSide, Bool.and_false,
        Bool.or_false]

/-- Settings that break a rule of each kind. -/
def beyondRanges : Settings Float :=
  { Settings.default with
    walk := { (WalkSettings.default : WalkSettings Float) with alpha := Scalar.ofNat 2 }
    cochange := { (CochangeSettings.default : CochangeSettings Float) with weight := -one } }

theorem check_follows_ranges_of_beyond :
    beyondRanges.check ≠ .ok () ∧
      (∀ range ∈ beyondRanges.ranges, range.problem.isLenient = true →
        ∀ side ∈ range.sides, side.isUndecided = false) ∧
      beyondRanges.check = .error (.invalidConfig
        "ppr.alpha must be in (0, 1), got 2; cochange.weight must be non-negative") ∧
      ∀ range ∈ beyondRanges.ranges, range.isPassed = range.isKept := by
  have refused : beyondRanges.check ≠ .ok () := by
    rw [ne_eq, check_eq_ok_iff, ← List.isEmpty_iff]
    decide +kernel
  have decided : ∀ range ∈ beyondRanges.ranges, range.problem.isLenient = true →
      ∀ side ∈ range.sides, side.isUndecided = false := by
    decide +kernel
  have follows := check_follows_ranges beyondRanges
  refine ⟨refused, decided, ?_, follows.2.2 decided⟩
  rw [follows.2.1 refused]
  decide +kernel

/-- A tolerance that is no number is accepted, though it is not positive. -/
theorem check_accepts_undecided_tolerance :
    ¬∀ settings : Settings Float,
      settings.check = .ok () ↔ ∀ range ∈ settings.ranges, range.isKept = true := by
  intro always
  let undecided : Settings Float :=
    { Settings.default with
      walk := { (WalkSettings.default : WalkSettings Float) with tolerance := zero / zero } }
  have passes : undecided.problems.isEmpty = true := by decide +kernel
  have accepted := (check_eq_ok_iff undecided).mpr (List.isEmpty_iff.mp passes)
  have kept := (always undecided).mp accepted
  revert kept
  decide +kernel

end Settings

end ContextPack
