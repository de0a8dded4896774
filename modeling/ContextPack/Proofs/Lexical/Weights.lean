import ContextPack.Lexical.Edges
import ContextPack.Proofs.Number.Monotone
import ContextPack.Proofs.Settings.Validate

namespace ContextPack.Lexical

/-!
# Weights of similarities

Every step from a similarity to its weight keeps the order, and rounding does not
undo that.  So the more similar of two files never gets the lesser weight, and no
weight is below the least one.  The greatest one is another matter: the range is
subtracted from it and added back, which rounding may carry past it.
-/

open Scalar (lt le zero one isFinite zero_le_trans isFinite_of_le_one)

variable {α : Type} [Analytic α]

/-- A range of weights that are numbers, for a range of similarities. -/
structure IsWeighing (settings : LexicalSettings α) : Prop where
  zero_le_minSimilarity : le zero settings.minSimilarity = true
  minSimilarity_le_one : le settings.minSimilarity one = true
  zero_le_weightMin : le zero settings.weightMin = true
  weightMin_le_weightMax : le settings.weightMin settings.weightMax = true
  isFinite_weightMax : isFinite settings.weightMax = true

/-- What similarity one comes to. -/
def greatestWeight (settings : LexicalSettings α) : α :=
  if le (one - settings.minSimilarity) smallestStep then settings.weightMax
  else settings.weightMin + one * (settings.weightMax - settings.weightMin)

/-- How far a similarity is from the least accepted one to one. -/
def share (settings : LexicalSettings α) (similarity : α) : α :=
  Scalar.clamp ((similarity - settings.minSimilarity) / (one - settings.minSimilarity)) zero one

theorem scaleWeight_of_narrow {settings : LexicalSettings α}
    (narrow : le (one - settings.minSimilarity) smallestStep = true) (similarity : α) :
    scaleWeight settings similarity = settings.weightMax := by
  simp only [scaleWeight, narrow, if_true]

theorem scaleWeight_of_wide {settings : LexicalSettings α}
    (wide : le (one - settings.minSimilarity) smallestStep = false) (similarity : α) :
    scaleWeight settings similarity =
      settings.weightMin + share settings similarity * (settings.weightMax - settings.weightMin) := by
  simp only [scaleWeight, wide, Bool.false_eq_true, if_false]
  rfl

variable [MonotoneLaws α]

/-- Acceptable settings have a range of weights, if these are numbers at all. -/
theorem isWeighing_of_acceptable {settings : Settings α} (acceptable : settings.problems = [])
    (least : isFinite settings.lexical.weightMin = true)
    (greatest : isFinite settings.lexical.weightMax = true) : IsWeighing settings.lexical := by
  rcases Settings.minSimilarity_of_acceptable acceptable with ⟨zeroLe, leOne⟩
  rcases Settings.lexicalWeights_of_acceptable acceptable with ⟨notNegative, notLess⟩
  have nonneg := MonotoneLaws.le_of_not_lt least MonotoneLaws.zero_le_zero notNegative
  exact ⟨zeroLe, leOne, nonneg, MonotoneLaws.le_of_not_lt greatest nonneg notLess, greatest⟩

namespace IsWeighing

variable {settings : LexicalSettings α} (weighing : IsWeighing settings) {first second : α}

include weighing

theorem isFinite_weightMin : isFinite settings.weightMin = true :=
  MonotoneLaws.isFinite_of_le weighing.zero_le_weightMin weighing.weightMin_le_weightMax
    weighing.isFinite_weightMax

theorem zero_le_range : le zero (settings.weightMax - settings.weightMin) = true :=
  MonotoneLaws.zero_le_sub weighing.zero_le_weightMin weighing.weightMin_le_weightMax
    weighing.isFinite_weightMax

theorem isFinite_range : isFinite (settings.weightMax - settings.weightMin) = true :=
  MonotoneLaws.isFinite_sub weighing.zero_le_weightMin weighing.weightMin_le_weightMax
    weighing.isFinite_weightMax

theorem isFinite_span : isFinite (one - settings.minSimilarity) = true :=
  MonotoneLaws.isFinite_sub weighing.zero_le_minSimilarity weighing.minSimilarity_le_one
    MonotoneLaws.isFinite_one

theorem zero_lt_span (wide : le (one - settings.minSimilarity) smallestStep = false) :
    lt zero (one - settings.minSimilarity) = true := by
  have nonneg : le zero (one - settings.minSimilarity) = true :=
    MonotoneLaws.zero_le_sub weighing.zero_le_minSimilarity weighing.minSimilarity_le_one
      MonotoneLaws.isFinite_one
  refine MonotoneLaws.lt_of_not_le nonneg MonotoneLaws.zero_le_zero (Bool.eq_false_iff.mpr ?_)
  intro vanishes
  have narrow := MonotoneLaws.le_trans nonneg vanishes MonotoneLaws.zero_le_spacing
  exact Bool.false_ne_true (wide.symm.trans narrow)

/-! ### Shares -/

section Share

variable (wide : le (one - settings.minSimilarity) smallestStep = false)
  (accepted : le settings.minSimilarity first = true)

include wide accepted

theorem zero_le_quotient (atMost : le first one = true) :
    le zero ((first - settings.minSimilarity) / (one - settings.minSimilarity)) = true := by
  have finite : isFinite first = true :=
    isFinite_of_le_one (zero_le_trans weighing.zero_le_minSimilarity accepted) atMost
  exact MonotoneLaws.zero_le_div
    (MonotoneLaws.zero_le_sub weighing.zero_le_minSimilarity accepted finite)
    (MonotoneLaws.isFinite_sub weighing.zero_le_minSimilarity accepted finite)
    (weighing.zero_lt_span wide) weighing.isFinite_span

theorem zero_le_share (atMost : le first one = true) : le zero (share settings first) = true :=
  Scalar.zero_le_clamp (weighing.zero_le_quotient wide accepted atMost)

theorem share_le_one (atMost : le first one = true) : le (share settings first) one = true :=
  Scalar.clamp_le_one (weighing.zero_le_quotient wide accepted atMost)

theorem share_mono (inOrder : le first second = true) (atMost : le second one = true) :
    le (share settings first) (share settings second) = true := by
  have nonneg : le zero first = true := zero_le_trans weighing.zero_le_minSimilarity accepted
  have firstAtMost : le first one = true := MonotoneLaws.le_trans nonneg inOrder atMost
  have finite : isFinite second = true := isFinite_of_le_one (zero_le_trans nonneg inOrder) atMost
  have alsoAccepted : le settings.minSimilarity second = true :=
    MonotoneLaws.le_trans weighing.zero_le_minSimilarity accepted inOrder
  have zero_le_distance : le zero (first - settings.minSimilarity) = true :=
    MonotoneLaws.zero_le_sub weighing.zero_le_minSimilarity accepted
      (isFinite_of_le_one nonneg firstAtMost)
  have distances :
      le (first - settings.minSimilarity) (second - settings.minSimilarity) = true :=
    MonotoneLaws.sub_le_sub weighing.zero_le_minSimilarity accepted inOrder finite
  refine Scalar.clamp_mono (weighing.zero_le_quotient wide accepted firstAtMost) ?_
  exact MonotoneLaws.div_le_div zero_le_distance distances
    (MonotoneLaws.isFinite_sub weighing.zero_le_minSimilarity alsoAccepted finite)
    (weighing.zero_lt_span wide) weighing.isFinite_span

end Share

/-! ### Weights -/

theorem weightMax_le_self : le settings.weightMax settings.weightMax = true :=
  MonotoneLaws.le_refl (zero_le_trans weighing.zero_le_weightMin weighing.weightMin_le_weightMax)

theorem zero_le_part {part : α} (nonneg : le zero part = true) (atMost : le part one = true) :
    le zero (part * (settings.weightMax - settings.weightMin)) = true :=
  MonotoneLaws.zero_le_mul nonneg (isFinite_of_le_one nonneg atMost) weighing.zero_le_range
    weighing.isFinite_range

/-- A larger part of the range ends at a larger weight. -/
theorem part_mono {part other : α} (nonneg : le zero part = true) (inOrder : le part other = true)
    (atMost : le other one = true) :
    le (settings.weightMin + part * (settings.weightMax - settings.weightMin))
      (settings.weightMin + other * (settings.weightMax - settings.weightMin)) = true := by
  have finite : isFinite other = true := isFinite_of_le_one (zero_le_trans nonneg inOrder) atMost
  refine MonotoneLaws.add_le_add weighing.zero_le_weightMin weighing.isFinite_weightMin
    (weighing.zero_le_part nonneg (MonotoneLaws.le_trans nonneg inOrder atMost)) ?_
  exact MonotoneLaws.mul_le_mul nonneg inOrder finite weighing.zero_le_range
    weighing.isFinite_range

theorem le_scaleWeight (accepted : le settings.minSimilarity first = true)
    (atMost : le first one = true) : le settings.weightMin (scaleWeight settings first) = true := by
  cases span : le (one - settings.minSimilarity) smallestStep with
  | true =>
      rw [scaleWeight_of_narrow span]
      exact weighing.weightMin_le_weightMax
  | false =>
      rw [scaleWeight_of_wide span]
      exact MonotoneLaws.le_add weighing.zero_le_weightMin weighing.isFinite_weightMin
        (weighing.zero_le_part (weighing.zero_le_share span accepted atMost)
          (weighing.share_le_one span accepted atMost))

theorem scaleWeight_mono (accepted : le settings.minSimilarity first = true)
    (inOrder : le first second = true) (atMost : le second one = true) :
    le (scaleWeight settings first) (scaleWeight settings second) = true := by
  cases span : le (one - settings.minSimilarity) smallestStep with
  | true =>
      rw [scaleWeight_of_narrow span, scaleWeight_of_narrow span]
      exact weighing.weightMax_le_self
  | false =>
      have nonneg : le zero first = true := zero_le_trans weighing.zero_le_minSimilarity accepted
      have alsoAccepted : le settings.minSimilarity second = true :=
        MonotoneLaws.le_trans weighing.zero_le_minSimilarity accepted inOrder
      have firstAtMost : le first one = true := MonotoneLaws.le_trans nonneg inOrder atMost
      rw [scaleWeight_of_wide span, scaleWeight_of_wide span]
      exact weighing.part_mono (weighing.zero_le_share span accepted firstAtMost)
        (weighing.share_mono span accepted inOrder atMost)
        (weighing.share_le_one span alsoAccepted atMost)

theorem scaleWeight_le (accepted : le settings.minSimilarity first = true)
    (atMost : le first one = true) :
    le (scaleWeight settings first) (greatestWeight settings) = true := by
  cases span : le (one - settings.minSimilarity) smallestStep with
  | true =>
      rw [scaleWeight_of_narrow span, greatestWeight, span, if_pos rfl]
      exact weighing.weightMax_le_self
  | false =>
      rw [scaleWeight_of_wide span, greatestWeight, span, if_neg Bool.false_ne_true]
      exact weighing.part_mono (weighing.zero_le_share span accepted atMost)
        (weighing.share_le_one span accepted atMost) (MonotoneLaws.le_refl MonotoneLaws.zero_le_one)

end IsWeighing

/-- Without rounding the greatest weight is what the settings say it is. -/
theorem greatestWeight_real (settings : LexicalSettings ℝ) :
    greatestWeight settings = settings.weightMax := by
  rw [greatestWeight]
  split
  · rfl
  · rw [Scalar.one_real, one_mul, add_sub_cancel]

end ContextPack.Lexical
