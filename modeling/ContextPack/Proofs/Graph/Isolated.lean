import ContextPack.Proofs.Graph.Iteration
import ContextPack.Proofs.Number.Zero

namespace ContextPack

/-!
# A walk with nodes that nothing leads to

A walk is given more nodes, and neither the start nor an edge puts mass on
them.  A vector of the larger walk is then one of the smaller walk with zeros
behind it.  The zeros come last in every sum, so the laws of zero are all that
is needed to follow both walks step by step, with the same sums, the same
test for having settled and the same rounding.

There is one exception.  What starts again is handed to every node in
proportion to its share of the start, and no share of something infinite need
be nothing.
-/

/-- What is looked up past the end of a list may as well stand in it. -/
theorem getD_append_replicate {β : Type} (entries : List β) (more place : Nat) (missing : β) :
    ((entries ++ List.replicate more missing)[place]?).getD missing =
      (entries[place]?).getD missing := by
  rw [List.getElem?_append]
  split
  · rfl
  · next outside =>
      rw [List.getElem?_replicate, List.getElem?_eq_none (Nat.le_of_not_lt outside)]
      split
      · rfl
      · rfl

/-- What is computed for more places and is missing there is appended. -/
theorem map_range_of_le {β : Type} {entry : Nat → β} {fewer count : Nat} {missing : β}
    (grows : fewer ≤ count) (beyond : ∀ place, fewer ≤ place → entry place = missing) :
    (List.range count).map entry =
      (List.range fewer).map entry ++ List.replicate (count - fewer) missing := by
  rcases Nat.exists_eq_add_of_le grows with ⟨more, rfl⟩
  rw [List.range_add, List.map_append, Nat.add_sub_cancel_left, List.map_map]
  refine congrArg (_ ++ ·) (List.eq_replicate_iff.mpr ⟨by simp, fun element member => ?_⟩)
  rcases List.mem_map.mp member with ⟨place, -, rfl⟩
  exact beyond _ (Nat.le_add_right fewer place)

namespace Ranking

variable {α : Type} [Scalar α] {walk : Walk α} {more : Nat}

open Scalar (zero one lt isFinite)

/-- Scores with zeros for so many nodes more. -/
def padded (more : Nat) (scores : List α) : List α := scores ++ List.replicate more zero

/-- The walk with so many nodes more, which no mass gets to. -/
def Walk.isolating (walk : Walk α) (more : Nat) : Walk α where
  alpha := walk.alpha
  restart := padded more walk.restart
  outWeights := walk.outWeights ++ List.replicate more Scalar.emptySum
  incoming := walk.incoming ++ List.replicate more []

/-- The tables of a walk are for the same number of nodes. -/
structure Walk.IsFor (walk : Walk α) (nodeCount : Nat) : Prop where
  restart : walk.restart.length = nodeCount
  outWeights : walk.outWeights.length = nodeCount
  incoming : walk.incoming.length = nodeCount

theorem length_step {nodeCount : Nat} (isFor : walk.IsFor nodeCount) (scores : List α) :
    (step walk scores).length = nodeCount := by
  simp [step, isFor.incoming, isFor.restart]

theorem length_scoresAfter {nodeCount : Nat} (isFor : walk.IsFor nodeCount) (steps : Nat) :
    (scoresAfter walk steps).length = nodeCount := by
  cases steps with
  | zero => exact isFor.restart
  | succ steps =>
      rw [scoresAfter_succ]
      exact length_step isFor _

/-! ## One step -/

section Step

theorem sum_padded (more : Nat) (scores : List α) :
    Scalar.sum (padded more scores) = addZeros more (Scalar.sum scores) := by
  rw [Scalar.sum, padded, List.foldl_append]
  rfl

variable {scores : List α}

theorem foldl_replicate_of_fixed {β γ : Type} {next : γ → β → γ} {element : β}
    (fixed : ∀ total, next total element = total) (count : Nat) (total : γ) :
    (List.replicate count element).foldl next total = total := by
  induction count with
  | zero => rfl
  | succ count inductionHypothesis =>
      rw [List.replicate_succ, List.foldl_cons, fixed, inductionHypothesis]

theorem gathered_eq_foldl_getD (given : Array (Option α)) (sources : List (Nat × α)) :
    gathered given sources = sources.foldl (fun total entry =>
      (((given[entry.1]?).getD none).map fun spread => total + spread * entry.2).getD total) zero := by
  unfold gathered
  refine congrArg (fun next => sources.foldl next zero) (funext fun total => funext fun entry => ?_)
  rcases entry with ⟨source, weight⟩
  dsimp only
  rcases given[source]? with _ | _ | spread
  · rfl
  · rfl
  · rfl

/-- A node gathers the same from tables that give the same. -/
theorem gathered_congr {given other : Array (Option α)}
    (same : ∀ source : Nat, (given[source]?).getD none = (other[source]?).getD none)
    (sources : List (Nat × α)) : gathered given sources = gathered other sources := by
  rw [gathered_eq_foldl_getD, gathered_eq_foldl_getD]
  simp only [same]

theorem zip_isolating (fits : scores.length = walk.outWeights.length) (more : Nat) :
    (padded more scores).zip (walk.isolating more).outWeights =
      scores.zip walk.outWeights ++ List.replicate more (zero, Scalar.emptySum) := by
  rw [padded, Walk.isolating, List.zip_append fits, List.zip_replicate']

theorem change_eq (next scores : List α) : change next scores =
    Scalar.sum ((next.zip scores).map fun entry => Scalar.absolute (entry.1 - entry.2)) :=
  rfl

variable [ZeroLaws α]

/-- Zeros have no mass that could be lost. -/
theorem dangling_isolating (fits : scores.length = walk.outWeights.length) (more : Nat) :
    dangling (walk.isolating more) (padded more scores) = dangling walk scores := by
  rw [dangling, zip_isolating fits, List.foldl_append]
  refine foldl_replicate_of_fixed (fun total => ?_) more _
  exact if_pos ZeroLaws.isZero_zero

/-- Zeros have nothing to give away. -/
theorem spreads_isolating (fits : scores.length = walk.outWeights.length) (more source : Nat) :
    ((spreads (walk.isolating more) (padded more scores))[source]?).getD none =
      ((spreads walk scores)[source]?).getD none := by
  rw [spreads, spreads, zip_isolating fits, List.map_append, List.map_replicate]
  simp only [ZeroLaws.isZero_zero, if_true]
  rw [List.getElem?_toArray, List.getElem?_toArray, getD_append_replicate]
  rfl

/-- A step of the larger walk is one of the smaller walk, as long as what starts
again is finite. -/
theorem step_isolating {nodeCount : Nat} (isFor : walk.IsFor nodeCount)
    (fits : scores.length = nodeCount) (restarts : isFinite (one - walk.alpha) = true)
    (returns : isFinite (walk.alpha * dangling walk scores) = true) (more : Nat) :
    step (walk.isolating more) (padded more scores) = padded more (step walk scores) := by
  have fitsOut : scores.length = walk.outWeights.length := fits.trans isFor.outWeights.symm
  have targets : (walk.isolating more).incoming.zip (walk.isolating more).restart =
      walk.incoming.zip walk.restart ++ List.replicate more ([], zero) := by
    rw [Walk.isolating, padded, List.zip_append (isFor.incoming.trans isFor.restart.symm),
      List.zip_replicate']
  have nothing : (zero : α) + ((one - walk.alpha) * zero +
      walk.alpha * dangling walk scores * zero) = zero :=
    ZeroLaws.zero_add_shares restarts returns
  rw [step, targets, dangling_isolating fitsOut]
  simp only [List.map_append, List.map_replicate, gathered_congr (spreads_isolating fitsOut more)]
  rw [padded, step]
  exact congrArg (fun value => _ ++ List.replicate more value) nothing

/-- The change of a step is compared with the same outcome. -/
theorem lt_change_padded {next : List α} (same : next.length = scores.length) (more : Nat)
    (tolerance : α) :
    lt (change (padded more next) (padded more scores)) tolerance =
      lt (change next scores) tolerance := by
  have terms : ((padded more next).zip (padded more scores)).map
        (fun entry => Scalar.absolute (entry.1 - entry.2)) =
      padded more ((next.zip scores).map fun entry => Scalar.absolute (entry.1 - entry.2)) := by
    rw [padded, padded, List.zip_append same, List.zip_replicate', List.map_append,
      List.map_replicate, ZeroLaws.absolute_sub_zero, padded]
  rw [change_eq, terms, sum_padded, lt_addZeros_left, change_eq]

end Step

/-! ## The iteration -/

/-- The outcome for so many nodes more. -/
def withZeros (ranking : Ranking α) (more : Nat) : Ranking α :=
  { ranking with scores := padded more ranking.scores }

/-- What starts again is finite in each of so many steps. -/
def RestartsFinite (walk : Walk α) (steps : Nat) : Prop :=
  ∀ taken < steps, isFinite (one - walk.alpha) = true ∧
    isFinite (walk.alpha * dangling walk (scoresAfter walk taken)) = true

theorem RestartsFinite.mono {fewer steps : Nat} (finite : RestartsFinite walk steps)
    (enough : fewer ≤ steps) : RestartsFinite walk fewer :=
  fun taken within => finite taken (within.trans_le enough)

section Iteration

theorem score_withZeros (ranking : Ranking α) (more node : Nat) :
    (ranking.withZeros more).score node = ranking.score node := by
  rw [score, score, withZeros, padded, getD_append_replicate]

variable [ZeroLaws α]

theorem scoresAfter_isolating {nodeCount steps : Nat} (isFor : walk.IsFor nodeCount)
    (finite : RestartsFinite walk steps) (more : Nat) :
    scoresAfter (walk.isolating more) steps = padded more (scoresAfter walk steps) := by
  induction steps with
  | zero => rfl
  | succ steps inductionHypothesis =>
      rcases finite steps (Nat.lt_succ_self steps) with ⟨restarts, returns⟩
      rw [scoresAfter_succ, inductionHypothesis (finite.mono (Nat.le_succ steps)), scoresAfter_succ,
        step_isolating isFor (length_scoresAfter isFor steps) restarts returns]

theorem RestartsFinite.of_isolating {nodeCount steps more : Nat} (isFor : walk.IsFor nodeCount)
    (finite : RestartsFinite (walk.isolating more) steps) : RestartsFinite walk steps := by
  induction steps with
  | zero => exact nofun
  | succ steps inductionHypothesis =>
      have earlier := inductionHypothesis (finite.mono (Nat.le_succ steps))
      intro taken within
      rcases finite taken within with ⟨restarts, returns⟩
      have taken_le : taken ≤ steps := Nat.le_of_lt_succ within
      have fits : (scoresAfter walk taken).length = walk.outWeights.length :=
        (length_scoresAfter isFor taken).trans isFor.outWeights.symm
      rw [scoresAfter_isolating isFor (earlier.mono taken_le), dangling_isolating fits] at returns
      exact ⟨restarts, returns⟩

/-- It is enough that one of the two iterations ends before mass overflows. -/
theorem iterate_isolating {nodeCount bound : Nat} (isFor : walk.IsFor nodeCount) (tolerance : α)
    (more left taken : Nat) (finite : RestartsFinite walk bound)
    (ends : (iterate walk tolerance left taken (scoresAfter walk taken)).iterations ≤ bound ∨
      (iterate (walk.isolating more) tolerance left taken
        (scoresAfter (walk.isolating more) taken)).iterations ≤ bound) :
    iterate (walk.isolating more) tolerance left taken (scoresAfter (walk.isolating more) taken) =
      (iterate walk tolerance left taken (scoresAfter walk taken)).withZeros more := by
  induction left generalizing taken with
  | zero =>
      have within : taken ≤ bound := ends.elim id id
      rw [scoresAfter_isolating isFor (finite.mono within)]
      rfl
  | succ left inductionHypothesis =>
      have moves (other : Walk α) :=
        (iterate_stopsWithin other tolerance (left + 1) taken).moves (Nat.succ_pos left)
      have within : taken < bound := ends.elim (moves walk).trans_le (moves _).trans_le
      have before := scoresAfter_isolating isFor (finite.mono within.le) more
      have after := scoresAfter_isolating isFor (finite.mono within) more
      have fits (steps : Nat) := length_scoresAfter isFor steps
      have settles : lt (change (scoresAfter (walk.isolating more) (taken + 1))
            (scoresAfter (walk.isolating more) taken)) tolerance =
          lt (change (scoresAfter walk (taken + 1)) (scoresAfter walk taken)) tolerance := by
        rw [before, after, lt_change_padded ((fits (taken + 1)).trans (fits taken).symm)]
      rw [iterate, iterate, ← scoresAfter_succ, ← scoresAfter_succ, settles] at ends ⊢
      split
      · rw [after]
        rfl
      · next unsettled =>
          rw [if_neg unsettled, if_neg unsettled] at ends
          exact inductionHypothesis (taken + 1) ends

theorem normalize_withZeros (ranking : Ranking α) (more : Nat) :
    (ranking.withZeros more).normalize = ranking.normalize.withZeros more := by
  have total_eq : (ranking.withZeros more).total = addZeros more ranking.total :=
    sum_padded more ranking.scores
  unfold normalize
  simp only [total_eq, lt_zero_addZeros]
  split
  · next pos =>
      have scaled : (padded more ranking.scores).map (· / addZeros more ranking.total) =
          padded more (ranking.scores.map (· / ranking.total)) := by
        rw [addZeros_of_pos more pos, padded, List.map_append, List.map_replicate,
          ZeroLaws.zero_div_of_pos pos, padded]
      simp only [withZeros, scaled]
  · rfl

end Iteration

end Ranking
end ContextPack
