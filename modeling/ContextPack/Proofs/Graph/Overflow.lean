import ContextPack.Proofs.Graph.Isolated
import ContextPack.Proofs.Number.Finite

namespace ContextPack
namespace Ranking

/-!
# Overflow does not settle

A score that is infinite, or no number, stays in the walk: its node hands it
on along an edge, or it is lost and starts again everywhere.  So the change of
a step cannot fall below the tolerance any more.  An iteration that ends by
itself has seen finite numbers only, and one that has not takes all its steps,
with isolated nodes or without.
-/

variable {α : Type} {walk : Walk α} {nodeCount : Nat}

theorem Walk.IsFor.exists_mem_incoming (isFor : walk.IsFor nodeCount) (nodes : 0 < nodeCount) :
    ∃ sources, sources ∈ walk.incoming :=
  List.exists_mem_of_length_pos (isFor.incoming.symm ▸ nodes)

variable [Scalar α] {scores : List α}

open Scalar (zero one lt le isFinite isZero)

/-- From a node with a way out some node gathers. -/
def Walk.LeadsOn (walk : Walk α) : Prop :=
  ∀ (source : Nat) (out : α), walk.outWeights[source]? = some out → le out zero = false →
    ∃ sources ∈ walk.incoming, source ∈ sources.map Prod.fst

theorem Walk.IsFor.isolating (isFor : walk.IsFor nodeCount) (more : Nat) :
    (walk.isolating more).IsFor (nodeCount + more) := by
  constructor
  · simp [Walk.isolating, padded, isFor.restart]
  · simp [Walk.isolating, isFor.outWeights]
  · simp [Walk.isolating, isFor.incoming]

variable [FiniteLaws α]

theorem Walk.LeadsOn.isolating (leads : walk.LeadsOn) (more : Nat) :
    (walk.isolating more).LeadsOn := by
  intro source out found wayOut
  rw [Walk.isolating, List.getElem?_append] at found
  split at found
  · rcases leads source out found wayOut with ⟨sources, member, isSource⟩
    exact ⟨sources, List.mem_append_left _ member, isSource⟩
  · have isEmpty : out = Scalar.emptySum :=
      List.eq_of_mem_replicate (List.mem_of_getElem? found)
    rw [isEmpty, FiniteLaws.emptySum_le_zero] at wayOut
    cases wayOut

/-! ## One step -/

/-- If the lost mass is finite, so is each mass that is lost. -/
theorem isFinite_of_dangling (finite : isFinite (dangling walk scores) = true) {mass out : α}
    (member : (mass, out) ∈ scores.zip walk.outWeights) (noWay : le out zero = true) :
    isFinite mass = true := by
  have keeps (total : α) (entry : α × α) (reached : isFinite (if isZero entry.1 then total
      else if le entry.2 zero then total + entry.1 else total) = true) : isFinite total = true := by
    split at reached
    · exact reached
    · split at reached
      · exact (FiniteLaws.of_add reached).1
      · exact reached
  rcases (isFinite_foldl keeps finite).2 _ member with ⟨before, reached⟩
  dsimp only at reached
  split at reached
  · next isZero => exact FiniteLaws.of_isZero isZero
  · exact (FiniteLaws.of_add reached).2

/-- If a node gathers something finite, so is each share that it gathers. -/
theorem isFinite_of_gathered {given : Array (Option α)} {sources : List (Nat × α)}
    (finite : isFinite (gathered given sources) = true) {source : Nat} {spread : α}
    (member : source ∈ sources.map Prod.fst) (gives : given[source]? = some (some spread)) :
    isFinite spread = true := by
  rw [gathered_eq_foldl_getD] at finite
  rcases List.mem_map.mp member with ⟨entry, isEntry, rfl⟩
  have keeps (total : α) (entry : Nat × α) (reached : isFinite
      ((((given[entry.1]?).getD none).map fun spread => total + spread * entry.2).getD total) =
        true) : isFinite total = true := by
    cases shared : (given[entry.1]?).getD none with
    | none =>
        rw [shared] at reached
        exact reached
    | some spread =>
        rw [shared] at reached
        exact (FiniteLaws.of_add reached).1
  rcases (isFinite_foldl keeps finite).2 entry isEntry with ⟨before, reached⟩
  rw [gives] at reached
  exact (FiniteLaws.of_mul (FiniteLaws.of_add reached).2).1

/-- If a step gives finite scores, so are the parts they are made of. -/
theorem isFinite_of_step (isFor : walk.IsFor nodeCount)
    (finite : ∀ score ∈ step walk scores, isFinite score = true) {sources : List (Nat × α)}
    (member : sources ∈ walk.incoming) :
    isFinite (gathered (spreads walk scores) sources) = true ∧ isFinite (one - walk.alpha) = true ∧
      isFinite (walk.alpha * dangling walk scores) = true := by
  have sameLength : walk.incoming.length ≤ walk.restart.length :=
    (isFor.incoming.trans isFor.restart.symm).le
  rw [← List.map_fst_zip sameLength] at member
  rcases List.mem_map.mp member with ⟨entry, isEntry, rfl⟩
  rcases FiniteLaws.of_add (finite _ (List.mem_map_of_mem isEntry)) with ⟨gathers, restarts⟩
  rcases FiniteLaws.of_add restarts with ⟨starts, returns⟩
  exact ⟨gathers, (FiniteLaws.of_mul starts).1, (FiniteLaws.of_mul returns).1⟩

/-- Scores that are finite after a step were finite before it. -/
theorem finite_before_step (isFor : walk.IsFor nodeCount) (leads : walk.LeadsOn)
    (nodes : 0 < nodeCount) (fits : scores.length = nodeCount)
    (finite : ∀ score ∈ step walk scores, isFinite score = true) :
    ∀ score ∈ scores, isFinite score = true := by
  intro score member
  have sameLength : scores.length ≤ walk.outWeights.length := (fits.trans isFor.outWeights.symm).le
  rw [← List.map_fst_zip sameLength] at member
  rcases List.mem_map.mp member with ⟨⟨mass, out⟩, isEntry, rfl⟩
  cases wayOut : le out zero with
  | true =>
      rcases isFor.exists_mem_incoming nodes with ⟨sources, gathers⟩
      have returns := (isFinite_of_step isFor finite gathers).2.2
      exact isFinite_of_dangling (FiniteLaws.of_mul returns).2 isEntry wayOut
  | false =>
      rcases List.mem_iff_getElem?.mp isEntry with ⟨source, found⟩
      rcases leads source out (List.getElem?_zip_eq_some.mp found).2 wayOut
        with ⟨sources, gathers, isSource⟩
      cases isZero : isZero mass with
      | true => exact FiniteLaws.of_isZero isZero
      | false =>
          have gives : (spreads walk scores)[source]? = some (some (walk.alpha * mass / out)) := by
            rw [spreads, List.getElem?_toArray, List.getElem?_map, found]
            simp [isZero, wayOut]
          have spread := isFinite_of_gathered (isFinite_of_step isFor finite gathers).1 isSource gives
          exact (FiniteLaws.of_mul (FiniteLaws.of_div spread)).2

/-! ## The iteration -/

/-- A step that settles has led to finite scores. -/
theorem finite_of_settled {tolerance : α} (steps : Nat) (isFor : walk.IsFor nodeCount)
    (settled : lt (changeAfter walk steps) tolerance = true) :
    ∀ score ∈ scoresAfter walk (steps + 1), isFinite score = true := by
  intro score member
  have sameLength : (scoresAfter walk (steps + 1)).length ≤ (scoresAfter walk steps).length := by
    rw [length_scoresAfter isFor, length_scoresAfter isFor]
  rw [← List.map_fst_zip sameLength] at member
  rcases List.mem_map.mp member with ⟨entry, isEntry, rfl⟩
  have sum_eq : changeAfter walk steps = Scalar.sum
      ((((scoresAfter walk (steps + 1)).zip (scoresAfter walk steps)).map
        fun entry => entry.1 - entry.2).map Scalar.absolute) := by
    rw [List.map_map]
    exact change_eq _ _
  rw [sum_eq] at settled
  have total := FiniteLaws.of_lt (sum_absolute_lt_zero _) settled
  have term := isFinite_of_mem_sum total (List.mem_map_of_mem (List.mem_map_of_mem isEntry))
  exact (FiniteLaws.of_sub (FiniteLaws.of_absolute term)).1

theorem restartsFinite_of_finite (isFor : walk.IsFor nodeCount) (leads : walk.LeadsOn)
    (nodes : 0 < nodeCount) {steps : Nat}
    (finite : ∀ score ∈ scoresAfter walk steps, isFinite score = true) :
    RestartsFinite walk steps := by
  induction steps with
  | zero => exact nofun
  | succ steps inductionHypothesis =>
      intro taken within
      rw [scoresAfter_succ] at finite
      rcases Nat.lt_succ_iff_lt_or_eq.mp within with earlier | rfl
      · have before := finite_before_step isFor leads nodes (length_scoresAfter isFor steps) finite
        exact inductionHypothesis before taken earlier
      · rcases isFor.exists_mem_incoming nodes with ⟨sources, gathers⟩
        exact (isFinite_of_step isFor finite gathers).2

theorem restartsFinite_of_converged (isFor : walk.IsFor nodeCount) (leads : walk.LeadsOn)
    (nodes : 0 < nodeCount) (tolerance : α) (maxIterations : Nat) :
    let ranking := iterate walk tolerance maxIterations 0 walk.restart
    ranking.converged = true → RestartsFinite walk ranking.iterations := by
  intro ranking converged
  have stops := iterate_stopsWithin walk tolerance maxIterations 0
  rcases stops.converged_iff.mp converged with ⟨last, -, isLast, settled⟩
  have iterations_eq : ranking.iterations = last + 1 := isLast
  rw [iterations_eq]
  exact restartsFinite_of_finite isFor leads nodes (finite_of_settled last isFor settled)

variable [ZeroLaws α]

/-- Isolated nodes do not change when an iteration ends. -/
theorem iterate_isolating_ends (isFor : walk.IsFor nodeCount) (leads : walk.LeadsOn)
    (nodes : 0 < nodeCount) (tolerance : α) (maxIterations more : Nat) :
    let ranking := iterate walk tolerance maxIterations 0 walk.restart
    let after := iterate (walk.isolating more) tolerance maxIterations 0 (walk.isolating more).restart
    after.iterations = ranking.iterations ∧ after.converged = ranking.converged := by
  intro ranking after
  have same {bound : Nat} (finite : RestartsFinite walk bound)
      (ends : ranking.iterations ≤ bound ∨ after.iterations ≤ bound) :
      after = ranking.withZeros more :=
    iterate_isolating isFor tolerance more maxIterations 0 finite ends
  cases settled : ranking.converged with
  | true =>
      have finite := restartsFinite_of_converged isFor leads nodes tolerance maxIterations settled
      rw [same finite (Or.inl (Nat.le_refl _))]
      exact ⟨rfl, settled⟩
  | false =>
      cases settledAfter : after.converged with
      | true =>
          have finite := restartsFinite_of_converged (isFor.isolating more) (leads.isolating more)
            (Nat.add_pos_left nodes more) tolerance maxIterations settledAfter
          have equal := same (finite.of_isolating isFor) (Or.inr (Nat.le_refl _))
          exact absurd ((congrArg converged equal).symm.trans settledAfter) (settled ▸ Bool.false_ne_true)
      | false =>
          have exhausted := (iterate_stopsWithin walk tolerance maxIterations 0).exhausted settled
          have exhaustedAfter := (iterate_stopsWithin (walk.isolating more) tolerance maxIterations
            0).exhausted settledAfter
          exact ⟨exhaustedAfter.trans exhausted.symm, rfl⟩

end Ranking
end ContextPack
