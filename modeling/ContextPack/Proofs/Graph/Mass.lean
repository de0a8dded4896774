import ContextPack.Proofs.Graph.Walk
import Mathlib.Algebra.BigOperators.Field
import Mathlib.Data.List.Sort

namespace ContextPack
namespace Ranking

/-!
# The walk loses no mass

A step of the walk moves the mass of a node along the edges that leave it, in
proportion to their weights, or back to the seeds if none does.  The shares of
a node add up to one, so what is moved adds up to what was there.  A part of
`1 - alpha` is not moved but starts again, and the start has mass one.
-/

/-! ## The start -/

/-- Seeds from which a walk can start: nodes of the graph, each once. -/
structure IsStart (graph : Graph ℚ) (seeds : List Nat) : Prop where
  nodup : seeds.Nodup
  nonempty : seeds ≠ []
  inside : ∀ seed ∈ seeds, seed < graph.nodeCount

section Start

variable {graph : Graph ℚ} {seeds : List Nat}

theorem isStart_validSeeds (inGraph : ∃ seed ∈ seeds, seed < graph.nodeCount) :
    IsStart graph (validSeeds graph.nodeCount seeds) where
  nodup := (Graph.pairwise_distinctAscending _).imp ne_of_lt
  nonempty := by
    rcases inGraph with ⟨seed, isSeed, inside⟩
    exact List.ne_nil_of_mem ((mem_validSeeds _ _ _).mpr ⟨isSeed, inside⟩)
  inside seed member := ((mem_validSeeds _ _ _).mp member).2

theorem sum_startAt (start : IsStart graph seeds) :
    ∑ node ∈ Finset.range graph.nodeCount, startAt seeds node = 1 := by
  have atSeeds : (Finset.range graph.nodeCount).filter (· ∈ seeds) = seeds.toFinset := by
    ext node
    rw [Finset.mem_filter, Finset.mem_range, List.mem_toFinset]
    exact and_iff_right_of_imp (start.inside node)
  have some : (seeds.length : ℚ) ≠ 0 :=
    Nat.cast_ne_zero.mpr (List.length_pos_of_ne_nil start.nonempty).ne'
  simp only [startAt]
  rw [← Finset.sum_filter, atSeeds, Finset.sum_const, List.toFinset_card_of_nodup start.nodup,
    nsmul_eq_mul, mul_one_div_cancel some]

end Start

/-! ## Shares -/

/-- The share of a node's mass that a step moves to another. -/
def shareOf (graph : Graph ℚ) (seeds : List Nat) (source target : Nat) : ℚ :=
  if graph.weightLeaving EdgeKind.isWalkable source ≤ 0 then startAt seeds target
  else graph.weightAlong EdgeKind.isWalkable source target /
    graph.weightLeaving EdgeKind.isWalkable source

section Shares

variable {graph : Graph ℚ} {seeds : List Nat} {alpha : ℚ}

theorem shareOf_nonneg (wellFormed : graph.WellFormed) (seeds : List Nat) (source target : Nat) :
    0 ≤ shareOf graph seeds source target := by
  rw [shareOf]
  split
  · exact startAt_nonneg seeds target
  · next wayOut => exact div_nonneg (wellFormed.weightAlong_nonneg _ _ _) (not_le.mp wayOut).le

/-- All shares of a node together are the whole. -/
theorem sum_shareOf (wellFormed : graph.WellFormed) (start : IsStart graph seeds) (source : Nat) :
    ∑ target ∈ Finset.range graph.nodeCount, shareOf graph seeds source target = 1 := by
  unfold shareOf
  by_cases noWay : graph.weightLeaving EdgeKind.isWalkable source ≤ 0
  · simp only [if_pos noWay]
    exact sum_startAt start
  · simp only [if_neg noWay]
    rw [← Finset.sum_div, wellFormed.sum_weightAlong, div_self (not_le.mp noWay).ne']

/-- What a step moves to a node. -/
def moved (graph : Graph ℚ) (seeds : List Nat) (mass : Nat → ℚ) (node : Nat) : ℚ :=
  ∑ source ∈ Finset.range graph.nodeCount, mass source * shareOf graph seeds source node

/-- A step moves a part of the mass and starts the rest again. -/
theorem stepAt_eq (graph : Graph ℚ) (seeds : List Nat) (alpha : ℚ) (mass : Nat → ℚ) (node : Nat) :
    stepAt graph seeds alpha mass node =
      (1 - alpha) * startAt seeds node + alpha * moved graph seeds mass node := by
  have share (source : Nat) :
      spreadAt graph alpha mass source * graph.weightAlong EdgeKind.isWalkable source node +
          alpha * (if graph.weightLeaving EdgeKind.isWalkable source ≤ 0 then mass source else 0) *
            startAt seeds node =
        alpha * (mass source * shareOf graph seeds source node) := by
    rw [spreadAt, shareOf]
    split
    · ring
    · ring
  have all : ∑ source ∈ Finset.range graph.nodeCount,
        spreadAt graph alpha mass source * graph.weightAlong EdgeKind.isWalkable source node +
      alpha * lostMass graph mass * startAt seeds node = alpha * moved graph seeds mass node := by
    rw [lostMass, moved, Finset.mul_sum, Finset.sum_mul, ← Finset.sum_add_distrib, Finset.mul_sum]
    exact Finset.sum_congr rfl fun source _ => share source
  rw [stepAt, ← all]
  ring

/-- Moving keeps the whole mass. -/
theorem sum_moved (wellFormed : graph.WellFormed) (start : IsStart graph seeds)
    (mass : Nat → ℚ) :
    ∑ node ∈ Finset.range graph.nodeCount, moved graph seeds mass node =
      ∑ node ∈ Finset.range graph.nodeCount, mass node := by
  unfold moved
  rw [Finset.sum_comm]
  refine Finset.sum_congr rfl fun source _ => ?_
  rw [← Finset.mul_sum, sum_shareOf wellFormed start, mul_one]

theorem sum_stepAt (wellFormed : graph.WellFormed) (start : IsStart graph seeds) (alpha : ℚ)
    (mass : Nat → ℚ) :
    ∑ node ∈ Finset.range graph.nodeCount, stepAt graph seeds alpha mass node =
      1 - alpha + alpha * ∑ node ∈ Finset.range graph.nodeCount, mass node := by
  simp only [stepAt_eq]
  rw [Finset.sum_add_distrib, ← Finset.mul_sum, ← Finset.mul_sum, sum_startAt start,
    sum_moved wellFormed start, mul_one]

/-- After any number of steps the mass is one. -/
theorem sum_massAfter (wellFormed : graph.WellFormed) (start : IsStart graph seeds) (alpha : ℚ)
    (steps : Nat) :
    ∑ node ∈ Finset.range graph.nodeCount, massAfter graph seeds alpha steps node = 1 := by
  induction steps with
  | zero => exact sum_startAt start
  | succ steps inductionHypothesis =>
      rw [massAfter_succ, sum_stepAt wellFormed start, inductionHypothesis]
      ring

theorem sum_scoreList (graph : Graph ℚ) (mass : Nat → ℚ) :
    (scoreList graph mass).sum = ∑ node ∈ Finset.range graph.nodeCount, mass node :=
  sum_map_range graph.nodeCount mass

theorem sum_scoresAfter (wellFormed : graph.WellFormed) (start : IsStart graph seeds) (alpha : ℚ)
    (steps : Nat) : (scoresAfter (Walk.of graph seeds alpha) steps).sum = 1 := by
  rw [scoresAfter_eq wellFormed, sum_scoreList, sum_massAfter wellFormed start]

end Shares

/-! ## The outcome -/

section Outcome

variable {graph : Graph ℚ} {seeds : List Nat} {settings : WalkSettings ℚ}

/-- Scores that add up to one stay as they are. -/
theorem normalize_of_sum_eq_one {ranking : Ranking ℚ} (whole : ranking.scores.sum = 1) :
    ranking.normalize = ranking := by
  have isWhole : ranking.total = 1 := (Scalar.sum_rat _).trans whole
  have same : ranking.scores.map (· / ranking.total) = ranking.scores := by
    simp [isWhole]
  unfold normalize
  simp only [same]
  split
  · rfl
  · rfl

/-- From a seed in the graph the outcome of ranking is that of the iteration. -/
theorem ofGraph_stopsWithin (wellFormed : graph.WellFormed)
    (inGraph : ∃ seed ∈ seeds, seed < graph.nodeCount) (settings : WalkSettings ℚ) :
    StopsWithin (Walk.of graph (validSeeds graph.nodeCount seeds) settings.alpha)
      settings.tolerance settings.maxIterations 0 (ofGraph graph seeds settings) := by
  have start := isStart_validSeeds inGraph
  let walk := Walk.of graph (validSeeds graph.nodeCount seeds) settings.alpha
  let outcome := iterate walk settings.tolerance settings.maxIterations 0 walk.restart
  have stops : StopsWithin walk settings.tolerance settings.maxIterations 0 outcome :=
    iterate_stopsWithin walk settings.tolerance settings.maxIterations 0
  have whole : outcome.scores.sum = 1 := by
    rw [stops.scores_eq]
    exact sum_scoresAfter wellFormed start settings.alpha outcome.iterations
  have scaled : ofGraph graph seeds settings = outcome.normalize := by
    rw [ofGraph]
    simp only [List.isEmpty_iff, start.nonempty, if_false]
    rfl
  rw [scaled, normalize_of_sum_eq_one whole]
  exact stops

end Outcome

/-- A cycle of two files, a third that leads nowhere and a fourth that nothing
relates to them. -/
def cycleGraph : Graph ℚ :=
  ((((Graph.empty.addPathEdge ⟨"a.py", "b.py", .forwardCall, 2⟩).addPathEdge
    ⟨"b.py", "a.py", .backwardCall, 1⟩).addPathEdge
    ⟨"b.py", "c.py", .importing, 3⟩).addNode "d.py").1

theorem wellFormed_cycleGraph : cycleGraph.WellFormed :=
  (((Graph.wellFormed_empty.addPathEdge _).addPathEdge _).addPathEdge _).addNode _

end Ranking
end ContextPack
