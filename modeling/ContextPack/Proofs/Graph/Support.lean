import ContextPack.Proofs.Graph.Mass

namespace ContextPack
namespace Ranking

/-!
# The walk reaches what the search finds

Ranking and the search for distances go through the graph on their own, one by
weights and one by a queue.  Both spread one hop at a time from the same seeds,
so the nodes with a score are those that the search has found within as many
hops as the walk took steps.
-/

/-- A node has a score exactly if its distance is no more than the number of
steps, and none at all if no path leads to it. -/
theorem scores_reach_as_far_as_distances {graph : Graph ℚ} (wellFormed : graph.WellFormed)
    (seeds : List Nat) {settings : WalkSettings ℚ} (alpha_pos : 0 < settings.alpha)
    (alpha_lt_one : settings.alpha < 1) :
    let ranking := ofGraph graph seeds settings
    ∀ node < graph.nodeCount,
      0 ≤ ranking.score node ∧
      (0 < ranking.score node ↔
        ∃ hops ≤ ranking.iterations, (graph.distances seeds)[node]?.getD none = some hops) ∧
      ((¬∃ seed ∈ seeds, Relation.ReflTransGen graph.Linked seed node) →
        ranking.score node = 0) := by
  intro ranking node inside
  have nonneg : 0 ≤ ranking.score node :=
    score_nonneg wellFormed seeds alpha_pos.le alpha_lt_one.le node
  have positive : 0 < ranking.score node ↔
      ∃ hops ≤ ranking.iterations, ReachedIn graph.Linked seeds hops node :=
    (score_pos_iff wellFormed seeds alpha_pos alpha_lt_one node).trans (and_iff_right inside)
  refine ⟨nonneg, positive.trans (Graph.distance_le_iff wellFormed inside _).symm, fun apart => ?_⟩
  by_contra someScore
  rcases positive.mp (nonneg.lt_of_ne' someScore) with ⟨hops, -, reached⟩
  exact apart (exists_reachedIn_iff.mp ⟨hops, reached⟩)

/-- A walk that may take one step only. -/
def singleStep : WalkSettings ℚ := { WalkSettings.default with maxIterations := 1 }

theorem distances_cycleGraph : cycleGraph.distances [0] = [some 0, some 1, some 2, none] := by
  decide +kernel

/-- After one step the next file has a score.  The one behind it and the one
that no path leads to have none. -/
theorem scores_reach_as_far_as_distances_of_cycle :
    0 < (ofGraph cycleGraph [0] singleStep).score 1 ∧
      ¬0 < (ofGraph cycleGraph [0] singleStep).score 2 ∧
      (ofGraph cycleGraph [0] singleStep).score 3 = 0 := by
  have alpha_pos : 0 < singleStep.alpha := by norm_num [singleStep, WalkSettings.default]
  have alpha_lt_one : singleStep.alpha < 1 := by norm_num [singleStep, WalkSettings.default]
  have scores := scores_reach_as_far_as_distances wellFormed_cycleGraph [0] alpha_pos alpha_lt_one
  have steps : (ofGraph cycleGraph [0] singleStep).iterations = 1 := by decide +kernel
  simp only [steps, distances_cycleGraph] at scores
  refine ⟨(scores 1 (by decide)).2.1.mpr ⟨1, le_rfl, rfl⟩, fun positive => ?_, ?_⟩
  · rcases (scores 2 (by decide)).2.1.mp positive with ⟨hops, bounded, isDistance⟩
    cases isDistance
    exact absurd bounded (by decide)
  · have apart := scores 3 (by decide)
    refine (apart.1.eq_of_not_lt fun positive => ?_).symm
    rcases apart.2.1.mp positive with ⟨hops, -, isDistance⟩
    cases isDistance

end Ranking
end ContextPack
