import ContextPack.Graph.SeedSignals
import ContextPack.Pack.Signals
import ContextPack.Proofs.Graph.Store

namespace ContextPack

/-!
# Evidence becomes a score

No signal is negative, and no way to fuse signals makes a score out of
nothing.  The sum and the maximum lose none either: their score is positive
exactly if some signal is.
-/

/-! ## The strongest edge from a seed -/

namespace Graph

/-- Taking the maximum over the edges that count. -/
theorem pos_foldl_maximum_iff (counts : EdgeKey → Bool) (edges : List (EdgeKey × ℚ)) (best : ℚ) :
    0 < edges.foldl (fun best (key, weight) =>
        if counts key then Scalar.maximum best weight else best) best ↔
      0 < best ∨ ∃ edge ∈ edges, counts edge.1 = true ∧ 0 < edge.2 := by
  induction edges generalizing best with
  | nil => simp
  | cons edge rest inductionHypothesis =>
      rcases edge with ⟨key, weight⟩
      rw [List.foldl_cons, inductionHypothesis, List.exists_mem_cons_iff, ← or_assoc]
      refine or_congr_left ?_
      by_cases counted : counts key = true
      · simp [counted]
      · simp [counted]

theorem le_foldl_maximum (counts : EdgeKey → Bool) (edges : List (EdgeKey × ℚ)) (best : ℚ) :
    best ≤ edges.foldl (fun best (key, weight) =>
      if counts key then Scalar.maximum best weight else best) best := by
  induction edges generalizing best with
  | nil => exact le_rfl
  | cons edge rest inductionHypothesis =>
      rcases edge with ⟨key, weight⟩
      refine le_trans ?_ (inductionHypothesis _)
      dsimp only
      split
      · exact le_max_left best weight
      · exact le_rfl

theorem strongest_nonneg (edges : List (EdgeKey × ℚ)) (kind : EdgeKind) (node : Nat) :
    0 ≤ strongest edges kind node := by
  have start := le_foldl_maximum (fun key => key.target = node && key.kind = kind) edges Scalar.zero
  rwa [Scalar.zero_rat] at start

/-- There is such evidence exactly if an edge of the kind leads to the node
from a seed. -/
theorem WellFormed.strongest_pos_iff {graph : Graph ℚ} (wellFormed : graph.WellFormed)
    (seeds : List Nat) (kind : EdgeKind) (node : Nat) :
    0 < strongest (graph.seedEdges seeds) kind node ↔ ∃ edge ∈ graph.edges,
      edge.1.source ∈ seeds ∧ edge.1.target = node ∧ edge.1.kind = kind := by
  refine (pos_foldl_maximum_iff (fun key => key.target = node && key.kind = kind) _ _).trans ?_
  rw [Scalar.zero_rat, or_iff_right (lt_irrefl 0)]
  constructor
  · rintro ⟨edge, member, counted, -⟩
    rcases List.mem_filter.mp member with ⟨isEdge, fromSeed⟩
    rcases Bool.and_eq_true_iff.mp counted with ⟨toNode, ofKind⟩
    exact ⟨edge, isEdge, List.contains_iff_mem.mp fromSeed, of_decide_eq_true toNode,
      of_decide_eq_true ofKind⟩
  · rintro ⟨edge, isEdge, fromSeed, toNode, ofKind⟩
    refine ⟨edge, List.mem_filter.mpr ⟨isEdge, List.contains_iff_mem.mpr fromSeed⟩, ?_,
      wellFormed.weight_pos edge isEdge⟩
    exact Bool.and_eq_true_iff.mpr ⟨decide_eq_true toNode, decide_eq_true ofKind⟩

end Graph

/-! ## Fusing signals -/

/-- No piece of evidence speaks against a file. -/
structure Signals.IsNonneg (signals : Signals ℚ) : Prop where
  walk : 0 ≤ signals.walk
  lexical : 0 ≤ signals.lexical
  cochange : 0 ≤ signals.cochange

/-- Some piece of evidence speaks for a file. -/
def Signals.IsEvident (signals : Signals ℚ) : Prop :=
  0 < signals.walk ∨ 0 < signals.lexical ∨ 0 < signals.cochange

namespace Fusion

variable {signals : Signals ℚ}

/-- A score comes from evidence, whatever the weights. -/
theorem isEvident_of_fuse_pos {fusion : Fusion ℚ} (nonneg : signals.IsNonneg)
    (positive : 0 < fusion.fuse signals) : signals.IsEvident := by
  by_contra none
  rw [Signals.IsEvident, not_or, not_or] at none
  have walk : signals.walk = 0 := le_antisymm (not_lt.mp none.1) nonneg.walk
  have lexical : signals.lexical = 0 := le_antisymm (not_lt.mp none.2.1) nonneg.lexical
  have cochange : signals.cochange = 0 := le_antisymm (not_lt.mp none.2.2) nonneg.cochange
  refine positive.ne' ?_
  cases fusion with
  | sum => rw [fuse, walk, lexical, cochange, add_zero, add_zero]
  | weighted => rw [fuse, walk, lexical, cochange, mul_zero, mul_zero, mul_zero, add_zero, add_zero]
  | maximum => rw [fuse, walk, lexical, cochange, Scalar.maximum_rat, Scalar.maximum_rat, max_self,
      max_self]

/-- The sum and the maximum miss no evidence. -/
theorem fuse_pos_iff {fusion : Fusion ℚ} (unweighted : fusion = .sum ∨ fusion = .maximum)
    (nonneg : signals.IsNonneg) : 0 < fusion.fuse signals ↔ signals.IsEvident := by
  rw [Signals.IsEvident, ← or_assoc]
  rcases unweighted with rfl | rfl
  · rw [fuse, add_pos_iff_of_nonneg (add_nonneg nonneg.walk nonneg.lexical) nonneg.cochange,
      add_pos_iff_of_nonneg nonneg.walk nonneg.lexical]
  · rw [fuse, Scalar.maximum_rat, Scalar.maximum_rat, lt_max_iff, lt_max_iff]

end Fusion

end ContextPack
