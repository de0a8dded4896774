import ContextPack.Proofs.Graph.Mass
import Mathlib.Algebra.Order.BigOperators.Group.Finset
import Mathlib.Tactic.Linarith

namespace ContextPack
namespace Ranking

/-!
# The walk settles

Moving mass along shares brings no two vectors further apart, and a step moves
only the part `alpha` of what there is.  So each step changes at most `alpha`
times what the step before changed, and a vector that changed little in its
last step is near to every vector that a step leaves as it is.
-/

/-! ## How far apart two masses are -/

/-- The total difference of two masses over all nodes. -/
def apart (graph : Graph ℚ) (mass other : Nat → ℚ) : ℚ :=
  ∑ node ∈ Finset.range graph.nodeCount, |mass node - other node|

section Apart

variable {graph : Graph ℚ} {seeds : List Nat} {alpha : ℚ}

theorem apart_triangle (graph : Graph ℚ) (mass middle other : Nat → ℚ) :
    apart graph mass other ≤ apart graph mass middle + apart graph middle other := by
  unfold apart
  rw [← Finset.sum_add_distrib]
  exact Finset.sum_le_sum fun node _ => abs_sub_le _ _ _

theorem apart_comm (graph : Graph ℚ) (mass other : Nat → ℚ) :
    apart graph mass other = apart graph other mass :=
  Finset.sum_congr rfl fun _ _ => abs_sub_comm _ _

/-- Two masses of one each differ by two at most. -/
theorem apart_le_two {mass other : Nat → ℚ} (mass_nonneg : ∀ node, 0 ≤ mass node)
    (other_nonneg : ∀ node, 0 ≤ other node)
    (whole : ∑ node ∈ Finset.range graph.nodeCount, mass node = 1)
    (otherWhole : ∑ node ∈ Finset.range graph.nodeCount, other node = 1) :
    apart graph mass other ≤ 2 := by
  have pointwise (node : Nat) : |mass node - other node| ≤ mass node + other node := by
    have bounded := abs_sub (mass node) (other node)
    rwa [abs_of_nonneg (mass_nonneg node), abs_of_nonneg (other_nonneg node)] at bounded
  calc
    apart graph mass other
        ≤ ∑ node ∈ Finset.range graph.nodeCount, (mass node + other node) :=
      Finset.sum_le_sum fun node _ => pointwise node
    _ = 2 := by
      rw [Finset.sum_add_distrib, whole, otherWhole]
      norm_num

/-- Moving two masses brings them no further apart: what differs at a node is
handed on in shares, and there it may cancel. -/
theorem apart_moved_le (wellFormed : graph.WellFormed) (start : IsStart graph seeds)
    (mass other : Nat → ℚ) :
    apart graph (moved graph seeds mass) (moved graph seeds other) ≤ apart graph mass other := by
  have atNode (node : Nat) :
      |moved graph seeds mass node - moved graph seeds other node| ≤
        ∑ source ∈ Finset.range graph.nodeCount,
          |mass source - other source| * shareOf graph seeds source node := by
    rw [moved, moved, ← Finset.sum_sub_distrib]
    refine (Finset.abs_sum_le_sum_abs _ _).trans (Finset.sum_le_sum fun source _ => ?_)
    rw [← sub_mul, abs_mul, abs_of_nonneg (shareOf_nonneg wellFormed seeds source node)]
  calc
    apart graph (moved graph seeds mass) (moved graph seeds other)
        ≤ ∑ node ∈ Finset.range graph.nodeCount, ∑ source ∈ Finset.range graph.nodeCount,
            |mass source - other source| * shareOf graph seeds source node :=
      Finset.sum_le_sum fun node _ => atNode node
    _ = apart graph mass other := sum_moved wellFormed start fun node => |mass node - other node|

/-- A step brings two masses together by the factor `alpha`. -/
theorem apart_stepAt_le (wellFormed : graph.WellFormed) (start : IsStart graph seeds)
    (alpha_nonneg : 0 ≤ alpha) (mass other : Nat → ℚ) :
    apart graph (stepAt graph seeds alpha mass) (stepAt graph seeds alpha other) ≤
      alpha * apart graph mass other := by
  have scaled : apart graph (stepAt graph seeds alpha mass) (stepAt graph seeds alpha other) =
      alpha * apart graph (moved graph seeds mass) (moved graph seeds other) := by
    unfold apart
    rw [Finset.mul_sum]
    refine Finset.sum_congr rfl fun node _ => ?_
    rw [stepAt_eq, stepAt_eq, add_sub_add_left_eq_sub, ← mul_sub, abs_mul,
      abs_of_nonneg alpha_nonneg]
  rw [scaled]
  exact mul_le_mul_of_nonneg_left (apart_moved_le wellFormed start mass other) alpha_nonneg

/-- The first step moves no more than the part `alpha` of the start. -/
theorem apart_stepAt_startAt_le (wellFormed : graph.WellFormed) (start : IsStart graph seeds)
    (alpha_nonneg : 0 ≤ alpha) :
    apart graph (stepAt graph seeds alpha (startAt seeds)) (startAt seeds) ≤ 2 * alpha := by
  have moved_nonneg (node : Nat) : 0 ≤ moved graph seeds (startAt seeds) node :=
    Finset.sum_nonneg fun source _ =>
      mul_nonneg (startAt_nonneg seeds source) (shareOf_nonneg wellFormed seeds source node)
  have far : apart graph (moved graph seeds (startAt seeds)) (startAt seeds) ≤ 2 :=
    apart_le_two moved_nonneg (startAt_nonneg seeds)
      ((sum_moved wellFormed start _).trans (sum_startAt start)) (sum_startAt start)
  have scaled : apart graph (stepAt graph seeds alpha (startAt seeds)) (startAt seeds) =
      alpha * apart graph (moved graph seeds (startAt seeds)) (startAt seeds) := by
    unfold apart
    rw [Finset.mul_sum]
    refine Finset.sum_congr rfl fun node _ => ?_
    have part : (1 - alpha) * startAt seeds node + alpha * moved graph seeds (startAt seeds) node -
        startAt seeds node = alpha * (moved graph seeds (startAt seeds) node - startAt seeds node) := by
      ring
    rw [stepAt_eq, part, abs_mul, abs_of_nonneg alpha_nonneg]
  rw [scaled, mul_comm]
  exact mul_le_mul_of_nonneg_right far alpha_nonneg

end Apart

/-! ## What a step changes -/

section Change

variable {graph : Graph ℚ} {seeds : List Nat} {alpha : ℚ}

theorem change_scoreList (graph : Graph ℚ) (mass other : Nat → ℚ) :
    change (scoreList graph mass) (scoreList graph other) = apart graph mass other := by
  rw [change, Scalar.sum_rat, scoreList, scoreList, List.zip_map', List.map_map, apart,
    ← sum_map_range]
  rfl

theorem changeAfter_eq (wellFormed : graph.WellFormed) (seeds : List Nat) (alpha : ℚ)
    (steps : Nat) :
    changeAfter (Walk.of graph seeds alpha) steps =
      apart graph (stepAt graph seeds alpha (massAfter graph seeds alpha steps))
        (massAfter graph seeds alpha steps) := by
  rw [changeAfter, scoresAfter_eq wellFormed, scoresAfter_eq wellFormed, change_scoreList,
    massAfter_succ]

theorem changeAfter_succ_le (wellFormed : graph.WellFormed) (start : IsStart graph seeds)
    (alpha_nonneg : 0 ≤ alpha) (steps : Nat) :
    changeAfter (Walk.of graph seeds alpha) (steps + 1) ≤
      alpha * changeAfter (Walk.of graph seeds alpha) steps := by
  rw [changeAfter_eq wellFormed, changeAfter_eq wellFormed, massAfter_succ]
  exact apart_stepAt_le wellFormed start alpha_nonneg _ _

theorem changeAfter_zero_le (wellFormed : graph.WellFormed) (start : IsStart graph seeds)
    (alpha_nonneg : 0 ≤ alpha) : changeAfter (Walk.of graph seeds alpha) 0 ≤ 2 * alpha := by
  rw [changeAfter_eq wellFormed]
  exact apart_stepAt_startAt_le wellFormed start alpha_nonneg

theorem changeAfter_le (wellFormed : graph.WellFormed) (start : IsStart graph seeds)
    (alpha_nonneg : 0 ≤ alpha) (steps : Nat) :
    changeAfter (Walk.of graph seeds alpha) steps ≤ 2 * alpha ^ (steps + 1) := by
  induction steps with
  | zero =>
      rw [Nat.zero_add, pow_one]
      exact changeAfter_zero_le wellFormed start alpha_nonneg
  | succ steps inductionHypothesis =>
      calc
        changeAfter (Walk.of graph seeds alpha) (steps + 1)
            ≤ alpha * changeAfter (Walk.of graph seeds alpha) steps :=
          changeAfter_succ_le wellFormed start alpha_nonneg steps
        _ ≤ alpha * (2 * alpha ^ (steps + 1)) :=
          mul_le_mul_of_nonneg_left inductionHypothesis alpha_nonneg
        _ = 2 * alpha ^ (steps + 1 + 1) := by ring

end Change

/-! ## What the walk comes near to -/

/-- What a node gets if every other hands on its mass by edge weight. -/
def walked (graph : Graph ℚ) (mass : Nat → ℚ) (node : Nat) : ℚ :=
  ∑ source ∈ Finset.range graph.nodeCount,
    mass source * graph.weightAlong EdgeKind.isWalkable source node /
      graph.weightLeaving EdgeKind.isWalkable source

/-- A mass of one that solves the equation of the walk with restart. -/
structure IsStationary (graph : Graph ℚ) (seeds : List Nat) (alpha : ℚ) (mass : Nat → ℚ) :
    Prop where
  whole : ∑ node ∈ Finset.range graph.nodeCount, mass node = 1
  balanced : ∀ node < graph.nodeCount,
    mass node = (1 - alpha) * startAt seeds node +
      alpha * (walked graph mass node + lostMass graph mass * startAt seeds node)

section Stationary

variable {graph : Graph ℚ} {seeds : List Nat} {alpha : ℚ}

/-- A step is the right side of the equation. -/
theorem stepAt_eq_walked (wellFormed : graph.WellFormed) (seeds : List Nat) (alpha : ℚ)
    (mass : Nat → ℚ) (node : Nat) :
    stepAt graph seeds alpha mass node = (1 - alpha) * startAt seeds node +
      alpha * (walked graph mass node + lostMass graph mass * startAt seeds node) := by
  have along : ∑ source ∈ Finset.range graph.nodeCount,
        spreadAt graph alpha mass source * graph.weightAlong EdgeKind.isWalkable source node =
      alpha * walked graph mass node := by
    rw [walked, Finset.mul_sum]
    refine Finset.sum_congr rfl fun source _ => ?_
    rw [spreadAt]
    split
    · next noWay =>
        have noLink : ¬graph.Linked source node := fun linked =>
          not_lt.mpr noWay (wellFormed.weightLeaving_pos_iff.mpr ⟨node, linked⟩)
        rw [wellFormed.weightAlong_eq_zero noLink]
        ring
    · ring
  rw [stepAt, along]
  ring

/-- A mass that was moved by one step is near to the solution if the step moved
little. -/
theorem apart_stationary_le (wellFormed : graph.WellFormed) (start : IsStart graph seeds)
    (alpha_nonneg : 0 ≤ alpha) (alpha_lt_one : alpha < 1) {solution : Nat → ℚ}
    (stationary : IsStationary graph seeds alpha solution) (mass : Nat → ℚ) :
    apart graph (stepAt graph seeds alpha mass) solution ≤
      alpha / (1 - alpha) * apart graph (stepAt graph seeds alpha mass) mass := by
  let next := stepAt graph seeds alpha mass
  have fixed : apart graph next solution =
      apart graph next (stepAt graph seeds alpha solution) := by
    refine Finset.sum_congr rfl fun node inside => ?_
    rw [stepAt_eq_walked wellFormed,
      ← stationary.balanced node (Finset.mem_range.mp inside)]
  have nearer : apart graph next solution ≤
      alpha * (apart graph next mass + apart graph next solution) := by
    calc
      apart graph next solution
          ≤ alpha * apart graph mass solution := by
        rw [fixed]
        exact apart_stepAt_le wellFormed start alpha_nonneg mass solution
      _ ≤ alpha * (apart graph next mass + apart graph next solution) := by
        rw [apart_comm graph next mass]
        exact mul_le_mul_of_nonneg_left (apart_triangle graph mass next solution) alpha_nonneg
  have room : 0 < 1 - alpha := sub_pos.mpr alpha_lt_one
  rw [div_mul_eq_mul_div, le_div_iff₀ room]
  linarith

theorem score_eq_massAfter (wellFormed : graph.WellFormed) {ranking : Ranking ℚ} {steps : Nat}
    (scores_eq : ranking.scores = scoresAfter (Walk.of graph seeds alpha) steps) {node : Nat}
    (inside : node < graph.nodeCount) :
    ranking.score node = massAfter graph seeds alpha steps node := by
  rw [score, scores_eq, scoresAfter_eq wellFormed, scoreList, List.getElem?_map,
    List.getElem?_range inside, Option.map_some, Option.getD_some]

end Stationary

/-! ## The outcome -/

theorem default_settles_in_time :
    2 * (WalkSettings.default : WalkSettings ℚ).alpha ^
        (WalkSettings.default : WalkSettings ℚ).maxIterations <
      (WalkSettings.default : WalkSettings ℚ).tolerance := by
  norm_num [WalkSettings.default]

/-- Each step changes less than the one before by the factor `alpha`.  So the
iteration settles if it may take enough steps, as it may by default, and once it
has settled its scores are near to every solution of the equation. -/
theorem ranking_converges_geometrically {graph : Graph ℚ} (wellFormed : graph.WellFormed)
    {seeds : List Nat} (inGraph : ∃ seed ∈ seeds, seed < graph.nodeCount)
    {settings : WalkSettings ℚ} (alpha_pos : 0 < settings.alpha) (alpha_lt_one : settings.alpha < 1)
    (mayStep : 1 ≤ settings.maxIterations) :
    let start := validSeeds graph.nodeCount seeds
    let walk := Walk.of graph start settings.alpha
    let ranking := ofGraph graph seeds settings
    (∀ steps, changeAfter walk (steps + 1) ≤ settings.alpha * changeAfter walk steps) ∧
      changeAfter walk 0 ≤ 2 * settings.alpha ∧
      (2 * settings.alpha ^ settings.maxIterations < settings.tolerance →
        ranking.converged = true) ∧
      (2 * (WalkSettings.default : WalkSettings ℚ).alpha ^
          (WalkSettings.default : WalkSettings ℚ).maxIterations <
        (WalkSettings.default : WalkSettings ℚ).tolerance) ∧
      (ranking.converged = true →
        ∀ solution, IsStationary graph start settings.alpha solution →
          ∑ node ∈ Finset.range graph.nodeCount, |ranking.score node - solution node| ≤
            settings.alpha / (1 - settings.alpha) * settings.tolerance) := by
  intro start walk ranking
  have isStart : IsStart graph start := isStart_validSeeds inGraph
  have stops : StopsWithin walk settings.tolerance settings.maxIterations 0 ranking :=
    ofGraph_stopsWithin wellFormed inGraph settings
  refine ⟨changeAfter_succ_le wellFormed isStart alpha_pos.le,
    changeAfter_zero_le wellFormed isStart alpha_pos.le, fun enough => ?_,
    default_settles_in_time, fun converged solution stationary => ?_⟩
  · by_contra unsettled
    -- Then all steps were taken, and the last of them changed little.
    have all : ranking.iterations = settings.maxIterations := by
      have exhausted := stops.exhausted (Bool.eq_false_iff.mpr unsettled)
      rwa [Nat.zero_add] at exhausted
    have last : settings.maxIterations - 1 + 1 = settings.maxIterations := Nat.sub_add_cancel mayStep
    have small := changeAfter_le wellFormed isStart alpha_pos.le (settings.maxIterations - 1)
    rw [last] at small
    apply unsettled
    refine stops.converged_iff.mpr ⟨settings.maxIterations - 1, Nat.zero_le _, ?_, ?_⟩
    · rw [last, all]
    · exact decide_eq_true (small.trans_lt enough)
  · rcases stops.converged_iff.mp converged with ⟨last, -, taken, settled⟩
    have small : changeAfter walk last < settings.tolerance := of_decide_eq_true settled
    have scores_eq : ranking.scores = scoresAfter walk (last + 1) := by
      rw [← taken]
      exact stops.scores_eq
    have near := apart_stationary_le wellFormed isStart alpha_pos.le alpha_lt_one stationary
      (massAfter graph start settings.alpha last)
    rw [← changeAfter_eq wellFormed, ← massAfter_succ] at near
    calc
      ∑ node ∈ Finset.range graph.nodeCount, |ranking.score node - solution node|
          = apart graph (massAfter graph start settings.alpha (last + 1)) solution := by
        refine Finset.sum_congr rfl fun node inside => ?_
        rw [score_eq_massAfter wellFormed scores_eq (Finset.mem_range.mp inside)]
      _ ≤ settings.alpha / (1 - settings.alpha) * changeAfter walk last := near
      _ ≤ settings.alpha / (1 - settings.alpha) * settings.tolerance :=
        mul_le_mul_of_nonneg_left small.le
          (div_nonneg alpha_pos.le (sub_nonneg.mpr alpha_lt_one.le))

/-- The solution for the cycle with a walk that starts at its first file. -/
def cycleSolution (node : Nat) : ℚ :=
  match node with
  | 0 => 100 / 187
  | 1 => 60 / 187
  | 2 => 27 / 187
  | _ => 0

theorem isStationary_cycleSolution :
    IsStationary cycleGraph (validSeeds cycleGraph.nodeCount [0])
      (WalkSettings.default : WalkSettings ℚ).alpha cycleSolution := by
  constructor
  · decide +kernel
  · decide +kernel

/-- A graph with a cycle, a way out of it and a node apart. -/
theorem ranking_converges_geometrically_of_cycle :
    (ofGraph cycleGraph [0] .default).converged = true ∧
      ∑ node ∈ Finset.range 4,
          |(ofGraph cycleGraph [0] .default).score node - cycleSolution node| ≤
        3 / 2 * (1 / 10000) := by
  have alpha_pos : 0 < (WalkSettings.default : WalkSettings ℚ).alpha := by
    norm_num [WalkSettings.default]
  have alpha_lt_one : (WalkSettings.default : WalkSettings ℚ).alpha < 1 := by
    norm_num [WalkSettings.default]
  have inGraph : ∃ seed ∈ [0], seed < cycleGraph.nodeCount := ⟨0, by decide, by decide⟩
  rcases ranking_converges_geometrically wellFormed_cycleGraph inGraph alpha_pos alpha_lt_one
    (by decide) with ⟨-, -, settles, inTime, near⟩
  have converged := settles inTime
  have bounded := near converged cycleSolution isStationary_cycleSolution
  refine ⟨converged, bounded.trans ?_⟩
  norm_num [WalkSettings.default]

end Ranking
end ContextPack
