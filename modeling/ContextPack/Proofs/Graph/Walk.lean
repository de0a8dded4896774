import ContextPack.Graph.Rank
import ContextPack.Proofs.Graph.Hops
import ContextPack.Proofs.Graph.Iteration
import Mathlib.Algebra.Order.BigOperators.Ring.Finset

namespace ContextPack
namespace Ranking

/-!
# The walk as a function of mass

A vector of scores is read as a function that gives each node its mass.  In
this reading a step of the walk is one formula: what a node gathers along the
edges that lead to it, and its share of what starts again.  Tables, skipped
zeros and the order of the sums are gone, and iterating the walk is iterating
the formula.

Mass spreads one hop in a step and stays where it once was.  After some steps
it lies exactly on the nodes that can be reached in as many hops.
-/

/-! ## One step -/

section Step

variable (graph : Graph ℚ) (seeds : List Nat) (alpha : ℚ)

/-- The mass of a node at the start, and its share of all that starts again. -/
def startAt (node : Nat) : ℚ := if node ∈ seeds then 1 / seeds.length else 0

/-- What a node gives away for a unit of edge weight. -/
def spreadAt (mass : Nat → ℚ) (node : Nat) : ℚ :=
  if graph.weightLeaving EdgeKind.isWalkable node ≤ 0 then 0
  else alpha * mass node / graph.weightLeaving EdgeKind.isWalkable node

/-- The mass on nodes without a way out. -/
def lostMass (mass : Nat → ℚ) : ℚ :=
  ∑ node ∈ Finset.range graph.nodeCount,
    if graph.weightLeaving EdgeKind.isWalkable node ≤ 0 then mass node else 0

/-- The mass of a node after a step. -/
def stepAt (mass : Nat → ℚ) (node : Nat) : ℚ :=
  ∑ source ∈ Finset.range graph.nodeCount,
      spreadAt graph alpha mass source * graph.weightAlong EdgeKind.isWalkable source node +
    ((1 - alpha) * startAt seeds node + alpha * lostMass graph mass * startAt seeds node)

end Step

/-- The list of scores of all nodes. -/
def scoreList (graph : Graph ℚ) (mass : Nat → ℚ) : List ℚ := (List.range graph.nodeCount).map mass

section Reading

variable {graph : Graph ℚ} {seeds : List Nat} {alpha : ℚ}

theorem restart_eq (graph : Graph ℚ) (seeds : List Nat) :
    restart graph.nodeCount seeds = scoreList graph (startAt seeds) := by
  refine List.map_congr_left fun node _ => ?_
  exact if_congr List.contains_iff_mem (by rw [Scalar.one_rat, Scalar.ofNat_rat]) Scalar.zero_rat

theorem outWeights_eq (wellFormed : graph.WellFormed) (seeds : List Nat) (alpha : ℚ) :
    (Walk.of graph seeds alpha).outWeights =
      scoreList graph (graph.weightLeaving EdgeKind.isWalkable) :=
  List.map_congr_left fun node _ => Adjacency.outWeight_ofGraph wellFormed node

theorem dangling_eq (wellFormed : graph.WellFormed) (seeds : List Nat) (alpha : ℚ)
    (mass : Nat → ℚ) :
    dangling (Walk.of graph seeds alpha) (scoreList graph mass) = lostMass graph mass := by
  have adds (total : ℚ) (entry : ℚ × ℚ) :
      (if Scalar.isZero entry.1 then total
        else if Scalar.le entry.2 Scalar.zero then total + entry.1 else total) =
        total + if entry.2 ≤ 0 then entry.1 else 0 := by
    rw [Scalar.isZero_rat, Scalar.le_rat, Scalar.zero_rat]
    by_cases isZero : entry.1 = 0
    · simp [isZero]
    · by_cases noWay : entry.2 ≤ 0
      · simp [isZero, noWay]
      · simp [isZero, noWay]
  rw [dangling, outWeights_eq wellFormed, scoreList, scoreList, List.zip_map', foldl_eq_sum _ adds,
    List.map_map, Scalar.zero_rat, zero_add, lostMass, ← sum_map_range]
  rfl

/-- What a table of spreads says of a node, zero where there is nothing to
give. -/
def tableAt (given : Array (Option ℚ)) (node : Nat) : ℚ :=
  match given[node]? with
  | some (some spread) => spread
  | _ => 0

/-- The table holds what each node gives away. -/
theorem tableAt_spreads (wellFormed : graph.WellFormed) (seeds : List Nat) (alpha : ℚ)
    (mass : Nat → ℚ) {node : Nat} (inside : node < graph.nodeCount) :
    tableAt (spreads (Walk.of graph seeds alpha) (scoreList graph mass)) node =
      spreadAt graph alpha mass node := by
  have entry : (spreads (Walk.of graph seeds alpha) (scoreList graph mass))[node]? =
      some (if mass node = 0 then none
        else if graph.weightLeaving EdgeKind.isWalkable node ≤ 0 then none
        else some (alpha * mass node / graph.weightLeaving EdgeKind.isWalkable node)) := by
    rw [spreads, outWeights_eq wellFormed, scoreList, scoreList, List.zip_map', List.map_map,
      List.getElem?_toArray, List.getElem?_map, List.getElem?_range inside]
    simp [Walk.of]
  rw [tableAt, entry, spreadAt]
  by_cases isZero : mass node = 0
  · simp [isZero]
  · by_cases noWay : graph.weightLeaving EdgeKind.isWalkable node ≤ 0
    · simp [isZero, noWay]
    · simp [isZero, noWay]

theorem gathered_eq (given : Array (Option ℚ)) (sources : List (Nat × ℚ)) :
    gathered given sources = (sources.map fun entry => tableAt given entry.1 * entry.2).sum := by
  unfold gathered
  rw [foldl_eq_sum fun entry => tableAt given entry.1 * entry.2, Scalar.zero_rat, zero_add]
  intro total entry
  rcases entry with ⟨source, weight⟩
  simp only [tableAt]
  rcases given[source]? with _ | _ | spread
  · simp
  · simp
  · rfl

/-- What leads to a node: of each row the entry for it. -/
def sourcesOf (graph : Graph ℚ) (target : Nat) : List (Nat × ℚ) :=
  (List.range graph.nodeCount).filterMap fun source =>
    ((graph.walkable.row source).find? fun entry => entry.1 = target).map fun entry =>
      (source, entry.2)

theorem incoming_eq (graph : Graph ℚ) :
    incoming graph.nodeCount graph.walkable =
      (List.range graph.nodeCount).map (sourcesOf graph) := by
  have indexed : graph.walkable.rows.zipIdx =
      (List.range graph.nodeCount).map fun source => (graph.walkable.row source, source) := by
    refine List.ext_getElem? fun source => ?_
    rw [List.getElem?_zipIdx, List.getElem?_map]
    by_cases inside : source < graph.nodeCount
    · have stands : source < graph.walkable.rows.length := by
        simpa [Graph.walkable, Adjacency.ofGraph] using inside
      rw [List.getElem?_range inside, Option.map_some, Adjacency.row,
        List.getElem?_eq_getElem stands]
      simp
    · have none : graph.walkable.rows[source]? = none := by
        simpa [Graph.walkable, Adjacency.ofGraph] using inside
      rw [none, List.getElem?_eq_none (by simpa using inside)]
      rfl
  refine List.map_congr_left fun target _ => ?_
  rw [indexed, List.filterMap_map]
  rfl

/-- A node gathers from every other one along the whole weight between them. -/
theorem gathered_sourcesOf (wellFormed : graph.WellFormed) (given : Array (Option ℚ))
    (target : Nat) :
    gathered given (sourcesOf graph target) =
      ∑ source ∈ Finset.range graph.nodeCount,
        tableAt given source * graph.weightAlong EdgeKind.isWalkable source target := by
  rw [gathered_eq, sourcesOf, sum_map_filterMap, sum_map_range]
  refine Finset.sum_congr rfl fun source _ => ?_
  rw [← Adjacency.weightTo_row wellFormed, Adjacency.weightTo,
    sum_eq_getD_find? (Adjacency.nodup_row wellFormed source)]
  change _ = _ * (((graph.walkable.row source).find? fun entry => entry.1 = target).map Prod.snd).getD 0
  cases (graph.walkable.row source).find? fun entry => entry.1 = target with
  | none => exact (mul_zero _).symm
  | some entry => rfl

/-- A step of the walk is the formula at every node. -/
theorem step_eq (wellFormed : graph.WellFormed) (seeds : List Nat) (alpha : ℚ) (mass : Nat → ℚ) :
    step (Walk.of graph seeds alpha) (scoreList graph mass) =
      scoreList graph (stepAt graph seeds alpha mass) := by
  have sources : (Walk.of graph seeds alpha).incoming.zip (Walk.of graph seeds alpha).restart =
      (List.range graph.nodeCount).map fun target => (sourcesOf graph target, startAt seeds target) := by
    rw [Walk.of, incoming_eq, restart_eq, scoreList, List.zip_map']
  rw [step, dangling_eq wellFormed, sources, List.map_map]
  refine List.map_congr_left fun target _ => ?_
  simp only [Function.comp_apply]
  rw [gathered_sourcesOf wellFormed, stepAt, Scalar.one_rat]
  refine congrArg (· + _) (Finset.sum_congr rfl fun source inside => ?_)
  rw [tableAt_spreads wellFormed _ _ _ (Finset.mem_range.mp inside)]

end Reading

/-! ## Many steps -/

/-- The mass after a number of steps from the start. -/
def massAfter (graph : Graph ℚ) (seeds : List Nat) (alpha : ℚ) (steps : Nat) : Nat → ℚ :=
  (stepAt graph seeds alpha)^[steps] (startAt seeds)

theorem massAfter_succ (graph : Graph ℚ) (seeds : List Nat) (alpha : ℚ) (steps : Nat) :
    massAfter graph seeds alpha (steps + 1) =
      stepAt graph seeds alpha (massAfter graph seeds alpha steps) :=
  Function.iterate_succ_apply' _ _ _

section Steps

variable {graph : Graph ℚ} {seeds : List Nat} {alpha : ℚ}

/-- The vectors of the iteration are lists of this mass. -/
theorem scoresAfter_eq (wellFormed : graph.WellFormed) (seeds : List Nat) (alpha : ℚ)
    (steps : Nat) :
    scoresAfter (Walk.of graph seeds alpha) steps =
      scoreList graph (massAfter graph seeds alpha steps) := by
  induction steps with
  | zero => exact restart_eq graph seeds
  | succ steps inductionHypothesis =>
      rw [scoresAfter_succ, inductionHypothesis, step_eq wellFormed, massAfter_succ]

/-! ## Where mass lies -/

theorem startAt_nonneg (seeds : List Nat) (node : Nat) : 0 ≤ startAt seeds node := by
  rw [startAt]
  split
  · exact one_div_nonneg.mpr (Nat.cast_nonneg _)
  · exact le_rfl

/-- The walk starts at the seeds and nowhere else. -/
theorem startAt_pos_iff (seeds : List Nat) (node : Nat) : 0 < startAt seeds node ↔ node ∈ seeds := by
  rw [startAt]
  split
  · next isSeed =>
      refine iff_of_true (one_div_pos.mpr ?_) isSeed
      exact Nat.cast_pos.mpr (List.length_pos_of_mem isSeed)
  · next isNone => exact iff_of_false (lt_irrefl 0) isNone

theorem spreadAt_nonneg (graph : Graph ℚ) (alpha_nonneg : 0 ≤ alpha) {mass : Nat → ℚ}
    (mass_nonneg : ∀ node, 0 ≤ mass node) (node : Nat) : 0 ≤ spreadAt graph alpha mass node := by
  rw [spreadAt]
  split
  · exact le_rfl
  · next wayOut =>
      exact div_nonneg (mul_nonneg alpha_nonneg (mass_nonneg node)) (not_le.mp wayOut).le

theorem lostMass_nonneg (graph : Graph ℚ) {mass : Nat → ℚ} (mass_nonneg : ∀ node, 0 ≤ mass node) :
    0 ≤ lostMass graph mass := by
  refine Finset.sum_nonneg fun node _ => ?_
  split
  · exact mass_nonneg node
  · exact le_rfl

/-- What a node gathers along an edge is positive if there is mass to give. -/
theorem gathers_pos_iff (wellFormed : graph.WellFormed) (alpha_pos : 0 < alpha) (mass : Nat → ℚ)
    (source node : Nat) :
    0 < spreadAt graph alpha mass source * graph.weightAlong EdgeKind.isWalkable source node ↔
      0 < mass source ∧ graph.Linked source node := by
  by_cases linked : graph.Linked source node
  · have weight_pos := wellFormed.weightAlong_pos_iff.mpr linked
    have wayOut := wellFormed.weightLeaving_pos_iff.mpr ⟨node, linked⟩
    rw [mul_pos_iff_of_pos_right weight_pos, spreadAt, if_neg (not_le.mpr wayOut),
      div_pos_iff_of_pos_right wayOut, mul_pos_iff_of_pos_left alpha_pos]
    exact (and_iff_left linked).symm
  · rw [wellFormed.weightAlong_eq_zero linked, mul_zero]
    exact iff_of_false (lt_irrefl 0) fun both => linked both.2

theorem gathers_nonneg (wellFormed : graph.WellFormed) (alpha_nonneg : 0 ≤ alpha) {mass : Nat → ℚ}
    (mass_nonneg : ∀ node, 0 ≤ mass node) (source node : Nat) :
    0 ≤ spreadAt graph alpha mass source * graph.weightAlong EdgeKind.isWalkable source node :=
  mul_nonneg (spreadAt_nonneg graph alpha_nonneg mass_nonneg source)
    (wellFormed.weightAlong_nonneg _ _ _)

/-- What starts again at a node, by its share. -/
theorem restartAt_eq (mass : Nat → ℚ) (node : Nat) :
    (1 - alpha) * startAt seeds node + alpha * lostMass graph mass * startAt seeds node =
      (1 - alpha + alpha * lostMass graph mass) * startAt seeds node := by
  ring

theorem stepAt_nonneg (wellFormed : graph.WellFormed) (alpha_nonneg : 0 ≤ alpha)
    (alpha_le_one : alpha ≤ 1) {mass : Nat → ℚ} (mass_nonneg : ∀ node, 0 ≤ mass node) (node : Nat) :
    0 ≤ stepAt graph seeds alpha mass node := by
  rw [stepAt, restartAt_eq]
  refine add_nonneg (Finset.sum_nonneg fun source _ =>
    gathers_nonneg wellFormed alpha_nonneg mass_nonneg source node) (mul_nonneg ?_ (startAt_nonneg _ _))
  exact add_nonneg (sub_nonneg.mpr alpha_le_one)
    (mul_nonneg alpha_nonneg (lostMass_nonneg graph mass_nonneg))

/-- A step brings mass to the seeds and to what is linked from mass. -/
theorem stepAt_pos_iff (wellFormed : graph.WellFormed) (alpha_pos : 0 < alpha)
    (alpha_lt_one : alpha < 1) {mass : Nat → ℚ} (mass_nonneg : ∀ node, 0 ≤ mass node) (node : Nat) :
    0 < stepAt graph seeds alpha mass node ↔
      node ∈ seeds ∨ ∃ source, 0 < mass source ∧ graph.Linked source node := by
  have restarts : 0 < 1 - alpha + alpha * lostMass graph mass :=
    add_pos_of_pos_of_nonneg (sub_pos.mpr alpha_lt_one)
      (mul_nonneg alpha_pos.le (lostMass_nonneg graph mass_nonneg))
  have shares := gathers_nonneg wellFormed alpha_pos.le mass_nonneg
  rw [stepAt, restartAt_eq, add_pos_iff_of_nonneg (Finset.sum_nonneg fun source _ => shares source node)
      (mul_nonneg restarts.le (startAt_nonneg seeds node)),
    Finset.sum_pos_iff_of_nonneg fun source _ => shares source node,
    mul_pos_iff_of_pos_left restarts, startAt_pos_iff, or_comm]
  refine or_congr_right ⟨?_, ?_⟩
  · rintro ⟨source, -, gathers⟩
    exact ⟨source, (gathers_pos_iff wellFormed alpha_pos mass source node).mp gathers⟩
  · rintro ⟨source, positive, linked⟩
    refine ⟨source, Finset.mem_range.mpr (linked.source_lt wellFormed), ?_⟩
    exact (gathers_pos_iff wellFormed alpha_pos mass source node).mpr ⟨positive, linked⟩

theorem massAfter_nonneg (wellFormed : graph.WellFormed) (seeds : List Nat)
    (alpha_nonneg : 0 ≤ alpha) (alpha_le_one : alpha ≤ 1) (steps node : Nat) :
    0 ≤ massAfter graph seeds alpha steps node := by
  induction steps generalizing node with
  | zero => exact startAt_nonneg seeds node
  | succ steps inductionHypothesis =>
      rw [massAfter_succ]
      exact stepAt_nonneg wellFormed alpha_nonneg alpha_le_one inductionHypothesis node

/-- After some steps mass lies on the nodes within as many hops. -/
theorem massAfter_pos_iff (wellFormed : graph.WellFormed) (alpha_pos : 0 < alpha)
    (alpha_lt_one : alpha < 1) (steps node : Nat) :
    0 < massAfter graph seeds alpha steps node ↔
      ∃ hops ≤ steps, ReachedIn graph.Linked seeds hops node := by
  induction steps generalizing node with
  | zero =>
      refine (startAt_pos_iff seeds node).trans ⟨fun isSeed => ⟨0, Nat.le_refl 0, isSeed⟩, ?_⟩
      rintro ⟨hops, none, reached⟩
      cases Nat.le_zero.mp none
      exact reached
  | succ steps inductionHypothesis =>
      rw [massAfter_succ, stepAt_pos_iff wellFormed alpha_pos alpha_lt_one
        (massAfter_nonneg wellFormed seeds alpha_pos.le alpha_lt_one.le steps)]
      constructor
      · rintro (isSeed | ⟨source, positive, linked⟩)
        · exact ⟨0, Nat.zero_le _, isSeed⟩
        · rcases (inductionHypothesis source).mp positive with ⟨hops, bounded, reached⟩
          exact ⟨hops + 1, Nat.succ_le_succ bounded, source, reached, linked⟩
      · rintro ⟨hops, bounded, reached⟩
        cases hops with
        | zero => exact Or.inl reached
        | succ hops =>
            rcases reached with ⟨source, earlier, linked⟩
            refine Or.inr ⟨source, (inductionHypothesis source).mpr ?_, linked⟩
            exact ⟨hops, Nat.le_of_succ_le_succ bounded, earlier⟩

end Steps

/-! ## Scores -/

section Scores

variable {graph : Graph ℚ}

@[simp] theorem iterations_normalize (ranking : Ranking ℚ) :
    ranking.normalize.iterations = ranking.iterations := by
  unfold normalize
  simp only
  split <;> rfl

/-- Each score is divided by the sum of all, if that is positive. -/
theorem score_normalize (ranking : Ranking ℚ) (node : Nat) :
    ranking.normalize.score node =
      if 0 < ranking.total then ranking.score node / ranking.total else ranking.score node := by
  unfold normalize
  simp only [Scalar.zero_rat, Scalar.lt_rat, decide_eq_true_eq]
  split
  · rw [score, score, List.getElem?_map, Scalar.zero_rat]
    cases ranking.scores[node]? with
    | none => exact (zero_div _).symm
    | some mass => rfl
  · rfl

/-- Scaling does not change where scores are positive. -/
theorem score_normalize_pos_iff (ranking : Ranking ℚ) (node : Nat) :
    0 < ranking.normalize.score node ↔ 0 < ranking.score node := by
  rw [score_normalize]
  split
  · next total_pos => exact div_pos_iff_of_pos_right total_pos
  · rfl

theorem score_normalize_nonneg {ranking : Ranking ℚ} {node : Nat} (nonneg : 0 ≤ ranking.score node) :
    0 ≤ ranking.normalize.score node := by
  rw [score_normalize]
  split
  · next total_pos => exact div_nonneg nonneg total_pos.le
  · exact nonneg

theorem score_scoreList (graph : Graph ℚ) (mass : Nat → ℚ) (iterations : Nat) (converged : Bool)
    (node : Nat) :
    score ⟨scoreList graph mass, iterations, converged⟩ node =
      if node < graph.nodeCount then mass node else 0 := by
  rw [score, scoreList, List.getElem?_map]
  split
  · next inside => rw [List.getElem?_range inside, Option.map_some, Option.getD_some]
  · next outside =>
      rw [List.getElem?_eq_none (by simpa using outside)]
      exact Scalar.zero_rat

@[simp] theorem mem_validSeeds (nodeCount : Nat) (seeds : List Nat) (node : Nat) :
    node ∈ validSeeds nodeCount seeds ↔ node ∈ seeds ∧ node < nodeCount := by
  rw [validSeeds, Graph.mem_distinctAscending, List.mem_filter, decide_eq_true_iff]

/-- Seeds that are no nodes lead nowhere. -/
theorem reachedIn_validSeeds_iff (wellFormed : graph.WellFormed) (seeds : List Nat)
    (hops node : Nat) :
    ReachedIn graph.Linked (validSeeds graph.nodeCount seeds) hops node ↔
      node < graph.nodeCount ∧ ReachedIn graph.Linked seeds hops node := by
  induction hops generalizing node with
  | zero => exact (mem_validSeeds _ _ _).trans and_comm
  | succ hops inductionHypothesis =>
      constructor
      · rintro ⟨before, reached, linked⟩
        exact ⟨linked.target_lt wellFormed, before, ((inductionHypothesis before).mp reached).2, linked⟩
      · rintro ⟨-, before, reached, linked⟩
        have inside := linked.source_lt wellFormed
        exact ⟨before, (inductionHypothesis before).mpr ⟨inside, reached⟩, linked⟩

/-- The outcome of ranking: no score at all without a seed, and otherwise the
mass after a number of steps, scaled. -/
theorem ofGraph_cases (wellFormed : graph.WellFormed) (seeds : List Nat)
    (settings : WalkSettings ℚ) :
    (validSeeds graph.nodeCount seeds = [] ∧
        ofGraph graph seeds settings = ⟨scoreList graph fun _ => 0, 0, true⟩) ∨
      (validSeeds graph.nodeCount seeds ≠ [] ∧
        ∃ steps converged, steps ≤ settings.maxIterations ∧
          (0 < settings.maxIterations → 0 < steps) ∧
          ofGraph graph seeds settings =
            normalize ⟨scoreList graph
              (massAfter graph (validSeeds graph.nodeCount seeds) settings.alpha steps),
              steps, converged⟩) := by
  rw [ofGraph]
  simp only [List.isEmpty_iff]
  split
  · next noSeed =>
      refine Or.inl ⟨noSeed, ?_⟩
      rw [scoreList, List.map_const', List.length_range, Scalar.zero_rat]
  · next someSeed =>
      let walk := Walk.of graph (validSeeds graph.nodeCount seeds) settings.alpha
      let outcome := iterate walk settings.tolerance settings.maxIterations 0 walk.restart
      have stops : StopsWithin walk settings.tolerance settings.maxIterations 0 outcome :=
        iterate_stopsWithin walk settings.tolerance settings.maxIterations 0
      have bounded : outcome.iterations ≤ settings.maxIterations := by
        rw [← Nat.zero_add settings.maxIterations]
        exact stops.le_all
      refine Or.inr ⟨someSeed, outcome.iterations, outcome.converged, bounded, stops.moves, ?_⟩
      rw [← scoresAfter_eq wellFormed, ← stops.scores_eq]

theorem score_nonneg (wellFormed : graph.WellFormed) (seeds : List Nat) {settings : WalkSettings ℚ}
    (alpha_nonneg : 0 ≤ settings.alpha) (alpha_le_one : settings.alpha ≤ 1) (node : Nat) :
    0 ≤ (ofGraph graph seeds settings).score node := by
  rcases ofGraph_cases wellFormed seeds settings with
    ⟨-, same⟩ | ⟨-, steps, converged, -, -, same⟩
  · rw [same, score_scoreList, ite_self]
  · rw [same]
    refine score_normalize_nonneg ?_
    rw [score_scoreList]
    split
    · exact massAfter_nonneg wellFormed _ alpha_nonneg alpha_le_one steps node
    · exact le_rfl

/-- With a seed in the graph the walk takes a step. -/
theorem iterations_pos (wellFormed : graph.WellFormed) {seeds : List Nat}
    {settings : WalkSettings ℚ} (steps : 0 < settings.maxIterations) {seed : Nat}
    (isSeed : seed ∈ seeds) (inside : seed < graph.nodeCount) :
    0 < (ofGraph graph seeds settings).iterations := by
  rcases ofGraph_cases wellFormed seeds settings with
    ⟨noSeed, -⟩ | ⟨-, taken, converged, -, some, same⟩
  · have valid := (mem_validSeeds _ _ _).mpr ⟨isSeed, inside⟩
    rw [noSeed] at valid
    exact absurd valid List.not_mem_nil
  · rw [same, iterations_normalize]
    exact some steps

/-- A score is positive exactly within as many hops from a seed as the
iteration has taken steps. -/
theorem score_pos_iff (wellFormed : graph.WellFormed) (seeds : List Nat) {settings : WalkSettings ℚ}
    (alpha_pos : 0 < settings.alpha) (alpha_lt_one : settings.alpha < 1) (node : Nat) :
    0 < (ofGraph graph seeds settings).score node ↔ node < graph.nodeCount ∧
      ∃ hops ≤ (ofGraph graph seeds settings).iterations, ReachedIn graph.Linked seeds hops node := by
  rcases ofGraph_cases wellFormed seeds settings with
    ⟨noSeed, same⟩ | ⟨-, steps, converged, -, -, same⟩
  · rw [same, score_scoreList, ite_self]
    refine iff_of_false (lt_irrefl 0) ?_
    rintro ⟨inside, hops, none, reached⟩
    cases Nat.le_zero.mp none
    have isSeed := (mem_validSeeds _ _ _).mpr ⟨reached, inside⟩
    rw [noSeed] at isSeed
    exact List.not_mem_nil isSeed
  · rw [same, iterations_normalize, score_normalize_pos_iff, score_scoreList]
    split
    · next inside =>
        rw [massAfter_pos_iff wellFormed alpha_pos alpha_lt_one]
        simp only [reachedIn_validSeeds_iff wellFormed, inside, true_and]
    · next outside => exact iff_of_false (lt_irrefl 0) fun both => outside both.1

end Scores

end Ranking
end ContextPack
