import ContextPack.Engine
import ContextPack.Proofs.Graph.Extension
import ContextPack.Proofs.Graph.Overflow
import ContextPack.Proofs.Graph.Walk
import ContextPack.Proofs.Number.Rounded

namespace ContextPack

/-!
# Siblings carry no score

More nodes, and siblings among them, are isolated for the walk.  So ranks,
distances and signals of the old nodes stay as they are, to the last bit, and
the new nodes have none.  What a sibling changes is that a file may be chosen.
-/

/-! ## Ranks -/

namespace Ranking

variable {α : Type} {graph larger : Graph α} {seeds : List Nat}

/-- The entry that leads to a node in one row. -/
def sourceIn (target : Nat) (place : List (Nat × α) × Nat) : Option (Nat × α) :=
  (place.1.find? fun entry => entry.1 = target).map fun entry => (place.2, entry.2)

theorem incoming_eq_map (nodeCount : Nat) (adjacency : Adjacency α) :
    incoming nodeCount adjacency =
      (List.range nodeCount).map fun target => adjacency.rows.zipIdx.filterMap (sourceIn target) :=
  rfl

/-- In a graph with a seed there is a node. -/
theorem nodeCount_pos_of_validSeeds (some : ¬(validSeeds graph.nodeCount seeds).isEmpty) :
    0 < graph.nodeCount := by
  rcases List.exists_mem_of_ne_nil _ (mt List.isEmpty_iff.mpr some) with ⟨seed, isSeed⟩
  exact Nat.zero_lt_of_lt ((mem_validSeeds _ _ _).mp isSeed).2

/-- Seeds that ascend and lie in the graph are taken as they are. -/
theorem validSeeds_of_ascending {nodeCount : Nat} (ascending : seeds.Pairwise (· < ·))
    (inside : ∀ seed ∈ seeds, seed < nodeCount) : validSeeds nodeCount seeds = seeds := by
  refine List.Pairwise.eq_of_mem_iff (Graph.pairwise_distinctAscending _) ascending fun seed => ?_
  exact (mem_validSeeds nodeCount seeds seed).trans (and_iff_left_of_imp (inside seed))

theorem validSeeds_larger (extended : graph.ExtendsBySiblings larger)
    (inside : ∀ seed ∈ seeds, seed < graph.nodeCount) :
    validSeeds larger.nodeCount seeds = validSeeds graph.nodeCount seeds := by
  have grows : graph.nodeCount ≤ larger.nodeCount := extended.paths_isPrefix.length_le
  have all {count : Nat} (enough : graph.nodeCount ≤ count) : seeds.filter (· < count) = seeds :=
    List.filter_eq_self.mpr fun seed isSeed => decide_eq_true ((inside seed isSeed).trans_le enough)
  rw [validSeeds, validSeeds, all grows, all (Nat.le_refl _)]

variable [Scalar α]

theorem walkOf_isFor (graph : Graph α) (seeds : List Nat) (alpha : α) :
    (Walk.of graph seeds alpha).IsFor graph.nodeCount := by
  constructor
  · simp [Walk.of, restart]
  · simp [Walk.of]
  · simp [Walk.of, incoming]

theorem walkOf_leadsOn [FiniteLaws α] (ends : graph.EndsInside) (seeds : List Nat) (alpha : α) :
    (Walk.of graph seeds alpha).LeadsOn := by
  intro source out found wayOut
  rw [Walk.of, List.getElem?_map] at found
  rcases Option.map_eq_some_iff.mp found with ⟨node, isNode, rfl⟩
  rcases List.getElem?_eq_some_iff.mp isNode with ⟨isSource, rfl⟩
  rw [List.getElem_range, Adjacency.outWeight] at wayOut
  have leads : graph.walkable.row source ≠ [] := by
    intro isEmpty
    rw [isEmpty] at wayOut
    exact absurd (wayOut.symm.trans FiniteLaws.emptySum_le_zero) Bool.false_ne_true
  have isRow : graph.walkable.rows[source]? = some (graph.walkable.row source) := by
    rw [Adjacency.row] at leads ⊢
    cases isRow : graph.walkable.rows[source]? with
    | none =>
        rw [isRow] at leads
        exact absurd rfl leads
    | some row => rfl
  rcases List.exists_mem_of_ne_nil _ leads with ⟨entry, isEntry⟩
  have isTarget := ends.lt_of_mem_row (List.mem_map_of_mem isEntry)
  have isFound : ((graph.walkable.row source).find? fun other => other.1 = entry.1).isSome :=
    List.find?_isSome.mpr ⟨entry, isEntry, decide_eq_true rfl⟩
  rcases Option.isSome_iff_exists.mp isFound with ⟨first, isFirst⟩
  have gathers : sourceIn entry.1 (graph.walkable.row source, source) = some (source, first.2) := by
    rw [sourceIn, isFirst]
    rfl
  refine ⟨graph.walkable.rows.zipIdx.filterMap (sourceIn entry.1), ?_, ?_⟩
  · exact List.mem_map.mpr ⟨entry.1, List.mem_range.mpr isTarget, rfl⟩
  · have isSourceOf := List.mem_filterMap.mpr
      ⟨_, List.mem_zipIdx_iff_getElem?.mpr isRow, gathers⟩
    exact List.mem_map_of_mem isSourceOf

theorem restart_append (inside : ∀ seed ∈ seeds, seed < graph.nodeCount) {count : Nat}
    (grows : graph.nodeCount ≤ count) :
    (restart count seeds : List α) =
      padded (count - graph.nodeCount) (restart graph.nodeCount seeds) := by
  refine map_range_of_le grows fun node outside => if_neg fun isSeed => ?_
  exact absurd (inside node (List.contains_iff_mem.mp isSeed)) (not_lt.mpr outside)

theorem outWeights_append (extended : graph.ExtendsBySiblings larger) (ends : graph.EndsInside) :
    (List.range larger.nodeCount).map larger.walkable.outWeight =
      (List.range graph.nodeCount).map graph.walkable.outWeight ++
        List.replicate (larger.nodeCount - graph.nodeCount) Scalar.emptySum := by
  have same : larger.walkable.outWeight = graph.walkable.outWeight := by
    funext node
    rw [Adjacency.outWeight, extended.row_eq ends, Adjacency.outWeight]
  rw [same]
  refine map_range_of_le extended.paths_isPrefix.length_le fun node outside => ?_
  have noRow : graph.walkable.row node = [] := by
    rw [Adjacency.row, Graph.walkable, Adjacency.ofGraph, List.getElem?_eq_none (by simpa using outside)]
    rfl
  rw [Adjacency.outWeight, noRow]
  rfl

theorem incoming_append (extended : graph.ExtendsBySiblings larger) (ends : graph.EndsInside) :
    incoming larger.nodeCount larger.walkable =
      incoming graph.nodeCount graph.walkable ++
        List.replicate (larger.nodeCount - graph.nodeCount) [] := by
  have emptyRows (target : Nat) : larger.walkable.rows.zipIdx.filterMap (sourceIn target) =
      graph.walkable.rows.zipIdx.filterMap (sourceIn target) := by
    rw [extended.rows_eq ends, List.zipIdx_append, List.filterMap_append]
    refine List.append_right_eq_self.mpr (List.filterMap_eq_nil_iff.mpr fun place member => ?_)
    have isEmpty := List.eq_of_mem_replicate (List.fst_mem_of_mem_zipIdx member)
    rw [sourceIn, isEmpty]
    rfl
  rw [incoming_eq_map, incoming_eq_map]
  simp only [emptyRows]
  refine map_range_of_le extended.paths_isPrefix.length_le fun target outside => ?_
  refine List.filterMap_eq_nil_iff.mpr fun place isRow => ?_
  rw [sourceIn, Option.map_eq_none_iff, List.find?_eq_none]
  intro entry isEntry leads
  have isPlace : graph.walkable.row place.2 = place.1 := by
    rw [Adjacency.row, List.mem_zipIdx_iff_getElem?.mp isRow, Option.getD_some]
  have below := ends.lt_of_mem_row (isPlace ▸ List.mem_map_of_mem isEntry)
  have isNode : entry.1 = target := of_decide_eq_true leads
  omega

/-- The walk over the larger graph is the old one with isolated nodes. -/
theorem walkOf_eq_isolating (extended : graph.ExtendsBySiblings larger) (ends : graph.EndsInside)
    (inside : ∀ seed ∈ seeds, seed < graph.nodeCount) (alpha : α) :
    Walk.of larger seeds alpha =
      (Walk.of graph seeds alpha).isolating (larger.nodeCount - graph.nodeCount) := by
  have restarts : (restart larger.nodeCount seeds : List α) = _ :=
    restart_append inside extended.paths_isPrefix.length_le
  rw [Walk.of, Walk.isolating, restarts, outWeights_append extended ends,
    incoming_append extended ends]
  rfl

/-- Scaling changes nothing but the scores. -/
theorem normalize_eq (ranking : Ranking α) :
    ∃ scores, scores.length = ranking.scores.length ∧
      ranking.normalize = { ranking with scores := scores } := by
  unfold normalize
  dsimp only
  split
  · exact ⟨_, List.length_map _, rfl⟩
  · exact ⟨_, rfl, rfl⟩

theorem normalize_iterations (ranking : Ranking α) :
    ranking.normalize.iterations = ranking.iterations := by
  rcases normalize_eq ranking with ⟨scores, -, same⟩
  rw [same]

theorem normalize_converged (ranking : Ranking α) :
    ranking.normalize.converged = ranking.converged := by
  rcases normalize_eq ranking with ⟨scores, -, same⟩
  rw [same]

theorem length_normalize_scores (ranking : Ranking α) :
    ranking.normalize.scores.length = ranking.scores.length := by
  rcases normalize_eq ranking with ⟨scores, sameLength, same⟩
  rw [same, sameLength]

/-- There is a score for every node. -/
theorem length_ofGraph_scores (graph : Graph α) (seeds : List Nat) (settings : WalkSettings α) :
    (ofGraph graph seeds settings).scores.length = graph.nodeCount := by
  rw [ofGraph]
  dsimp only
  split
  · exact List.length_replicate
  · have stops := iterate_stopsWithin
      (Walk.of graph (validSeeds graph.nodeCount seeds) settings.alpha) settings.tolerance
      settings.maxIterations 0
    rw [length_normalize_scores]
    exact (congrArg List.length stops.scores_eq).trans
      (length_scoresAfter (walkOf_isFor graph _ _) _)

/-- What starts again stays finite as long as a graph is ranked. -/
def StaysFinite (graph : Graph α) (seeds : List Nat) (settings : WalkSettings α) : Prop :=
  RestartsFinite (Walk.of graph (validSeeds graph.nodeCount seeds) settings.alpha)
    (ofGraph graph seeds settings).iterations

/-- Exact numbers do not overflow. -/
theorem staysFinite_rat (graph : Graph ℚ) (seeds : List Nat) (settings : WalkSettings ℚ) :
    StaysFinite graph seeds settings :=
  fun _ _ => ⟨rfl, rfl⟩

theorem staysFinite_of_converged [FiniteLaws α] (ends : graph.EndsInside)
    {settings : WalkSettings α} (converged : (ofGraph graph seeds settings).converged = true) :
    StaysFinite graph seeds settings := by
  unfold StaysFinite
  rw [ofGraph] at converged ⊢
  dsimp only at converged ⊢
  split
  · intro taken within
    exact absurd within (Nat.not_lt_zero taken)
  · next some =>
      rw [if_neg some, normalize_converged] at converged
      rw [normalize_iterations]
      exact restartsFinite_of_converged (walkOf_isFor graph _ _) (walkOf_leadsOn ends _ _)
        (nodeCount_pos_of_validSeeds some) _ _ converged

/-- The walk over the larger graph ends after as many steps. -/
theorem ofGraph_ends [ZeroLaws α] [FiniteLaws α] (extended : graph.ExtendsBySiblings larger)
    (ends : graph.EndsInside) (inside : ∀ seed ∈ seeds, seed < graph.nodeCount)
    (settings : WalkSettings α) :
    (ofGraph larger seeds settings).iterations = (ofGraph graph seeds settings).iterations ∧
      (ofGraph larger seeds settings).converged = (ofGraph graph seeds settings).converged := by
  rw [ofGraph, ofGraph, validSeeds_larger extended inside]
  dsimp only
  split
  · exact ⟨rfl, rfl⟩
  · next some =>
      simp only [normalize_iterations, normalize_converged]
      rw [walkOf_eq_isolating extended ends fun seed isSeed => ((mem_validSeeds _ _ _).mp isSeed).2]
      exact iterate_isolating_ends (walkOf_isFor graph _ _) (walkOf_leadsOn ends _ _)
        (nodeCount_pos_of_validSeeds some) _ _ _

theorem ofGraph_eq_withZeros [ZeroLaws α] (extended : graph.ExtendsBySiblings larger)
    (ends : graph.EndsInside) (inside : ∀ seed ∈ seeds, seed < graph.nodeCount)
    {settings : WalkSettings α} (finite : StaysFinite graph seeds settings) :
    ofGraph larger seeds settings =
      (ofGraph graph seeds settings).withZeros (larger.nodeCount - graph.nodeCount) := by
  unfold StaysFinite at finite
  rw [ofGraph] at finite
  rw [ofGraph, ofGraph, validSeeds_larger extended inside]
  dsimp only at finite ⊢
  split
  · rw [withZeros, padded, ← List.replicate_add, ← extended.nodeCount_eq]
  · next some =>
      rw [if_neg some, normalize_iterations] at finite
      rw [walkOf_eq_isolating extended ends fun seed isSeed => ((mem_validSeeds _ _ _).mp isSeed).2,
        ← normalize_withZeros]
      exact congrArg normalize
        (iterate_isolating (walkOf_isFor graph _ _) _ _ _ 0 finite (Or.inl (Nat.le_refl _)))

end Ranking

/-! ## Signals and candidates -/

namespace Graph

variable {α : Type} [Scalar α] {graph larger : Graph α}

/-- Only scoring edges give a signal of another kind. -/
theorem strongest_seedEdges_eq (graph : Graph α) (seeds : List Nat) {kind : EdgeKind}
    (noSibling : kind ≠ .sibling) (node : Nat) :
    strongest (graph.seedEdges seeds) kind node =
      strongest (graph.scoring.filter fun edge => seeds.contains edge.1.source) kind node := by
  have swapped : (graph.scoring.filter fun edge => seeds.contains edge.1.source) =
      (graph.seedEdges seeds).filter fun edge => edge.1.kind ≠ .sibling := by
    rw [scoring, seedEdges, List.filter_filter, List.filter_filter]
    exact List.filter_congr fun edge _ => Bool.and_comm _ _
  rw [swapped, strongest, strongest, List.foldl_filter]
  refine congrArg (fun next => (graph.seedEdges seeds).foldl next Scalar.zero)
    (funext fun best => funext fun edge => ?_)
  by_cases isSibling : edge.1.kind = .sibling
  · have other : ¬edge.1.kind = kind := fun same => noSibling (same.symm.trans isSibling)
    simp [isSibling, isSibling ▸ other]
  · simp [isSibling]

theorem ExtendsBySiblings.strongest_eq (extended : graph.ExtendsBySiblings larger)
    (seeds : List Nat) {kind : EdgeKind} (noSibling : kind ≠ .sibling) (node : Nat) :
    strongest (larger.seedEdges seeds) kind node = strongest (graph.seedEdges seeds) kind node := by
  rw [strongest_seedEdges_eq larger seeds noSibling, strongest_seedEdges_eq graph seeds noSibling,
    extended.scoring_eq]

end Graph

namespace Engine

variable {α : Type} [Scalar α] {graph larger : Graph α} {seeds : List Nat}

theorem signalsOf_withZeros (extended : graph.ExtendsBySiblings larger) (seeds : List Nat)
    (ranking : Ranking α) (more node : Nat) :
    signalsOf (ranking.withZeros more) (larger.seedEdges seeds) node =
      signalsOf ranking (graph.seedEdges seeds) node := by
  have lexical : EdgeKind.lexical ≠ .sibling := by decide
  have cochange : EdgeKind.cochange ≠ .sibling := by decide
  rw [signalsOf, signalsOf, Ranking.score_withZeros, extended.strongest_eq seeds lexical,
    extended.strongest_eq seeds cochange]

/-- The files of the smaller graph are the same candidates but for the flag. -/
theorem candidates_withZeros (extended : graph.ExtendsBySiblings larger) (ends : graph.EndsInside)
    (inside : ∀ seed ∈ seeds, seed < graph.nodeCount) (ranking : Ranking α) (more : Nat)
    (members others paths : List String) (content : String → Option String)
    (scanned : List ScannedFile) :
    candidates larger seeds (ranking.withZeros more) others paths content
        (scanned.filter fun file => (graph.node? file.path).isSome) =
      (candidates graph seeds ranking members paths content scanned).map fun candidate =>
        { candidate with sibling := others.contains candidate.path } := by
  have hops (node : Nat) : ((larger.distances seeds).toArray[node]?).getD none =
      ((graph.distances seeds).toArray[node]?).getD none := by
    rw [extended.distances_eq ends inside, List.getElem?_toArray, List.getElem?_toArray,
      getD_append_replicate]
  have known : (scanned.filter fun file => (graph.node? file.path).isSome).filter
        (fun file => !paths.contains file.path) =
      (scanned.filter fun file => !paths.contains file.path).filter
        fun file => (graph.node? file.path).isSome := by
    rw [List.filter_filter, List.filter_filter]
    exact List.filter_congr fun file _ => Bool.and_comm _ _
  unfold candidates
  dsimp only
  rw [known, List.filterMap_filter, List.map_filterMap]
  refine List.filterMap_congr fun file _ => ?_
  cases found : graph.node? file.path with
  | none => rfl
  | some node =>
      rw [Graph.node?_of_isPrefix extended.paths_isPrefix found]
      simp only [Option.isSome_some, if_true, Option.map_some, signalsOf_withZeros extended, hops]

end Engine

/-! ## The outcome -/

namespace Graph

section Outcome

variable {α : Type} [Scalar α] [ZeroLaws α] [FiniteLaws α]

/-- New nodes, and siblings among old and new ones, change neither distance nor
signal of any other node, nor when the iteration ends, and give none to the new
ones.  Scores are the same to the last bit if what starts again does not
overflow, as in every iteration that converges and with exact numbers.  Of a
candidate only the flag can change then. -/
theorem siblings_carry_no_score {graph : Graph α} (ends : graph.EndsInside)
    {calls : List (Call α)} (admissible : graph.Admissible calls)
    (siblings : ∀ edge ∈ graph.offered calls, edge.kind = .sibling) {seeds : List Nat}
    (inside : ∀ seed ∈ seeds, seed < graph.nodeCount) :
    let larger := graph.run calls
    (∀ node < graph.nodeCount, larger.path? node = graph.path? node) ∧
    (∀ node < graph.nodeCount,
      (larger.distances seeds)[node]? = (graph.distances seeds)[node]?) ∧
    (∀ node, graph.nodeCount ≤ node → node < larger.nodeCount →
      (larger.distances seeds)[node]? = some none) ∧
    (∀ node,
      strongest (larger.seedEdges seeds) .lexical node =
          strongest (graph.seedEdges seeds) .lexical node ∧
        strongest (larger.seedEdges seeds) .cochange node =
          strongest (graph.seedEdges seeds) .cochange node) ∧
    ∀ settings,
      let ranking := Ranking.ofGraph graph seeds settings
      let after := Ranking.ofGraph larger seeds settings
      after.iterations = ranking.iterations ∧ after.converged = ranking.converged ∧
      (ranking.converged = true → Ranking.StaysFinite graph seeds settings) ∧
      (Ranking.StaysFinite graph seeds settings →
        (∀ node < graph.nodeCount, after.scores[node]? = ranking.scores[node]?) ∧
        (∀ node, graph.nodeCount ≤ node → node < larger.nodeCount →
          after.scores[node]? = some Scalar.zero) ∧
        ∀ members others paths content scanned,
          Engine.candidates larger seeds after others paths content
              (scanned.filter fun file => (graph.node? file.path).isSome) =
            (Engine.candidates graph seeds ranking members paths content scanned).map
              fun candidate => { candidate with sibling := others.contains candidate.path }) := by
  intro larger
  have extended : graph.ExtendsBySiblings larger := extendsBySiblings_run graph admissible siblings
  have distances_eq := extended.distances_eq ends inside
  have length_distances : (graph.distances seeds).length = graph.nodeCount :=
    graph.length_distances seeds
  refine ⟨fun node isOld => ?_, fun node isOld => ?_, fun node isNew isNode => ?_, fun node => ?_,
    fun settings => ?_⟩
  · rcases extended.paths_isPrefix with ⟨others, continued⟩
    rw [path?, path?, ← continued, List.getElem?_append_left isOld]
  · rw [distances_eq, List.getElem?_append_left (length_distances.symm ▸ isOld)]
  · rw [distances_eq, List.getElem?_append_right (length_distances.symm ▸ isNew),
      List.getElem?_replicate, if_pos (by omega)]
  · exact ⟨extended.strongest_eq seeds (by decide) node,
      extended.strongest_eq seeds (by decide) node⟩
  · intro ranking after
    have ended : after.iterations = ranking.iterations ∧ after.converged = ranking.converged :=
      Ranking.ofGraph_ends extended ends inside settings
    refine ⟨ended.1, ended.2, Ranking.staysFinite_of_converged ends, fun finite => ?_⟩
    have padded : after = ranking.withZeros (larger.nodeCount - graph.nodeCount) :=
      Ranking.ofGraph_eq_withZeros extended ends inside finite
    have length_scores : ranking.scores.length = graph.nodeCount :=
      Ranking.length_ofGraph_scores graph seeds settings
    have scores_eq : after.scores = ranking.scores ++
        List.replicate (larger.nodeCount - graph.nodeCount) Scalar.zero :=
      congrArg Ranking.scores padded
    refine ⟨fun node isOld => ?_, fun node isNew isNode => ?_,
      fun members others paths content scanned => ?_⟩
    · rw [scores_eq, List.getElem?_append_left (length_scores.symm ▸ isOld)]
    · rw [scores_eq, List.getElem?_append_right (length_scores.symm ▸ isNew),
        List.getElem?_replicate, if_pos (by omega)]
    · rw [padded]
      exact Engine.candidates_withZeros extended ends inside ranking _ members others paths content
        scanned

end Outcome

/-- A module, a library that it calls and a directory of its own. -/
def moduleGraph (α : Type) [Scalar α] : Graph α :=
  (((Graph.empty.addPathEdge ⟨"main.tf", "lib.py", .forwardCall, Scalar.decimal 5 1⟩).addPathEdge
    ⟨"lib.py", "main.tf", .lexical, Scalar.decimal 25 2⟩).addNode "other.tf").1

/-- Siblings of old and new nodes, and a node apart. -/
def siblingCalls (α : Type) [Scalar α] : List (Call α) :=
  [.merge (.push .empty ⟨"main.tf", "vars.tf", .sibling, Scalar.decimal 5 2⟩),
    .addEdge 0 2 .sibling (Scalar.decimal 5 2), .addNode "far.py"]

def stepsAtMost (α : Type) [Scalar α] (count : Nat) : WalkSettings α :=
  { WalkSettings.default with maxIterations := count }

theorem endsInside_moduleGraph (α : Type) [Scalar α] : (moduleGraph α).EndsInside :=
  ((endsInside_empty.addPathEdge _).addPathEdge _).addNode _

/-- The same graph with exact numbers and with those that are rounded. -/
theorem siblings_carry_no_score_of_module :
    (Ranking.ofGraph ((moduleGraph ℚ).run (siblingCalls ℚ)) [0] (stepsAtMost ℚ 3)).scores[3]? = some 0 ∧
      (Ranking.ofGraph ((moduleGraph Float).run (siblingCalls Float)) [0]
          (stepsAtMost Float 3)).iterations =
        (Ranking.ofGraph (moduleGraph Float) [0] (stepsAtMost Float 3)).iterations ∧
      (Ranking.ofGraph ((moduleGraph Float).run (siblingCalls Float)) [0]
          (stepsAtMost Float 3)).scores[3]? = some Scalar.zero := by
  have exact : Ranking.StaysFinite (moduleGraph ℚ) [0] (stepsAtMost ℚ 3) :=
    Ranking.staysFinite_rat _ _ _
  have rounded : Ranking.StaysFinite (moduleGraph Float) [0] (stepsAtMost Float 3) := by
    unfold Ranking.StaysFinite Ranking.RestartsFinite
    decide +kernel
  have inside : ∀ seed ∈ [0], seed < (moduleGraph ℚ).nodeCount := by decide +kernel
  have insideToo : ∀ seed ∈ [0], seed < (moduleGraph Float).nodeCount := by decide +kernel
  rcases siblings_carry_no_score (endsInside_moduleGraph ℚ)
    (by decide +kernel : (moduleGraph ℚ).Admissible (siblingCalls ℚ)) (by decide +kernel) inside
    with ⟨-, -, -, -, ranked⟩
  rcases siblings_carry_no_score (endsInside_moduleGraph Float)
    (by decide +kernel : (moduleGraph Float).Admissible (siblingCalls Float)) (by decide +kernel)
    insideToo with ⟨-, -, -, -, rankedToo⟩
  rcases ranked (stepsAtMost ℚ 3) with ⟨-, -, -, scores⟩
  rcases rankedToo (stepsAtMost Float 3) with ⟨iterations, -, -, scoresToo⟩
  rcases scores exact with ⟨-, isNew, -⟩
  rcases scoresToo rounded with ⟨-, isNewToo, -⟩
  refine ⟨?_, iterations, isNewToo 3 (by decide +kernel) (by decide +kernel)⟩
  exact isNew 3 (by decide +kernel) (by decide +kernel)

/-- An edge so faint that a share of mass, divided by its weight, overflows. -/
def faintGraph : Graph Float := Graph.empty.addPathEdge ⟨"a.py", "b.py", .forwardCall, 1e-310⟩

/-- Where mass overflows, a node that is added alone gets a score that is no
number, and it spoils the total by which the old scores are scaled. -/
theorem overflow_reaches_new_nodes :
    let larger := faintGraph.run [.addNode "c.py"]
    faintGraph.EndsInside ∧ faintGraph.Admissible [.addNode "c.py"] ∧
      faintGraph.offered [.addNode "c.py"] = [] ∧ (∀ seed ∈ [0, 1], seed < faintGraph.nodeCount) ∧
      (Ranking.ofGraph larger [0, 1] (stepsAtMost Float 2)).scores[0]? ≠
        (Ranking.ofGraph faintGraph [0, 1] (stepsAtMost Float 2)).scores[0]? ∧
      (Ranking.ofGraph larger [0, 1] (stepsAtMost Float 2)).scores[2]? ≠ some Scalar.zero := by
  intro larger
  have inside : ∀ seed ∈ [0, 1], seed < faintGraph.nodeCount := by decide +kernel
  have insideLarger : ∀ seed ∈ [0, 1], seed < larger.nodeCount := by decide +kernel
  have valid : Ranking.validSeeds faintGraph.nodeCount [0, 1] = [0, 1] :=
    Ranking.validSeeds_of_ascending (by decide) inside
  have validLarger : Ranking.validSeeds larger.nodeCount [0, 1] = [0, 1] :=
    Ranking.validSeeds_of_ascending (by decide) insideLarger
  refine ⟨endsInside_empty.addPathEdge _, by decide +kernel, by decide +kernel, inside, ?_, ?_⟩
  · rw [Ranking.ofGraph, Ranking.ofGraph, valid, validLarger]
    decide +kernel
  · rw [Ranking.ofGraph, validLarger]
    decide +kernel

end Graph

end ContextPack
