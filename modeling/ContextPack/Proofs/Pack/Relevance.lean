import ContextPack.Engine
import ContextPack.Proofs.Graph.Walk
import ContextPack.Proofs.Pack.Assembly
import ContextPack.Proofs.Pack.Signals
import ContextPack.Proofs.Settings.Validate

namespace ContextPack
namespace Engine

/-!
# Nothing unrelated is brought in

Evidence for a file has three sources, and each of them follows links of the
graph: mass of the walk lies within as many hops of a seed as the walk took
steps, and an edge from a seed is one hop.  So a file with a score can be
reached from a seed, and a file that cannot be reached must be the neighbour by
convention of a changed one.
-/

/-- The graph of the engine keeps what the store promises. -/
theorem wellFormed_graphOf (paths : List String) (relations : Relations ℚ) :
    (graphOf paths relations).WellFormed := by
  have nodes (graph : Graph ℚ) (wellFormed : graph.WellFormed) :
      (paths.foldl (fun (graph : Graph ℚ) path => (graph.addNode path).1) graph).WellFormed := by
    induction paths generalizing graph with
    | nil => exact wellFormed
    | cons path rest inductionHypothesis =>
        exact inductionHypothesis (graph.addNode path).1 (wellFormed.addNode path)
  exact ((((nodes _ Graph.wellFormed_empty).merge _).merge _).merge _).merge _

/-! ## Candidates -/

section Candidates

variable {graph : Graph ℚ} {seedNodes : List Nat} {ranking : Ranking ℚ}
  {members seeds : List String} {content : String → Option String} {scanned : List ScannedFile}
  {candidate : Candidate ℚ}

/-- A candidate is no seed, and what is said of it is said of its node. -/
theorem exists_node_of_mem_candidates
    (member : candidate ∈ candidates graph seedNodes ranking members seeds content scanned) :
    candidate.path ∉ seeds ∧ candidate.sibling = members.contains candidate.path ∧
      ∃ node, graph.node? candidate.path = some node ∧
        candidate.signals = signalsOf ranking (graph.seedEdges seedNodes) node ∧
        candidate.distance = (graph.distances seedNodes)[node]?.getD none := by
  rcases List.mem_filterMap.mp member with ⟨file, isFile, isCandidate⟩
  rcases Option.map_eq_some_iff.mp isCandidate with ⟨node, found, rfl⟩
  have noSeed : file.path ∉ seeds := by simpa using (List.mem_filter.mp isFile).2
  exact ⟨noSeed, rfl, node, found, rfl, by rw [List.getElem?_toArray]⟩

end Candidates

/-! ## Evidence follows links -/

section Evidence

variable {graph : Graph ℚ} {settings : Settings ℚ} {seedNodes : List Nat} {node : Nat}

theorem isNonneg_signalsOf (wellFormed : graph.WellFormed) (acceptable : settings.problems = [])
    (seedNodes : List Nat) (node : Nat) :
    (signalsOf (Ranking.ofGraph graph seedNodes settings.walk) (graph.seedEdges seedNodes)
      node).IsNonneg where
  walk :=
    have alpha := Settings.alpha_of_acceptable acceptable
    Ranking.score_nonneg wellFormed seedNodes alpha.1.le alpha.2.le node
  lexical := Graph.strongest_nonneg _ _ _
  cochange := Graph.strongest_nonneg _ _ _

/-- An edge from a seed is a hop, and the walk takes one. -/
theorem reachedIn_of_strongest_pos (wellFormed : graph.WellFormed)
    (acceptable : settings.problems = []) {kind : EdgeKind} (walkable : kind.isWalkable = true)
    (positive : 0 < Graph.strongest (graph.seedEdges seedNodes) kind node) :
    ∃ hops ≤ (Ranking.ofGraph graph seedNodes settings.walk).iterations,
      ReachedIn graph.Linked seedNodes hops node := by
  rcases (wellFormed.strongest_pos_iff seedNodes kind node).mp positive with
    ⟨edge, isEdge, fromSeed, toNode, ofKind⟩
  refine ⟨1, ?_, edge.1.source, fromSeed, edge, isEdge, rfl, toNode, ofKind ▸ walkable⟩
  exact Ranking.iterations_pos wellFormed (Settings.maxIterations_of_acceptable acceptable) fromSeed
    (wellFormed.source_lt edge isEdge)

/-- There is evidence for exactly the nodes that the walk has reached. -/
theorem isEvident_signalsOf_iff (wellFormed : graph.WellFormed)
    (acceptable : settings.problems = []) (inside : node < graph.nodeCount) :
    (signalsOf (Ranking.ofGraph graph seedNodes settings.walk) (graph.seedEdges seedNodes)
        node).IsEvident ↔
      ∃ hops ≤ (Ranking.ofGraph graph seedNodes settings.walk).iterations,
        ReachedIn graph.Linked seedNodes hops node := by
  have alpha := Settings.alpha_of_acceptable acceptable
  have walk := Ranking.score_pos_iff wellFormed seedNodes alpha.1 alpha.2 node
  constructor
  · rintro (byWalk | byLexical | byCochange)
    · exact (walk.mp byWalk).2
    · exact reachedIn_of_strongest_pos wellFormed acceptable rfl byLexical
    · exact reachedIn_of_strongest_pos wellFormed acceptable rfl byCochange
  · exact fun reached => Or.inl (walk.mpr ⟨inside, reached⟩)

end Evidence

/-! ## Scores of candidates -/

section Scores

variable {graph : Graph ℚ} {settings : Settings ℚ} {seedNodes : List Nat}
  {members seeds : List String} {content : String → Option String} {scanned : List ScannedFile}
  {candidate : Candidate ℚ} {fusion : Fusion ℚ}

/-- Whatever gives a file a score connects it to a seed. -/
theorem exists_path_of_fuse_pos (wellFormed : graph.WellFormed)
    (acceptable : settings.problems = [])
    (member : candidate ∈ candidates graph seedNodes
      (Ranking.ofGraph graph seedNodes settings.walk) members seeds content scanned)
    (positive : 0 < fusion.fuse candidate.signals) :
    ∃ node seed, graph.node? candidate.path = some node ∧ seed ∈ seedNodes ∧
      Relation.ReflTransGen graph.Linked seed node := by
  rcases exists_node_of_mem_candidates member with ⟨-, -, node, hasNode, isSignals, -⟩
  rw [isSignals] at positive
  have evident := Fusion.isEvident_of_fuse_pos
    (isNonneg_signalsOf wellFormed acceptable seedNodes node) positive
  rcases (isEvident_signalsOf_iff wellFormed acceptable (Graph.lt_nodeCount_of_node? hasNode)).mp
    evident with ⟨hops, -, reached⟩
  rcases exists_reachedIn_iff.mp ⟨hops, reached⟩ with ⟨seed, isSeedNode, path⟩
  exact ⟨node, seed, hasNode, isSeedNode, path⟩

/-- Unless evidence is weighted, a file has a score exactly if it is no more
hops away than the walk took steps. -/
theorem fuse_pos_iff_distance (wellFormed : graph.WellFormed) (acceptable : settings.problems = [])
    (unweighted : fusion = .sum ∨ fusion = .maximum)
    (member : candidate ∈ candidates graph seedNodes
      (Ranking.ofGraph graph seedNodes settings.walk) members seeds content scanned) :
    0 < fusion.fuse candidate.signals ↔
      ∃ hops ≤ (Ranking.ofGraph graph seedNodes settings.walk).iterations,
        candidate.distance = some hops := by
  rcases exists_node_of_mem_candidates member with ⟨-, -, node, hasNode, isSignals, isDistance⟩
  have inside := Graph.lt_nodeCount_of_node? hasNode
  rw [isSignals, isDistance, Graph.distance_le_iff wellFormed inside, Fusion.fuse_pos_iff unweighted
    (isNonneg_signalsOf wellFormed acceptable seedNodes node)]
  exact isEvident_signalsOf_iff wellFormed acceptable inside

end Scores

/-! ## What is brought in -/

/-- Only files that a path of links connects to a seed are brought in, and
neighbours by convention; no budget changes this.  Unless evidence is weighted,
exactly the files are offered to packing that the walk has reached, and those
neighbours, as far as their size allows. -/
theorem expansions_related {graph : Graph ℚ} (wellFormed : graph.WellFormed)
    {settings : Settings ℚ} (acceptable : settings.problems = []) (counter : TokenCounter)
    (wrap : Wrap) (seedNodes : List Nat) (sources : List Seed) (members : List String)
    (content : String → Option String) (scanned : List ScannedFile) (budget : Nat) :
    let assembler := Assembler.ofSettings settings counter wrap
    let ranking := Ranking.ofGraph graph seedNodes settings.walk
    let found := candidates graph seedNodes ranking members (sources.map Seed.path) content scanned
    (∀ fragment ∈ (assembler.assemble sources found budget).fragments,
      fragment.kind = .expansion →
        fragment.path ∉ sources.map Seed.path ∧
        ((∃ node seed, graph.node? fragment.path = some node ∧ seed ∈ seedNodes ∧
            Relation.ReflTransGen graph.Linked seed node) ∨
          fragment.path ∈ members)) ∧
    (settings.assembly.fusion = .sum ∨ settings.assembly.fusion = .maximum →
      ∀ candidate ∈ found, candidate.size ≤ settings.limits.maxFileSize →
        ((∃ score, ⟨candidate, score⟩ ∈ assembler.ranked sources found budget) ↔
          (∃ hops ≤ ranking.iterations, candidate.distance = some hops) ∨
            candidate.sibling = true)) := by
  intro assembler ranking found
  refine ⟨fun fragment member isExpansion => ?_, fun unweighted candidate isFound fitting => ?_⟩
  · rw [Assembler.assemble_fragments] at member
    rcases List.mem_append.mp member with ofSeed | packed
    · have isSeed := Assembler.isSeed_of_mem_seedFragments assembler sources budget fragment ofSeed
      rw [isExpansion] at isSeed
      cases isSeed
    · rcases Assembler.exists_of_mem_pack packed with ⟨offered, isRanked, samePath⟩
      rcases (Assembler.mem_ranked_iff assembler sources found budget).mp isRanked with
        ⟨⟨isFound, -, isScore, evident⟩, -⟩
      rcases exists_node_of_mem_candidates isFound with ⟨noSeed, isSibling, -⟩
      rw [samePath]
      refine ⟨noSeed, evident.imp (fun positive => ?_) fun sibling => ?_⟩
      · rw [Scalar.isPositive_rat, decide_eq_true_iff, isScore] at positive
        exact exists_path_of_fuse_pos wellFormed acceptable isFound positive
      · exact List.contains_iff_mem.mp (isSibling ▸ sibling)
  · have noDraft : candidate.path ∉ (assembler.drafts sources).map Draft.path := by
      intro isDraft
      rw [Assembler.map_path_drafts] at isDraft
      exact (exists_node_of_mem_candidates isFound).1
        ((Text.mem_distinctSorted _ _).mp (List.mem_of_mem_take isDraft))
    rw [← fuse_pos_iff_distance wellFormed acceptable unweighted isFound]
    simp only [Assembler.mem_ranked_iff, Scalar.isPositive_rat, decide_eq_true_iff]
    constructor
    · rintro ⟨score, ⟨-, -, rfl, evident⟩, -⟩
      exact evident
    · exact fun evident => ⟨_, ⟨isFound, noDraft, rfl, evident⟩, fitting⟩

/-- A file that imports another one, and a third that nothing relates to
them. -/
def sampleGraph : Graph ℚ :=
  ((Graph.empty.addPathEdge ⟨"app.js", "lib.js", .importing, 1⟩).addNode "old.js").1

theorem distances_sampleGraph : sampleGraph.distances [0] = [some 0, some 1, none] := by
  decide +kernel

/-- After a change of the first file the imported one is offered to packing and
the third is not. -/
theorem expansions_related_of_sample :
    let settings : Settings ℚ := .default
    let source : Seed := ⟨⟨"app.js", none, .modified, false, []⟩, none⟩
    let found := candidates sampleGraph [0] (Ranking.ofGraph sampleGraph [0] settings.walk) []
      ["app.js"] (fun _ => none) [⟨"app.js", 30⟩, ⟨"lib.js", 20⟩, ⟨"old.js", 10⟩]
    let offered := (Assembler.ofSettings settings Tokens.estimate id).ranked [source] found 1000
    sampleGraph.WellFormed ∧ settings.problems = [] ∧
      "lib.js" ∈ offered.map (fun ranked => ranked.candidate.path) ∧
      "old.js" ∉ offered.map fun ranked => ranked.candidate.path := by
  intro settings source found offered
  have wellFormed : sampleGraph.WellFormed := (Graph.wellFormed_empty.addPathEdge _).addNode _
  have exactly := (expansions_related wellFormed Settings.default_acceptable Tokens.estimate id [0]
    [source] [] (fun _ => none) [⟨"app.js", 30⟩, ⟨"lib.js", 20⟩, ⟨"old.js", 10⟩] 1000).2 (Or.inl rfl)
  have stepped : 1 ≤ (Ranking.ofGraph sampleGraph [0] settings.walk).iterations :=
    Ranking.iterations_pos wellFormed
      (Settings.maxIterations_of_acceptable Settings.default_acceptable) (List.mem_singleton_self 0)
      (by decide)
  refine ⟨wellFormed, Settings.default_acceptable, ?_, fun member => ?_⟩
  · let imported : Candidate ℚ :=
      ⟨"lib.js", signalsOf (Ranking.ofGraph sampleGraph [0] settings.walk) (sampleGraph.seedEdges [0]) 1,
        some 1, false, 20, none⟩
    have isFound : imported ∈ found := by
      refine List.mem_filterMap.mpr ⟨⟨"lib.js", 20⟩, by decide, ?_⟩
      rw [show sampleGraph.node? "lib.js" = some 1 by decide, distances_sampleGraph]
      rfl
    rcases (exactly imported isFound (by decide)).mpr (Or.inl ⟨1, stepped, rfl⟩) with
      ⟨score, isOffered⟩
    exact List.mem_map.mpr ⟨_, isOffered, rfl⟩
  · rcases List.mem_map.mp member with ⟨ranked, isOffered, isOld⟩
    rcases (Assembler.mem_ranked_iff _ _ _ _).mp isOffered with ⟨⟨isFound, -⟩, fitting⟩
    rcases exists_node_of_mem_candidates isFound with ⟨-, noSibling, node, hasNode, -, isDistance⟩
    rw [isOld, show sampleGraph.node? "old.js" = some 2 by decide] at hasNode
    cases hasNode
    rw [distances_sampleGraph] at isDistance
    rcases (exactly ranked.candidate isFound fitting).mp ⟨ranked.score, isOffered⟩ with
      ⟨hops, -, reached⟩ | sibling
    · cases isDistance.symm.trans reached
    · cases noSibling.symm.trans sibling

end Engine
end ContextPack
