import ContextPack.Proofs.Graph.Hops
import ContextPack.Proofs.Graph.Isolated
import ContextPack.Proofs.Graph.Runs

namespace ContextPack

/-!
# More nodes, and siblings among them

Two graphs are compared.  The larger one comes from the other by calls that
make new nodes and that join nodes only as siblings.  All other edges are then
the same in both, and as they join old nodes, every row of the larger graph is
one of the smaller graph or is empty.
-/

theorem EdgeKind.isWalkable_eq (kind : EdgeKind) : kind.isWalkable = decide (kind ≠ .sibling) := by
  cases kind <;> rfl

namespace Graph

variable {α : Type}

/-! ## Edges inside the graph -/

/-- Every edge joins numbers that have been given to paths. -/
structure EndsInside (graph : Graph α) : Prop where
  source_lt : ∀ edge ∈ graph.edges, edge.1.source < graph.nodeCount
  target_lt : ∀ edge ∈ graph.edges, edge.1.target < graph.nodeCount

section Ends

variable {graph : Graph α}

theorem endsInside_empty : (empty : Graph α).EndsInside where
  source_lt _ member := absurd member List.not_mem_nil
  target_lt _ member := absurd member List.not_mem_nil

theorem EndsInside.addNode (ends : graph.EndsInside) (path : String) :
    (graph.addNode path).1.EndsInside := by
  have grows : graph.nodeCount ≤ (graph.addNode path).1.nodeCount :=
    (addNode_paths_isPrefix graph path).length_le
  constructor
  · intro edge member
    rw [addNode_edges] at member
    exact (ends.source_lt edge member).trans_le grows
  · intro edge member
    rw [addNode_edges] at member
    exact (ends.target_lt edge member).trans_le grows

variable [Scalar α]

theorem EndsInside.addEdge (ends : graph.EndsInside) {source target : Nat}
    (source_lt : source < graph.nodeCount) (target_lt : target < graph.nodeCount)
    (kind : EdgeKind) (weight : α) : (graph.addEdge source target kind weight).EndsInside := by
  have paths := addEdge_paths graph source target kind weight
  rw [Graph.addEdge] at paths ⊢
  split
  · exact ends
  · constructor
    · intro edge member
      rcases mem_addAt member with old | rfl | ⟨total, listed, rfl⟩
      · exact ends.source_lt edge old
      · exact source_lt
      · exact source_lt
    · intro edge member
      rcases mem_addAt member with old | rfl | ⟨total, listed, rfl⟩
      · exact ends.target_lt edge old
      · exact target_lt
      · exact target_lt

theorem EndsInside.addPathEdge (ends : graph.EndsInside) (edge : PathEdge α) :
    (graph.addPathEdge edge).EndsInside := by
  rw [addPathEdge_eq]
  rcases getElem?_addNode_addNode graph edge.source edge.target with ⟨source, target⟩
  exact ((ends.addNode edge.source).addNode edge.target).addEdge
    (List.getElem?_eq_some_iff.mp source).1 (List.getElem?_eq_some_iff.mp target).1 _ _

theorem EndsInside.merge (ends : graph.EndsInside) (buffer : EdgeBuffer α) :
    (graph.merge buffer).EndsInside := by
  rcases buffer with ⟨edges⟩
  induction edges generalizing graph with
  | nil => exact ends
  | cons edge rest inductionHypothesis => exact inductionHypothesis (ends.addPathEdge edge)

theorem EndsInside.run (ends : graph.EndsInside) {calls : List (Call α)}
    (admissible : graph.Admissible calls) : (graph.run calls).EndsInside := by
  induction calls generalizing graph with
  | nil => exact ends
  | cons call rest inductionHypothesis =>
      rcases admissible with ⟨first, later⟩
      refine inductionHypothesis ?_ later
      cases call with
      | addNode path => exact ends.addNode path
      | addEdge source target kind weight => exact ends.addEdge first.1 first.2 kind weight
      | merge recipe => exact ends.merge recipe.build

end Ends

/-! ## More nodes and siblings -/

/-- The edges from which a file can get a score. -/
def scoring (graph : Graph α) : List (EdgeKey × α) :=
  graph.edges.filter fun edge => edge.1.kind ≠ .sibling

/-- The larger graph has the nodes of the other with the same numbers, and the
same edges apart from siblings. -/
structure ExtendsBySiblings (graph larger : Graph α) : Prop where
  paths_isPrefix : graph.paths <+: larger.paths
  scoring_eq : larger.scoring = graph.scoring

section Extending

theorem ExtendsBySiblings.refl (graph : Graph α) : graph.ExtendsBySiblings graph :=
  ⟨List.prefix_rfl, rfl⟩

theorem ExtendsBySiblings.trans {graph middle larger : Graph α}
    (first : graph.ExtendsBySiblings middle) (second : middle.ExtendsBySiblings larger) :
    graph.ExtendsBySiblings larger :=
  ⟨first.paths_isPrefix.trans second.paths_isPrefix, second.scoring_eq.trans first.scoring_eq⟩

theorem extendsBySiblings_addNode (graph : Graph α) (path : String) :
    graph.ExtendsBySiblings (graph.addNode path).1 where
  paths_isPrefix := addNode_paths_isPrefix graph path
  scoring_eq := by rw [scoring, addNode_edges, scoring]

variable [Scalar α]

/-- Adding at the key of a sibling does not touch the other edges. -/
theorem filter_addAt {key : EdgeKey} (isSibling : key.kind = .sibling) (weight : α)
    (edges : List (EdgeKey × α)) :
    (addAt key weight edges).filter (fun edge => edge.1.kind ≠ .sibling) =
      edges.filter fun edge => edge.1.kind ≠ .sibling := by
  induction edges with
  | nil => simp [addAt, isSibling]
  | cons head rest inductionHypothesis =>
      rcases head with ⟨other, total⟩
      rw [addAt]
      rcases EdgeKey.order_cases key other with ⟨order, -⟩ | ⟨order, rfl⟩ | ⟨order, -⟩
      · simp only [order]
        rw [List.filter_cons_of_neg (by simpa using isSibling)]
      · simp only [order]
        rw [List.filter_cons_of_neg (by simpa using isSibling),
          List.filter_cons_of_neg (by simpa using isSibling)]
      · simp only [order]
        rw [List.filter_cons, List.filter_cons, inductionHypothesis]

theorem extendsBySiblings_addEdge (graph : Graph α) (source target : Nat) {kind : EdgeKind}
    (isSibling : kind = .sibling) (weight : α) :
    graph.ExtendsBySiblings (graph.addEdge source target kind weight) := by
  refine ⟨(addEdge_paths graph source target kind weight).symm ▸ List.prefix_rfl, ?_⟩
  rw [addEdge]
  split
  · rfl
  · exact filter_addAt isSibling weight graph.edges

theorem extendsBySiblings_addPathEdge (graph : Graph α) {edge : PathEdge α}
    (isSibling : edge.kind = .sibling) : graph.ExtendsBySiblings (graph.addPathEdge edge) := by
  rw [addPathEdge_eq]
  have withNodes := (extendsBySiblings_addNode graph edge.source).trans
    (extendsBySiblings_addNode _ edge.target)
  exact withNodes.trans (extendsBySiblings_addEdge _ _ _ isSibling edge.weight)

theorem extendsBySiblings_merge (graph : Graph α) {buffer : EdgeBuffer α}
    (siblings : ∀ edge ∈ buffer.edges, edge.kind = .sibling) :
    graph.ExtendsBySiblings (graph.merge buffer) := by
  rcases buffer with ⟨edges⟩
  induction edges generalizing graph with
  | nil => exact .refl graph
  | cons edge rest inductionHypothesis =>
      have first := extendsBySiblings_addPathEdge graph (siblings edge List.mem_cons_self)
      exact first.trans (inductionHypothesis _ fun other member =>
        siblings other (List.mem_cons_of_mem edge member))

theorem extendsBySiblings_apply (graph : Graph α) {call : Call α}
    (admissible : call.Admissible graph)
    (siblings : ∀ edge ∈ call.offered graph, edge.kind = .sibling) :
    graph.ExtendsBySiblings (call.apply graph) := by
  cases call with
  | addNode path => exact extendsBySiblings_addNode graph path
  | addEdge source target kind weight =>
      rcases admissible with ⟨source_lt, target_lt⟩
      have offers : (Call.addEdge source target kind weight).offered graph =
          [⟨graph.paths[source], graph.paths[target], kind, weight⟩] := by
        simp only [Call.offered, path?]
        rw [List.getElem?_eq_getElem source_lt, List.getElem?_eq_getElem target_lt]
      rw [offers] at siblings
      have isSibling : kind = .sibling := siblings _ List.mem_cons_self
      exact extendsBySiblings_addEdge graph source target isSibling weight
  | merge recipe =>
      refine extendsBySiblings_merge graph fun edge member => siblings edge ?_
      rw [EdgeBuffer.Recipe.build_eq] at member
      exact List.mem_of_mem_filter member

/-- Calls that offer nothing but siblings. -/
theorem extendsBySiblings_run (graph : Graph α) {calls : List (Call α)}
    (admissible : graph.Admissible calls)
    (siblings : ∀ edge ∈ graph.offered calls, edge.kind = .sibling) :
    graph.ExtendsBySiblings (graph.run calls) := by
  induction calls generalizing graph with
  | nil => exact .refl graph
  | cons call rest inductionHypothesis =>
      rcases admissible with ⟨first, later⟩
      have offered_eq : graph.offered (call :: rest) =
          call.offered graph ++ (call.apply graph).offered rest := rfl
      rw [offered_eq] at siblings
      have now := extendsBySiblings_apply graph first fun edge member =>
        siblings edge (List.mem_append_left _ member)
      exact now.trans (inductionHypothesis _ later fun edge member =>
        siblings edge (List.mem_append_right _ member))

end Extending

/-! ## What leads where -/

section Rows

variable {graph larger : Graph α}

theorem ExtendsBySiblings.nodeCount_eq (extended : graph.ExtendsBySiblings larger) :
    larger.nodeCount = graph.nodeCount + (larger.nodeCount - graph.nodeCount) :=
  (Nat.add_sub_cancel' extended.paths_isPrefix.length_le).symm

/-- The walk follows scoring edges only. -/
theorem entries_eq (graph : Graph α) (node : Nat) :
    Adjacency.entries graph EdgeKind.isWalkable node =
      (graph.scoring.filter fun edge => edge.1.source = node).map
        fun edge => (edge.1.target, edge.2) := by
  rw [Adjacency.entries, scoring, List.filter_filter]
  refine congrArg (List.map _) (List.filter_congr fun edge _ => ?_)
  exact congrArg (_ && ·) (EdgeKind.isWalkable_eq edge.1.kind)

theorem EndsInside.entries_eq_nil (ends : graph.EndsInside) {node : Nat}
    (outside : graph.nodeCount ≤ node) : Adjacency.entries graph EdgeKind.isWalkable node = [] := by
  rw [Adjacency.entries, List.map_eq_nil_iff, List.filter_eq_nil_iff]
  intro edge member counts
  have isSource : edge.1.source = node := of_decide_eq_true (Bool.and_eq_true_iff.mp counts).1
  exact absurd (ends.source_lt edge member) (isSource ▸ not_lt.mpr outside)

variable [Scalar α]

/-- The new nodes have empty rows, behind the old rows. -/
theorem ExtendsBySiblings.rows_eq (extended : graph.ExtendsBySiblings larger)
    (ends : graph.EndsInside) :
    larger.walkable.rows =
      graph.walkable.rows ++ List.replicate (larger.nodeCount - graph.nodeCount) [] := by
  have rows (count : Nat) : (List.range count).map (fun node =>
        Adjacency.collapse (Adjacency.entries larger EdgeKind.isWalkable node)) =
      (List.range count).map fun node =>
        Adjacency.collapse (Adjacency.entries graph EdgeKind.isWalkable node) :=
    List.map_congr_left fun node _ => by rw [entries_eq, entries_eq, extended.scoring_eq]
  rw [walkable, Adjacency.ofGraph, rows]
  refine map_range_of_le extended.paths_isPrefix.length_le fun node outside => ?_
  rw [ends.entries_eq_nil outside]
  rfl

/-- Either way a number without a row leads nowhere. -/
theorem ExtendsBySiblings.row_eq (extended : graph.ExtendsBySiblings larger)
    (ends : graph.EndsInside) (node : Nat) : larger.walkable.row node = graph.walkable.row node := by
  rw [Adjacency.row, Adjacency.row, extended.rows_eq ends, getD_append_replicate]

/-- Rows lead to nodes of the graph. -/
theorem EndsInside.lt_of_mem_row (ends : graph.EndsInside) {before node : Nat}
    (member : node ∈ (graph.walkable.row before).map Prod.fst) : node < graph.nodeCount := by
  rw [Adjacency.row, walkable, Adjacency.ofGraph, List.getElem?_map] at member
  cases found : (List.range graph.nodeCount)[before]? with
  | none =>
      rw [found] at member
      exact absurd member List.not_mem_nil
  | some source =>
      rw [found, Option.map_some, Option.getD_some, Adjacency.mem_map_fst_collapse,
        Adjacency.entries, List.map_map] at member
      rcases List.mem_map.mp member with ⟨edge, kept, rfl⟩
      exact ends.target_lt edge (List.mem_of_mem_filter kept)

end Rows

/-! ## Distances -/

section Distances

variable [Scalar α] {graph larger : Graph α} {seeds : List Nat}

/-- Old nodes stay as far from the seeds as they were, and no path leads to the
new ones. -/
theorem ExtendsBySiblings.distances_eq (extended : graph.ExtendsBySiblings larger)
    (ends : graph.EndsInside) (inside : ∀ seed ∈ seeds, seed < graph.nodeCount) :
    larger.distances seeds = graph.distances seeds ++
      List.replicate (larger.nodeCount - graph.nodeCount) none := by
  have grows : graph.nodeCount ≤ larger.nodeCount := extended.paths_isPrefix.length_le
  have neighbors : larger.neighbors = graph.neighbors :=
    funext fun node => congrArg (List.map Prod.fst) (extended.row_eq ends node)
  have stays {before node : Nat} (leads : node ∈ graph.neighbors before) : node < graph.nodeCount :=
    ends.lt_of_mem_row leads
  have further (node hops : Nat) : (larger.distances seeds)[node]? = some (some hops) ↔
      node < larger.nodeCount ∧
        FirstIn (fun before node => node ∈ graph.neighbors before) seeds hops node := by
    rw [← neighbors]
    refine distances_eq_some_iff_firstIn seeds (fun before node leads => ?_) node hops
    exact (stays (neighbors ▸ leads)).trans_le grows
  -- A node that is reached is a seed or a neighbour.
  have reached {node hops : Nat}
      (first : FirstIn (fun before node => node ∈ graph.neighbors before) seeds hops node) :
      node < graph.nodeCount := by
    cases hops with
    | zero => exact inside node first.reached
    | succ hops =>
        rcases first.reached with ⟨before, -, leads⟩
        exact stays leads
  refine List.ext_getElem ?_ fun node isNode isPlace => Option.ext fun hops => ?_
  · rw [List.length_append, List.length_replicate, length_distances, length_distances]
    omega
  rw [length_distances] at isNode
  rw [← Option.some_inj, ← List.getElem?_eq_getElem, further, ← Option.some_inj,
    ← List.getElem?_eq_getElem]
  by_cases isOld : node < graph.nodeCount
  · rw [List.getElem?_append_left (isOld.trans_eq (length_distances graph seeds).symm),
      distances_eq_some_iff_firstIn seeds fun _ _ => stays]
    exact and_congr_left' (iff_of_true isNode isOld)
  · refine iff_of_false (fun both => isOld (reached both.2)) ?_
    rw [List.getElem?_append_right (by rw [length_distances]; omega), List.getElem?_replicate]
    split <;> exact nofun

end Distances

end Graph

end ContextPack
