import ContextPack.Proofs.Graph.Extension
import ContextPack.Proofs.Graph.Mass
import Mathlib.Data.List.Chain
import Mathlib.Order.Bounds.Defs

namespace ContextPack

/-!
# Distances are lengths of shortest paths

A path is told by the nodes that it goes through.  The search never sees one:
it only knows how far away the node is from which it meets another.  Being
reached in a number of hops stands between the two, and a path is what is left
of the hops when each is told by the node it starts from.
-/

/-! ## Hops and paths -/

section Paths

variable {link : Nat → Nat → Prop} {seeds : List Nat}

/-- Nodes that follow each other along links, from a seed to a node. -/
structure IsPath (link : Nat → Nat → Prop) (seeds : List Nat) (node : Nat) (path : List Nat) :
    Prop where
  fromSeed : ∃ seed ∈ seeds, path.head? = some seed
  toNode : path.getLast? = some node
  linked : path.IsChain link

/-- The numbers of links on paths from a seed to a node. -/
def pathLengths (link : Nat → Nat → Prop) (seeds : List Nat) (node : Nat) : Set Nat :=
  { links | ∃ path, IsPath link seeds node path ∧ path.length = links + 1 }

theorem isPath_singleton {node : Nat} (isSeed : node ∈ seeds) : IsPath link seeds node [node] :=
  ⟨⟨node, isSeed, rfl⟩, rfl, List.isChain_singleton node⟩

theorem IsPath.exists_mem_pathLengths {node : Nat} {path : List Nat}
    (isPath : IsPath link seeds node path) : ∃ links, links ∈ pathLengths link seeds node := by
  cases path with
  | nil => cases isPath.toNode
  | cons first rest => exact ⟨rest.length, first :: rest, isPath, rfl⟩

/-- A link leads a path on. -/
theorem IsPath.append {before node : Nat} {path : List Nat} (isPath : IsPath link seeds before path)
    (leads : link before node) : IsPath link seeds node (path ++ [node]) where
  fromSeed := by
    rcases isPath.fromSeed with ⟨seed, isSeed, starts⟩
    exact ⟨seed, isSeed, by rw [List.head?_append, starts, Option.some_or]⟩
  toNode := List.getLast?_concat
  linked := by
    refine List.isChain_append.mpr ⟨isPath.linked, List.isChain_singleton node, ?_⟩
    intro last isLast next isNext
    rw [isPath.toNode] at isLast
    cases isLast
    cases isNext
    exact leads

/-- A path of more than one node leads on from a shorter one. -/
theorem IsPath.exists_before {node : Nat} {path : List Nat} {hops : Nat}
    (isPath : IsPath link seeds node path) (long : path.length = hops + 2) :
    ∃ before, link before node ∧ ∃ front, IsPath link seeds before front ∧ front.length = hops + 1 := by
  have parts : path.dropLast ++ [node] = path := List.dropLast_append_getLast? node isPath.toNode
  have frontLong : path.dropLast.length = hops + 1 := by
    rw [List.length_dropLast, long]
    omega
  cases ends : path.dropLast.getLast? with
  | none =>
      rw [List.getLast?_eq_none_iff.mp ends] at frontLong
      cases frontLong
  | some before =>
      have linked := isPath.linked
      rw [← parts] at linked
      rcases List.isChain_append.mp linked with ⟨frontLinked, -, joins⟩
      refine ⟨before, joins before ends node rfl, path.dropLast, ⟨?_, ends, frontLinked⟩, frontLong⟩
      rcases isPath.fromSeed with ⟨seed, isSeed, starts⟩
      refine ⟨seed, isSeed, ?_⟩
      rw [← parts, List.head?_append] at starts
      cases first : path.dropLast.head? with
      | none =>
          rw [List.head?_eq_none_iff.mp first] at frontLong
          cases frontLong
      | some other => rwa [first, Option.some_or] at starts

/-- What is reached in some hops is the end of a path of as many links. -/
theorem reachedIn_iff_mem_pathLengths (hops node : Nat) :
    ReachedIn link seeds hops node ↔ hops ∈ pathLengths link seeds node := by
  induction hops generalizing node with
  | zero =>
      constructor
      · exact fun isSeed => ⟨[node], isPath_singleton isSeed, rfl⟩
      · rintro ⟨path, isPath, single⟩
        rcases List.length_eq_one_iff.mp single with ⟨only, rfl⟩
        rcases isPath.fromSeed with ⟨seed, isSeed, starts⟩
        cases starts
        cases isPath.toNode
        exact isSeed
  | succ hops inductionHypothesis =>
      constructor
      · rintro ⟨before, reached, leads⟩
        rcases (inductionHypothesis before).mp reached with ⟨path, isPath, long⟩
        refine ⟨path ++ [node], isPath.append leads, ?_⟩
        rw [List.length_append, long, List.length_singleton]
      · rintro ⟨path, isPath, long⟩
        rcases isPath.exists_before long with ⟨before, leads, front, isFront, frontLong⟩
        exact ⟨before, (inductionHypothesis before).mpr ⟨front, isFront, frontLong⟩, leads⟩

theorem firstIn_iff_isLeast (hops node : Nat) :
    FirstIn link seeds hops node ↔ IsLeast (pathLengths link seeds node) hops := by
  constructor
  · intro first
    refine ⟨(reachedIn_iff_mem_pathLengths hops node).mp first.reached, fun others isLength => ?_⟩
    by_contra shorter
    exact first.least others (Nat.lt_of_not_le shorter)
      ((reachedIn_iff_mem_pathLengths others node).mpr isLength)
  · rintro ⟨isLength, least⟩
    refine ⟨(reachedIn_iff_mem_pathLengths hops node).mpr isLength, fun fewer below reached => ?_⟩
    exact absurd (least ((reachedIn_iff_mem_pathLengths fewer node).mp reached))
      (Nat.not_le_of_lt below)

end Paths

/-! ## Distances in a graph -/

namespace Graph

variable {α : Type}

/-- An edge that makes no sibling leads from one node to another. -/
def IsHop (graph : Graph α) (source target : Nat) : Prop :=
  ∃ edge ∈ graph.edges,
    edge.1.source = source ∧ edge.1.target = target ∧ edge.1.kind ≠ .sibling

variable [Scalar α] {graph : Graph α}

theorem EndsInside.mem_neighbors_iff (ends : graph.EndsInside) (before node : Nat) :
    node ∈ graph.neighbors before ↔ graph.IsHop before node := by
  have isEntry : node ∈ (Adjacency.entries graph EdgeKind.isWalkable before).map Prod.fst ↔
      graph.IsHop before node := by
    rw [entries_eq, List.map_map, List.mem_map]
    constructor
    · rintro ⟨edge, kept, rfl⟩
      rcases List.mem_filter.mp kept with ⟨scores, isSource⟩
      rcases List.mem_filter.mp scores with ⟨isEdge, noSibling⟩
      exact ⟨edge, isEdge, of_decide_eq_true isSource, rfl, of_decide_eq_true noSibling⟩
    · rintro ⟨edge, isEdge, isSource, isTarget, noSibling⟩
      refine ⟨edge, List.mem_filter.mpr ⟨List.mem_filter.mpr ⟨isEdge, ?_⟩, ?_⟩, isTarget⟩
      · exact decide_eq_true noSibling
      · exact decide_eq_true isSource
  rw [neighbors_eq, Adjacency.row, walkable, Adjacency.ofGraph, List.getElem?_map]
  by_cases isNode : before < graph.nodeCount
  · rw [List.getElem?_range isNode, Option.map_some, Option.getD_some,
      Adjacency.mem_map_fst_collapse, isEntry]
  · rw [List.getElem?_eq_none (by simpa using isNode), Option.map_none, Option.getD_none, ← isEntry,
      ends.entries_eq_nil (Nat.le_of_not_lt isNode)]

theorem EndsInside.distances_eq_some_iff_isLeast (ends : graph.EndsInside) (seeds : List Nat)
    {node : Nat} (inside : node < graph.nodeCount) (hops : Nat) :
    (graph.distances seeds)[node]? = some (some hops) ↔
      IsLeast (pathLengths graph.IsHop seeds node) hops := by
  have hop : (fun before node => node ∈ graph.neighbors before) = graph.IsHop :=
    funext₂ fun before node => propext (ends.mem_neighbors_iff before node)
  rw [distances_eq_some_iff_firstIn seeds fun _ _ => ends.lt_of_mem_row, hop,
    firstIn_iff_isLeast]
  exact and_iff_right inside

/-- A distance is the least number of edges on a path from a seed along edges
that make no siblings, and a node to which no such path leads has none.  The
queue spans two distances at most, however often the search has stepped, and it
runs dry in every graph: after no more steps than there are nodes, cycles or
not.  Of the graph it is only asked that no edge leads out of it, which the store
sees to (`EndsInside.run`). -/
theorem distances_are_shortest_paths (ends : graph.EndsInside) (seeds : List Nat) :
    (graph.distances seeds).length = graph.nodeCount ∧
    (∀ node < graph.nodeCount,
      (∀ hops, (graph.distances seeds)[node]? = some (some hops) ↔
        IsLeast (pathLengths graph.IsHop seeds node) hops) ∧
      ((graph.distances seeds)[node]? = some none ↔
        ¬∃ path, IsPath graph.IsHop seeds node path)) ∧
    (∀ turns, ∃ level near far, (graph.searchAfter seeds turns).Spans level near far) ∧
    ∃ turns ≤ graph.nodeCount, graph.searchAfter seeds turns = ⟨graph.distances seeds, []⟩ := by
  refine ⟨graph.length_distances seeds, fun node inside =>
    ⟨ends.distances_eq_some_iff_isLeast seeds inside, ?_⟩, fun turns => ?_,
    graph.exists_searchAfter_eq seeds⟩
  · have isPlace : node < (graph.distances seeds).length :=
      inside.trans_eq (graph.length_distances seeds).symm
    constructor
    · rintro unreached ⟨path, isPath⟩
      rcases isPath.exists_mem_pathLengths with ⟨links, isLength⟩
      have reached := (reachedIn_iff_mem_pathLengths links node).mpr isLength
      rcases reached.exists_firstIn with ⟨hops, -, first⟩
      have found := (ends.distances_eq_some_iff_isLeast seeds inside hops).mpr
        ((firstIn_iff_isLeast hops node).mp first)
      cases unreached.symm.trans found
    · intro noPath
      rw [List.getElem?_eq_getElem isPlace, Option.some_inj]
      refine Option.eq_none_iff_forall_ne_some.mpr fun hops found => noPath ?_
      have isDistance : (graph.distances seeds)[node]? = some (some hops) := by
        rw [List.getElem?_eq_getElem isPlace, found]
      rcases ((ends.distances_eq_some_iff_isLeast seeds inside hops).mp isDistance).1 with
        ⟨path, isPath, -⟩
      exact ⟨path, isPath⟩
  · exact (faithful_searchAfter seeds (fun _ _ => ends.lt_of_mem_row) turns).spans

/-- Files that call each other, one that is imported on the way, and a fourth
that is their sibling. -/
def siblingCycle : Graph ℚ :=
  Ranking.cycleGraph.addPathEdge ⟨"a.py", "d.py", .sibling, 1⟩

theorem endsInside_siblingCycle : siblingCycle.EndsInside :=
  have wellFormed := Ranking.wellFormed_cycleGraph.addPathEdge ⟨"a.py", "d.py", .sibling, 1⟩
  ⟨wellFormed.source_lt, wellFormed.target_lt⟩

/-- The cycle does not hold the search up, the repeated seed is no other one,
and the sibling is not reached. -/
theorem distances_are_shortest_paths_of_siblingCycle :
    siblingCycle.EndsInside ∧ IsLeast (pathLengths siblingCycle.IsHop [0, 0] 2) 2 ∧
      ¬∃ path, IsPath siblingCycle.IsHop [0, 0] 3 path := by
  have found : siblingCycle.distances [0, 0] = [some 0, some 1, some 2, none] := by
    decide +kernel
  rcases distances_are_shortest_paths endsInside_siblingCycle [0, 0] with ⟨-, distances, -⟩
  rw [found] at distances
  refine ⟨endsInside_siblingCycle, ?_, ?_⟩
  · exact ((distances 2 (by decide)).1 2).mp rfl
  · exact (distances 3 (by decide)).2.mp rfl

end Graph

end ContextPack
