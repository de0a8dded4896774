import ContextPack.Graph.Store

/-!
# Adjacency

For each node the nodes that edges of chosen kinds lead to, ascending, with
the weights of parallel edges summed.
-/

namespace ContextPack

/-- One row for each node. -/
structure Adjacency (α : Type) where
  rows : List (List (Nat × α))

namespace Adjacency

variable {α : Type} [Scalar α]

/-- Sums up entries that follow each other and lead to one node. -/
def collapseFrom (node : Nat) (total : α) : List (Nat × α) → List (Nat × α)
  | [] => [(node, total)]
  | (next, weight) :: rest =>
    if next = node then collapseFrom node (total + weight) rest
    else (node, total) :: collapseFrom next weight rest

/-- Sums up entries that follow each other and lead to one node. -/
def collapse : List (Nat × α) → List (Nat × α)
  | [] => []
  | (node, weight) :: rest => collapseFrom node weight rest

/-- The entries of a node in the order of the edges. -/
def entries (graph : Graph α) (includes : EdgeKind → Bool) (node : Nat) : List (Nat × α) :=
  (graph.edges.filter fun (key, _) => key.source = node && includes key.kind).map
    fun (key, weight) => (key.target, weight)

/-- The adjacency of a graph over the kinds that `includes` accepts. -/
def ofGraph (graph : Graph α) (includes : EdgeKind → Bool) : Adjacency α where
  rows := (List.range graph.nodeCount).map fun node => collapse (entries graph includes node)

/-- What leads out of a node. -/
def row (adjacency : Adjacency α) (node : Nat) : List (Nat × α) :=
  (adjacency.rows[node]?).getD []

/-- The whole weight that leads out of a node. -/
def outWeight (adjacency : Adjacency α) (node : Nat) : α :=
  Scalar.sum ((adjacency.row node).map Prod.snd)

end Adjacency

/-- The adjacency that the ranking walk follows. -/
def Graph.walkable {α : Type} [Scalar α] (graph : Graph α) : Adjacency α :=
  Adjacency.ofGraph graph EdgeKind.isWalkable

end ContextPack
