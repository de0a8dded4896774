import ContextPack.Graph.Store

/-!
# Signals from seeds

For a node that is no seed, the strongest edge of a kind that leads to it from
a seed.
-/

namespace ContextPack.Graph

variable {α : Type} [Scalar α]

def seedEdges (graph : Graph α) (seeds : List Nat) : List (EdgeKey × α) :=
  graph.edges.filter fun (key, _) => seeds.contains key.source

/-- The weight of the strongest edge of a kind that leads to a node, zero if
none does. -/
def strongest (edges : List (EdgeKey × α)) (kind : EdgeKind) (node : Nat) : α :=
  edges.foldl
    (fun best (key, weight) =>
      if key.target = node && key.kind = kind then Scalar.maximum best weight else best)
    Scalar.zero

end ContextPack.Graph
