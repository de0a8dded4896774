import ContextPack.Graph.Adjacency
import ContextPack.Settings.Basic

/-!
# Ranking by a random walk with restart

A walker stands at the seeds.  With probability `alpha` it goes on along an
edge, chosen in proportion to weight, and otherwise it starts again at a seed;
from a node without a way out it always starts again.  The rank of a node is
the share of time spent there, found by iterating from the start vector until
the total change falls below a tolerance.

The mass of a node after a step is gathered from the nodes that lead to it, in
ascending order.
-/

namespace ContextPack

/-- Result of ranking. -/
structure Ranking (α : Type) where
  scores : List α
  iterations : Nat
  converged : Bool

namespace Ranking

variable {α : Type} [Scalar α]

open Scalar (zero one lt le isZero)

/-- The score of a node, zero for a number that is no node. -/
def score (ranking : Ranking α) (node : Nat) : α := (ranking.scores[node]?).getD zero

def total (ranking : Ranking α) : α := Scalar.sum ranking.scores

/-- The seeds that are nodes, ascending and without repeats. -/
def validSeeds (nodeCount : Nat) (seeds : List Nat) : List Nat :=
  Graph.distinctAscending (seeds.filter (· < nodeCount))

/-- The vector of restarts: the same share for every seed. -/
def restart (nodeCount : Nat) (seeds : List Nat) : List α :=
  let share : α := one / Scalar.ofNat seeds.length
  (List.range nodeCount).map fun node => if seeds.contains node then share else zero

/-- For each node the nodes that lead to it, ascending, with the weights. -/
def incoming (nodeCount : Nat) (adjacency : Adjacency α) : List (List (Nat × α)) :=
  (List.range nodeCount).map fun target =>
    (adjacency.rows.zipIdx).filterMap fun (row, source) =>
      (row.find? fun (node, _) => node = target).map fun (_, weight) => (source, weight)

/-- What does not change from step to step. -/
structure Walk (α : Type) where
  alpha : α
  restart : List α
  outWeights : List α
  incoming : List (List (Nat × α))

/-- Mass on nodes without a way out. -/
def dangling (walk : Walk α) (scores : List α) : α :=
  (scores.zip walk.outWeights).foldl
    (fun total (mass, out) =>
      if isZero mass then total else if le out zero then total + mass else total)
    zero

/-- What each node gives away for a unit of edge weight; none where there is
nothing to give or no way out. -/
def spreads (walk : Walk α) (scores : List α) : Array (Option α) :=
  ((scores.zip walk.outWeights).map fun (mass, out) =>
    if isZero mass then none
    else if le out zero then none
    else some (walk.alpha * mass / out)).toArray

/-- What a node receives along edges. -/
def gathered (spreads : Array (Option α)) (sources : List (Nat × α)) : α :=
  sources.foldl
    (fun total (source, weight) =>
      match spreads[source]? with
      | some (some spread) => total + spread * weight
      | _ => total)
    zero

def step (walk : Walk α) (scores : List α) : List α :=
  let lost := dangling walk scores
  let given := spreads walk scores
  (walk.incoming.zip walk.restart).map fun (sources, share) =>
    gathered given sources + ((one - walk.alpha) * share + walk.alpha * lost * share)

/-- Total change between two vectors. -/
def change (next scores : List α) : α :=
  Scalar.sum ((next.zip scores).map fun (a, b) => Scalar.absolute (a - b))

/-- Steps until the change is below the tolerance, at most as many as given. -/
def iterate (walk : Walk α) (tolerance : α) : Nat → Nat → List α → Ranking α
  | 0, taken, scores => ⟨scores, taken, false⟩
  | left + 1, taken, scores =>
    let next := step walk scores
    if lt (change next scores) tolerance then ⟨next, taken + 1, true⟩
    else iterate walk tolerance left (taken + 1) next

/-- Scores scaled to a sum of one, if their sum is positive. -/
def normalize (ranking : Ranking α) : Ranking α :=
  let total := ranking.total
  if lt zero total then { ranking with scores := ranking.scores.map (· / total) } else ranking

/-- The walk over a graph that starts again at the given seeds. -/
def Walk.of (graph : Graph α) (seeds : List Nat) (alpha : α) : Walk α :=
  let adjacency := graph.walkable
  { alpha := alpha
    restart := Ranking.restart graph.nodeCount seeds
    outWeights := (List.range graph.nodeCount).map adjacency.outWeight
    incoming := Ranking.incoming graph.nodeCount adjacency }

/-- Ranks the nodes of a graph by nearness to the seeds.  Seeds that are no
nodes are passed over; without any seed every score is zero. -/
def ofGraph (graph : Graph α) (seeds : List Nat) (settings : WalkSettings α) : Ranking α :=
  let seeds := validSeeds graph.nodeCount seeds
  if seeds.isEmpty then ⟨List.replicate graph.nodeCount zero, 0, true⟩
  else
    let walk := Walk.of graph seeds settings.alpha
    (iterate walk settings.tolerance settings.maxIterations 0 walk.restart).normalize

end Ranking

end ContextPack
