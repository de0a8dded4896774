import ContextPack.Graph.Adjacency

/-!
# Hop distances

Breadth-first search over a queue.  A node gets its distance when it is met, and
waits from then on; the nodes leave the queue in the order in which they were
met.  A node is met once, so the queue runs dry.
-/

namespace ContextPack

/-- Where the search stands. -/
structure Search where
  /-- The distance of each node, as soon as it was met. -/
  met : List (Option Nat)
  /-- Nodes that were met and whose neighbours were not looked at, oldest first. -/
  waiting : List Nat
deriving DecidableEq

namespace Search

/-- A node that was not met so far gets a distance and joins the queue. -/
def meet (hops : Nat) (search : Search) (node : Nat) : Search :=
  if search.met[node]? = some none then
    { met := search.met.set node (some hops), waiting := search.waiting ++ [node] }
  else search

/-- The seeds stand at distance zero, each once. -/
def start (nodeCount : Nat) (seeds : List Nat) : Search :=
  seeds.foldl (meet 0) { met := List.replicate nodeCount none, waiting := [] }

/-- How far the neighbours of a node are if they are met from it. -/
def beyond (search : Search) (node : Nat) : Nat :=
  match search.met[node]? with
  | some (some hops) => hops + 1
  | _ => 0

/-- The first node of the queue leaves it, and its neighbours are met. -/
def step (neighbors : Nat → List Nat) (search : Search) : Search :=
  match search.waiting with
  | [] => search
  | node :: rest =>
    (neighbors node).foldl (meet (search.beyond node)) { search with waiting := rest }

/-- The nodes that are still to leave the queue: those in it and those that were
not met. -/
def pending (search : Search) : Nat :=
  search.waiting.length + search.met.count none

/-- Meeting a node moves it from one part of the pending nodes to the other. -/
theorem pending_meet (hops : Nat) (search : Search) (node : Nat) :
    (search.meet hops node).pending = search.pending := by
  rw [meet]
  split
  · next isNew =>
      rcases List.getElem?_eq_some_iff.mp isNew with ⟨inside, isNone⟩
      have counted : 0 < search.met.count none :=
        List.count_pos_iff.mpr (isNone ▸ List.getElem_mem inside)
      have remaining : (search.met.set node (some hops)).count none = search.met.count none - 1 := by
        simp [List.count_set inside, isNone]
      rw [pending, pending, List.length_append, List.length_singleton, remaining]
      omega
  · rfl

theorem pending_foldl_meet (hops : Nat) (search : Search) (nodes : List Nat) :
    (nodes.foldl (meet hops) search).pending = search.pending := by
  induction nodes generalizing search with
  | nil => rfl
  | cons node rest inductionHypothesis =>
      rw [List.foldl_cons, inductionHypothesis, pending_meet]

theorem pending_step_lt (neighbors : Nat → List Nat) {search : Search}
    (waits : search.waiting ≠ []) : (search.step neighbors).pending < search.pending := by
  rcases List.exists_cons_of_ne_nil waits with ⟨node, rest, queue⟩
  rw [step, queue, pending_foldl_meet, pending, pending, queue]
  exact Nat.add_lt_add_right (Nat.lt_succ_self rest.length) _

/-- Steps until the queue is empty. -/
def run (neighbors : Nat → List Nat) (search : Search) : Search :=
  if search.waiting = [] then search else run neighbors (search.step neighbors)
termination_by search.pending
decreasing_by exact pending_step_lt neighbors ‹_›

end Search

/-- The nodes that the walkable edges of a node lead to. -/
def Graph.neighbors {α : Type} [Scalar α] (graph : Graph α) : Nat → List Nat :=
  let adjacency := graph.walkable
  fun node => (adjacency.row node).map Prod.fst

/-- For each node the hops from the nearest seed along walkable edges, none
where no path leads. -/
def Graph.distances {α : Type} [Scalar α] (graph : Graph α) (seeds : List Nat) :
    List (Option Nat) :=
  ((Search.start graph.nodeCount seeds).run graph.neighbors).met

end ContextPack
