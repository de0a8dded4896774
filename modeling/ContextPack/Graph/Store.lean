import ContextPack.Graph.Edge
import Std.Data.TreeMap.Lemmas

/-!
# The reference graph

Nodes are paths, numbered in the order they came in.  An index finds the number
of a path.  Between two nodes there is at most one edge of a kind; adding another
one sums the weights.  Edges are kept in ascending order of source, target and
kind.
-/

namespace ContextPack

/-- What tells edges apart. -/
structure EdgeKey where
  source : Nat
  target : Nat
  kind : EdgeKind
deriving DecidableEq

/-- Source before target before kind. -/
def EdgeKey.order (a b : EdgeKey) : Ordering :=
  match compare a.source b.source with
  | .eq =>
    match compare a.target b.target with
    | .eq => compare a.kind.place b.kind.place
    | other => other
  | other => other

structure Graph (α : Type) where
  /-- The path of node `i` stands at place `i`. -/
  paths : List String
  /-- The number of each path. -/
  index : Std.TreeMap String Nat
  edges : List (EdgeKey × α)
  /-- The index finds a path exactly where it stands. -/
  indexed : ∀ (path : String) (node : Nat), index[path]? = some node ↔ paths[node]? = some path

namespace Graph

variable {α : Type}

def empty : Graph α where
  paths := []
  index := ∅
  edges := []
  indexed path node := by simp

def nodeCount (graph : Graph α) : Nat := graph.paths.length

def edgeCount (graph : Graph α) : Nat := graph.edges.length

/-- The number of a path. -/
def node? (graph : Graph α) (path : String) : Option Nat := graph.index[path]?

/-- The path of a number. -/
def path? (graph : Graph α) (node : Nat) : Option String := graph.paths[node]?

theorem node?_eq_some_iff (graph : Graph α) (path : String) (node : Nat) :
    graph.node? path = some node ↔ graph.paths[node]? = some path :=
  graph.indexed path node

/-- A path that is not in the index takes the next number in it, and the place
of that number in the list. -/
theorem indexed_insert {graph : Graph α} {path : String} (isNew : graph.node? path = none)
    (other : String) (node : Nat) :
    (graph.index.insert path graph.paths.length)[other]? = some node ↔
      (graph.paths ++ [path])[node]? = some other := by
  have absent : path ∉ graph.paths := fun stands => by
    rcases List.getElem?_of_mem stands with ⟨place, isPlace⟩
    cases isNew.symm.trans ((graph.node?_eq_some_iff path place).mpr isPlace)
  simp only [Std.TreeMap.getElem?_insert, Std.compare_eq_iff_eq]
  rcases Nat.lt_trichotomy node graph.paths.length with below | last | above
  · rw [List.getElem?_append_left below]
    split
    · next same =>
        cases same
        exact iff_of_false (fun last => Nat.ne_of_gt below (Option.some.inj last))
          fun stands => absent (List.mem_of_getElem? stands)
    · exact graph.indexed other node
  · cases last
    rw [List.getElem?_concat_length, Option.some_inj]
    split
    · next same => exact iff_of_true rfl same
    · next different =>
        refine iff_of_false (fun found => ?_) different
        exact absurd ((graph.indexed other _).mp found) (by simp)
  · rw [List.getElem?_eq_none (by simpa using Nat.succ_le_of_lt above)]
    split
    · exact iff_of_false (fun last => Nat.ne_of_lt above (Option.some.inj last)) nofun
    · rw [graph.indexed, List.getElem?_eq_none (Nat.le_of_lt above)]

/-- The graph with a path in it, and the path's number. -/
def addNode (graph : Graph α) (path : String) : Graph α × Nat :=
  match known : graph.node? path with
  | some node => (graph, node)
  | none =>
    ({ graph with
        paths := graph.paths ++ [path]
        index := graph.index.insert path graph.paths.length
        indexed := indexed_insert known }, graph.paths.length)

variable [Scalar α]

def addAt (key : EdgeKey) (weight : α) : List (EdgeKey × α) → List (EdgeKey × α)
  | [] => [(key, weight)]
  | (other, total) :: rest =>
    match key.order other with
    | .lt => (key, weight) :: (other, total) :: rest
    | .eq => (other, total + weight) :: rest
    | .gt => (other, total) :: addAt key weight rest

/-- Adds an edge between nodes; self loops and improper weights are dropped. -/
def addEdge (graph : Graph α) (source target : Nat) (kind : EdgeKind) (weight : α) : Graph α :=
  if source = target || !isEdgeWeight weight then graph
  else { graph with edges := addAt ⟨source, target, kind⟩ weight graph.edges }

def addPathEdge (graph : Graph α) (edge : PathEdge α) : Graph α :=
  let (graph, source) := graph.addNode edge.source
  let (graph, target) := graph.addNode edge.target
  graph.addEdge source target edge.kind edge.weight

/-- Takes in a producer's edges. -/
def merge (graph : Graph α) (buffer : EdgeBuffer α) : Graph α :=
  buffer.edges.foldl addPathEdge graph

/-- The weight at a key. -/
def weight? (graph : Graph α) (source target : Nat) (kind : EdgeKind) : Option α :=
  (graph.edges.find? fun (key, _) => key = ⟨source, target, kind⟩).map Prod.snd

/-- How many edges are of a kind. -/
def countOfKind (graph : Graph α) (kind : EdgeKind) : Nat :=
  (graph.edges.filter fun (key, _) => key.kind = kind).length

/-- Ascending numbers without repeats. -/
def distinctAscending (nodes : List Nat) : List Nat :=
  (nodes.mergeSort (· ≤ ·)).foldr
    (fun node kept => if kept.head? = some node then kept else node :: kept) []

/-- Targets of a kind of edge leaving any of the sources, ascending. -/
def targetsOfKind (graph : Graph α) (sources : List Nat) (kind : EdgeKind) : List Nat :=
  distinctAscending <| (graph.edges.filter fun (key, _) =>
    key.kind = kind && sources.contains key.source).map fun (key, _) => key.target

end Graph

end ContextPack
