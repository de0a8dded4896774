import ContextPack.Proofs.Graph.Store

namespace ContextPack

/-!
# Everything that can be done to a graph

A graph comes about by calls.  Paths become nodes, nodes are joined, and
buffers that producers have filled are taken in, in any order and any number.
Whatever the calls were, the store is well formed after them, numbers stay
with their paths, and the weight between two paths is the sum of what was
offered for them.

What was offered is a list of edges between paths.  It forgets in which call
an edge came, and that is why buffers and merges can be split and reordered.
-/

namespace EdgeBuffer

section Buffers

variable {α : Type} [Scalar α]

theorem ofList_append (first second : List (PathEdge α)) :
    ofList (first ++ second) = (ofList first).append (ofList second) := by
  simp [ofList, append]

theorem push_eq (buffer : EdgeBuffer α) (edge : PathEdge α) :
    buffer.push edge.source edge.target edge.kind edge.weight = buffer.append (ofList [edge]) := by
  rw [push, append, ofList, List.filter_singleton]
  split
  · next dropped => simp [dropped]
  · next taken => simp [taken]

end Buffers

/-- How a producer fills a buffer. -/
inductive Recipe (α : Type) where
  | empty
  | push (before : Recipe α) (edge : PathEdge α)
  | extend (before other : Recipe α)

namespace Recipe

variable {α : Type} [Scalar α]

def build : Recipe α → EdgeBuffer α
  | empty => .empty
  | push before edge => before.build.push edge.source edge.target edge.kind edge.weight
  | extend before other => before.build.append other.build

/-- Every edge that was handed in, whether the buffer took it or not. -/
def offered : Recipe α → List (PathEdge α)
  | empty => []
  | push before edge => before.offered ++ [edge]
  | extend before other => before.offered ++ other.offered

/-- Only what was handed in matters, not in which portions. -/
theorem build_eq (recipe : Recipe α) : recipe.build = ofList recipe.offered := by
  induction recipe with
  | empty => rfl
  | push before edge inductionHypothesis =>
      rw [build, inductionHypothesis, push_eq, offered, ofList_append]
  | extend before other first second => rw [build, first, second, offered, ofList_append]

end Recipe
end EdgeBuffer

namespace Graph

/-! ## Calls -/

inductive Call (α : Type) where
  | addNode (path : String)
  | addEdge (source target : Nat) (kind : EdgeKind) (weight : α)
  | merge (recipe : EdgeBuffer.Recipe α)

namespace Call

variable {α : Type} [Scalar α]

def apply (graph : Graph α) : Call α → Graph α
  | addNode path => (graph.addNode path).1
  | addEdge source target kind weight => graph.addEdge source target kind weight
  | merge recipe => graph.merge recipe.build

/-- An edge is added between numbers that the graph has given out. -/
def Admissible (graph : Graph α) : Call α → Prop
  | addEdge source target _ _ => source < graph.nodeCount ∧ target < graph.nodeCount
  | _ => True

instance (graph : Graph α) : (call : Call α) → Decidable (call.Admissible graph)
  | addNode _ => inferInstanceAs (Decidable True)
  | addEdge .. => inferInstanceAs (Decidable (_ ∧ _))
  | merge _ => inferInstanceAs (Decidable True)

/-- The edges that a call offers, told by the paths of their ends. -/
def offered (graph : Graph α) : Call α → List (PathEdge α)
  | addNode _ => []
  | addEdge source target kind weight =>
    match graph.path? source, graph.path? target with
    | some first, some second => [⟨first, second, kind, weight⟩]
    | _, _ => []
  | merge recipe => recipe.offered

end Call

section Calls

variable {α : Type} [Scalar α]

def run (graph : Graph α) (calls : List (Call α)) : Graph α := calls.foldl Call.apply graph

def Admissible (graph : Graph α) : List (Call α) → Prop
  | [] => True
  | call :: rest => call.Admissible graph ∧ Admissible (call.apply graph) rest

instance decidableAdmissible (graph : Graph α) :
    (calls : List (Call α)) → Decidable (graph.Admissible calls)
  | [] => inferInstanceAs (Decidable True)
  | call :: rest =>
    have := decidableAdmissible (call.apply graph) rest
    inferInstanceAs (Decidable (_ ∧ _))

/-- The edges that calls offer, one call after another. -/
def offered (graph : Graph α) : List (Call α) → List (PathEdge α)
  | [] => []
  | call :: rest => call.offered graph ++ offered (call.apply graph) rest

theorem run_append (graph : Graph α) (earlier later : List (Call α)) :
    graph.run (earlier ++ later) = (graph.run earlier).run later :=
  List.foldl_append

theorem admissible_append {graph : Graph α} {earlier later : List (Call α)} :
    graph.Admissible (earlier ++ later) ↔
      graph.Admissible earlier ∧ (graph.run earlier).Admissible later := by
  induction earlier generalizing graph with
  | nil => simp [Admissible, run]
  | cons call rest inductionHypothesis =>
      rw [List.cons_append, Admissible, Admissible, inductionHypothesis, and_assoc]
      rfl

/-! ## Numbers stay with their paths -/

@[simp] theorem addEdge_paths (graph : Graph α) (source target : Nat) (kind : EdgeKind)
    (weight : α) : (graph.addEdge source target kind weight).paths = graph.paths := by
  unfold addEdge
  split
  · rfl
  · rfl

theorem addPathEdge_paths_isPrefix (graph : Graph α) (edge : PathEdge α) :
    graph.paths <+: (graph.addPathEdge edge).paths := by
  rw [addPathEdge_eq, addEdge_paths]
  have withSource := addNode_paths_isPrefix graph edge.source
  exact withSource.trans (addNode_paths_isPrefix _ edge.target)

theorem merge_paths_isPrefix (graph : Graph α) (buffer : EdgeBuffer α) :
    graph.paths <+: (graph.merge buffer).paths := by
  rcases buffer with ⟨edges⟩
  induction edges generalizing graph with
  | nil => exact List.prefix_rfl
  | cons edge rest inductionHypothesis =>
      exact (addPathEdge_paths_isPrefix graph edge).trans (inductionHypothesis _)

theorem Call.paths_isPrefix_apply (graph : Graph α) (call : Call α) :
    graph.paths <+: (call.apply graph).paths := by
  cases call with
  | addNode path => exact addNode_paths_isPrefix graph path
  | addEdge source target kind weight =>
      rw [Call.apply, addEdge_paths]
  | merge recipe => exact merge_paths_isPrefix graph recipe.build

theorem paths_isPrefix_run (graph : Graph α) (calls : List (Call α)) :
    graph.paths <+: (graph.run calls).paths := by
  induction calls generalizing graph with
  | nil => exact List.prefix_rfl
  | cons call rest inductionHypothesis =>
      exact (call.paths_isPrefix_apply graph).trans (inductionHypothesis _)

omit [Scalar α] in
/-- A path keeps its number as paths come in behind it. -/
theorem node?_of_isPrefix {graph larger : Graph α} (continued : graph.paths <+: larger.paths)
    {path : String} {node : Nat} (found : graph.node? path = some node) :
    larger.node? path = some node := by
  have stands := (graph.node?_eq_some_iff path node).mp found
  rw [node?_eq_some_iff, ← stands]
  rcases continued with ⟨others, extended⟩
  rw [← extended, List.getElem?_append_left (List.getElem?_eq_some_iff.mp stands).1]

end Calls

/-! ## What calls add up to -/

section Totals

variable {graph : Graph ℚ}

theorem WellFormed.apply (wellFormed : graph.WellFormed) {call : Call ℚ}
    (admissible : call.Admissible graph) : (call.apply graph).WellFormed := by
  cases call with
  | addNode path => exact wellFormed.addNode path
  | addEdge source target kind weight =>
      exact wellFormed.addEdge admissible.1 admissible.2 kind weight
  | merge recipe => exact wellFormed.merge recipe.build

theorem WellFormed.run (wellFormed : graph.WellFormed) {calls : List (Call ℚ)}
    (admissible : graph.Admissible calls) : (graph.run calls).WellFormed := by
  induction calls generalizing graph with
  | nil => exact wellFormed
  | cons call rest inductionHypothesis =>
      exact inductionHypothesis (wellFormed.apply admissible.1) admissible.2

/-- A call adds to the weight between two paths what it offers for them. -/
theorem WellFormed.weightBetween_apply (wellFormed : graph.WellFormed) {call : Call ℚ}
    (admissible : call.Admissible graph) (source target : String) (kind : EdgeKind) :
    (call.apply graph).weightBetween source target kind =
      graph.weightBetween source target kind +
        ((call.offered graph).map (contribution source target kind)).sum := by
  cases call with
  | addNode path =>
      rw [Call.apply, wellFormed.weightBetween_addNode, Call.offered, List.map_nil, List.sum_nil,
        add_zero]
  | addEdge first second addedKind weight =>
      rcases exists_path?_iff.mpr admissible.1 with ⟨firstPath, firstStands⟩
      rcases exists_path?_iff.mpr admissible.2 with ⟨secondPath, secondStands⟩
      let added : PathEdge ℚ := ⟨firstPath, secondPath, addedKind, weight⟩
      have single : Call.offered graph (.addEdge first second addedKind weight) = [added] := by
        simp only [Call.offered, firstStands, secondStands, added]
      rw [single, List.map_singleton, List.sum_singleton]
      exact @weightBetween_addEdge graph added first second firstStands
        secondStands source target kind
  | merge recipe =>
      rw [Call.apply, wellFormed.weightBetween_merge, recipe.build_eq, sum_contribution_ofList,
        Call.offered]

theorem WellFormed.weightBetween_run (wellFormed : graph.WellFormed) {calls : List (Call ℚ)}
    (admissible : graph.Admissible calls) (source target : String) (kind : EdgeKind) :
    (graph.run calls).weightBetween source target kind =
      graph.weightBetween source target kind +
        ((graph.offered calls).map (contribution source target kind)).sum := by
  induction calls generalizing graph with
  | nil => simp [Graph.run, Graph.offered]
  | cons call rest inductionHypothesis =>
      have later := inductionHypothesis (wellFormed.apply admissible.1) admissible.2
      rw [wellFormed.weightBetween_apply admissible.1, add_assoc] at later
      rw [Graph.offered, List.map_append, List.sum_append]
      exact later

/-- The weights among those offered that count for a kind between two paths. -/
def counting (source target : String) (kind : EdgeKind) (offered : List (PathEdge ℚ)) : List ℚ :=
  (offered.filter fun edge => edge.source = source ∧ edge.target = target ∧ edge.kind = kind ∧
    source ≠ target ∧ 0 < edge.weight).map PathEdge.weight

theorem sum_contribution (source target : String) (kind : EdgeKind)
    (offered : List (PathEdge ℚ)) :
    (offered.map (contribution source target kind)).sum =
      (counting source target kind offered).sum := by
  rw [counting, sum_map_filter]
  simp only [decide_eq_true_eq]
  rfl

/-- What counts is positive, so that nothing adds up to zero but nothing. -/
theorem sum_counting_eq_zero_iff (source target : String) (kind : EdgeKind)
    (offered : List (PathEdge ℚ)) :
    (counting source target kind offered).sum = 0 ↔ counting source target kind offered = [] := by
  have positive : ∀ weight ∈ counting source target kind offered, 0 < weight := by
    intro weight member
    rcases List.mem_map.mp member with ⟨edge, counted, rfl⟩
    have conditions := (List.mem_filter.mp counted).2
    simp only [decide_eq_true_eq] at conditions
    exact conditions.2.2.2.2
  constructor
  · intro nothing
    by_contra some
    exact (List.sum_pos _ positive some).ne' nothing
  · intro none
    rw [none, List.sum_nil]

theorem weightBetween?_run {calls : List (Call ℚ)} (admissible : Graph.empty.Admissible calls)
    (source target : String) (kind : EdgeKind) :
    (Graph.empty.run calls).weightBetween? source target kind =
      if counting source target kind (Graph.empty.offered calls) = [] then none
      else some (counting source target kind (Graph.empty.offered calls)).sum := by
  rw [(wellFormed_empty.run admissible).weightBetween?_eq,
    wellFormed_empty.weightBetween_run admissible, weightBetween_empty, zero_add, sum_contribution]
  exact if_congr (sum_counting_eq_zero_iff source target kind _) rfl rfl

/-- Looking up by numbers is looking up by the paths that stand there. -/
theorem weight?_eq_weightBetween? {first second : Nat} {source target : String}
    (firstStands : graph.path? first = some source)
    (secondStands : graph.path? second = some target) (kind : EdgeKind) :
    graph.weight? first second kind = graph.weightBetween? source target kind := by
  rw [weightBetween?, (graph.node?_eq_some_iff _ _).mpr firstStands,
    (graph.node?_eq_some_iff _ _).mpr secondStands]

theorem counting_perm {offered others : List (PathEdge ℚ)} (same : others.Perm offered)
    (source target : String) (kind : EdgeKind) :
    (counting source target kind others).Perm (counting source target kind offered) :=
  (same.filter _).map _

end Totals

/-- After any calls on the empty graph, paths and numbers correspond and stay so,
the edges are proper, and weights are the sums of what was offered.  Which call
offered what, and when, is of no account. -/
theorem run_consistent {calls : List (Call ℚ)} (admissible : Graph.empty.Admissible calls) :
    let graph := Graph.empty.run calls
    let offered := Graph.empty.offered calls
    graph.paths.Nodup ∧
    (∀ path node, graph.node? path = some node ↔ graph.path? node = some path) ∧
    (∀ node, (∃ path, graph.path? node = some path) ↔ node < graph.nodeCount) ∧
    (∀ earlier later, calls = earlier ++ later → ∀ path node,
      (Graph.empty.run earlier).node? path = some node → graph.node? path = some node) ∧
    (∀ earlier path later, calls = earlier ++ .addNode path :: later →
      graph.node? path = some ((Graph.empty.run earlier).addNode path).2) ∧
    (graph.edges.map Prod.fst).Nodup ∧
    (∀ edge ∈ graph.edges, edge.1.source < graph.nodeCount ∧ edge.1.target < graph.nodeCount ∧
      edge.1.source ≠ edge.1.target ∧ 0 < edge.2) ∧
    (∀ first second source target, graph.path? first = some source →
      graph.path? second = some target → ∀ kind,
        graph.weight? first second kind =
          if counting source target kind offered = [] then none
          else some (counting source target kind offered).sum) ∧
    (∀ others, Graph.empty.Admissible others → (Graph.empty.offered others).Perm offered →
      ∀ source target kind, (Graph.empty.run others).weightBetween? source target kind =
        graph.weightBetween? source target kind) := by
  intro graph offered
  have wellFormed : graph.WellFormed := wellFormed_empty.run admissible
  have stays : ∀ earlier later, calls = earlier ++ later → ∀ path node,
      (Graph.empty.run earlier).node? path = some node → graph.node? path = some node := by
    intro earlier later parts path node found
    have continued : (Graph.empty.run earlier).paths <+: graph.paths := by
      simp only [graph, parts, run_append]
      exact paths_isPrefix_run _ later
    exact node?_of_isPrefix continued found
  refine ⟨graph.paths_nodup, graph.node?_eq_some_iff,
    fun node => exists_path?_iff, stays, ?_, wellFormed.keys_nodup, ?_, ?_, ?_⟩
  · intro earlier path later parts
    apply stays (earlier ++ [.addNode path]) later (by rw [parts, List.append_assoc]; rfl)
    have before : (Graph.empty.run earlier).WellFormed := by
      rw [parts] at admissible
      exact wellFormed_empty.run (admissible_append.mp admissible).1
    rw [run_append]
    exact (node?_eq_some_iff _ _ _).mpr (getElem?_addNode _ path)
  · intro edge member
    exact ⟨wellFormed.source_lt edge member, wellFormed.target_lt edge member,
      wellFormed.source_ne_target edge member, wellFormed.weight_pos edge member⟩
  · intro first second source target firstStands secondStands kind
    rw [weight?_eq_weightBetween? firstStands secondStands]
    exact weightBetween?_run admissible source target kind
  · intro others alsoAdmissible same source target kind
    have counted := counting_perm same source target kind
    rw [weightBetween?_run alsoAdmissible, weightBetween?_run admissible, counted.sum_eq]
    exact if_congr ⟨fun none => List.nil_perm.mp (none ▸ counted),
      fun none => List.perm_nil.mp (none ▸ counted)⟩ rfl rfl

/-- Two files joined by hand and by two producers, one of which also offers a
self loop, an edge without weight and a file that is no node yet. -/
def sampleCalls : List (Call ℚ) :=
  [.addNode "app.rs", .addNode "lib.rs", .addEdge 0 1 .forwardCall 2,
    .merge (.extend (.push (.push .empty ⟨"lib.rs", "lib.rs", .lexical, 1⟩)
      ⟨"app.rs", "lib.rs", .forwardCall, 0⟩) (.push .empty ⟨"new.rs", "app.rs", .cochange, 4⟩)),
    .merge (.push .empty ⟨"app.rs", "lib.rs", .forwardCall, 3⟩)]

theorem run_consistent_of_sample :
    Graph.empty.Admissible sampleCalls ∧
      (Graph.empty.run sampleCalls).weight? 0 1 .forwardCall = some 5 ∧
      (Graph.empty.run sampleCalls).weight? 1 0 .forwardCall = none ∧
      (Graph.empty.run sampleCalls).node? "new.rs" = some 2 := by
  have admissible : Graph.empty.Admissible sampleCalls := by decide
  rcases run_consistent admissible with ⟨-, numbered, -, -, -, -, -, weights, -⟩
  have forward : counting "app.rs" "lib.rs" .forwardCall (Graph.empty.offered sampleCalls) = [2, 3] := by
    decide
  have backward : counting "lib.rs" "app.rs" .forwardCall (Graph.empty.offered sampleCalls) = [] := by
    decide
  refine ⟨admissible, ?_, ?_, ?_⟩
  · rw [weights 0 1 "app.rs" "lib.rs" (by decide) (by decide), forward,
      if_neg (List.cons_ne_nil _ _)]
    norm_num
  · rw [weights 1 0 "lib.rs" "app.rs" (by decide) (by decide), backward]
    rfl
  · exact (numbered "new.rs" 2).mpr (by decide)

end Graph
end ContextPack
