import ContextPack.Graph.Store
import ContextPack.Proofs.Number.Exact
import Mathlib.Algebra.BigOperators.Group.List.Basic
import Mathlib.Algebra.Order.BigOperators.Group.List
import Mathlib.Data.List.Nodup

namespace ContextPack

/-!
# The graph as a store

What every graph satisfies, however it came about: paths are numbered without
repeats, edges stand in the order of their keys, each joins two different
nodes, and its weight is positive.  `Graph.WellFormed` states this, and every
operation of the store keeps it.

The meaning of a store is its weight between two paths, the sum over all edges
that join them.  Numbers of nodes depend on the order in which edges come in;
the weight between paths does not, since adding an edge adds its weight there
and changes nothing elsewhere.
-/

/-! ## The order of keys -/

theorem EdgeKind.place_injective {first second : EdgeKind} (same : first.place = second.place) :
    first = second := by
  cases first <;> cases second <;> first | rfl | cases same

namespace EdgeKey

/-- The key comes first in the order of the store. -/
def Before (a b : EdgeKey) : Prop :=
  a.source < b.source ∨ a.source = b.source ∧
    (a.target < b.target ∨ a.target = b.target ∧ a.kind.place < b.kind.place)

theorem Before.trans {a b c : EdgeKey} (first : a.Before b) (second : b.Before c) :
    a.Before c := by
  unfold Before at *
  omega

theorem Before.ne {a b : EdgeKey} (before : a.Before b) : a ≠ b := by
  rintro rfl
  unfold Before at before
  omega

/-- The three outcomes of a comparison of keys. -/
theorem order_cases (a b : EdgeKey) :
    (a.order b = .lt ∧ a.Before b) ∨ (a.order b = .eq ∧ a = b) ∨
      (a.order b = .gt ∧ b.Before a) := by
  rcases Nat.lt_trichotomy a.source b.source with below | sameSource | above
  · exact Or.inl ⟨by rw [order, Nat.compare_eq_lt.mpr below], Or.inl below⟩
  · rcases Nat.lt_trichotomy a.target b.target with below | sameTarget | above
    · refine Or.inl ⟨?_, Or.inr ⟨sameSource, Or.inl below⟩⟩
      rw [order, Nat.compare_eq_eq.mpr sameSource, Nat.compare_eq_lt.mpr below]
    · have byKind : a.order b = compare a.kind.place b.kind.place := by
        rw [order, Nat.compare_eq_eq.mpr sameSource, Nat.compare_eq_eq.mpr sameTarget]
      rw [byKind]
      rcases Nat.lt_trichotomy a.kind.place b.kind.place with below | sameKind | above
      · exact Or.inl ⟨Nat.compare_eq_lt.mpr below,
          Or.inr ⟨sameSource, Or.inr ⟨sameTarget, below⟩⟩⟩
      · refine Or.inr (Or.inl ⟨Nat.compare_eq_eq.mpr sameKind, ?_⟩)
        cases a
        cases b
        exact congr (congr (congrArg EdgeKey.mk sameSource) sameTarget)
          (EdgeKind.place_injective sameKind)
      · exact Or.inr (Or.inr ⟨Nat.compare_eq_gt.mpr above,
          Or.inr ⟨sameSource.symm, Or.inr ⟨sameTarget.symm, above⟩⟩⟩)
    · refine Or.inr (Or.inr ⟨?_, Or.inr ⟨sameSource.symm, Or.inl above⟩⟩)
      rw [order, Nat.compare_eq_eq.mpr sameSource, Nat.compare_eq_gt.mpr above]
  · exact Or.inr (Or.inr ⟨by rw [order, Nat.compare_eq_gt.mpr above], Or.inl above⟩)

end EdgeKey

theorem isEdgeWeight_rat (weight : ℚ) : isEdgeWeight weight = decide (0 < weight) := by
  rw [isEdgeWeight, Scalar.isFinite_rat, Scalar.zero_rat, Scalar.le_rat, Bool.true_and,
    ← decide_not]
  exact decide_eq_decide.mpr not_le

/-! ## Both directions of relations -/

/-- If of each pair one end is a seed and the other is not, its directions are
different and of different pairs. -/
theorem nodup_bothWays {pairs : List (String × String)} (distinct : pairs.Nodup)
    {isSeed : String → Prop} (apart : ∀ pair ∈ pairs, isSeed pair.1 ∧ ¬isSeed pair.2) :
    (pairs.flatMap fun pair => [pair, pair.swap]).Nodup := by
  have crossed (first second : String × String) (isFirst : first ∈ pairs)
      (isSecond : second ∈ pairs) : first ≠ second.swap := by
    rintro rfl
    exact (apart second isSecond).2 (apart second.swap isFirst).1
  rw [List.nodup_flatMap]
  refine ⟨fun pair member => ?_, distinct.imp_of_mem ?_⟩
  · exact List.nodup_cons.mpr
      ⟨by simpa using crossed pair pair member member, List.nodup_singleton pair.swap⟩
  · intro first second isFirst isSecond different
    have swapped : first.swap ≠ second.swap := fun same => different (Prod.swap_injective same)
    have crossedBack : first.swap ≠ second := fun same => crossed second first isSecond isFirst same.symm
    simp only [Function.onFun, List.disjoint_cons_left, List.mem_cons, List.not_mem_nil, or_false,
      List.disjoint_nil_left, and_true, not_or]
    exact ⟨⟨different, crossed first second isFirst isSecond⟩, crossedBack, swapped⟩

namespace Graph

variable {α : Type}

/-! ## Adding at a key -/

/-- An entry of the new list is an old one or stands at the key that was
added to. -/
theorem mem_addAt [Scalar α] {key : EdgeKey} {weight : α} {edges : List (EdgeKey × α)}
    {edge : EdgeKey × α} (member : edge ∈ addAt key weight edges) :
    edge ∈ edges ∨ edge = (key, weight) ∨
      ∃ total, (key, total) ∈ edges ∧ edge = (key, total + weight) := by
  induction edges with
  | nil => exact Or.inr (Or.inl (List.mem_singleton.mp member))
  | cons head rest inductionHypothesis =>
      rcases head with ⟨other, total⟩
      rw [addAt] at member
      rcases EdgeKey.order_cases key other with ⟨order, -⟩ | ⟨order, rfl⟩ | ⟨order, -⟩
      · simp only [order] at member
        rcases List.mem_cons.mp member with added | old
        · exact Or.inr (Or.inl added)
        · exact Or.inl old
      · simp only [order] at member
        rcases List.mem_cons.mp member with summed | old
        · exact Or.inr (Or.inr ⟨total, List.mem_cons_self, summed⟩)
        · exact Or.inl (List.mem_cons_of_mem _ old)
      · simp only [order] at member
        rcases List.mem_cons.mp member with old | inRest
        · exact Or.inl (old ▸ List.mem_cons_self)
        · rcases inductionHypothesis inRest with old | added | ⟨before, listed, summed⟩
          · exact Or.inl (List.mem_cons_of_mem _ old)
          · exact Or.inr (Or.inl added)
          · exact Or.inr (Or.inr ⟨before, List.mem_cons_of_mem _ listed, summed⟩)

theorem pairwise_addAt (key : EdgeKey) (weight : ℚ) {edges : List (EdgeKey × ℚ)}
    (sorted : edges.Pairwise fun a b => a.1.Before b.1) :
    (addAt key weight edges).Pairwise fun a b => a.1.Before b.1 := by
  induction edges with
  | nil => exact List.pairwise_singleton _ _
  | cons head rest inductionHypothesis =>
      rcases head with ⟨other, total⟩
      rcases List.pairwise_cons.mp sorted with ⟨least, later⟩
      rw [addAt]
      rcases EdgeKey.order_cases key other with ⟨order, before⟩ | ⟨order, rfl⟩ | ⟨order, after⟩
      · simp only [order]
        refine List.pairwise_cons.mpr ⟨fun edge member => ?_, sorted⟩
        rcases List.mem_cons.mp member with rfl | inRest
        · exact before
        · exact before.trans (least edge inRest)
      · simp only [order]
        exact List.pairwise_cons.mpr ⟨least, later⟩
      · simp only [order]
        refine List.pairwise_cons.mpr ⟨fun edge member => ?_, inductionHypothesis later⟩
        rcases mem_addAt member with old | rfl | ⟨before, listed, rfl⟩
        · exact least edge old
        · exact after
        · exact after

/-- Whatever is counted of each key, adding at a key counts the weight once
more there. -/
theorem sum_addAt (counts : EdgeKey → Prop) [DecidablePred counts] (key : EdgeKey) (weight : ℚ)
    (edges : List (EdgeKey × ℚ)) :
    ((addAt key weight edges).map fun edge => if counts edge.1 then edge.2 else 0).sum =
      (edges.map fun edge => if counts edge.1 then edge.2 else 0).sum +
        if counts key then weight else 0 := by
  induction edges with
  | nil => simp [addAt]
  | cons head rest inductionHypothesis =>
      rcases head with ⟨other, total⟩
      rw [addAt]
      rcases EdgeKey.order_cases key other with ⟨order, -⟩ | ⟨order, rfl⟩ | ⟨order, -⟩
      · simp only [order, List.map_cons, List.sum_cons]
        ring
      · simp only [order, List.map_cons, List.sum_cons]
        split <;> ring
      · simp only [order, List.map_cons, List.sum_cons, inductionHypothesis]
        ring

/-! ## Numbers without repeats -/

theorem mem_foldr_distinct (node : Nat) (nodes : List Nat) :
    node ∈ nodes.foldr (fun node kept => if kept.head? = some node then kept else node :: kept) [] ↔
      node ∈ nodes := by
  induction nodes with
  | nil => rfl
  | cons first rest inductionHypothesis =>
      rw [List.foldr_cons, List.mem_cons, ← inductionHypothesis]
      split
      · next isHead =>
          refine (or_iff_right_of_imp ?_).symm
          rintro rfl
          exact List.mem_of_mem_head? isHead
      · exact List.mem_cons

@[simp] theorem mem_distinctAscending (node : Nat) (nodes : List Nat) :
    node ∈ distinctAscending nodes ↔ node ∈ nodes := by
  rw [distinctAscending, mem_foldr_distinct, List.mem_mergeSort]

theorem pairwise_foldr_distinct {nodes : List Nat} (ascending : nodes.Pairwise (· ≤ ·)) :
    (nodes.foldr (fun node kept => if kept.head? = some node then kept else node :: kept)
      []).Pairwise (· < ·) := by
  induction nodes with
  | nil => exact List.Pairwise.nil
  | cons first rest inductionHypothesis =>
      rcases List.pairwise_cons.mp ascending with ⟨least, later⟩
      have kept := inductionHypothesis later
      rw [List.foldr_cons]
      split
      · exact kept
      · next notHead =>
          refine List.pairwise_cons.mpr ⟨fun node member => ?_, kept⟩
          have inRest := (mem_foldr_distinct node rest).mp member
          refine lt_of_le_of_ne (least node inRest) ?_
          rintro rfl
          -- The head is at least the first node as well, so it would be the same.
          cases others : rest.foldr
              (fun node kept => if kept.head? = some node then kept else node :: kept) [] with
          | nil => simp [others] at member
          | cons head tail =>
              rw [others] at member kept notHead
              have headInRest := (mem_foldr_distinct head rest).mp (others ▸ List.mem_cons_self)
              rcases List.mem_cons.mp member with same | inTail
              · exact notHead (congrArg some same.symm)
              · have below := (List.pairwise_cons.mp kept).1 first inTail
                exact absurd (least head headInRest) (not_le.mpr below)

theorem pairwise_distinctAscending (nodes : List Nat) :
    (distinctAscending nodes).Pairwise (· < ·) := by
  apply pairwise_foldr_distinct
  have sorted := @List.pairwise_mergeSort Nat (fun a b => decide (a ≤ b))
    (by simpa using fun a b c => Nat.le_trans) (by simpa using Nat.le_total) nodes
  simpa using sorted

/-! ## Well-formed graphs -/

/-- What the operations of the store promise of the edges. -/
structure WellFormed (graph : Graph ℚ) : Prop where
  edges_sorted : graph.edges.Pairwise fun a b => a.1.Before b.1
  source_lt : ∀ edge ∈ graph.edges, edge.1.source < graph.nodeCount
  target_lt : ∀ edge ∈ graph.edges, edge.1.target < graph.nodeCount
  source_ne_target : ∀ edge ∈ graph.edges, edge.1.source ≠ edge.1.target
  weight_pos : ∀ edge ∈ graph.edges, 0 < edge.2

theorem wellFormed_empty : (empty : Graph ℚ).WellFormed where
  edges_sorted := List.Pairwise.nil
  source_lt _ member := absurd member List.not_mem_nil
  target_lt _ member := absurd member List.not_mem_nil
  source_ne_target _ member := absurd member List.not_mem_nil
  weight_pos _ member := absurd member List.not_mem_nil

/-- No path stands in two places, as the index finds it in one. -/
theorem paths_nodup (graph : Graph α) : graph.paths.Nodup := by
  refine List.nodup_iff_getElem?_ne_getElem?.mpr fun first second below inside same => ?_
  rw [List.getElem?_eq_getElem inside] at same
  have firstFound := (graph.node?_eq_some_iff _ _).mpr same
  have secondFound := (graph.node?_eq_some_iff _ _).mpr (List.getElem?_eq_getElem inside)
  exact below.ne (Option.some.inj (firstFound.symm.trans secondFound))

/-- The numbers that stand for a path are those below the number of nodes. -/
theorem exists_path?_iff {graph : Graph α} {node : Nat} :
    (∃ path, graph.path? node = some path) ↔ node < graph.nodeCount := by
  constructor
  · rintro ⟨path, stands⟩
    exact (List.getElem?_eq_some_iff.mp stands).1
  · intro inside
    exact ⟨_, List.getElem?_eq_getElem inside⟩

theorem lt_nodeCount_of_node? {graph : Graph α} {path : String} {node : Nat}
    (found : graph.node? path = some node) : node < graph.nodeCount :=
  (List.getElem?_eq_some_iff.mp ((graph.node?_eq_some_iff path node).mp found)).1

theorem node?_eq_none_iff {graph : Graph α} {path : String} :
    graph.node? path = none ↔ path ∉ graph.paths := by
  simp only [Option.eq_none_iff_forall_ne_some, ne_eq, node?_eq_some_iff,
    List.mem_iff_getElem?, not_exists]

/-! ## Adding a node -/

/-- A path that is already a node adds none; any other one comes last. -/
theorem addNode_cases (graph : Graph α) (path : String) :
    (∃ node, graph.node? path = some node ∧ graph.addNode path = (graph, node)) ∨
      (path ∉ graph.paths ∧ (graph.addNode path).1.paths = graph.paths ++ [path] ∧
        (graph.addNode path).1.edges = graph.edges ∧
        (graph.addNode path).2 = graph.nodeCount) := by
  rw [addNode]
  split
  · next node found => exact Or.inl ⟨node, found, rfl⟩
  · next missing => exact Or.inr ⟨node?_eq_none_iff.mp missing, rfl, rfl, rfl⟩

@[simp] theorem addNode_edges (graph : Graph α) (path : String) :
    (graph.addNode path).1.edges = graph.edges := by
  rcases addNode_cases graph path with ⟨node, -, same⟩ | ⟨-, -, edges, -⟩
  · rw [same]
  · exact edges

theorem addNode_paths_isPrefix (graph : Graph α) (path : String) :
    graph.paths <+: (graph.addNode path).1.paths := by
  rcases addNode_cases graph path with ⟨node, -, same⟩ | ⟨-, extended, -⟩
  · rw [same]
  · rw [extended]
    exact List.prefix_append _ _

/-- The number that is given back is the number of the path. -/
theorem getElem?_addNode (graph : Graph α) (path : String) :
    (graph.addNode path).1.paths[(graph.addNode path).2]? = some path := by
  rcases addNode_cases graph path with ⟨node, found, same⟩ | ⟨-, extended, -, last⟩
  · rw [same]
    exact (graph.node?_eq_some_iff path node).mp found
  · rw [extended, last]
    exact List.getElem?_concat_length

/-- More paths behind the others do not disturb the edges. -/
theorem WellFormed.addNode {graph : Graph ℚ} (wellFormed : graph.WellFormed) (path : String) :
    (graph.addNode path).1.WellFormed := by
  have grows : graph.nodeCount ≤ (graph.addNode path).1.nodeCount :=
    (addNode_paths_isPrefix graph path).length_le
  have edges := addNode_edges graph path
  refine ⟨?_, ?_, ?_, ?_, ?_⟩
  · exact edges ▸ wellFormed.edges_sorted
  · exact fun edge member => (wellFormed.source_lt edge (edges ▸ member)).trans_le grows
  · exact fun edge member => (wellFormed.target_lt edge (edges ▸ member)).trans_le grows
  · exact edges ▸ wellFormed.source_ne_target
  · exact edges ▸ wellFormed.weight_pos

/-! ## Adding an edge -/

theorem addEdge_eq (graph : Graph ℚ) (source target : Nat) (kind : EdgeKind) (weight : ℚ) :
    graph.addEdge source target kind weight =
      if source ≠ target ∧ 0 < weight then
        { graph with edges := addAt ⟨source, target, kind⟩ weight graph.edges }
      else graph := by
  rw [addEdge, isEdgeWeight_rat]
  by_cases proper : source ≠ target ∧ 0 < weight
  · rw [if_pos proper, if_neg (by simpa using proper)]
  · rw [if_neg proper, if_pos (by simpa [or_iff_not_imp_left] using proper)]

theorem WellFormed.addEdge {graph : Graph ℚ} (wellFormed : graph.WellFormed) {source target : Nat}
    (sourceInside : source < graph.nodeCount) (targetInside : target < graph.nodeCount)
    (kind : EdgeKind) (weight : ℚ) : (graph.addEdge source target kind weight).WellFormed := by
  rw [addEdge_eq]
  split
  · next proper =>
      refine ⟨pairwise_addAt _ _ wellFormed.edges_sorted, ?_, ?_, ?_, ?_⟩ <;>
        intro edge member <;>
        rcases mem_addAt member with old | rfl | ⟨total, listed, rfl⟩
      · exact wellFormed.source_lt edge old
      · exact sourceInside
      · exact sourceInside
      · exact wellFormed.target_lt edge old
      · exact targetInside
      · exact targetInside
      · exact wellFormed.source_ne_target edge old
      · exact proper.1
      · exact proper.1
      · exact wellFormed.weight_pos edge old
      · exact proper.2
      · exact add_pos (wellFormed.weight_pos _ listed) proper.2
  · exact wellFormed

/-- The graph to which an edge between paths is added once both are nodes. -/
theorem addPathEdge_eq [Scalar α] (graph : Graph α) (edge : PathEdge α) :
    graph.addPathEdge edge =
      (((graph.addNode edge.source).1.addNode edge.target).1).addEdge
        (graph.addNode edge.source).2 ((graph.addNode edge.source).1.addNode edge.target).2
        edge.kind edge.weight :=
  rfl

/-- The numbers of both ends once they are nodes. -/
theorem getElem?_addNode_addNode (graph : Graph α) (source target : String) :
    ((graph.addNode source).1.addNode target).1.paths[(graph.addNode source).2]? = some source ∧
      ((graph.addNode source).1.addNode target).1.paths[
        ((graph.addNode source).1.addNode target).2]? = some target := by
  refine ⟨?_, getElem?_addNode _ target⟩
  have stands := getElem?_addNode graph source
  rcases addNode_paths_isPrefix (graph.addNode source).1 target with ⟨others, continued⟩
  rw [← continued, List.getElem?_append_left (List.getElem?_eq_some_iff.mp stands).1, stands]

theorem WellFormed.addPathEdge {graph : Graph ℚ} (wellFormed : graph.WellFormed)
    (edge : PathEdge ℚ) : (graph.addPathEdge edge).WellFormed := by
  rcases getElem?_addNode_addNode graph edge.source edge.target with ⟨source, target⟩
  rw [addPathEdge_eq]
  exact ((wellFormed.addNode edge.source).addNode edge.target).addEdge
    (List.getElem?_eq_some_iff.mp source).1 (List.getElem?_eq_some_iff.mp target).1 _ _

theorem WellFormed.foldl_addPathEdge {graph : Graph ℚ} (wellFormed : graph.WellFormed)
    (edges : List (PathEdge ℚ)) : (edges.foldl Graph.addPathEdge graph).WellFormed := by
  induction edges generalizing graph with
  | nil => exact wellFormed
  | cons edge rest inductionHypothesis => exact inductionHypothesis (wellFormed.addPathEdge edge)

theorem WellFormed.merge {graph : Graph ℚ} (wellFormed : graph.WellFormed)
    (buffer : EdgeBuffer ℚ) : (graph.merge buffer).WellFormed :=
  wellFormed.foldl_addPathEdge buffer.edges

/-! ## Weights between paths -/

/-- The key joins two of the numbered paths by an edge of a kind. -/
def Joins (paths : List String) (source target : String) (kind : EdgeKind) (key : EdgeKey) : Prop :=
  paths[key.source]? = some source ∧ paths[key.target]? = some target ∧ key.kind = kind

instance (paths : List String) (source target : String) (kind : EdgeKind) :
    DecidablePred (Joins paths source target kind) :=
  fun _ => inferInstanceAs (Decidable (_ ∧ _ ∧ _))

/-- The weight of all edges of a kind between two paths. -/
def weightBetween (graph : Graph ℚ) (source target : String) (kind : EdgeKind) : ℚ :=
  (graph.edges.map fun edge => if Joins graph.paths source target kind edge.1 then edge.2 else 0).sum

/-- What an edge between paths adds to the weight of a kind between two
paths. -/
def contribution (source target : String) (kind : EdgeKind) (edge : PathEdge ℚ) : ℚ :=
  if edge.source = source ∧ edge.target = target ∧ edge.kind = kind ∧ source ≠ target ∧
    0 < edge.weight then edge.weight else 0

/-- Between different paths a weight that is not negative counts as it is. -/
theorem contribution_eq {source target : String} (different : source ≠ target) (kind : EdgeKind)
    {edge : PathEdge ℚ} (nonneg : 0 ≤ edge.weight) :
    contribution source target kind edge =
      if edge.source = source ∧ edge.target = target ∧ edge.kind = kind then edge.weight else 0 := by
  rcases nonneg.lt_or_eq with positive | nothing
  · exact if_congr (by simp only [different, positive, ne_eq, not_false_eq_true, and_true]) rfl rfl
  · rw [contribution, ← nothing, ite_self, ite_self]

/-- What a buffer does not take in would not have counted. -/
theorem sum_contribution_ofList (edges : List (PathEdge ℚ)) (source target : String)
    (kind : EdgeKind) :
    ((EdgeBuffer.ofList edges).edges.map (contribution source target kind)).sum =
      (edges.map (contribution source target kind)).sum := by
  rw [EdgeBuffer.ofList, sum_map_filter]
  refine congrArg List.sum (List.map_congr_left fun edge _ => ?_)
  split
  · rfl
  · next dropped =>
      refine (if_neg ?_).symm
      rintro ⟨rfl, rfl, -, different, positive⟩
      exact dropped (by simp [isEdgeWeight_rat, different, positive])

theorem weightBetween_empty (source target : String) (kind : EdgeKind) :
    (empty : Graph ℚ).weightBetween source target kind = 0 := rfl

theorem WellFormed.weightBetween_addNode {graph : Graph ℚ} (wellFormed : graph.WellFormed)
    (path source target : String) (kind : EdgeKind) :
    (graph.addNode path).1.weightBetween source target kind =
      graph.weightBetween source target kind := by
  rw [weightBetween, addNode_edges, weightBetween]
  rcases addNode_paths_isPrefix graph path with ⟨others, extended⟩
  rw [← extended]
  refine congrArg List.sum (List.map_congr_left fun edge member => ?_)
  have sourceStays : (graph.paths ++ others)[edge.1.source]? = graph.paths[edge.1.source]? :=
    List.getElem?_append_left (wellFormed.source_lt edge member)
  have targetStays : (graph.paths ++ others)[edge.1.target]? = graph.paths[edge.1.target]? :=
    List.getElem?_append_left (wellFormed.target_lt edge member)
  exact if_congr (by rw [Joins, Joins, sourceStays, targetStays]) rfl rfl

/-- Between numbered nodes an edge counts exactly at the paths of its ends. -/
theorem weightBetween_addEdge {graph : Graph ℚ} {edge : PathEdge ℚ} {first second : Nat}
    (firstPath : graph.paths[first]? = some edge.source)
    (secondPath : graph.paths[second]? = some edge.target) (source target : String)
    (kind : EdgeKind) :
    (graph.addEdge first second edge.kind edge.weight).weightBetween source target kind =
      graph.weightBetween source target kind + contribution source target kind edge := by
  have joins : Joins graph.paths source target kind ⟨first, second, edge.kind⟩ ↔
      edge.source = source ∧ edge.target = target ∧ edge.kind = kind := by
    rw [Joins, firstPath, secondPath, Option.some.injEq, Option.some.injEq]
  have sameEnds : first = second ↔ edge.source = edge.target := by
    have inside := (List.getElem?_eq_some_iff.mp firstPath).1
    rw [← List.getElem?_inj inside graph.paths_nodup, firstPath, secondPath, Option.some.injEq]
  rw [addEdge_eq]
  by_cases proper : first ≠ second ∧ 0 < edge.weight
  · rw [if_pos proper, weightBetween, sum_addAt (Joins graph.paths source target kind)]
    refine congrArg (graph.weightBetween source target kind + ·) (if_congr ?_ rfl rfl)
    rw [joins]
    constructor
    · rintro ⟨rfl, rfl, rfl⟩
      exact ⟨rfl, rfl, rfl, fun same => proper.1 (sameEnds.mpr same), proper.2⟩
    · rintro ⟨sameSource, sameTarget, sameKind, -, -⟩
      exact ⟨sameSource, sameTarget, sameKind⟩
  · have nothing : contribution source target kind edge = 0 := by
      refine if_neg ?_
      rintro ⟨rfl, rfl, -, different, positive⟩
      exact proper ⟨fun same => different (sameEnds.mp same), positive⟩
    rw [if_neg proper, nothing, add_zero]

theorem WellFormed.weightBetween_addPathEdge {graph : Graph ℚ} (wellFormed : graph.WellFormed)
    (edge : PathEdge ℚ) (source target : String) (kind : EdgeKind) :
    (graph.addPathEdge edge).weightBetween source target kind =
      graph.weightBetween source target kind + contribution source target kind edge := by
  rcases getElem?_addNode_addNode graph edge.source edge.target with ⟨first, second⟩
  have withSource := wellFormed.addNode edge.source
  rw [addPathEdge_eq, weightBetween_addEdge first second,
    withSource.weightBetween_addNode, wellFormed.weightBetween_addNode]

/-- Taking in edges adds up their contributions, whatever their order. -/
theorem WellFormed.weightBetween_merge {graph : Graph ℚ} (wellFormed : graph.WellFormed)
    (buffer : EdgeBuffer ℚ) (source target : String) (kind : EdgeKind) :
    (graph.merge buffer).weightBetween source target kind =
      graph.weightBetween source target kind +
        (buffer.edges.map (contribution source target kind)).sum := by
  rcases buffer with ⟨edges⟩
  induction edges generalizing graph with
  | nil => exact (add_zero _).symm
  | cons edge rest inductionHypothesis =>
      have later := inductionHypothesis (wellFormed.addPathEdge edge)
      rw [wellFormed.weightBetween_addPathEdge, add_assoc] at later
      rw [List.map_cons, List.sum_cons]
      exact later

theorem WellFormed.share_nonneg {graph : Graph ℚ} (wellFormed : graph.WellFormed)
    (counts : EdgeKey → Prop) [DecidablePred counts] :
    ∀ share ∈ graph.edges.map fun edge => if counts edge.1 then edge.2 else 0, 0 ≤ share := by
  intro share member
  rcases List.mem_map.mp member with ⟨edge, isEdge, rfl⟩
  split
  · exact (wellFormed.weight_pos edge isEdge).le
  · exact le_rfl

/-- A sum over edges is positive exactly if one of them counts. -/
theorem WellFormed.sum_pos_iff {graph : Graph ℚ} (wellFormed : graph.WellFormed)
    (counts : EdgeKey → Prop) [DecidablePred counts] :
    0 < (graph.edges.map fun edge => if counts edge.1 then edge.2 else 0).sum ↔
      ∃ edge ∈ graph.edges, counts edge.1 := by
  constructor
  · intro positive
    by_contra none
    refine positive.ne' (List.sum_eq_zero fun share member => ?_)
    rcases List.mem_map.mp member with ⟨edge, isEdge, rfl⟩
    exact if_neg fun counted => none ⟨edge, isEdge, counted⟩
  · rintro ⟨edge, isEdge, counted⟩
    refine (wellFormed.weight_pos edge isEdge).trans_le ?_
    refine List.single_le_sum (wellFormed.share_nonneg counts) _ ?_
    exact List.mem_map.mpr ⟨edge, isEdge, if_pos counted⟩

/-- Every edge has two paths at its ends, and counts between them. -/
theorem WellFormed.weightBetween_pos {graph : Graph ℚ} (wellFormed : graph.WellFormed)
    {edge : EdgeKey × ℚ} (member : edge ∈ graph.edges) :
    ∃ source target, graph.path? edge.1.source = some source ∧
      graph.path? edge.1.target = some target ∧
      0 < graph.weightBetween source target edge.1.kind := by
  rcases exists_path?_iff.mpr (wellFormed.source_lt edge member) with ⟨source, sourceStands⟩
  rcases exists_path?_iff.mpr (wellFormed.target_lt edge member) with ⟨target, targetStands⟩
  refine ⟨source, target, sourceStands, targetStands, ?_⟩
  exact (wellFormed.sum_pos_iff _).mpr ⟨edge, member, sourceStands, targetStands, rfl⟩

/-- Every edge of a graph that was empty before comes from an edge that was
taken in. -/
theorem exists_of_mem_merge_empty {buffer : EdgeBuffer ℚ} {edge : EdgeKey × ℚ}
    (member : edge ∈ (empty.merge buffer).edges) :
    ∃ taken ∈ buffer.edges, taken.source ≠ taken.target ∧ taken.kind = edge.1.kind ∧
      (empty.merge buffer).path? edge.1.source = some taken.source ∧
      (empty.merge buffer).path? edge.1.target = some taken.target := by
  rcases (wellFormed_empty.merge buffer).weightBetween_pos member with
    ⟨source, target, sourceStands, targetStands, positive⟩
  rw [wellFormed_empty.weightBetween_merge, weightBetween_empty, zero_add] at positive
  by_contra none
  refine positive.ne' (List.sum_eq_zero fun share inside => ?_)
  rcases List.mem_map.mp inside with ⟨taken, isTaken, rfl⟩
  refine if_neg ?_
  rintro ⟨rfl, rfl, sameKind, different, -⟩
  exact none ⟨taken, isTaken, different, sameKind, sourceStands, targetStands⟩

/-! ## Looking a weight up -/

/-- The weight of an edge between two paths, if there is one. -/
def weightBetween? (graph : Graph ℚ) (source target : String) (kind : EdgeKind) : Option ℚ :=
  match graph.node? source, graph.node? target with
  | some first, some second => graph.weight? first second kind
  | _, _ => none

/-- No key has two edges. -/
theorem WellFormed.keys_nodup {graph : Graph ℚ} (wellFormed : graph.WellFormed) :
    (graph.edges.map Prod.fst).Nodup :=
  List.pairwise_map.mpr (wellFormed.edges_sorted.imp EdgeKey.Before.ne)

/-- Two paths that are nodes are joined by their own key only. -/
theorem joins_iff {graph : Graph ℚ} {source target : String} {first second : Nat}
    (firstFound : graph.node? source = some first)
    (secondFound : graph.node? target = some second) (kind : EdgeKind) (key : EdgeKey) :
    Joins graph.paths source target kind key ↔ key = ⟨first, second, kind⟩ := by
  rw [Joins, ← node?_eq_some_iff, ← node?_eq_some_iff, firstFound,
    secondFound, Option.some.injEq, Option.some.injEq]
  constructor
  · rintro ⟨rfl, rfl, rfl⟩
    rfl
  · rintro rfl
    exact ⟨rfl, rfl, rfl⟩

/-- No edge joins paths of which one is no node. -/
theorem weightBetween_of_node?_eq_none {graph : Graph ℚ} {source target : String}
    (kind : EdgeKind)
    (missing : graph.node? source = none ∨ graph.node? target = none) :
    graph.weightBetween source target kind = 0 := by
  refine List.sum_eq_zero fun share member => ?_
  rcases List.mem_map.mp member with ⟨edge, -, rfl⟩
  refine if_neg fun joins => ?_
  rcases missing with missing | missing
  · rw [(graph.node?_eq_some_iff _ _).mpr joins.1] at missing
    cases missing
  · rw [(graph.node?_eq_some_iff _ _).mpr joins.2.1] at missing
    cases missing

theorem WellFormed.weightBetween_eq_getD {graph : Graph ℚ} (wellFormed : graph.WellFormed)
    {source target : String} {first second : Nat} (firstFound : graph.node? source = some first)
    (secondFound : graph.node? target = some second) (kind : EdgeKind) :
    graph.weightBetween source target kind = (graph.weight? first second kind).getD 0 := by
  rw [weight?, ← sum_eq_getD_find? wellFormed.keys_nodup]
  refine congrArg List.sum (List.map_congr_left fun edge _ => ?_)
  exact if_congr (joins_iff firstFound secondFound kind edge.1) rfl rfl

/-- A weight that is found is positive. -/
theorem WellFormed.weight?_pos {graph : Graph ℚ} (wellFormed : graph.WellFormed)
    {first second : Nat} {kind : EdgeKind} {weight : ℚ}
    (found : graph.weight? first second kind = some weight) : 0 < weight := by
  rcases Option.map_eq_some_iff.mp found with ⟨edge, isEdge, rfl⟩
  exact wellFormed.weight_pos edge (List.mem_of_find?_eq_some isEdge)

/-- Looking up tells the whole weight between two paths, and finds no edge
exactly when that is zero. -/
theorem WellFormed.weightBetween?_eq {graph : Graph ℚ} (wellFormed : graph.WellFormed)
    (source target : String) (kind : EdgeKind) :
    graph.weightBetween? source target kind =
      if graph.weightBetween source target kind = 0 then none
      else some (graph.weightBetween source target kind) := by
  cases firstFound : graph.node? source with
  | none =>
      rw [weightBetween_of_node?_eq_none kind (Or.inl firstFound), if_pos rfl,
        weightBetween?, firstFound]
  | some first =>
      cases secondFound : graph.node? target with
      | none =>
          rw [weightBetween_of_node?_eq_none kind (Or.inr secondFound), if_pos rfl,
            weightBetween?, firstFound, secondFound]
      | some second =>
          have lookup : graph.weightBetween? source target kind = graph.weight? first second kind := by
            rw [weightBetween?, firstFound, secondFound]
          rw [wellFormed.weightBetween_eq_getD firstFound secondFound, lookup]
          cases found : graph.weight? first second kind with
          | none => exact (if_pos rfl).symm
          | some weight => exact (if_neg (wellFormed.weight?_pos found).ne').symm

end Graph
end ContextPack
