import ContextPack.Graph.Adjacency
import ContextPack.Proofs.Graph.Store

namespace ContextPack

/-!
# Adjacency is the edge map folded by kind

A row sums up neighbours that lead to one node.  This is the whole sum because
the edges of a node stand by target: a row has each node once, in ascending
order, with the weight of all its edges.
-/

namespace Adjacency

/-! ## Collapsing neighbours -/

/-- The weight of all entries that lead to a node. -/
def weightTo (node : Nat) (entries : List (Nat × ℚ)) : ℚ :=
  (entries.map fun entry => if entry.1 = node then entry.2 else 0).sum

/-- Collapsing an entry with those that follow, as collapsing after an empty
start. -/
theorem collapse_cons {α : Type} [Scalar α] (entry : Nat × α) (rest : List (Nat × α)) :
    collapse (entry :: rest) = collapseFrom entry.1 entry.2 rest := rfl

theorem collapseFrom_cons {α : Type} [Scalar α] (node : Nat) (total : α) (entry : Nat × α)
    (rest : List (Nat × α)) :
    collapseFrom node total (entry :: rest) =
      if entry.1 = node then collapseFrom node (total + entry.2) rest
      else (node, total) :: collapseFrom entry.1 entry.2 rest := rfl

theorem weightTo_collapseFrom (target node : Nat) (total : ℚ) (entries : List (Nat × ℚ)) :
    weightTo target (collapseFrom node total entries) = weightTo target ((node, total) :: entries) := by
  induction entries generalizing node total with
  | nil => rfl
  | cons entry rest inductionHypothesis =>
      rw [collapseFrom_cons]
      split
      · next same =>
          rw [inductionHypothesis]
          simp only [weightTo, List.map_cons, List.sum_cons, same]
          split <;> ring
      · rw [weightTo, List.map_cons, List.sum_cons, ← weightTo, inductionHypothesis]
        rfl

/-- Collapsing keeps the weight to every node. -/
theorem weightTo_collapse (target : Nat) (entries : List (Nat × ℚ)) :
    weightTo target (collapse entries) = weightTo target entries := by
  cases entries with
  | nil => rfl
  | cons entry rest => exact weightTo_collapseFrom target entry.1 entry.2 rest

theorem sum_collapseFrom (node : Nat) (total : ℚ) (entries : List (Nat × ℚ)) :
    ((collapseFrom node total entries).map Prod.snd).sum = total + (entries.map Prod.snd).sum := by
  induction entries generalizing node total with
  | nil => rfl
  | cons entry rest inductionHypothesis =>
      rw [collapseFrom_cons, List.map_cons, List.sum_cons]
      split
      · rw [inductionHypothesis, add_assoc]
      · rw [List.map_cons, List.sum_cons, inductionHypothesis]

theorem sum_collapse (entries : List (Nat × ℚ)) :
    ((collapse entries).map Prod.snd).sum = (entries.map Prod.snd).sum := by
  cases entries with
  | nil => rfl
  | cons entry rest => exact sum_collapseFrom entry.1 entry.2 rest

theorem mem_map_fst_collapseFrom {α : Type} [Scalar α] (target node : Nat) (total : α)
    (entries : List (Nat × α)) :
    target ∈ (collapseFrom node total entries).map Prod.fst ↔
      target = node ∨ target ∈ entries.map Prod.fst := by
  induction entries generalizing node total with
  | nil => simp [collapseFrom]
  | cons entry rest inductionHypothesis =>
      rw [collapseFrom_cons, List.map_cons, List.mem_cons]
      split
      · next same => rw [inductionHypothesis, same, or_self_left]
      · rw [List.map_cons, List.mem_cons, inductionHypothesis]

@[simp] theorem mem_map_fst_collapse {α : Type} [Scalar α] (target : Nat)
    (entries : List (Nat × α)) :
    target ∈ (collapse entries).map Prod.fst ↔ target ∈ entries.map Prod.fst := by
  cases entries with
  | nil => rfl
  | cons entry rest =>
      rw [collapse_cons, mem_map_fst_collapseFrom, List.map_cons, List.mem_cons]

theorem pairwise_collapseFrom {node : Nat} {total : ℚ} {entries : List (Nat × ℚ)}
    (ascending : (node :: entries.map Prod.fst).Pairwise (· ≤ ·)) :
    ((collapseFrom node total entries).map Prod.fst).Pairwise (· < ·) := by
  induction entries generalizing node total with
  | nil => exact List.pairwise_singleton _ _
  | cons entry rest inductionHypothesis =>
      rw [List.map_cons] at ascending
      rcases List.pairwise_cons.mp ascending with ⟨least, later⟩
      rw [collapseFrom_cons]
      split
      · next same => exact inductionHypothesis (same ▸ later)
      · next different =>
          rw [List.map_cons]
          refine List.pairwise_cons.mpr ⟨fun target member => ?_, inductionHypothesis later⟩
          have below : node < entry.1 :=
            lt_of_le_of_ne (least entry.1 List.mem_cons_self) (Ne.symm different)
          rcases (mem_map_fst_collapseFrom target entry.1 entry.2 rest).mp member with rfl | inRest
          · exact below
          · exact below.trans_le ((List.pairwise_cons.mp later).1 target inRest)

/-- Where equal nodes stand together, each is left once. -/
theorem pairwise_collapse {entries : List (Nat × ℚ)}
    (ascending : (entries.map Prod.fst).Pairwise (· ≤ ·)) :
    ((collapse entries).map Prod.fst).Pairwise (· < ·) := by
  cases entries with
  | nil => exact List.Pairwise.nil
  | cons entry rest => exact pairwise_collapseFrom ascending

end Adjacency

/-! ## Edges along chosen kinds -/

theorem EdgeKind.mem_all (kind : EdgeKind) : kind ∈ all := by
  cases kind <;> decide

theorem EdgeKind.nodup_all : all.Nodup := by decide

namespace Graph

/-- An edge of a chosen kind leads from one node to another. -/
def Leads (graph : Graph ℚ) (includes : EdgeKind → Bool) (source target : Nat) : Prop :=
  ∃ edge ∈ graph.edges, edge.1.source = source ∧ edge.1.target = target ∧ includes edge.1.kind

/-- The weight of all edges of chosen kinds from one node to another. -/
def weightAlong (graph : Graph ℚ) (includes : EdgeKind → Bool) (source target : Nat) : ℚ :=
  (graph.edges.map fun edge =>
    if edge.1.source = source ∧ edge.1.target = target ∧ includes edge.1.kind then edge.2 else 0).sum

/-- The weight of all edges of chosen kinds that leave a node. -/
def weightLeaving (graph : Graph ℚ) (includes : EdgeKind → Bool) (source : Nat) : ℚ :=
  (graph.edges.map fun edge =>
    if edge.1.source = source ∧ includes edge.1.kind then edge.2 else 0).sum

section WellFormed

variable {graph : Graph ℚ} {includes : EdgeKind → Bool} {source target : Nat}

theorem Leads.source_lt (leads : graph.Leads includes source target)
    (wellFormed : graph.WellFormed) : source < graph.nodeCount := by
  rcases leads with ⟨edge, member, rfl, -, -⟩
  exact wellFormed.source_lt edge member

theorem Leads.target_lt (leads : graph.Leads includes source target)
    (wellFormed : graph.WellFormed) : target < graph.nodeCount := by
  rcases leads with ⟨edge, member, -, rfl, -⟩
  exact wellFormed.target_lt edge member

theorem WellFormed.weightAlong_pos_iff (wellFormed : graph.WellFormed) :
    0 < graph.weightAlong includes source target ↔ graph.Leads includes source target :=
  wellFormed.sum_pos_iff fun key => key.source = source ∧ key.target = target ∧ includes key.kind

theorem WellFormed.weightAlong_nonneg (wellFormed : graph.WellFormed)
    (includes : EdgeKind → Bool) (source target : Nat) :
    0 ≤ graph.weightAlong includes source target :=
  List.sum_nonneg (wellFormed.share_nonneg fun key =>
    key.source = source ∧ key.target = target ∧ includes key.kind)

/-- Without an edge there is no weight. -/
theorem WellFormed.weightAlong_eq_zero (wellFormed : graph.WellFormed)
    (none : ¬graph.Leads includes source target) : graph.weightAlong includes source target = 0 :=
  le_antisymm (not_lt.mp fun positive => none (wellFormed.weightAlong_pos_iff.mp positive))
    (wellFormed.weightAlong_nonneg includes source target)

theorem WellFormed.weightLeaving_pos_iff (wellFormed : graph.WellFormed) :
    0 < graph.weightLeaving includes source ↔ ∃ target, graph.Leads includes source target := by
  refine (wellFormed.sum_pos_iff fun key => key.source = source ∧ includes key.kind).trans ?_
  constructor
  · rintro ⟨edge, isEdge, isSource, included⟩
    exact ⟨edge.1.target, edge, isEdge, isSource, rfl, included⟩
  · rintro ⟨target, edge, isEdge, isSource, -, included⟩
    exact ⟨edge, isEdge, isSource, included⟩

/-- What leaves a node leads to some node. -/
theorem WellFormed.sum_weightAlong (wellFormed : graph.WellFormed) (includes : EdgeKind → Bool)
    (source : Nat) :
    ∑ target ∈ Finset.range graph.nodeCount, graph.weightAlong includes source target =
      graph.weightLeaving includes source := by
  have inside := wellFormed.target_lt
  unfold weightAlong weightLeaving
  generalize graph.edges = edges at inside
  induction edges with
  | nil => simp
  | cons edge rest inductionHypothesis =>
      have later := inductionHypothesis fun other member =>
        inside other (List.mem_cons_of_mem edge member)
      have isNode := Finset.mem_range.mpr (inside edge List.mem_cons_self)
      simp only [List.map_cons, List.sum_cons, Finset.sum_add_distrib, later]
      refine congrArg (· + _) ?_
      by_cases leaves : edge.1.source = source ∧ includes edge.1.kind
      · rw [if_pos leaves]
        refine (Finset.sum_eq_single_of_mem edge.1.target isNode fun other _ different => ?_).trans ?_
        · exact if_neg fun both => different both.2.1.symm
        · exact if_pos ⟨leaves.1, rfl, leaves.2⟩
      · rw [if_neg leaves]
        refine Finset.sum_eq_zero fun target _ => if_neg ?_
        exact fun both => leaves ⟨both.1, both.2.2⟩

/-- The weight between two nodes is that of the edge of each chosen kind, as far as there
is one. -/
theorem WellFormed.weightAlong_eq_sum_kinds (wellFormed : graph.WellFormed)
    (includes : EdgeKind → Bool) (source target : Nat) :
    graph.weightAlong includes source target =
      ((EdgeKind.all.filter includes).map fun kind =>
        (graph.weight? source target kind).getD 0).sum := by
  have ofKind (kind : EdgeKind) : (graph.weight? source target kind).getD 0 =
      (graph.edges.map fun edge => if edge.1 = ⟨source, target, kind⟩ then edge.2 else 0).sum :=
    (sum_eq_getD_find? wellFormed.keys_nodup _).symm
  simp only [ofKind]
  clear ofKind
  unfold weightAlong
  induction graph.edges with
  | nil => simp
  | cons edge rest inductionHypothesis =>
      simp only [List.map_cons, List.sum_cons, List.sum_map_add, inductionHypothesis]
      refine congrArg (· + _) ?_
      by_cases counts : edge.1.source = source ∧ edge.1.target = target ∧ includes edge.1.kind
      · have isChosen : edge.1.kind ∈ EdgeKind.all.filter includes :=
          List.mem_filter.mpr ⟨EdgeKind.mem_all edge.1.kind, counts.2.2⟩
        have hasKey : edge.1 = ⟨source, target, edge.1.kind⟩ := by
          rw [← counts.1, ← counts.2.1]
        rw [if_pos counts, sum_map_eq_of_unique (EdgeKind.nodup_all.filter includes) isChosen,
          if_pos hasKey]
        intro other _ different
        refine if_neg fun same => different ?_
        rw [same]
      · rw [if_neg counts]
        refine (List.sum_eq_zero fun share member => ?_).symm
        rcases List.mem_map.mp member with ⟨kind, isChosen, rfl⟩
        refine if_neg fun same => counts ?_
        rw [same]
        exact ⟨rfl, rfl, (List.mem_filter.mp isChosen).2⟩

end WellFormed

end Graph

/-! ## Rows -/

namespace Adjacency

section Rows

variable {graph : Graph ℚ} {includes : EdgeKind → Bool}

theorem mem_map_fst_entries (graph : Graph ℚ) (includes : EdgeKind → Bool) (source target : Nat) :
    target ∈ (entries graph includes source).map Prod.fst ↔ graph.Leads includes source target := by
  rw [entries, List.map_map, List.mem_map]
  constructor
  · rintro ⟨edge, member, rfl⟩
    rcases List.mem_filter.mp member with ⟨isEdge, counts⟩
    rcases Bool.and_eq_true_iff.mp counts with ⟨isSource, included⟩
    exact ⟨edge, isEdge, of_decide_eq_true isSource, rfl, included⟩
  · rintro ⟨edge, isEdge, isSource, isTarget, included⟩
    refine ⟨edge, List.mem_filter.mpr ⟨isEdge, ?_⟩, isTarget⟩
    exact Bool.and_eq_true_iff.mpr ⟨decide_eq_true isSource, included⟩

theorem weightTo_entries (graph : Graph ℚ) (includes : EdgeKind → Bool) (source target : Nat) :
    weightTo target (entries graph includes source) = graph.weightAlong includes source target := by
  rw [weightTo, entries, List.map_map, sum_map_filter, Graph.weightAlong]
  refine congrArg List.sum (List.map_congr_left fun edge _ => ?_)
  by_cases isSource : edge.1.source = source
  · by_cases included : includes edge.1.kind
    · simp [isSource, included]
    · simp [included]
  · simp [isSource]

theorem sum_entries (graph : Graph ℚ) (includes : EdgeKind → Bool) (source : Nat) :
    ((entries graph includes source).map Prod.snd).sum = graph.weightLeaving includes source := by
  rw [entries, List.map_map, sum_map_filter, Graph.weightLeaving]
  refine congrArg List.sum (List.map_congr_left fun edge _ => ?_)
  exact if_congr (by simp) rfl rfl

/-- The edges of a node stand by target. -/
theorem pairwise_entries (wellFormed : graph.WellFormed) (source : Nat) :
    ((entries graph includes source).map Prod.fst).Pairwise (· ≤ ·) := by
  rw [entries, List.map_map, List.pairwise_map]
  refine List.Pairwise.imp_of_mem ?_ (wellFormed.edges_sorted.filter _)
  intro a b isA isB before
  have sameSource : a.1.source = b.1.source := by
    have sourceOf {edge : EdgeKey × ℚ}
        (member : edge ∈ graph.edges.filter fun (key, _) => key.source = source && includes key.kind) :
        edge.1.source = source :=
      of_decide_eq_true (Bool.and_eq_true_iff.mp (List.mem_filter.mp member).2).1
    rw [sourceOf isA, sourceOf isB]
  show a.1.target ≤ b.1.target
  unfold EdgeKey.Before at before
  omega

/-- A number that is no node has no edges, so its row is empty either way. -/
theorem row_ofGraph (wellFormed : graph.WellFormed) (source : Nat) :
    (ofGraph graph includes).row source = collapse (entries graph includes source) := by
  rw [row, ofGraph, List.getElem?_map]
  by_cases inside : source < graph.nodeCount
  · rw [List.getElem?_range inside]
    rfl
  · have nothing : entries graph includes source = [] := by
      refine List.eq_nil_iff_forall_not_mem.mpr fun entry member => inside ?_
      have leads := (mem_map_fst_entries graph includes source entry.1).mp (List.mem_map_of_mem member)
      exact leads.source_lt wellFormed
    rw [nothing, List.getElem?_eq_none (by simpa using inside)]
    rfl

/-- A row has exactly the nodes that edges of the chosen kinds lead to. -/
theorem mem_map_fst_row (wellFormed : graph.WellFormed) (source target : Nat) :
    target ∈ ((ofGraph graph includes).row source).map Prod.fst ↔
      graph.Leads includes source target := by
  rw [row_ofGraph wellFormed, mem_map_fst_collapse, mem_map_fst_entries]

theorem pairwise_row (wellFormed : graph.WellFormed) (source : Nat) :
    (((ofGraph graph includes).row source).map Prod.fst).Pairwise (· < ·) := by
  rw [row_ofGraph wellFormed]
  exact pairwise_collapse (pairwise_entries wellFormed source)

theorem nodup_row (wellFormed : graph.WellFormed) (source : Nat) :
    (((ofGraph graph includes).row source).map Prod.fst).Nodup :=
  (pairwise_row wellFormed source).imp ne_of_lt

/-- A row has the whole weight of the edges to a node. -/
theorem weightTo_row (wellFormed : graph.WellFormed) (source target : Nat) :
    weightTo target ((ofGraph graph includes).row source) =
      graph.weightAlong includes source target := by
  rw [row_ofGraph wellFormed, weightTo_collapse, weightTo_entries]

theorem mem_row_iff (wellFormed : graph.WellFormed) (source target : Nat) (weight : ℚ) :
    (target, weight) ∈ (ofGraph graph includes).row source ↔
      graph.Leads includes source target ∧ weight = graph.weightAlong includes source target := by
  have isWhole {weight : ℚ} (member : (target, weight) ∈ (ofGraph graph includes).row source) :
      weight = graph.weightAlong includes source target := by
    have once : (((ofGraph graph includes).row source).map Prod.fst).Nodup :=
      nodup_row wellFormed source
    rw [← weightTo_row wellFormed, weightTo, sum_map_eq_of_unique once.of_map member, if_pos rfl]
    intro other inside different
    exact if_neg fun same => different (List.inj_on_of_nodup_map once inside member same)
  constructor
  · intro member
    exact ⟨(mem_map_fst_row wellFormed source target).mp (List.mem_map_of_mem member),
      isWhole member⟩
  · rintro ⟨leads, rfl⟩
    rcases List.mem_map.mp ((mem_map_fst_row wellFormed source target).mpr leads) with
      ⟨⟨_, weight⟩, member, rfl⟩
    rwa [← isWhole member]

theorem outWeight_ofGraph (wellFormed : graph.WellFormed) (source : Nat) :
    (ofGraph graph includes).outWeight source = graph.weightLeaving includes source := by
  rw [outWeight, Scalar.sum_rat, row_ofGraph wellFormed, sum_collapse, sum_entries]

end Rows

/-- There is one row for each node.  It lists in ascending order the nodes that edges of the
chosen kinds lead to, never its own, each with the weight of all these edges, of which there is
one for a kind at most.  So what leaves a node altogether is the weight of its edges, and
nothing leaves it just if it has none.  Every graph that is built by calls is well formed
(`Graph.WellFormed.run`). -/
theorem rows_fold_edges {graph : Graph ℚ} (wellFormed : graph.WellFormed)
    (includes : EdgeKind → Bool) :
    (ofGraph graph includes).rows.length = graph.nodeCount ∧
    ∀ source,
      (((ofGraph graph includes).row source).map Prod.fst).Pairwise (· < ·) ∧
      (∀ target weight, (target, weight) ∈ (ofGraph graph includes).row source ↔
        graph.Leads includes source target ∧
          weight = graph.weightAlong includes source target) ∧
      (∀ target, graph.weightAlong includes source target =
        ((EdgeKind.all.filter includes).map fun kind =>
          (graph.weight? source target kind).getD 0).sum) ∧
      source ∉ ((ofGraph graph includes).row source).map Prod.fst ∧
      (ofGraph graph includes).outWeight source = graph.weightLeaving includes source ∧
      ((ofGraph graph includes).outWeight source = 0 ↔
        ¬∃ target, graph.Leads includes source target) := by
  refine ⟨by rw [ofGraph, List.length_map, List.length_range], fun source => ?_⟩
  refine ⟨pairwise_row wellFormed source, mem_row_iff wellFormed source,
    wellFormed.weightAlong_eq_sum_kinds includes source, fun ownNode => ?_,
    outWeight_ofGraph wellFormed source, ?_⟩
  · rcases (mem_map_fst_row wellFormed source source).mp ownNode with
      ⟨edge, isEdge, isSource, isTarget, -⟩
    exact wellFormed.source_ne_target edge isEdge (isSource.trans isTarget.symm)
  · have nonneg : 0 ≤ graph.weightLeaving includes source :=
      List.sum_nonneg (wellFormed.share_nonneg fun key => key.source = source ∧ includes key.kind)
    rw [outWeight_ofGraph wellFormed, ← wellFormed.weightLeaving_pos_iff, not_lt]
    exact ⟨fun nothing => nothing.le, fun atMost => le_antisymm atMost nonneg⟩

/-- Two files related in three ways, one of them by being siblings. -/
def parallelGraph : Graph ℚ :=
  ((Graph.empty.addPathEdge ⟨"a.tf", "b.tf", .lexical, 1⟩).addPathEdge
    ⟨"a.tf", "b.tf", .sibling, 4⟩).addPathEdge ⟨"a.tf", "b.tf", .cochange, 2⟩

/-- The siblings' weight is not walked along, and the second file leads nowhere. -/
theorem rows_fold_edges_of_parallel :
    parallelGraph.WellFormed ∧ (1, 3) ∈ (ofGraph parallelGraph EdgeKind.isWalkable).row 0 ∧
      (ofGraph parallelGraph EdgeKind.isWalkable).outWeight 1 = 0 := by
  have wellFormed : parallelGraph.WellFormed :=
    ((Graph.wellFormed_empty.addPathEdge _).addPathEdge _).addPathEdge _
  rcases rows_fold_edges wellFormed EdgeKind.isWalkable with ⟨-, rows⟩
  refine ⟨wellFormed, ((rows 0).2.1 1 3).mpr ⟨?_, ?_⟩, (rows 1).2.2.2.2.2.mpr ?_⟩
  · exact ⟨(⟨0, 1, .lexical⟩, 1), by decide, by decide, by decide, by decide⟩
  · rw [(rows 0).2.2.1 1]
    decide +kernel
  · rintro ⟨target, edge, isEdge, isSource, -⟩
    revert edge
    decide

end Adjacency
end ContextPack
