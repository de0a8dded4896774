import ContextPack.Graph.Distance
import ContextPack.Proofs.Graph.Adjacency
import Mathlib.Data.Finset.Card
import Mathlib.Logic.Relation

namespace ContextPack

/-!
# Hop distances are least numbers of hops

The queue of the search holds nodes of one distance and behind them nodes of the
next one, and no node was met any further away.  So when a node leaves the
queue, each of its neighbours has been met at most one hop behind it, now or
before.  Once the queue is empty this holds along every link, and a distance is
at most the length of any path; that it is the length of one was clear from the
moment when the node was met.
-/

/-! ## Reaching in a number of hops -/

/-- A path of so many links leads from a seed to the node. -/
def ReachedIn (link : Nat → Nat → Prop) (seeds : List Nat) : Nat → Nat → Prop
  | 0, node => node ∈ seeds
  | hops + 1, node => ∃ before, ReachedIn link seeds hops before ∧ link before node

/-- The number of hops is the least in which the node is reached. -/
structure FirstIn (link : Nat → Nat → Prop) (seeds : List Nat) (hops node : Nat) : Prop where
  reached : ReachedIn link seeds hops node
  least : ∀ fewer < hops, ¬ReachedIn link seeds fewer node

section Hops

variable {link : Nat → Nat → Prop} {seeds : List Nat} {hops node : Nat}

theorem ReachedIn.exists_firstIn (reached : ReachedIn link seeds hops node) :
    ∃ least ≤ hops, FirstIn link seeds least node := by
  classical
  have exists_reached : ∃ hops, ReachedIn link seeds hops node := ⟨hops, reached⟩
  refine ⟨Nat.find exists_reached, Nat.find_min' exists_reached reached, ?_⟩
  exact ⟨Nat.find_spec exists_reached, fun fewer below => Nat.find_min exists_reached below⟩

/-- In any number of hops those nodes are reached to which links lead from a
seed. -/
theorem exists_reachedIn_iff :
    (∃ hops, ReachedIn link seeds hops node) ↔
      ∃ seed ∈ seeds, Relation.ReflTransGen link seed node := by
  constructor
  · rintro ⟨hops, reached⟩
    induction hops generalizing node with
    | zero => exact ⟨node, reached, Relation.ReflTransGen.refl⟩
    | succ hops inductionHypothesis =>
        rcases reached with ⟨before, earlier, leads⟩
        rcases inductionHypothesis earlier with ⟨seed, isSeed, path⟩
        exact ⟨seed, isSeed, path.tail leads⟩
  · rintro ⟨seed, isSeed, path⟩
    induction path with
    | refl => exact ⟨0, isSeed⟩
    | tail _ leads inductionHypothesis =>
        rcases inductionHypothesis with ⟨hops, reached⟩
        exact ⟨hops + 1, _, reached, leads⟩

end Hops

/-! ## The queue of the search -/

namespace Search

section Scan

variable (hops : Nat) (search : Search) (nodes : List Nat)

theorem getElem?_met_meet (other node : Nat) :
    (search.meet hops other).met[node]? =
      if search.met[node]? = some none ∧ node = other then some (some hops)
      else search.met[node]? := by
  rw [meet]
  split
  · next isNew =>
      have inside : other < search.met.length := (List.getElem?_eq_some_iff.mp isNew).1
      by_cases same : node = other
      · rw [same, List.getElem?_set_self inside, if_pos ⟨isNew, rfl⟩]
      · rw [List.getElem?_set_ne (Ne.symm same), if_neg (same ·.2)]
  · next known =>
      rw [if_neg]
      rintro ⟨isNew, rfl⟩
      exact known isNew

/-- A scan gives its distance to those of the nodes that had none. -/
theorem getElem?_met_foldl_meet (node : Nat) :
    (nodes.foldl (meet hops) search).met[node]? =
      if search.met[node]? = some none ∧ node ∈ nodes then some (some hops)
      else search.met[node]? := by
  induction nodes generalizing search with
  | nil => exact (if_neg fun both => List.not_mem_nil both.2).symm
  | cons first rest inductionHypothesis =>
      rw [List.foldl_cons, inductionHypothesis, getElem?_met_meet]
      by_cases isNew : search.met[node]? = some none
      · by_cases same : node = first
        · subst same
          simp [isNew]
        · simp [isNew, same]
      · simp [isNew]

/-- A scan adds the same nodes to the end of the queue. -/
theorem exists_waiting_foldl_meet :
    ∃ added, (nodes.foldl (meet hops) search).waiting = search.waiting ++ added ∧
      ∀ node, node ∈ added ↔ search.met[node]? = some none ∧ node ∈ nodes := by
  induction nodes generalizing search with
  | nil => exact ⟨[], (List.append_nil _).symm, fun node => by simp⟩
  | cons first rest inductionHypothesis =>
      rcases inductionHypothesis (search.meet hops first) with ⟨added, queue, isAdded⟩
      rw [List.foldl_cons, queue]
      simp only [getElem?_met_meet] at isAdded
      by_cases isNew : search.met[first]? = some none
      · refine ⟨first :: added, by simp [meet, isNew], fun node => ?_⟩
        rw [List.mem_cons, isAdded, List.mem_cons]
        by_cases same : node = first
        · simp [same, isNew]
        · simp [same]
      · refine ⟨added, by simp [meet, isNew], fun node => ?_⟩
        rw [isAdded, List.mem_cons]
        by_cases same : node = first
        · simp [same, isNew]
        · simp [same]

@[simp] theorem length_met_meet (node : Nat) :
    (search.meet hops node).met.length = search.met.length := by
  rw [meet]
  split
  · exact List.length_set
  · rfl

@[simp] theorem length_met_foldl_meet :
    (nodes.foldl (meet hops) search).met.length = search.met.length := by
  induction nodes generalizing search with
  | nil => rfl
  | cons first rest inductionHypothesis =>
      rw [List.foldl_cons, inductionHypothesis, length_met_meet]

/-- What a scan has done: nodes that had no distance got one and joined the queue. -/
structure Meets (next : Search) (added : List Nat) : Prop where
  waiting_eq : next.waiting = search.waiting ++ added
  mem_added : ∀ node, node ∈ added ↔ search.met[node]? = some none ∧ node ∈ nodes
  met_eq : ∀ node, next.met[node]? = if node ∈ added then some (some hops) else search.met[node]?

theorem exists_meets : ∃ added, Meets hops search nodes (nodes.foldl (meet hops) search) added := by
  rcases exists_waiting_foldl_meet hops search nodes with ⟨added, queue, isAdded⟩
  refine ⟨added, queue, isAdded, fun node => ?_⟩
  rw [getElem?_met_foldl_meet]
  simp only [isAdded]

end Scan

section Meets

variable {hops : Nat} {search next : Search} {nodes added : List Nat} {node distance : Nat}
  (meets : Meets hops search nodes next added)
include meets

theorem Meets.met_of_mem (isAdded : node ∈ added) : next.met[node]? = some (some hops) := by
  rw [meets.met_eq, if_pos isAdded]

theorem Meets.keeps (found : search.met[node]? = some (some distance)) :
    next.met[node]? = some (some distance) := by
  have notNew : node ∉ added := fun isAdded => by
    cases found.symm.trans ((meets.mem_added node).mp isAdded).1
  rw [meets.met_eq, if_neg notNew, found]

theorem Meets.cases (found : next.met[node]? = some (some distance)) :
    (node ∈ added ∧ distance = hops) ∨ search.met[node]? = some (some distance) := by
  rw [meets.met_eq] at found
  split at found
  · next isAdded =>
      cases found
      exact Or.inl ⟨isAdded, rfl⟩
  · exact Or.inr found

/-- Each of the nodes has a distance now, be it new or not. -/
theorem Meets.exists_met (isNode : node < search.met.length) (isScanned : node ∈ nodes) :
    ∃ distance, next.met[node]? = some (some distance) ∧
      (distance = hops ∨ search.met[node]? = some (some distance)) := by
  cases known : search.met[node]? with
  | none => exact absurd isNode (by simpa using known)
  | some found =>
      cases found with
      | none => exact ⟨hops, meets.met_of_mem ((meets.mem_added node).mpr ⟨known, isScanned⟩),
          Or.inl rfl⟩
      | some distance => exact ⟨distance, meets.keeps known, Or.inr rfl⟩

end Meets

/-- The queue holds nodes of one distance and behind them nodes of the next one.
Nothing was met any further away. -/
structure Spans (search : Search) (level : Nat) (near far : List Nat) : Prop where
  waiting_eq : search.waiting = near ++ far
  near_met : ∀ node ∈ near, search.met[node]? = some (some level)
  far_met : ∀ node ∈ far, search.met[node]? = some (some (level + 1))
  met_le : ∀ node hops : Nat, search.met[node]? = some (some hops) → hops ≤ level + 1

/-- The first node of the queue can be taken to stand in the nearer part: when
that part is used up, the farther one takes its place. -/
theorem Spans.exists_cons {search : Search} {level : Nat} {near far : List Nat}
    (spans : search.Spans level near far) {node : Nat} {rest : List Nat}
    (queue : search.waiting = node :: rest) :
    ∃ level near far, search.Spans level (node :: near) far ∧ rest = near ++ far := by
  have parts : near ++ far = node :: rest := spans.waiting_eq.symm.trans queue
  cases near with
  | nil =>
      cases parts
      refine ⟨level + 1, rest, [], ⟨?_, spans.far_met, nofun, fun other hops found => ?_⟩, ?_⟩
      · rw [queue, List.append_nil]
      · exact Nat.le_succ_of_le (spans.met_le other hops found)
      · exact (List.append_nil rest).symm
  | cons first near =>
      cases parts
      exact ⟨level, near, far, spans, rfl⟩

/-- What holds of the search after every step. -/
structure Faithful (neighbors : Nat → List Nat) (seeds : List Nat) (search : Search) : Prop where
  /-- A distance is the length of some path. -/
  reached : ∀ node hops : Nat, search.met[node]? = some (some hops) →
    ReachedIn (fun before node => node ∈ neighbors before) seeds hops node
  seeds_met : ∀ seed ∈ seeds, seed < search.met.length → search.met[seed]? = some (some 0)
  /-- Links from nodes that have left the queue are known. -/
  followed : ∀ before hops : Nat, search.met[before]? = some (some hops) → before ∉ search.waiting →
    ∀ node ∈ neighbors before, ∃ fewer ≤ hops + 1, search.met[node]? = some (some fewer)
  spans : ∃ level near far, search.Spans level near far

theorem length_met_start (nodeCount : Nat) (seeds : List Nat) :
    (start nodeCount seeds).met.length = nodeCount := by
  rw [start, length_met_foldl_meet, List.length_replicate]

theorem pending_start (nodeCount : Nat) (seeds : List Nat) :
    (start nodeCount seeds).pending = nodeCount := by
  rw [start, pending_foldl_meet, pending, List.length_nil, Nat.zero_add, List.count_replicate_self]

section Steps

variable {neighbors : Nat → List Nat} {seeds : List Nat} {search : Search}

theorem Faithful.start (nodeCount : Nat) :
    (Search.start nodeCount seeds).Faithful neighbors seeds := by
  have unmet (node : Nat) : (List.replicate nodeCount (none : Option Nat))[node]? = some none ↔
      node < nodeCount := by simp [List.getElem?_replicate]
  have nothing (node hops : Nat) :
      (List.replicate nodeCount (none : Option Nat))[node]? ≠ some (some hops) := by
    simp [List.getElem?_replicate]
  rcases exists_meets 0 ⟨List.replicate nodeCount none, []⟩ seeds with ⟨added, meets⟩
  change Meets 0 _ seeds (Search.start nodeCount seeds) added at meets
  have isSeed {node hops : Nat}
      (found : (Search.start nodeCount seeds).met[node]? = some (some hops)) :
      node ∈ added ∧ hops = 0 := (meets.cases found).resolve_right (nothing node hops)
  constructor
  case reached =>
    intro node hops found
    rcases isSeed found with ⟨isAdded, rfl⟩
    exact ((meets.mem_added node).mp isAdded).2
  case seeds_met =>
    intro seed member inside
    rw [length_met_start] at inside
    exact meets.met_of_mem ((meets.mem_added seed).mpr ⟨(unmet seed).mpr inside, member⟩)
  case followed =>
    intro before hops found left
    rw [meets.waiting_eq] at left
    exact absurd (isSeed found).1 left
  case spans =>
    refine ⟨0, added, [], ?_, fun node isAdded => meets.met_of_mem isAdded, nofun, ?_⟩
    · rw [meets.waiting_eq, List.nil_append, List.append_nil]
    · exact fun node hops found => (isSeed found).2.trans_le (Nat.zero_le 1)

section Step

variable {node level : Nat} {near far added : List Nat} {next : Search}
  (spans : search.Spans level (node :: near) far)
  (meets : Meets (level + 1) { search with waiting := near ++ far } (neighbors node) next added)
include spans meets

/-- The neighbours that are new stand at the end of the farther part. -/
theorem Spans.of_meets : next.Spans level near (far ++ added) where
  waiting_eq := meets.waiting_eq.trans (List.append_assoc near far added)
  near_met other member := meets.keeps (spans.near_met other (List.mem_cons_of_mem node member))
  far_met other member := by
    rcases List.mem_append.mp member with isFar | isNew
    · exact meets.keeps (spans.far_met other isFar)
    · exact meets.met_of_mem isNew
  met_le other hops found := by
    rcases meets.cases found with ⟨-, rfl⟩ | old
    · exact le_rfl
    · exact spans.met_le other hops old

/-- The node that leaves the queue has only neighbours that were met at most one
hop behind it, and what held of the nodes before it still does. -/
theorem Faithful.of_meets (faithful : search.Faithful neighbors seeds)
    (inside : ∀ before, ∀ node ∈ neighbors before, node < search.met.length)
    (sameLength : next.met.length = search.met.length) : next.Faithful neighbors seeds := by
  have leaves : search.met[node]? = some (some level) := spans.near_met node List.mem_cons_self
  constructor
  case reached =>
    intro other hops found
    rcases meets.cases found with ⟨isNew, rfl⟩ | old
    · exact ⟨node, faithful.reached node level leaves, ((meets.mem_added other).mp isNew).2⟩
    · exact faithful.reached other hops old
  case seeds_met =>
    exact fun seed member bounded =>
      meets.keeps (faithful.seeds_met seed member (sameLength ▸ bounded))
  case followed =>
    intro before hops found left other leads
    rw [meets.waiting_eq, List.mem_append, not_or] at left
    have old := (meets.cases found).resolve_left fun new => left.2 new.1
    by_cases same : before = node
    · cases same
      cases leaves.symm.trans old
      rcases meets.exists_met (inside node other leads) leads with ⟨fewer, isMet, rfl | known⟩
      · exact ⟨level + 1, le_rfl, isMet⟩
      · exact ⟨fewer, spans.met_le other fewer known, isMet⟩
    · have gone : before ∉ search.waiting := by
        rw [spans.waiting_eq, List.cons_append, List.mem_cons, not_or]
        exact ⟨same, left.1⟩
      rcases faithful.followed before hops old gone other leads with ⟨fewer, atMost, isMet⟩
      exact ⟨fewer, atMost, meets.keeps isMet⟩
  case spans => exact ⟨level, near, far ++ added, spans.of_meets meets⟩

end Step

/-- A step keeps all of it. -/
theorem Faithful.step (inside : ∀ before, ∀ node ∈ neighbors before, node < search.met.length)
    (faithful : search.Faithful neighbors seeds) :
    (search.step neighbors).Faithful neighbors seeds := by
  rw [Search.step]
  split
  · exact faithful
  next node rest queue =>
  rcases faithful.spans with ⟨_, _, _, fromFront⟩
  rcases fromFront.exists_cons queue with ⟨level, near, far, spans, rfl⟩
  have isBeyond : search.beyond node = level + 1 := by
    rw [beyond, spans.near_met node List.mem_cons_self]
  rw [isBeyond]
  rcases exists_meets (level + 1) { search with waiting := near ++ far } (neighbors node) with
    ⟨added, meets⟩
  exact faithful.of_meets spans meets inside (length_met_foldl_meet _ _ _)

theorem length_met_step (neighbors : Nat → List Nat) (search : Search) :
    (search.step neighbors).met.length = search.met.length := by
  rw [Search.step]
  split
  · rfl
  · exact length_met_foldl_meet _ _ _

theorem length_met_iterate_step (neighbors : Nat → List Nat) (search : Search) (turns : Nat) :
    ((Search.step neighbors)^[turns] search).met.length = search.met.length := by
  induction turns with
  | zero => rfl
  | succ turns inductionHypothesis =>
      rw [Function.iterate_succ_apply', length_met_step, inductionHypothesis]

/-- However often the search has stepped, the queue spans two distances at most. -/
theorem Faithful.iterate_step
    (inside : ∀ before, ∀ node ∈ neighbors before, node < search.met.length)
    (faithful : search.Faithful neighbors seeds) (turns : Nat) :
    ((Search.step neighbors)^[turns] search).Faithful neighbors seeds := by
  induction turns with
  | zero => exact faithful
  | succ turns inductionHypothesis =>
      rw [Function.iterate_succ_apply']
      refine inductionHypothesis.step fun before node leads => ?_
      rw [length_met_iterate_step]
      exact inside before node leads

/-- The run is the step, repeated until the queue is empty.  There are no more
steps than nodes that wait or were not met. -/
theorem exists_iterate_eq_run (neighbors : Nat → List Nat) (search : Search) :
    ∃ turns ≤ search.pending, (Search.step neighbors)^[turns] search = search.run neighbors ∧
      (search.run neighbors).waiting = [] := by
  induction search using Search.run.induct neighbors with
  | case1 search empty =>
      rw [run, if_pos empty]
      exact ⟨0, Nat.zero_le _, rfl, empty⟩
  | case2 search waits inductionHypothesis =>
      rw [run, if_neg waits]
      rcases inductionHypothesis with ⟨turns, bounded, reaches, empty⟩
      exact ⟨turns + 1, bounded.trans_lt (pending_step_lt neighbors waits),
        reaches, empty⟩

/-- With the queue empty, a distance is no more than the length of any path. -/
theorem Faithful.exists_met_le (faithful : search.Faithful neighbors seeds)
    (empty : search.waiting = [])
    (inside : ∀ before, ∀ node ∈ neighbors before, before < search.met.length)
    {node hops : Nat} (isNode : node < search.met.length)
    (reached : ReachedIn (fun before node => node ∈ neighbors before) seeds hops node) :
    ∃ fewer ≤ hops, search.met[node]? = some (some fewer) := by
  induction hops generalizing node with
  | zero => exact ⟨0, le_rfl, faithful.seeds_met node reached isNode⟩
  | succ hops inductionHypothesis =>
      rcases reached with ⟨before, earlier, leads⟩
      rcases inductionHypothesis (inside before node leads) earlier with ⟨most, atMost, found⟩
      have left : before ∉ search.waiting := empty ▸ List.not_mem_nil
      rcases faithful.followed before most found left node leads with ⟨fewer, bounded, isMet⟩
      exact ⟨fewer, bounded.trans (Nat.succ_le_succ atMost), isMet⟩

theorem Faithful.met_eq_some_iff (faithful : search.Faithful neighbors seeds)
    (empty : search.waiting = [])
    (inside : ∀ before, ∀ node ∈ neighbors before, before < search.met.length) (node hops : Nat) :
    search.met[node]? = some (some hops) ↔
      node < search.met.length ∧
        FirstIn (fun before node => node ∈ neighbors before) seeds hops node := by
  constructor
  · intro found
    have isNode := (List.getElem?_eq_some_iff.mp found).1
    refine ⟨isNode, faithful.reached node hops found, fun fewer below reached => ?_⟩
    rcases faithful.exists_met_le empty inside isNode reached with ⟨least, atMost, isMet⟩
    cases found.symm.trans isMet
    exact absurd below (Nat.not_lt_of_le atMost)
  · rintro ⟨isNode, first⟩
    rcases faithful.exists_met_le empty inside isNode first.reached with ⟨fewer, atMost, isMet⟩
    have same : fewer = hops := by
      by_contra different
      exact first.least fewer (Nat.lt_of_le_of_ne atMost different)
        (faithful.reached node fewer isMet)
    exact same ▸ isMet

end Steps

end Search

/-! ## Distances in a graph -/

namespace Graph

section Search

variable {α : Type} [Scalar α] (graph : Graph α) (seeds : List Nat)

/-- The search after so many steps. -/
def searchAfter (turns : Nat) : Search :=
  (Search.step graph.neighbors)^[turns] (Search.start graph.nodeCount seeds)

/-- The loop ends by itself, at the latest when every node has left the queue. -/
theorem exists_searchAfter_eq :
    ∃ turns ≤ graph.nodeCount, graph.searchAfter seeds turns = ⟨graph.distances seeds, []⟩ := by
  rcases Search.exists_iterate_eq_run graph.neighbors (Search.start graph.nodeCount seeds) with
    ⟨turns, bounded, reaches, empty⟩
  refine ⟨turns, bounded.trans_eq (Search.pending_start graph.nodeCount seeds), ?_⟩
  rw [searchAfter, reaches, distances, ← empty]

theorem length_met_searchAfter (turns : Nat) :
    (graph.searchAfter seeds turns).met.length = graph.nodeCount := by
  rw [searchAfter, Search.length_met_iterate_step, Search.length_met_start]

theorem length_distances : (graph.distances seeds).length = graph.nodeCount := by
  rcases graph.exists_searchAfter_eq seeds with ⟨turns, -, reaches⟩
  rw [← graph.length_met_searchAfter seeds turns, reaches]

variable {graph}

theorem neighbors_eq (node : Nat) :
    graph.neighbors node = (graph.walkable.row node).map Prod.fst := rfl

/-- A number that is no node has no neighbours. -/
theorem lt_of_mem_neighbors {before node : Nat} (leads : node ∈ graph.neighbors before) :
    before < graph.nodeCount := by
  by_contra outside
  have noRow : graph.walkable.rows[before]? = none :=
    List.getElem?_eq_none (by simpa [walkable, Adjacency.ofGraph] using outside)
  rw [neighbors_eq, Adjacency.row, noRow] at leads
  exact List.not_mem_nil leads

variable (inside : ∀ before, ∀ node ∈ graph.neighbors before, node < graph.nodeCount)
include inside

theorem faithful_searchAfter (turns : Nat) :
    (graph.searchAfter seeds turns).Faithful graph.neighbors seeds :=
  (Search.Faithful.start graph.nodeCount).iterate_step
    (fun before node leads => (Search.length_met_start graph.nodeCount seeds).symm ▸
      inside before node leads) turns

/-- A distance is the least number of hops, and there is none for a node that
nothing leads to. -/
theorem distances_eq_some_iff_firstIn (node hops : Nat) :
    (graph.distances seeds)[node]? = some (some hops) ↔
      node < graph.nodeCount ∧
        FirstIn (fun before node => node ∈ graph.neighbors before) seeds hops node := by
  rcases graph.exists_searchAfter_eq seeds with ⟨turns, -, reaches⟩
  have faithful := faithful_searchAfter seeds inside turns
  rw [reaches] at faithful
  have found := faithful.met_eq_some_iff rfl
    (fun before node leads => graph.length_distances seeds ▸ lt_of_mem_neighbors leads) node hops
  rwa [length_distances] at found

end Search

/-- A link that the walk and the search follow. -/
abbrev Linked (graph : Graph ℚ) : Nat → Nat → Prop := graph.Leads EdgeKind.isWalkable

variable {graph : Graph ℚ}

theorem mem_neighbors (wellFormed : graph.WellFormed) (before node : Nat) :
    node ∈ graph.neighbors before ↔ graph.Linked before node :=
  Adjacency.mem_map_fst_row wellFormed before node

/-- The same for the links of a graph whose edges are in order. -/
theorem distances_eq_some_iff (wellFormed : graph.WellFormed) (seeds : List Nat) (node hops : Nat) :
    (graph.distances seeds)[node]? = some (some hops) ↔
      node < graph.nodeCount ∧ FirstIn graph.Linked seeds hops node := by
  have linked : (fun before node => node ∈ graph.neighbors before) = graph.Linked :=
    funext₂ fun before node => propext (mem_neighbors wellFormed before node)
  rw [← linked]
  exact distances_eq_some_iff_firstIn seeds (fun before node isNeighbor =>
    ((mem_neighbors wellFormed before node).mp isNeighbor).target_lt wellFormed) node hops

/-- Being within some hops of a seed, by distance and by path. -/
theorem distance_le_iff (wellFormed : graph.WellFormed) {seeds : List Nat} {node : Nat}
    (inside : node < graph.nodeCount) (bound : Nat) :
    (∃ hops ≤ bound, (graph.distances seeds)[node]?.getD none = some hops) ↔
      ∃ hops ≤ bound, ReachedIn graph.Linked seeds hops node := by
  have distance (hops : Nat) : (graph.distances seeds)[node]?.getD none = some hops ↔
      FirstIn graph.Linked seeds hops node := by
    have found : (graph.distances seeds)[node]?.getD none = some hops ↔
        (graph.distances seeds)[node]? = some (some hops) := by
      cases (graph.distances seeds)[node]? with
      | none => exact iff_of_false nofun nofun
      | some distance => exact Option.some_inj.symm
    rw [found, Graph.distances_eq_some_iff wellFormed]
    exact and_iff_right inside
  constructor
  · rintro ⟨hops, bounded, isDistance⟩
    exact ⟨hops, bounded, ((distance hops).mp isDistance).reached⟩
  · rintro ⟨hops, bounded, reached⟩
    rcases reached.exists_firstIn with ⟨least, below, first⟩
    exact ⟨least, below.trans bounded, (distance least).mpr first⟩

end Graph

end ContextPack
