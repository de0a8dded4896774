import ContextPack.Proofs.Cochange.Counts
import ContextPack.Proofs.Graph.Store

namespace ContextPack
namespace Cochange

/-!
# Co-change edges share one weight

The pair with the largest count among those that are kept has the whole weight,
and each other pair has its proportional part of it.  A pair that counts too
rarely, or leads to a file that is no candidate any more, is dropped before the
largest count is taken and so does not scale the others down.

Seeds and the files they changed with are kept apart by the counting, which makes
the two directions of a pair edges of their own.
-/

/-! ## Tables of counts -/

/-- A table of counts lists its pairs in ascending order, none twice. -/
def IsTable (pairs : List Pair) : Prop :=
  pairs.Pairwise fun first second => pairOrder first.files second.files = .lt

/-- No file that pairs lead to is a seed of theirs. -/
def LeadsAway (pairs : List Pair) : Prop :=
  ∀ pair ∈ pairs, ∀ another ∈ pairs, pair.other ≠ another.seed

theorem IsTable.nodup_map_files {table : List Pair} (isTable : IsTable table) :
    (table.map Pair.files).Nodup := by
  apply List.pairwise_map.mpr
  apply isTable.imp
  intro first second before same
  have tie : pairOrder second.files second.files = .eq := Std.ReflCmp.compare_self
  rw [same, tie] at before
  cases before

/-- Tables with the same rows are the same. -/
theorem IsTable.ext {first second : List Pair} (isFirst : IsTable first) (isSecond : IsTable second)
    (same : ∀ pair, pair ∈ first ↔ pair ∈ second) : first = second := by
  have perm : first.Perm second :=
    (List.perm_ext_iff_of_nodup isFirst.nodup_map_files.of_map isSecond.nodup_map_files.of_map).mpr same
  apply perm.eq_of_pairwise _ isFirst isSecond
  intro one another _ _ before behind
  have turned : pairOrder one.files another.files = (pairOrder another.files one.files).swap :=
    Std.OrientedCmp.eq_swap
  rw [before, behind] at turned
  cases turned

theorem isTable_countPairs (seeds : List String) (maxFiles : Nat) (commits : List (List String)) :
    IsTable (countPairs seeds maxFiles commits).1 := by
  have strict := pairwise_tally pairLe_eq_isLE isSortingTest_pairLe (fun _ _ => eq_of_pairOrder)
    (givenPairs seeds maxFiles commits)
  rw [← map_files_countPairs] at strict
  exact List.pairwise_map.mp strict

theorem leadsAway_countPairs (seeds : List String) (maxFiles : Nat) {commits : List (List String)}
    (distinct : ∀ files ∈ commits, files.Nodup) :
    LeadsAway (countPairs seeds maxFiles commits).1 := by
  have listed (pair : Pair) (member : pair ∈ (countPairs seeds maxFiles commits).1) :
      pair.seed ∈ seeds ∧ pair.other ∉ seeds := by
    rw [mem_countPairs, Pair.files, count_givenPairs distinct] at member
    by_contra noPair
    rw [if_neg noPair] at member
    omega
  intro pair member another isAnother same
  apply (listed pair member).2
  rw [same]
  exact (listed another isAnother).1

/-! ## Pairs that are kept -/

section Kept

variable {α : Type} {settings : CochangeSettings α} {candidates : List String} {table : List Pair}

theorem mem_keptPairs (pair : Pair) :
    pair ∈ keptPairs settings candidates table ↔
      pair ∈ table ∧ settings.minCount ≤ pair.count ∧ pair.other ∈ candidates := by
  simp [keptPairs]

theorem IsTable.keptPairs (isTable : IsTable table) :
    IsTable (keptPairs settings candidates table) :=
  isTable.sublist List.filter_sublist

/-- Rows that are not kept do not matter for those that are. -/
theorem keptPairs_congr {another : List Pair} (isTable : IsTable table) (isAnother : IsTable another)
    (same : ∀ pair, settings.minCount ≤ pair.count → pair.other ∈ candidates →
      (pair ∈ another ↔ pair ∈ table)) :
    Cochange.keptPairs settings candidates another = Cochange.keptPairs settings candidates table := by
  apply isAnother.keptPairs.ext isTable.keptPairs
  intro pair
  rw [mem_keptPairs, mem_keptPairs]
  constructor
  · rintro ⟨member, often, isCandidate⟩
    exact ⟨(same pair often isCandidate).mp member, often, isCandidate⟩
  · rintro ⟨member, often, isCandidate⟩
    exact ⟨(same pair often isCandidate).mpr member, often, isCandidate⟩

end Kept

theorem count_le_largestCount {kept : List Pair} {pair : Pair} (member : pair ∈ kept) :
    pair.count ≤ largestCount kept := by
  have counted : pair.count ∈ kept.map Pair.count := List.mem_map_of_mem member
  rw [largestCount, List.foldl_max_eq_max (List.ne_nil_of_mem counted)]
  exact le_max_of_le_right (List.le_max_of_mem counted)

theorem isGreatest_largestCount {kept : List Pair} (nonempty : kept ≠ []) :
    IsGreatest {count | ∃ pair ∈ kept, pair.count = count} (largestCount kept) := by
  constructor
  · have counts : kept.map Pair.count ≠ [] := by simpa using nonempty
    rw [largestCount, List.foldl_max_eq_max counts, Nat.zero_max]
    exact List.mem_map.mp (List.max_mem counts)
  · rintro count ⟨pair, member, rfl⟩
    exact count_le_largestCount member

/-! ## Shares -/

/-- The edges of a pair, one each way. -/
def Pair.bothWays {α : Type} (pair : Pair) (weight : α) : List (PathEdge α) :=
  [⟨pair.seed, pair.other, .cochange, weight⟩, ⟨pair.other, pair.seed, .cochange, weight⟩]

/-- The part of the weight that falls to a pair. -/
def share {α : Type} [Scalar α] (settings : CochangeSettings α) (kept : List Pair) (pair : Pair) : α :=
  settings.weight * Scalar.ofNat pair.count / Scalar.ofNat (largestCount kept)

theorem edges_eq {α : Type} [Scalar α] (settings : CochangeSettings α) (kept : List Pair) :
    edges settings kept =
      .ofList (kept.flatMap fun pair => pair.bothWays (share settings kept pair)) :=
  rfl

section Shares

variable {settings : CochangeSettings ℚ} {kept : List Pair} {pair : Pair}

theorem share_rat (pair : Pair) :
    share settings kept pair = settings.weight * pair.count / largestCount kept :=
  rfl

theorem share_pos (weighs : 0 < settings.weight) (counts : 0 < pair.count) (member : pair ∈ kept) :
    0 < share settings kept pair := by
  have largest : 0 < largestCount kept := counts.trans_le (count_le_largestCount member)
  rw [share_rat]
  positivity

theorem share_le_weight (weighs : 0 < settings.weight) (member : pair ∈ kept) :
    share settings kept pair ≤ settings.weight := by
  have below : (pair.count : ℚ) ≤ largestCount kept := by
    exact_mod_cast count_le_largestCount member
  rw [share_rat, mul_div_assoc]
  apply mul_le_of_le_one_right weighs.le
  exact div_le_one_of_le₀ below (Nat.cast_nonneg _)

theorem share_of_largest (counts : 0 < pair.count) (largest : pair.count = largestCount kept) :
    share settings kept pair = settings.weight := by
  have nonzero : (pair.count : ℚ) ≠ 0 := by exact_mod_cast counts.ne'
  rw [share_rat, ← largest]
  exact mul_div_cancel_right₀ _ nonzero

theorem share_le_share_iff (weighs : 0 < settings.weight) {first second : Pair}
    (largest : 0 < largestCount kept) :
    share settings kept first ≤ share settings kept second ↔ first.count ≤ second.count := by
  have positive : (0 : ℚ) < largestCount kept := by exact_mod_cast largest
  rw [share_rat, share_rat, div_le_div_iff_of_pos_right positive, mul_le_mul_iff_right₀ weighs,
    Nat.cast_le]

end Shares

/-! ## Edges -/

section Edges

variable {settings : CochangeSettings ℚ} {kept : List Pair}

theorem weight_of_mem_bothWays {pair : Pair} {weight : ℚ} {edge : PathEdge ℚ}
    (member : edge ∈ pair.bothWays weight) : edge.weight = weight := by
  simp only [Pair.bothWays, List.mem_cons, List.not_mem_nil, or_false] at member
  rcases member with rfl | rfl <;> rfl

/-- Of the two directions of a pair nothing is lost unless they are the same. -/
theorem mem_edges_iff (weighs : 0 < settings.weight) (counts : ∀ pair ∈ kept, 0 < pair.count)
    (edge : PathEdge ℚ) :
    edge ∈ (edges settings kept).edges ↔ edge.source ≠ edge.target ∧
      ∃ pair ∈ kept, edge ∈ pair.bothWays (share settings kept pair) := by
  have isProper (pair : Pair) (member : pair ∈ kept)
      (ofPair : edge ∈ pair.bothWays (share settings kept pair)) : 0 < edge.weight := by
    rw [weight_of_mem_bothWays ofPair]
    exact share_pos weighs (counts pair member) member
  simp only [edges_eq, EdgeBuffer.ofList, List.mem_filter, List.mem_flatMap, isEdgeWeight_rat,
    Bool.not_eq_true', Bool.or_eq_false_iff, decide_eq_false_iff_not, Bool.not_eq_false',
    decide_eq_true_eq]
  constructor
  · rintro ⟨ofPair, apart, -⟩
    exact ⟨apart, ofPair⟩
  · rintro ⟨apart, pair, member, ofPair⟩
    exact ⟨⟨pair, member, ofPair⟩, apart, isProper pair member ofPair⟩

/-- If no seed is led to, both directions of every pair are edges. -/
theorem edges_of_leadsAway (weighs : 0 < settings.weight) (counts : ∀ pair ∈ kept, 0 < pair.count)
    (leadsAway : LeadsAway kept) :
    (edges settings kept).edges =
      kept.flatMap fun pair => pair.bothWays (share settings kept pair) := by
  rw [edges_eq, EdgeBuffer.ofList, List.filter_eq_self]
  intro edge member
  rcases List.mem_flatMap.mp member with ⟨pair, isKept, ofPair⟩
  have apart : edge.source ≠ edge.target := by
    simp only [Pair.bothWays, List.mem_cons, List.not_mem_nil, or_false] at ofPair
    rcases ofPair with rfl | rfl
    · exact (leadsAway pair isKept pair isKept).symm
    · exact leadsAway pair isKept pair isKept
  have isEdge := (mem_edges_iff weighs counts edge).mpr ⟨apart, pair, isKept, ofPair⟩
  exact (List.mem_filter.mp isEdge).2

theorem nodup_edges (weighs : 0 < settings.weight) (counts : ∀ pair ∈ kept, 0 < pair.count)
    (isTable : IsTable kept) (leadsAway : LeadsAway kept) :
    ((edges settings kept).edges.map fun edge => (edge.source, edge.target)).Nodup := by
  let isSeed (path : String) : Prop := ∃ pair ∈ kept, pair.seed = path
  have apart : ∀ files ∈ kept.map Pair.files, isSeed files.1 ∧ ¬isSeed files.2 := by
    intro files member
    rcases List.mem_map.mp member with ⟨pair, isKept, rfl⟩
    constructor
    · exact ⟨pair, isKept, rfl⟩
    · rintro ⟨another, isAnother, same⟩
      exact leadsAway pair isKept another isAnother same.symm
  have bothWays := nodup_bothWays isTable.nodup_map_files apart
  rw [List.flatMap_map] at bothWays
  rw [edges_of_leadsAway weighs counts leadsAway, List.map_flatMap]
  exact bothWays

end Edges

/-- Of a table exactly the pairs are kept, in its order, that count often enough
and lead to a candidate.  Each gives one edge in either direction, and no edge
comes twice, if no seed is led to; otherwise only edges from a file to itself are
missing.  The largest count among the kept pairs has the whole weight, no weight
is outside of what is above zero and up to it, and weights compare as counts do.
What another table says of pairs that are not kept makes no difference. -/
theorem edges_share_weight {settings : CochangeSettings ℚ} (weighs : 0 < settings.weight)
    (counts : 1 ≤ settings.minCount) (candidates : List String) {table : List Pair}
    (isTable : IsTable table) :
    let kept := keptPairs settings candidates table
    let emitted := (edges settings kept).edges
    IsTable kept ∧
    (∀ pair, pair ∈ kept ↔
      pair ∈ table ∧ settings.minCount ≤ pair.count ∧ pair.other ∈ candidates) ∧
    (LeadsAway kept →
      (emitted = kept.flatMap fun pair => pair.bothWays (share settings kept pair)) ∧
      (emitted.map fun edge => (edge.source, edge.target)).Nodup) ∧
    (∀ edge, edge ∈ emitted ↔ edge.source ≠ edge.target ∧
      ∃ pair ∈ kept, edge ∈ pair.bothWays (share settings kept pair)) ∧
    (∀ pair ∈ kept, ∃ largest,
      IsGreatest {count | ∃ another ∈ kept, another.count = count} largest ∧
      share settings kept pair = settings.weight * pair.count / largest ∧
      (pair.count = largest → share settings kept pair = settings.weight)) ∧
    (∀ pair ∈ kept, 0 < share settings kept pair ∧ share settings kept pair ≤ settings.weight) ∧
    (∀ edge ∈ emitted, 0 < edge.weight ∧ edge.weight ≤ settings.weight) ∧
    (∀ first ∈ kept, ∀ second ∈ kept,
      share settings kept first ≤ share settings kept second ↔ first.count ≤ second.count) ∧
    ∀ another, IsTable another →
      (∀ pair, settings.minCount ≤ pair.count → pair.other ∈ candidates →
        (pair ∈ another ↔ pair ∈ table)) →
      (edges settings (keptPairs settings candidates another)).edges = emitted := by
  intro kept emitted
  have isKept (pair : Pair) : pair ∈ kept ↔
      pair ∈ table ∧ settings.minCount ≤ pair.count ∧ pair.other ∈ candidates := mem_keptPairs pair
  have positive : ∀ pair ∈ kept, 0 < pair.count := by
    intro pair member
    exact counts.trans ((isKept pair).mp member).2.1
  have inRange : ∀ pair ∈ kept,
      0 < share settings kept pair ∧ share settings kept pair ≤ settings.weight := by
    intro pair member
    exact ⟨share_pos weighs (positive pair member) member, share_le_weight weighs member⟩
  have isEmitted := mem_edges_iff weighs positive
  refine ⟨isTable.keptPairs, isKept, ?_, isEmitted, ?_, inRange, ?_, ?_, ?_⟩
  · intro leadsAway
    exact ⟨edges_of_leadsAway weighs positive leadsAway,
      nodup_edges weighs positive isTable.keptPairs leadsAway⟩
  · intro pair member
    exact ⟨largestCount kept, isGreatest_largestCount (List.ne_nil_of_mem member), share_rat pair,
      share_of_largest (positive pair member)⟩
  · intro edge member
    rcases (isEmitted edge).mp member with ⟨-, pair, isPair, ofPair⟩
    rw [weight_of_mem_bothWays ofPair]
    exact inRange pair isPair
  · intro first isFirst second _
    apply share_le_share_iff weighs
    exact (positive first isFirst).trans_le (count_le_largestCount isFirst)
  · intro another isAnother same
    rw [keptPairs_congr isTable isAnother same]

/-- Of four files the most frequent one was deleted and the rarest changed only
once with the seed. -/
def sampleCounts : List Pair :=
  [⟨"app.py", "deleted.py", 5⟩, ⟨"app.py", "deploy.yaml", 2⟩, ⟨"app.py", "once.py", 1⟩,
    ⟨"app.py", "test_app.py", 4⟩]

theorem edges_share_weight_of_sample :
    let settings : CochangeSettings ℚ := .default
    let kept := keptPairs settings ["deploy.yaml", "once.py", "test_app.py"] sampleCounts
    0 < settings.weight ∧ 1 ≤ settings.minCount ∧ IsTable sampleCounts ∧ LeadsAway kept ∧
      kept = [⟨"app.py", "deploy.yaml", 2⟩, ⟨"app.py", "test_app.py", 4⟩] ∧
      (edges settings kept).edges.map PathEdge.weight = [1 / 5, 1 / 5, 2 / 5, 2 / 5] := by
  intro settings kept
  have weight : settings.weight = 2 / 5 := by norm_num [settings, CochangeSettings.default]
  have weighs : 0 < settings.weight := by norm_num [weight]
  have isTable : IsTable sampleCounts := by
    unfold IsTable
    decide
  have isKept : kept = [⟨"app.py", "deploy.yaml", 2⟩, ⟨"app.py", "test_app.py", 4⟩] := by decide
  have leadsAway : LeadsAway kept := by
    rw [isKept]
    unfold LeadsAway
    decide
  rcases edges_share_weight weighs (by decide) ["deploy.yaml", "once.py", "test_app.py"] isTable with
    ⟨-, -, whole, -⟩
  have emitted : (edges settings kept).edges =
      kept.flatMap fun pair => pair.bothWays (share settings kept pair) := (whole leadsAway).1
  refine ⟨weighs, by decide, isTable, leadsAway, isKept, ?_⟩
  rw [emitted, isKept]
  norm_num [Pair.bothWays, share_rat, weight, largestCount]

end Cochange
end ContextPack
