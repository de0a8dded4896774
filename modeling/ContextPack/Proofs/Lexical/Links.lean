import ContextPack.Proofs.Graph.Store
import ContextPack.Proofs.Lexical.Matches
import ContextPack.Proofs.Lexical.Weights

namespace ContextPack.Lexical

/-!
# Links of seeds

A seed is linked to the most similar of the files that may be its matches.  None
of these is a seed, so that of a pair of linked files one is a seed and the other
is not.  That tells the two directions of a link apart from each other and from
those of all other links.
-/

open Scalar (lt le zero one isFinite)

/-! ## Links and their directions -/

section Links

variable {α : Type}

/-- A seed, by its path, with each of the files that it is linked to. -/
def linksOf (files : List TextFile) (linked : Nat → List (String × α)) (seed : Nat) :
    List (String × String × α) :=
  match files[seed]? with
  | none => []
  | some file => (linked seed).map fun found => (file.path, found)

def links (files : List TextFile) (linked : Nat → List (String × α)) (seeds : List Nat) :
    List (String × String × α) :=
  seeds.flatMap (linksOf files linked)

/-- A path of a seed. -/
def IsSeedPath (files : List TextFile) (seeds : List Nat) (path : String) : Prop :=
  ∃ seed ∈ seeds, ∃ file, files[seed]? = some file ∧ file.path = path

/-- Seeds are linked to files that are no seeds. -/
def LeadsAway (files : List TextFile) (linked : Nat → List (String × α)) (seeds : List Nat) : Prop :=
  ∀ seed ∈ seeds, ∀ found ∈ linked seed,
    ∃ document file, files[document]? = some file ∧ file.path = found.1 ∧ document ∉ seeds

variable {files : List TextFile} {linked : Nat → List (String × α)} {seeds : List Nat}

theorem mem_linksOf (seed : Nat) (link : String × String × α) :
    link ∈ linksOf files linked seed ↔
      ∃ file, files[seed]? = some file ∧ file.path = link.1 ∧ link.2 ∈ linked seed := by
  rw [linksOf]
  cases files[seed]? with
  | none => simp
  | some file => simp [Prod.ext_iff, and_comm]

theorem nodup_map_links (distinct : (files.map TextFile.path).Nodup) (once : seeds.Nodup)
    (otherFiles : ∀ seed ∈ seeds, ((linked seed).map Prod.fst).Nodup) :
    ((links files linked seeds).map fun link => (link.1, link.2.1)).Nodup := by
  rw [links, List.map_flatMap, List.nodup_flatMap]
  constructor
  · intro seed member
    rw [linksOf]
    cases files[seed]? with
    | none => exact List.nodup_nil
    | some file =>
        refine List.Nodup.of_map Prod.snd ?_
        rw [List.map_map, List.map_map]
        exact otherFiles seed member
  · refine once.imp fun {first second} different => List.disjoint_left.mpr ?_
    intro pair isFirst isSecond
    rcases List.mem_map.mp isFirst with ⟨link, inFirst, rfl⟩
    rcases List.mem_map.mp isSecond with ⟨other, inSecond, same⟩
    rcases (mem_linksOf first link).mp inFirst with ⟨file, isFile, isPath, -⟩
    rcases (mem_linksOf second other).mp inSecond with ⟨file', isFile', isPath', -⟩
    have samePath : file'.path = file.path := by rw [isPath, isPath', (Prod.mk.inj same).1]
    exact different (eq_of_path distinct isFile isFile' samePath.symm)

theorem isSeedPath_of_mem_links (distinct : (files.map TextFile.path).Nodup)
    (leadsAway : LeadsAway files linked seeds) {link : String × String × α}
    (member : link ∈ links files linked seeds) :
    IsSeedPath files seeds link.1 ∧ ¬IsSeedPath files seeds link.2.1 := by
  rcases List.mem_flatMap.mp member with ⟨seed, isSeed, ofSeed⟩
  rcases (mem_linksOf seed link).mp ofSeed with ⟨file, isFile, isPath, isLinked⟩
  refine ⟨⟨seed, isSeed, file, isFile, isPath⟩, ?_⟩
  rintro ⟨another, isAnother, other, isOther, samePath⟩
  rcases leadsAway seed isSeed link.2 isLinked with ⟨document, found, isFound, foundPath, noSeed⟩
  obtain rfl := eq_of_path distinct isFound isOther (foundPath.trans samePath.symm)
  exact noSeed isAnother

end Links

variable {α : Type} [Analytic α]

/-! ## Edges -/

/-- From a seed, given by its path, to a match. -/
def forwardEdge (settings : LexicalSettings α) (path : String) (found : String × α) : PathEdge α :=
  ⟨path, found.1, .lexical, scaleWeight settings found.2⟩

/-- From a match back to a seed, given by its path. -/
def backwardEdge (settings : LexicalSettings α) (path : String) (found : String × α) : PathEdge α :=
  ⟨found.1, path, .lexical, scaleWeight settings found.2 * settings.backwardFactor⟩

/-- The edges of links, each in both directions. -/
def linkEdges (settings : LexicalSettings α) (files : List TextFile)
    (linked : Nat → List (String × α)) (seeds : List Nat) : EdgeBuffer α :=
  .ofList ((links files linked seeds).flatMap fun link =>
    [forwardEdge settings link.1 link.2, backwardEdge settings link.1 link.2])

theorem edges_eq (settings : LexicalSettings α) (rareThreshold : Nat) (files : List TextFile)
    (seeds : List Nat) :
    let index := Index.build settings rareThreshold .logarithmic
      (files.map fun file => frequencies settings.minTermLength file.content)
    (edges settings rareThreshold files seeds).edges =
      linkEdges settings files
        (neighbors settings files.toArray index seeds (index.hubs settings.hubPercentile seeds))
        (Graph.distinctAscending seeds) := by
  intro index
  rw [← neighbors_congr settings files.toArray index
    (fun document => Graph.mem_distinctAscending document seeds), linkEdges, links,
    List.flatMap_assoc]
  simp only [edges, List.getElem?_toArray]
  congr 2
  funext seed
  rw [linksOf]
  cases files[seed]? with
  | none => rfl
  | some file =>
      simp only [List.flatMap_map]
      rfl

section Edges

variable {settings : LexicalSettings α} {files : List TextFile}
  {linked : Nat → List (String × α)} {seeds : List Nat}

theorem mem_linkEdges (distinct : (files.map TextFile.path).Nodup)
    (leadsAway : LeadsAway files linked seeds) (edge : PathEdge α) :
    edge ∈ (linkEdges settings files linked seeds).edges ↔ isEdgeWeight edge.weight = true ∧
      ∃ seed ∈ seeds, ∃ file, files[seed]? = some file ∧ ∃ found ∈ linked seed,
        edge = forwardEdge settings file.path found ∨
          edge = backwardEdge settings file.path found := by
  simp only [linkEdges, EdgeBuffer.ofList, List.mem_filter, List.mem_flatMap, List.mem_cons,
    List.not_mem_nil, or_false, Bool.not_eq_true', Bool.or_eq_false_iff, decide_eq_false_iff_not,
    Bool.not_eq_false']
  constructor
  · rintro ⟨⟨link, member, isEdge⟩, -, isProper⟩
    rcases List.mem_flatMap.mp member with ⟨seed, isSeed, ofSeed⟩
    rcases (mem_linksOf seed link).mp ofSeed with ⟨file, isFile, isPath, isLinked⟩
    rw [← isPath] at isEdge
    exact ⟨isProper, seed, isSeed, file, isFile, link.2, isLinked, isEdge⟩
  · rintro ⟨isProper, seed, isSeed, file, isFile, found, isLinked, isEdge⟩
    have member : (file.path, found) ∈ links files linked seeds := List.mem_flatMap.mpr
      ⟨seed, isSeed, (mem_linksOf seed (file.path, found)).mpr ⟨file, isFile, rfl, isLinked⟩⟩
    rcases isSeedPath_of_mem_links distinct leadsAway member with ⟨seedPath, otherPath⟩
    have apart : file.path ≠ found.1 := fun same => otherPath (same ▸ seedPath)
    refine ⟨⟨(file.path, found), member, isEdge⟩, ?_, isProper⟩
    rcases isEdge with rfl | rfl
    · exact apart
    · exact apart.symm

theorem nodup_linkEdges (distinct : (files.map TextFile.path).Nodup)
    (leadsAway : LeadsAway files linked seeds) (once : seeds.Nodup)
    (otherFiles : ∀ seed ∈ seeds, ((linked seed).map Prod.fst).Nodup) :
    ((linkEdges settings files linked seeds).edges.map fun edge =>
      (edge.source, edge.target)).Nodup := by
  have apart : ∀ pair ∈ (links files linked seeds).map fun link => (link.1, link.2.1),
      IsSeedPath files seeds pair.1 ∧ ¬IsSeedPath files seeds pair.2 := by
    intro pair isPair
    rcases List.mem_map.mp isPair with ⟨link, member, rfl⟩
    exact isSeedPath_of_mem_links distinct leadsAway member
  have bothWays := nodup_bothWays (nodup_map_links distinct once otherFiles) apart
  refine (List.filter_sublist.map _).nodup ?_
  rw [List.map_flatMap]
  rw [List.flatMap_map] at bothWays
  exact bothWays

end Edges

/-! ## The edges of a run -/

variable [Std.TransCmp (Scalar.order : α → α → Ordering)] [MonotoneLaws α]

/-- Each seed is linked in both directions to the best of its matches, and no edge
comes twice.  The more similar of two matches does not get the lesser weight; no
weight is below the least one, and none is above the greatest one unless rounding
carries the range past it. -/
theorem edges_join_best_matches {settings : Settings α} (acceptable : settings.problems = [])
    (rareThreshold : Nat) {files : List TextFile} (distinct : (files.map TextFile.path).Nodup)
    {seeds : List Nat} (placed : ∀ seed ∈ seeds, seed < files.length) :
    let lexical := settings.lexical
    let index := Index.build lexical rareThreshold .logarithmic
      (files.map fun file => frequencies lexical.minTermLength file.content)
    let hubs := index.hubs lexical.hubPercentile seeds
    let emitted := (edges lexical rareThreshold files seeds).edges.edges
    ∃ linked : Nat → List (String × α),
      (∀ seed ∈ seeds, ∃ file ranking, files[seed]? = some file ∧
        IsRanking lexical files index seeds hubs seed ranking ∧
          linked seed = ranking.take lexical.topNeighbors) ∧
      (∀ edge, edge ∈ emitted ↔ isEdgeWeight edge.weight = true ∧
        ∃ seed ∈ seeds, ∃ file, files[seed]? = some file ∧ ∃ found ∈ linked seed,
          edge = forwardEdge lexical file.path found ∨
            edge = backwardEdge lexical file.path found) ∧
      (emitted.map fun edge => (edge.source, edge.target)).Nodup ∧
      (isFinite lexical.weightMin = true → isFinite lexical.weightMax = true →
        (∀ seed ∈ seeds, ∀ found ∈ linked seed,
          le lexical.weightMin (scaleWeight lexical found.2) = true ∧
            le (scaleWeight lexical found.2) (greatestWeight lexical) = true) ∧
        ∀ first second, le lexical.minSimilarity first = true → le first second = true →
          le second one = true →
            le (scaleWeight lexical first) (scaleWeight lexical second) = true) := by
  intro lexical index hubs emitted
  let linked := neighbors lexical files.toArray index seeds hubs
  let places := Graph.distinctAscending seeds
  have isEmitted : emitted = (linkEdges lexical files linked places).edges :=
    congrArg EdgeBuffer.edges (edges_eq lexical rareThreshold files seeds)
  have isSeed (document : Nat) : document ∈ places ↔ document ∈ seeds :=
    Graph.mem_distinctAscending document seeds
  have ranked (seed : Nat) := @exists_isRanking _ _ lexical files index seeds hubs seed _ distinct
  have isMatch (seed : Nat) (found : String × α) (isLinked : found ∈ linked seed) :
      IsMatch lexical files index seeds hubs seed found := by
    rcases ranked seed with ⟨ranking, isRanking, -, isTaken⟩
    refine (isRanking.mem_iff found).mp (List.mem_of_mem_take (i := lexical.topNeighbors) ?_)
    rwa [← isTaken]
  have otherFiles (seed : Nat) : ((linked seed).map Prod.fst).Nodup := by
    rcases ranked seed with ⟨ranking, -, once, isTaken⟩
    simp only [linked, isTaken]
    exact ((List.take_sublist _ _).map Prod.fst).nodup once
  have leadsAway : LeadsAway files linked places := by
    intro seed _ found isLinked
    rcases isMatch seed found isLinked with ⟨document, file, isFile, isPath, -, noSeed, -⟩
    exact ⟨document, file, isFile, isPath, fun member => noSeed ((isSeed document).mp member)⟩
  refine ⟨linked, fun seed member => ?_, fun edge => ?_, ?_, fun least greatest => ⟨?_, ?_⟩⟩
  · rcases ranked seed with ⟨ranking, isRanking, -, isTaken⟩
    exact ⟨_, ranking, List.getElem?_eq_getElem (placed seed member), isRanking, isTaken⟩
  · rw [isEmitted, mem_linkEdges distinct leadsAway]
    simp only [isSeed]
  · rw [isEmitted]
    exact nodup_linkEdges distinct leadsAway
      ((Graph.pairwise_distinctAscending seeds).imp fun below => below.ne) fun seed _ => otherFiles seed
  · intro seed _ found isLinked
    rcases isMatch seed found isLinked with ⟨document, -, -, -, isSimilar, -, -, accepted⟩
    have weighing := isWeighing_of_acceptable acceptable least greatest
    have nonneg := Scalar.zero_le_trans weighing.zero_le_minSimilarity accepted
    have atMost := le_one_of_mem_similarities isSimilar nonneg
    exact ⟨weighing.le_scaleWeight accepted atMost, weighing.scaleWeight_le accepted atMost⟩
  · intro first second accepted inOrder atMost
    exact (isWeighing_of_acceptable acceptable least greatest).scaleWeight_mono accepted inOrder
      atMost

/-- The range of weights, added back to the least one, ends above the greatest
one. -/
def rough : Settings Float :=
  { Settings.default with
    lexical := { LexicalSettings.default with
      maxDocumentRatio := one, minIdf := zero
      weightMin := Scalar.decimal 81674 1, weightMax := Scalar.decimal 266758 1 } }

/-- Two files that are the same. -/
def twinFiles : List TextFile := [⟨"a.py", "merge"⟩, ⟨"b.py", "merge"⟩]

theorem rough_acceptable : rough.problems = [] := by
  have none : rough.problems.isEmpty = true := by decide +kernel
  exact List.isEmpty_iff.mp none

theorem edges_join_best_matches_of_twins :
    rough.problems = [] ∧ (twinFiles.map TextFile.path).Nodup ∧
      (∀ seed ∈ [0], seed < twinFiles.length) ∧
      ((edges rough.lexical 0 twinFiles [0]).edges.edges.map fun edge =>
        (edge.source, edge.target)).Nodup ∧
      le (scaleWeight rough.lexical (Scalar.decimal 5 1)) (scaleWeight rough.lexical one) = true := by
  have paths : (twinFiles.map TextFile.path).Nodup := by decide
  have placed : ∀ seed ∈ [0], seed < twinFiles.length := by decide
  rcases edges_join_best_matches rough_acceptable 0 paths placed with ⟨linked, -, -, once, weights⟩
  rcases weights (by decide +kernel) (by decide +kernel) with ⟨-, inOrder⟩
  exact ⟨rough_acceptable, paths, placed, once,
    inOrder _ _ (by decide +kernel) (by decide +kernel) (by decide +kernel)⟩

section Twins

/-- The entry of the term that both files hold. -/
def twinEntry : Entry Float := ⟨"merge", one, [⟨0, 1⟩, ⟨1, 1⟩]⟩

def twinIndex : Index Float := ⟨2, [twinEntry], .logarithmic⟩

variable (lnOne : Analytic.ln (one : Float) = zero)

include lnOne

theorem frequency_one : (TermScale.logarithmic : TermScale Float).frequency 1 = one := by
  change one + Analytic.ln (one : Float) = one
  rw [lnOne]
  decide +kernel

theorem rarity_two : (TermScale.logarithmic : TermScale Float).rarity 2 2 = one := by
  have even : ((Scalar.ofNat 2 + one) / (Scalar.ofNat 2 + one) : Float) = one := by decide +kernel
  change Analytic.ln ((Scalar.ofNat 2 + one) / (Scalar.ofNat 2 + one) : Float) + one = one
  rw [even, lnOne]
  decide +kernel

theorem build_twins : Index.build rough.lexical 0 .logarithmic
    (twinFiles.map fun file => frequencies rough.lexical.minTermLength file.content) =
      twinIndex := by
  have counted : (twinFiles.map fun file => frequencies rough.lexical.minTermLength file.content) =
      [[("merge", 1)], [("merge", 1)]] := by decide +kernel
  have gathered : occurrences [[("merge", 1)], [("merge", 1)]] = [("merge", [⟨0, 1⟩, ⟨1, 1⟩])] := by
    rw [occurrences, List.mergeSort_of_pairwise (by decide)]
    rfl
  have sorted : ([⟨0, 1⟩, ⟨1, 1⟩] : List Posting).mergeSort Posting.le = [⟨0, 1⟩, ⟨1, 1⟩] :=
    List.mergeSort_of_pairwise (by decide)
  have weighed : Index.weigh rough.lexical 0 .logarithmic 2 [⟨0, 1⟩, ⟨1, 1⟩] = some one := by
    have rare : (Scalar.lt rough.lexical.maxDocumentRatio
        (Scalar.ofNat 2 / Scalar.ofNat 2) || Scalar.lt one rough.lexical.minIdf) = false := by
      decide +kernel
    simp [Index.weigh, rarity_two lnOne, rare]
  rw [counted, Index.build, gathered]
  simp only [List.filterMap_cons, List.filterMap_nil, List.length_cons, List.length_nil, weighed,
    sorted, Option.map_some, Nat.zero_add]
  rfl

theorem similarities_twins : twinIndex.similarities 0 = [(1, one)] := by
  have value : (one : Float) * one = one := by decide +kernel
  have vector (document : Nat) (isTwin : document < 2) :
      twinIndex.vector document = [(twinEntry, one)] := by
    have posted : (Index.posting? twinEntry.postings document).map Posting.count = some 1 := by
      interval_cases document <;> rfl
    rcases Option.map_eq_some_iff.mp posted with ⟨posting, isPosting, isCount⟩
    simp only [Index.vector, twinIndex, List.filterMap_cons, isPosting, Option.map_some, isCount,
      frequency_one lnOne, List.filterMap_nil]
    rw [show twinEntry.weight = one from rfl, value]
  have norm (document : Nat) (isTwin : document < 2) : twinIndex.norm document = one := by
    rw [Index.norm, vector document isTwin]
    decide +kernel
  have product : Index.products [(twinEntry, one)] twinIndex.scale 1 = [one] := by
    change [one * (TermScale.logarithmic : TermScale Float).frequency 1 * one] = [one]
    rw [frequency_one lnOne, value, value]
  have similarity : twinIndex.similarityTo? [(twinEntry, one)] one 1 = some one := by
    rw [Index.similarityTo?, product, norm 1 (by decide)]
    decide +kernel
  have range : List.range twinIndex.documentCount = [0, 1] := rfl
  rw [Index.similarities, if_pos (by decide), range, vector 0 (by decide), norm 0 (by decide)]
  simp only [List.filterMap_cons, if_true, Nat.one_ne_zero, if_false, similarity, Option.map_some,
    List.filterMap_nil]

theorem neighbors_twins : neighbors rough.lexical twinFiles.toArray twinIndex [0]
    (twinIndex.hubs rough.lexical.hubPercentile [0]) 0 = [("b.py", one)] := by
  have threshold : Index.percentileValue rough.lexical.hubPercentile [1, 1] = 1 := by
    rw [Index.percentileValue]
    generalize Scalar.ceilNat (_ : Float) = place
    have bound : max 1 (min place [1, 1].length) - 1 < 2 := by
      simp only [List.length_cons, List.length_nil]
      omega
    interval_cases max 1 (min place [1, 1].length) - 1 <;> rfl
  have noHubs : twinIndex.hubs rough.lexical.hubPercentile [0] = [] := by
    have sorted : twinIndex.fanOut.mergeSort (· ≤ ·) = [1, 1] :=
      List.mergeSort_of_pairwise (by decide)
    rw [Index.hubs, sorted, threshold]
    decide
  rw [neighbors, noHubs, similarities_twins lnOne, List.filter_cons_of_pos (by decide +kernel),
    List.filter_nil]
  change ([("b.py", one)].mergeSort matchLe).take 10 = [("b.py", one)]
  rw [List.mergeSort_singleton]
  rfl

end Twins

/-- Acceptable settings whose greatest weight is no number. -/
def boundless : Settings Float :=
  { Settings.default with
    lexical := { LexicalSettings.default with weightMax := one / zero } }

/-- The weight of files that are the same exceeds the greatest one after rounding,
and a range without end has weights that are not even numbers. -/
theorem scaleWeight_out_of_range :
    (rough.problems = [] ∧ (twinFiles.map TextFile.path).Nodup ∧
      lt rough.lexical.weightMax (scaleWeight rough.lexical one) = true ∧
      (Analytic.ln (one : Float) = zero →
        ∃ edge ∈ (edges rough.lexical 0 twinFiles [0]).edges.edges,
          lt rough.lexical.weightMax edge.weight = true)) ∧
      boundless.problems = [] ∧
        le boundless.lexical.weightMin
          (scaleWeight boundless.lexical boundless.lexical.minSimilarity) = false := by
  have exceeds : lt rough.lexical.weightMax (scaleWeight rough.lexical one) = true := by
    decide +kernel
  have acceptable : boundless.problems.isEmpty = true := by decide +kernel
  refine ⟨⟨rough_acceptable, by decide, exceeds, fun lnOne => ?_⟩,
    List.isEmpty_iff.mp acceptable, by decide +kernel⟩
  have isEmitted := edges_eq rough.lexical 0 twinFiles [0]
  simp only [build_twins lnOne] at isEmitted
  refine ⟨forwardEdge rough.lexical "a.py" ("b.py", one), ?_, exceeds⟩
  rw [isEmitted]
  refine List.mem_filter.mpr ⟨List.mem_flatMap.mpr
    ⟨("a.py", "b.py", one), List.mem_flatMap.mpr ⟨0, by simp, ?_⟩, List.mem_cons_self⟩, ?_⟩
  · refine (mem_linksOf 0 _).mpr ⟨⟨"a.py", "merge"⟩, rfl, rfl, ?_⟩
    rw [neighbors_twins lnOne]
    exact List.mem_cons_self
  · decide +kernel

end ContextPack.Lexical
