import ContextPack.Proofs.Lexical.Postings
import ContextPack.Proofs.Number.Monotone
import ContextPack.Lexical.Edges

namespace ContextPack.Lexical

/-!
# Matches of a seed

A seed may be linked to the files that are similar enough to it and neither hubs
nor seeds themselves.  Sorting these leaves no choice: two matches have different
paths, so that one of them is better.
-/

open Scalar (le zero one)

/-- Files with different paths are told apart by them. -/
theorem eq_of_path {files : List TextFile} (distinct : (files.map TextFile.path).Nodup)
    {first second : Nat} {file other : TextFile} (isFirst : files[first]? = some file)
    (isSecond : files[second]? = some other) (same : file.path = other.path) : first = second := by
  have bound : first < (files.map TextFile.path).length := by
    rw [List.length_map]
    exact (List.getElem?_eq_some_iff.mp isFirst).1
  refine (List.getElem?_inj bound distinct).mp ?_
  rw [List.getElem?_map, List.getElem?_map, isFirst, isSecond, Option.map_some, Option.map_some,
    same]

variable {α : Type} [Analytic α]

/-- A file that a seed may be linked to, by its path, with its similarity. -/
def IsMatch (settings : LexicalSettings α) (files : List TextFile) (index : Index α)
    (seeds hubs : List Nat) (seed : Nat) (found : String × α) : Prop :=
  ∃ document file, files[document]? = some file ∧ file.path = found.1 ∧
    (document, found.2) ∈ index.similarities seed ∧ document ∉ seeds ∧ document ∉ hubs ∧
      le settings.minSimilarity found.2 = true

/-- More similar, or as similar with the lesser path. -/
def IsBetter (first second : String × α) : Prop :=
  Scalar.order second.2 first.2 = .lt ∨
    Scalar.order second.2 first.2 = .eq ∧ first.1 < second.1

/-- The matches of a seed, best first. -/
structure IsRanking (settings : LexicalSettings α) (files : List TextFile) (index : Index α)
    (seeds hubs : List Nat) (seed : Nat) (ranking : List (String × α)) : Prop where
  mem_iff : ∀ found, found ∈ ranking ↔ IsMatch settings files index seeds hubs seed found
  inOrder : ranking.Pairwise IsBetter

/-! ## Ranking -/

/-- The comparison behind `matchLe`. -/
def matchOrder : String × α → String × α → Ordering :=
  compareLex (fun first second => Scalar.order second.2 first.2)
    (fun first second => Text.order first.1 second.1)

theorem matchLe_eq_isLE (first second : String × α) :
    matchLe first second = (matchOrder first second).isLE := by
  rw [matchLe, matchOrder, compareLex, Text.le_eq_isLE]
  cases Scalar.order second.2 first.2 with
  | lt => rfl
  | gt => rfl
  | eq => rfl

theorem matchOrder_eq_lt_iff (first second : String × α) :
    matchOrder first second = .lt ↔ IsBetter first second := by
  rw [matchOrder, compareLex, Ordering.then_eq_lt, Text.order_eq_lt_iff, IsBetter]

theorem path_eq_of_matchOrder (first second : String × α) (tie : matchOrder first second = .eq) :
    first.1 = second.1 := by
  rw [matchOrder, compareLex, Ordering.then_eq_eq, Text.order_eq_eq_iff] at tie
  exact tie.2

instance [Std.TransCmp (Scalar.order : α → α → Ordering)] :
    Std.TransCmp (matchOrder : String × α → String × α → Ordering) := by
  have bySimilarity : Std.TransCmp fun first second : String × α =>
      Scalar.order second.2 first.2 :=
    @transCmp_of_key _ _ (fun first second : α => Scalar.order second first) inferInstance Prod.snd
  have byPath : Std.TransCmp fun first second : String × α => Text.order first.1 second.1 :=
    transCmp_of_key Prod.fst
  exact inferInstanceAs (Std.TransCmp (compareLex _ _))

section Ranking

variable {settings : LexicalSettings α} {files : List TextFile} {index : Index α}
  {seeds hubs : List Nat} {seed : Nat}

/-- The matches of a seed in the order of their documents. -/
def matchList (settings : LexicalSettings α) (files : List TextFile) (index : Index α)
    (seeds hubs : List Nat) (seed : Nat) : List (String × α) :=
  ((index.similarities seed).filter fun (document, similarity) =>
      le settings.minSimilarity similarity && !seeds.contains document &&
        !hubs.contains document).filterMap fun (document, similarity) =>
    files[document]?.map fun file => (file.path, similarity)

theorem mem_matchList (found : String × α) :
    found ∈ matchList settings files index seeds hubs seed ↔
      IsMatch settings files index seeds hubs seed found := by
  simp only [matchList, IsMatch, List.mem_filterMap, List.mem_filter, Bool.and_eq_true,
    Bool.not_eq_true', List.contains_eq_mem, decide_eq_false_iff_not, Option.map_eq_some_iff]
  constructor
  · rintro ⟨⟨document, similarity⟩, ⟨isSimilar, ⟨accepted, noSeed⟩, noHub⟩, file, isFile, rfl⟩
    exact ⟨document, file, isFile, rfl, isSimilar, noSeed, noHub, accepted⟩
  · rintro ⟨document, file, isFile, isPath, isSimilar, noSeed, noHub, accepted⟩
    exact ⟨(document, found.2), ⟨isSimilar, ⟨accepted, noSeed⟩, noHub⟩, file, isFile,
      Prod.ext isPath rfl⟩

theorem nodup_map_fst_matchList (distinct : (files.map TextFile.path).Nodup) :
    ((matchList settings files index seeds hubs seed).map Prod.fst).Nodup := by
  have documents : ((index.similarities seed).filter fun (document, similarity) =>
      le settings.minSimilarity similarity && !seeds.contains document &&
        !hubs.contains document).Pairwise fun first second => first.1 ≠ second.1 :=
    List.pairwise_map.mp
      ((List.filter_sublist.map Prod.fst).nodup (Index.nodup_map_fst_similarities index seed))
  refine List.pairwise_map.mpr (documents.filterMap _ ?_)
  rintro ⟨first, similarity⟩ ⟨second, other⟩ different found isFound another isAnother same
  rcases Option.map_eq_some_iff.mp isFound with ⟨file, isFirst, rfl⟩
  rcases Option.map_eq_some_iff.mp isAnother with ⟨file', isSecond, rfl⟩
  exact different (eq_of_path distinct isFirst isSecond same)

variable [Std.TransCmp (Scalar.order : α → α → Ordering)]

theorem exists_isRanking (distinct : (files.map TextFile.path).Nodup) :
    ∃ ranking, IsRanking settings files index seeds hubs seed ranking ∧
      (ranking.map Prod.fst).Nodup ∧
        neighbors settings files.toArray index seeds hubs seed =
          ranking.take settings.topNeighbors := by
  let candidates := matchList settings files index seeds hubs seed
  have once : (candidates.map Prod.fst).Nodup := nodup_map_fst_matchList distinct
  have sorted := pairwise_mergeSort_lt matchLe_eq_isLE path_eq_of_matchOrder once
  refine ⟨candidates.mergeSort matchLe, ⟨fun found => ?_, ?_⟩, ?_, ?_⟩
  · exact List.mem_mergeSort.trans (mem_matchList found)
  · exact sorted.imp fun {first second} before => (matchOrder_eq_lt_iff first second).mp before
  · exact ((List.mergeSort_perm candidates matchLe).map Prod.fst).nodup_iff.mpr once
  · simp only [neighbors, candidates, matchList, List.getElem?_toArray]

end Ranking

/-! ## Seeds and similarities -/

/-- Only which files are seeds matters for hubs and matches. -/
theorem neighbors_congr (settings : LexicalSettings α) (files : Array TextFile) (index : Index α)
    {first second : List Nat} (same : ∀ document, document ∈ first ↔ document ∈ second) :
    neighbors settings files index first (index.hubs settings.hubPercentile first) =
      neighbors settings files index second (index.hubs settings.hubPercentile second) := by
  funext seed
  simp only [neighbors, Index.hubs, List.contains_eq_mem, same]

/-- A similarity is cut at one. -/
theorem le_one_of_mem_similarities [MonotoneLaws α] {index : Index α} {seed document : Nat}
    {similarity : α} (member : (document, similarity) ∈ index.similarities seed)
    (nonneg : le zero similarity = true) : le similarity one = true := by
  have isSimilarity := (Index.mem_similarities.mp member).2.2.2
  rw [Index.similarityTo?] at isSimilarity
  simp only at isSimilarity
  split at isSimilarity
  · cases isSimilarity
  · split at isSimilarity
    · obtain rfl := Option.some.inj isSimilarity
      exact MonotoneLaws.minimum_le nonneg MonotoneLaws.zero_le_one
    · cases isSimilarity

end ContextPack.Lexical
