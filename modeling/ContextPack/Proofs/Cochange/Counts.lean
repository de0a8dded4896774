import ContextPack.Cochange
import ContextPack.Proofs.Data.Tally
import ContextPack.Proofs.Text.Order
import Mathlib.Data.List.ProdSigma

namespace ContextPack
namespace Cochange

/-!
# Co-changes are counted exactly

A commit without repeated files gives each pair of a seed and another file at
most once, so the number of times a pair is given is the number of commits that
hold both.  That number depends neither on the order of the commits nor on how
a history is divided.
-/

/-! ## What the counts are to be -/

/-- How many commits that are not too large hold both files. -/
def sharedCommits (maxFiles : Nat) (commits : List (List String)) (seed other : String) : Nat :=
  commits.countP fun files => files.length ≤ maxFiles ∧ seed ∈ files ∧ other ∈ files

/-- How many commits that are not too large hold a seed. -/
def touchingCommits (seeds : List String) (maxFiles : Nat) (commits : List (List String)) : Nat :=
  commits.countP fun files => files.length ≤ maxFiles ∧ ∃ file ∈ files, file ∈ seeds

/-- What a table of pairs says of two files, zero if it says nothing. -/
def countOf (pairs : List Pair) (seed other : String) : Nat :=
  ((pairs.find? fun pair => pair.seed = seed ∧ pair.other = other).map Pair.count).getD 0

/-- The two files of a pair. -/
def Pair.files (pair : Pair) : String × String := (pair.seed, pair.other)

/-- All pairs that a history gives, with repeats. -/
def givenPairs (seeds : List String) (maxFiles : Nat) (commits : List (List String)) :
    List (String × String) :=
  (commits.map (counted maxFiles)).flatMap (commitPairs seeds)

/-! ## The order of pairs -/

/-- The comparison behind `pairLe`. -/
def pairOrder : String × String → String × String → Ordering :=
  compareLex (fun a b => Text.order a.1 b.1) (fun a b => Text.order a.2 b.2)

theorem pairLe_eq_isLE (a b : String × String) : pairLe a b = (pairOrder a b).isLE := by
  rw [pairLe, pairOrder, compareLex, Text.le_eq_isLE]
  cases Text.order a.1 b.1 with
  | lt => rfl
  | eq => rfl
  | gt => rfl

theorem eq_of_pairOrder {a b : String × String} (tie : pairOrder a b = .eq) : a = b := by
  rw [pairOrder, compareLex, Ordering.then_eq_eq, Text.order_eq_eq_iff, Text.order_eq_eq_iff] at tie
  exact Prod.ext tie.1 tie.2

instance : Std.TransCmp pairOrder := by
  have bySeed : Std.TransCmp fun a b : String × String => Text.order a.1 b.1 :=
    transCmp_of_key Prod.fst
  have byOther : Std.TransCmp fun a b : String × String => Text.order a.2 b.2 :=
    transCmp_of_key Prod.snd
  exact inferInstanceAs (Std.TransCmp (compareLex _ _))

theorem isSortingTest_pairLe : IsSortingTest pairLe where
  trans := le_trans_of_asks pairLe_eq_isLE
  total := le_total_of_asks pairLe_eq_isLE
  antisymm a b first second := by
    rw [pairLe_eq_isLE] at first second
    exact eq_of_pairOrder (Std.OrientedCmp.isLE_antisymm first second)

/-! ## One commit -/

section Commit

variable {seeds files : List String} {seed other : String}

theorem mem_commitPairs :
    (seed, other) ∈ commitPairs seeds files ↔
      (seed ∈ files ∧ seed ∈ seeds) ∧ other ∈ files ∧ other ∉ seeds := by
  have product : commitPairs seeds files =
      (files.filter seeds.contains).product (files.filter fun file => !seeds.contains file) := rfl
  rw [product, List.pair_mem_product, List.mem_filter, List.mem_filter, List.contains_iff_mem]
  simp

/-- Without repeated files no pair is repeated. -/
theorem nodup_commitPairs (distinct : files.Nodup) : (commitPairs seeds files).Nodup :=
  (distinct.filter _).product (distinct.filter _)

theorem count_commitPairs_counted (seeds : List String) (maxFiles : Nat) (seed other : String)
    (distinct : files.Nodup) :
    (commitPairs seeds (counted maxFiles files)).count (seed, other) =
      if seed ∈ seeds ∧ other ∉ seeds then
        if files.length ≤ maxFiles ∧ seed ∈ files ∧ other ∈ files then 1 else 0
      else 0 := by
  rw [counted]
  split
  · next tooLarge =>
      have noRoom : ¬(files.length ≤ maxFiles ∧ seed ∈ files ∧ other ∈ files) :=
        fun small => not_lt.mpr small.1 tooLarge
      rw [if_neg noRoom, ite_self]
      rfl
  · next small =>
      rw [(nodup_commitPairs distinct).count, ← ite_and]
      refine if_congr (mem_commitPairs.trans ?_) rfl rfl
      have fits : files.length ≤ maxFiles := not_lt.mp small
      tauto

end Commit

/-! ## A history -/

section History

variable {seeds : List String} {maxFiles : Nat} {commits : List (List String)}

theorem givenPairs_append (earlier later : List (List String)) :
    givenPairs seeds maxFiles (earlier ++ later) =
      givenPairs seeds maxFiles earlier ++ givenPairs seeds maxFiles later := by
  rw [givenPairs, List.map_append, List.flatMap_append]
  rfl

/-- A pair is given once for each commit that holds both of its files. -/
theorem count_givenPairs (distinct : ∀ files ∈ commits, files.Nodup) (seed other : String) :
    (givenPairs seeds maxFiles commits).count (seed, other) =
      if seed ∈ seeds ∧ other ∉ seeds then sharedCommits maxFiles commits seed other else 0 := by
  induction commits with
  | nil => exact (ite_self 0).symm
  | cons files rest inductionHypothesis =>
      have first := count_commitPairs_counted seeds maxFiles seed other
        (distinct files List.mem_cons_self)
      have others := inductionHypothesis fun files member =>
        distinct files (List.mem_cons_of_mem _ member)
      have parts : givenPairs seeds maxFiles (files :: rest) =
          commitPairs seeds (counted maxFiles files) ++ givenPairs seeds maxFiles rest := rfl
      have grown : sharedCommits maxFiles (files :: rest) seed other =
          sharedCommits maxFiles rest seed other +
            if files.length ≤ maxFiles ∧ seed ∈ files ∧ other ∈ files then 1 else 0 := by
        simp only [sharedCommits, List.countP_cons, decide_eq_true_eq]
      rw [parts, List.count_append, first, others, grown]
      split
      · exact Nat.add_comm _ _
      · rfl

/-- The table lists the pairs that are given, each with the number of times. -/
theorem mem_countPairs (pair : Pair) :
    pair ∈ (countPairs seeds maxFiles commits).1 ↔
      0 < pair.count ∧ pair.count = (givenPairs seeds maxFiles commits).count pair.files := by
  have listed : pair ∈ (countPairs seeds maxFiles commits).1 ↔
      (pair.files, pair.count) ∈ tally pairLe (givenPairs seeds maxFiles commits) := by
    refine List.mem_map.trans ⟨?_, fun member => ⟨_, member, rfl⟩⟩
    rintro ⟨run, member, rfl⟩
    exact member
  exact listed.trans (mem_tally isSortingTest_pairLe _ pair.files pair.count)

theorem map_files_countPairs (seeds : List String) (maxFiles : Nat) (commits : List (List String)) :
    (countPairs seeds maxFiles commits).1.map Pair.files =
      (tally pairLe (givenPairs seeds maxFiles commits)).map Prod.fst := by
  rw [countPairs, List.map_map]
  rfl

theorem nodup_map_files_countPairs (seeds : List String) (maxFiles : Nat)
    (commits : List (List String)) :
    ((countPairs seeds maxFiles commits).1.map Pair.files).Nodup := by
  rw [map_files_countPairs]
  exact (tally_spec isSortingTest_pairLe (givenPairs seeds maxFiles commits)).1

/-- What the table says of two files is how often the history gives them. -/
theorem countOf_countPairs (seeds : List String) (maxFiles : Nat) (commits : List (List String))
    (seed other : String) :
    countOf (countPairs seeds maxFiles commits).1 seed other =
      (givenPairs seeds maxFiles commits).count (seed, other) := by
  rw [countOf]
  cases found : (countPairs seeds maxFiles commits).1.find? fun pair =>
      pair.seed = seed ∧ pair.other = other with
  | some pair =>
      have isPair : pair.seed = seed ∧ pair.other = other := by simpa using List.find?_some found
      have listed := (mem_countPairs pair).mp (List.mem_of_find?_eq_some found)
      have files : pair.files = (seed, other) := Prod.ext isPair.1 isPair.2
      rw [files] at listed
      exact listed.2
  | none =>
      refine (Nat.eq_zero_of_not_pos fun positive => ?_).symm
      have listed := (mem_countPairs ⟨seed, other, _⟩).mpr ⟨positive, rfl⟩
      have isNone := List.find?_eq_none.mp found _ listed
      exact isNone (decide_eq_true ⟨rfl, rfl⟩)

theorem used_countPairs (seeds : List String) (maxFiles : Nat) (commits : List (List String)) :
    (countPairs seeds maxFiles commits).2 = touchingCommits seeds maxFiles commits := by
  rw [countPairs, ← List.countP_eq_length_filter, List.countP_map, touchingCommits]
  refine List.countP_congr fun files _ => ?_
  simp only [Function.comp_apply, counted, decide_eq_true_eq]
  split
  · next tooLarge => exact iff_of_false nofun fun small => not_lt.mpr small.1 tooLarge
  · next small =>
      rw [List.any_eq_true]
      simp only [List.contains_iff_mem]
      exact (and_iff_right (not_lt.mp small)).symm

/-- The order of the commits is of no account. -/
theorem countPairs_perm {rearranged : List (List String)} (same : rearranged.Perm commits) :
    countPairs seeds maxFiles rearranged = countPairs seeds maxFiles commits := by
  have given : (givenPairs seeds maxFiles rearranged).Perm (givenPairs seeds maxFiles commits) :=
    (same.map _).flatMap_right _
  have sorted := mergeSort_eq_of_perm pairLe_eq_isLE given fun _ _ _ _ => eq_of_pairOrder
  refine Prod.ext (congrArg (fun pairs => (runLengths pairs).map _) sorted) ?_
  rw [used_countPairs, used_countPairs]
  exact same.countP_eq _

end History

/-- A pair stands in the table if commits hold both of its files, with their
number; of the two the first is a seed and the second is none.  Rearranging a
history changes nothing, and for two histories that follow each other the
numbers add up.  No pair has more commits than touch a seed at all. -/
theorem cochanges_counted_exactly (seeds : List String) (maxFiles : Nat)
    {commits : List (List String)} (distinct : ∀ files ∈ commits, files.Nodup) :
    (∀ seed other count, ⟨seed, other, count⟩ ∈ (countPairs seeds maxFiles commits).1 ↔
      seed ∈ seeds ∧ other ∉ seeds ∧ 0 < count ∧
        count = sharedCommits maxFiles commits seed other) ∧
    ((countPairs seeds maxFiles commits).1.map Pair.files).Nodup ∧
    (countPairs seeds maxFiles commits).2 = touchingCommits seeds maxFiles commits ∧
    (∀ rearranged, rearranged.Perm commits →
      countPairs seeds maxFiles rearranged = countPairs seeds maxFiles commits) ∧
    (∀ later,
      (∀ seed other, countOf (countPairs seeds maxFiles (commits ++ later)).1 seed other =
        countOf (countPairs seeds maxFiles commits).1 seed other +
          countOf (countPairs seeds maxFiles later).1 seed other) ∧
      (countPairs seeds maxFiles (commits ++ later)).2 =
        (countPairs seeds maxFiles commits).2 + (countPairs seeds maxFiles later).2) ∧
    ∀ pair ∈ (countPairs seeds maxFiles commits).1,
      pair.count ≤ (countPairs seeds maxFiles commits).2 := by
  have listed (seed other : String) (count : Nat) :
      ⟨seed, other, count⟩ ∈ (countPairs seeds maxFiles commits).1 ↔
        seed ∈ seeds ∧ other ∉ seeds ∧ 0 < count ∧
          count = sharedCommits maxFiles commits seed other := by
    rw [mem_countPairs, Pair.files, count_givenPairs distinct]
    split
    · next isPair => rw [and_iff_right isPair.1, and_iff_right isPair.2]
    · next noPair =>
        refine iff_of_false (fun both => ?_) fun both => noPair ⟨both.1, both.2.1⟩
        exact both.1.ne' both.2
  refine ⟨listed, nodup_map_files_countPairs seeds maxFiles commits,
    used_countPairs seeds maxFiles commits, fun rearranged same => countPairs_perm same,
    fun later => ⟨fun seed other => ?_, ?_⟩, fun pair member => ?_⟩
  · rw [countOf_countPairs, countOf_countPairs, countOf_countPairs, givenPairs_append,
      List.count_append]
  · rw [used_countPairs, used_countPairs, used_countPairs]
    exact List.countP_append
  · rcases (listed pair.seed pair.other pair.count).mp member with ⟨isSeed, -, -, exact_count⟩
    rw [exact_count, used_countPairs]
    refine List.countP_mono_left fun files _ holdsBoth => ?_
    rcases of_decide_eq_true holdsBoth with ⟨small, holdsSeed, -⟩
    exact decide_eq_true ⟨small, pair.seed, holdsSeed, isSeed⟩

/-- A commit with two seeds, one with nothing but seeds, one without a seed and
one that is too large. -/
def sampleHistory : List (List String) :=
  [["a.py", "b.py", "x.py"], ["a.py", "b.py"], ["x.py", "y.py"], ["a.py", "x.py"],
    ["a.py", "w.py", "x.py", "y.py"]]

theorem cochanges_counted_exactly_of_sample :
    (∀ files ∈ sampleHistory, files.Nodup) ∧
      ⟨"a.py", "x.py", 2⟩ ∈ (countPairs ["a.py", "b.py"] 3 sampleHistory).1 ∧
      ⟨"b.py", "x.py", 1⟩ ∈ (countPairs ["a.py", "b.py"] 3 sampleHistory).1 ∧
      (∀ count, ⟨"a.py", "b.py", count⟩ ∉ (countPairs ["a.py", "b.py"] 3 sampleHistory).1) ∧
      (countPairs ["a.py", "b.py"] 3 sampleHistory).2 = 3 := by
  have distinct : ∀ files ∈ sampleHistory, files.Nodup := by decide
  rcases cochanges_counted_exactly ["a.py", "b.py"] 3 distinct with ⟨listed, -, used, -⟩
  refine ⟨distinct, (listed _ _ _).mpr (by decide), (listed _ _ _).mpr (by decide), ?_, ?_⟩
  · intro count member
    exact ((listed _ _ _).mp member).2.1 (by decide)
  · rw [used]
    decide

end Cochange
end ContextPack
