import ContextPack.Data.Runs
import ContextPack.Proofs.Data.Sorting
import ContextPack.Proofs.Number.Exact
import Mathlib.Data.List.Nodup

namespace ContextPack

/-!
# Tallies count

Among sorted elements equal ones are neighbours.  Runs of neighbours therefore
have distinct elements, and the length of a run is the number of occurrences.
-/

variable {β : Type} [DecidableEq β]

/-- A test by which a list can be sorted so that only equal elements tie. -/
structure IsSortingTest (le : β → β → Bool) : Prop where
  trans : ∀ a b c, le a b → le b c → le a c
  total : ∀ a b, le a b || le b a
  antisymm : ∀ a b, le a b → le b a → a = b

/-! ## Runs -/

/-- The first run is one of the first element. -/
theorem map_fst_head?_runLengths (elements : List β) :
    (runLengths elements).head?.map Prod.fst = elements.head? := by
  induction elements using runLengths.induct with
  | case1 => rfl
  | case2 first rest noRuns => rw [runLengths, noRuns]; rfl
  | case3 rest next count others runs _ => rw [runLengths, runs]; simp
  | case4 first rest next count others runs different _ =>
      rw [runLengths, runs]
      simp [different]

/-- The runs from a first element on, by what follows it. -/
theorem runLengths_cons (first : β) (rest : List β) :
    (rest = [] ∧ runLengths (first :: rest) = [(first, 1)]) ∨
      ∃ next count others, runLengths rest = (next, count) :: others ∧ rest.head? = some next ∧
        runLengths (first :: rest) =
          if next = first then (first, count + 1) :: others
          else (first, 1) :: (next, count) :: others := by
  have start := map_fst_head?_runLengths rest
  cases runs : runLengths rest with
  | nil =>
      rw [runs] at start
      exact Or.inl ⟨List.head?_eq_none_iff.mp start.symm, by rw [runLengths, runs]⟩
  | cons run others =>
      rw [runs] at start
      exact Or.inr ⟨run.1, run.2, others, rfl, start.symm, by rw [runLengths, runs]⟩

@[simp] theorem mem_map_fst_runLengths (x : β) (elements : List β) :
    x ∈ (runLengths elements).map Prod.fst ↔ x ∈ elements := by
  induction elements with
  | nil => rfl
  | cons first rest inductionHypothesis =>
      rcases runLengths_cons first rest with ⟨rfl, single⟩ | ⟨next, count, others, runs, -, more⟩
      · rw [single]
        rfl
      · rw [runs, List.map_cons, List.mem_cons] at inductionHypothesis
        rw [more, List.mem_cons, ← inductionHypothesis]
        split
        · next same =>
            rw [List.map_cons, List.mem_cons, same]
            exact or_self_left.symm
        · rw [List.map_cons, List.mem_cons, List.map_cons, List.mem_cons]

/-- The elements of the runs stand in the list in the same order. -/
theorem map_fst_runLengths_sublist (elements : List β) :
    ((runLengths elements).map Prod.fst).Sublist elements := by
  induction elements with
  | nil => exact List.Sublist.slnil
  | cons first rest inductionHypothesis =>
      rcases runLengths_cons first rest with ⟨rfl, single⟩ | ⟨next, count, others, runs, -, more⟩
      · rw [single]
        exact List.Sublist.refl [first]
      · rw [runs] at inductionHypothesis
        rw [more]
        split
        · next same =>
            subst same
            exact inductionHypothesis.cons next
        · exact inductionHypothesis.cons_cons first

section Sorted

variable [BEq β] [LawfulBEq β] {le : β → β → Bool} {elements : List β}

/-- No element of a sorted list has two runs, and each run is as long as its
element occurs. -/
theorem runLengths_spec (test : IsSortingTest le) (sorted : elements.Pairwise (le · ·)) :
    ((runLengths elements).map Prod.fst).Nodup ∧
      ∀ run ∈ runLengths elements, run.2 = elements.count run.1 := by
  induction elements with
  | nil => exact ⟨List.nodup_nil, fun run member => absurd member List.not_mem_nil⟩
  | cons first rest inductionHypothesis =>
      rcases List.pairwise_cons.mp sorted with ⟨least, later⟩
      rcases inductionHypothesis later with ⟨nodup, exact⟩
      have inRuns (x : β) := mem_map_fst_runLengths x rest
      rcases runLengths_cons first rest with ⟨rfl, single⟩ | ⟨next, count, others, runs, start, more⟩
      · rw [single]
        refine ⟨List.nodup_singleton first, fun run member => ?_⟩
        rw [List.mem_singleton.mp member]
        exact List.count_singleton_self.symm
      · rw [runs, List.map_cons] at nodup inRuns
        rw [runs] at exact
        rw [more]
        split
        · next same =>
            subst same
            refine ⟨nodup, fun run member => ?_⟩
            rcases List.mem_cons.mp member with rfl | other
            · rw [List.count_cons_self]
              exact congrArg (· + 1) (exact _ List.mem_cons_self)
            · have different : next ≠ run.1 := by
                intro same
                have again : run.1 ∈ others.map Prod.fst := List.mem_map_of_mem other
                exact (List.nodup_cons.mp nodup).1 (same ▸ again)
              rw [List.count_cons_of_ne different]
              exact exact run (List.mem_cons_of_mem _ other)
        · next different =>
            -- The next element is the least of the others, so the first does not come again.
            have absent : first ∉ rest := by
              intro member
              rcases rest with _ | ⟨second, rest⟩
              · exact List.not_mem_nil member
              · cases start
                refine different (test.antisymm _ _ ?_ (least _ List.mem_cons_self))
                rcases List.mem_cons.mp member with rfl | deeper
                · exact absurd rfl different
                · exact (List.pairwise_cons.mp later).1 first deeper
            refine ⟨?_, fun run member => ?_⟩
            · exact List.nodup_cons.mpr ⟨fun member => absent ((inRuns first).mp member), nodup⟩
            · rcases List.mem_cons.mp member with rfl | other
              · rw [List.count_cons_self, List.count_eq_zero_of_not_mem absent]
              · have different : first ≠ run.1 := by
                  rintro rfl
                  exact absent ((inRuns _).mp (List.mem_map_of_mem other))
                rw [List.count_cons_of_ne different]
                exact exact run other

end Sorted

/-! ## Tallies -/

theorem mem_map_fst_tally (le : β → β → Bool) (x : β) (elements : List β) :
    x ∈ (tally le elements).map Prod.fst ↔ x ∈ elements := by
  rw [tally, mem_map_fst_runLengths, List.mem_mergeSort]

section Tally

variable [BEq β] [LawfulBEq β] {le : β → β → Bool}

theorem tally_spec (test : IsSortingTest le) (elements : List β) :
    ((tally le elements).map Prod.fst).Nodup ∧
      ∀ run ∈ tally le elements, run.2 = elements.count run.1 := by
  rcases runLengths_spec test (List.pairwise_mergeSort test.trans test.total elements) with
    ⟨nodup, exact⟩
  refine ⟨nodup, fun run member => ?_⟩
  rw [exact run member, (List.mergeSort_perm elements le).count_eq]

/-- A tally lists the elements in order, strictly. -/
theorem pairwise_tally {cmp : β → β → Ordering} [Std.TransCmp cmp]
    (asks : ∀ a b, le a b = (cmp a b).isLE) (test : IsSortingTest le)
    (tie : ∀ a b, cmp a b = .eq → a = b) (elements : List β) :
    ((tally le elements).map Prod.fst).Pairwise fun a b => cmp a b = .lt := by
  have once : ((tally le elements).map Prod.fst).Nodup := (tally_spec test elements).1
  have inOrder := pairwise_mergeSort_isLE asks elements
  apply pairwise_lt_of_isLE tie (inOrder.sublist (map_fst_runLengths_sublist _))
  rwa [List.map_id']

/-- A tally lists what occurs, with the number of times. -/
theorem mem_tally (test : IsSortingTest le) (elements : List β) (x : β) (count : Nat) :
    (x, count) ∈ tally le elements ↔ 0 < count ∧ count = elements.count x := by
  have exact := (tally_spec test elements).2
  constructor
  · intro member
    have occurs := (mem_map_fst_tally le x elements).mp (List.mem_map_of_mem member)
    have isCount : count = elements.count x := exact _ member
    exact ⟨isCount ▸ List.count_pos_iff.mpr occurs, isCount⟩
  · rintro ⟨positive, rfl⟩
    rcases List.mem_map.mp ((mem_map_fst_tally le x elements).mpr (List.count_pos_iff.mp positive)) with
      ⟨run, member, rfl⟩
    rwa [← exact run member]

/-- Looking an element up in a tally gives the number of times it occurs. -/
theorem getD_lookup_tally (test : IsSortingTest le) (elements : List β) (x : β) :
    ((tally le elements).lookup x).getD 0 = elements.count x := by
  have inTally (count : Nat) : (tally le elements).lookup x = some count ↔
      0 < count ∧ count = elements.count x :=
    (lookup_eq_some_iff_mem (tally_spec test elements).1 x count).trans (mem_tally test elements x count)
  cases found : (tally le elements).lookup x with
  | some count => exact ((inTally count).mp found).2
  | none =>
      refine (Nat.eq_zero_of_not_pos fun positive => ?_).symm
      rw [(inTally _).mpr ⟨positive, rfl⟩] at found
      cases found

/-- Whatever one element counts for by its number of occurrences, the tally
counts it once. -/
theorem sum_tally (test : IsSortingTest le) (elements : List β) (x : β) (value : Nat → ℚ)
    (nothing : value 0 = 0) :
    ((tally le elements).map fun run => if run.1 = x then value run.2 else 0).sum =
      value (elements.count x) := by
  rcases tally_spec test elements with ⟨nodup, exact⟩
  by_cases occurs : x ∈ elements
  · rcases List.mem_map.mp ((mem_map_fst_tally le x elements).mpr occurs) with ⟨run, member, rfl⟩
    rw [sum_map_eq_of_unique nodup.of_map member, if_pos rfl, exact run member]
    intro other inside different
    refine if_neg fun same => different ?_
    exact List.inj_on_of_nodup_map nodup inside member same
  · rw [List.count_eq_zero_of_not_mem occurs, nothing]
    refine List.sum_eq_zero fun share member => ?_
    rcases List.mem_map.mp member with ⟨run, inside, rfl⟩
    refine if_neg ?_
    rintro rfl
    exact occurs ((mem_map_fst_tally le _ elements).mp (List.mem_map_of_mem inside))

end Tally

end ContextPack
