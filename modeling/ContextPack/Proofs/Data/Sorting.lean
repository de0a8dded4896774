import Mathlib.Data.List.Basic
import Mathlib.Order.Basic

namespace ContextPack

/-!
# Sorting and selecting

A sorting test asks a comparison whether one element does not come behind
another.  If the comparison is transitive, sorting puts the elements in its
order; if besides only equal elements tie, the result does not depend on the
order in which the elements came.
-/

variable {β γ : Type} {cmp : β → β → Ordering} {le : β → β → Bool}

/-- Elements may be compared by a key of theirs. -/
theorem transCmp_of_key {order : γ → γ → Ordering} [Std.TransCmp order] (key : β → γ) :
    Std.TransCmp fun a b => order (key a) (key b) where
  eq_swap := Std.OrientedCmp.eq_swap
  isLE_trans := Std.TransCmp.isLE_trans

theorem le_trans_of_asks [Std.TransCmp cmp] (asks : ∀ a b, le a b = (cmp a b).isLE) (a b c : β)
    (first : le a b = true) (second : le b c = true) : le a c = true := by
  rw [asks] at first second ⊢
  exact Std.TransCmp.isLE_trans first second

theorem le_total_of_asks [Std.OrientedCmp cmp] (asks : ∀ a b, le a b = (cmp a b).isLE) (a b : β) :
    (le a b || le b a) = true := by
  have swapped : cmp a b = (cmp b a).swap := Std.OrientedCmp.eq_swap
  rw [asks, asks, swapped]
  cases cmp b a <;> rfl

theorem pairwise_mergeSort_isLE [Std.TransCmp cmp] (asks : ∀ a b, le a b = (cmp a b).isLE)
    (elements : List β) :
    (elements.mergeSort le).Pairwise fun a b => (cmp a b).isLE = true :=
  (List.pairwise_mergeSort (le_trans_of_asks asks) (le_total_of_asks asks) elements).imp fun {a b} inOrder =>
    asks a b ▸ inOrder

/-- If only elements with the same key tie, those with different keys are in order
strictly. -/
theorem pairwise_lt_of_isLE {key : β → γ} (tie : ∀ a b, cmp a b = .eq → key a = key b)
    {elements : List β} (sorted : elements.Pairwise fun a b => (cmp a b).isLE = true)
    (distinct : (elements.map key).Nodup) : elements.Pairwise fun a b => cmp a b = .lt := by
  refine sorted.imp₂ ?_ (List.pairwise_map.mp distinct)
  intro a b inOrder different
  cases relation : cmp a b with
  | lt => rfl
  | eq => exact absurd (tie a b relation) different
  | gt =>
      rw [relation] at inOrder
      cases inOrder

theorem pairwise_mergeSort_lt [Std.TransCmp cmp] (asks : ∀ a b, le a b = (cmp a b).isLE)
    {key : β → γ} (tie : ∀ a b, cmp a b = .eq → key a = key b) {elements : List β}
    (distinct : (elements.map key).Nodup) :
    (elements.mergeSort le).Pairwise fun a b => cmp a b = .lt := by
  apply pairwise_lt_of_isLE tie (pairwise_mergeSort_isLE asks elements)
  exact ((List.mergeSort_perm elements le).map key).nodup_iff.mpr distinct

/-- Rearranging elements that do not tie changes nothing after sorting. -/
theorem mergeSort_eq_of_perm [Std.TransCmp cmp] (asks : ∀ a b, le a b = (cmp a b).isLE)
    {first second : List β} (same : first.Perm second)
    (distinct : ∀ a ∈ first, ∀ b ∈ first, cmp a b = .eq → a = b) :
    first.mergeSort le = second.mergeSort le := by
  refine List.Perm.eq_of_pairwise (fun a b inFirst inSecond before behind => ?_)
    (pairwise_mergeSort_isLE asks first) (pairwise_mergeSort_isLE asks second)
    ((List.mergeSort_perm first le).trans (same.trans (List.mergeSort_perm second le).symm))
  rw [List.mem_mergeSort] at inFirst inSecond
  exact distinct a inFirst b (same.mem_iff.mpr inSecond) (Std.OrientedCmp.isLE_antisymm before behind)

/-- Sorting leaves elements that tie in their order. -/
theorem filter_mergeSort [Std.TransCmp cmp] (asks : ∀ a b, le a b = (cmp a b).isLE)
    {found : β → Bool} (ties : ∀ a b, found a = true → found b = true → cmp a b = .eq)
    (elements : List β) : (elements.mergeSort le).filter found = elements.filter found := by
  have inOrder : (elements.filter found).Pairwise fun a b => le a b = true := by
    refine List.pairwise_of_forall_mem_list fun a isFirst b isSecond => ?_
    rw [asks, ties a b (List.mem_filter.mp isFirst).2 (List.mem_filter.mp isSecond).2]
    rfl
  have stable := (List.sublist_mergeSort (le_trans_of_asks asks) (le_total_of_asks asks) inOrder
    List.filter_sublist).filter found
  simp only [List.filter_filter, Bool.and_self] at stable
  exact (stable.eq_of_length ((List.mergeSort_perm elements le).filter found).length_eq.symm).symm

/-- What is made of some elements, each of which can be told from the result,
comes from a part of the list. -/
theorem map_filterMap_sublist {part : β → Option γ} {origin : γ → β}
    (keeps : ∀ element result, part element = some result → origin result = element)
    (elements : List β) : ((elements.filterMap part).map origin).Sublist elements := by
  induction elements with
  | nil => exact List.Sublist.slnil
  | cons element others inductionHypothesis =>
      rw [List.filterMap_cons]
      split
      · exact inductionHypothesis.cons element
      · next result isResult =>
          rw [List.map_cons, keeps element result isResult]
          exact inductionHypothesis.cons_cons element

/-- In a table without repeated keys each row is found by its key. -/
theorem lookup_eq_some_iff_mem [BEq γ] [LawfulBEq γ] {table : List (γ × β)}
    (once : (table.map Prod.fst).Nodup) (key : γ) (value : β) :
    table.lookup key = some value ↔ (key, value) ∈ table := by
  induction table with
  | nil => simp
  | cons row others inductionHypothesis =>
      rcases row with ⟨first, held⟩
      rcases List.nodup_cons.mp once with ⟨absent, later⟩
      rw [List.lookup_cons, List.mem_cons, Prod.mk.injEq]
      by_cases same : key = first
      · subst same
        have notLater : (key, value) ∉ others := fun member =>
          absent (List.mem_map.mpr ⟨_, member, rfl⟩)
        simp [notLater, eq_comm]
      · simp [beq_false_of_ne same, same, inductionHypothesis later]

/-- If something is found for each element, something is found for all. -/
theorem mapM_eq_some_map {find? : β → Option γ} (found : β → γ) {elements : List β}
    (finds : ∀ element ∈ elements, find? element = some (found element)) :
    elements.mapM find? = some (elements.map found) := by
  induction elements with
  | nil => rfl
  | cons element others inductionHypothesis =>
      rcases List.forall_mem_cons.mp finds with ⟨first, later⟩
      rw [List.mapM_cons, first, inductionHypothesis later]
      rfl

end ContextPack
