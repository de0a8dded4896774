import ContextPack.Proofs.Data.Sorting
import ContextPack.Text.Pieces
import Mathlib.Data.String.Basic

namespace ContextPack.Text

/-!
# Sorted texts

Paths and names are kept in byte order.  `Text.le` is the order of strings, so
sorting with it gives ascending lists, and dropping equal neighbours afterwards
gives every text of the list exactly once.
-/

theorem le_iff (a b : String) : le a b = true ↔ a ≤ b := by
  rcases lt_trichotomy a b with below | same | above
  · simp [le, order, compareOfLessAndEq, below, below.le]
  · simp [le, order, compareOfLessAndEq, same]
  · simp [le, order, compareOfLessAndEq, above, above.not_gt, above.ne']

theorem le_trans_bool (a b c : String) (first : le a b = true) (second : le b c = true) :
    le a c = true :=
  (le_iff a c).mpr (((le_iff a b).mp first).trans ((le_iff b c).mp second))

theorem le_total_bool (a b : String) : (le a b || le b a) = true := by
  rw [Bool.or_eq_true, le_iff, le_iff]
  exact le_total a b

/-- Sorting by `le` is sorting by the comparison of texts, in which no two texts
tie. -/
instance : Std.TransCmp order :=
  inferInstanceAs (Std.TransCmp (compare : String → String → Ordering))

theorem le_eq_isLE (a b : String) : le a b = (order a b).isLE := by
  rw [le]
  cases order a b <;> rfl

theorem order_eq_lt_iff (a b : String) : order a b = .lt ↔ a < b :=
  compare_lt_iff_lt (α := String)

theorem order_eq_eq_iff (a b : String) : order a b = .eq ↔ a = b :=
  compare_eq_iff_eq (α := String)

/-- Sorting texts makes them ascend. -/
theorem pairwise_mergeSort_le (texts : List String) :
    (texts.mergeSort le).Pairwise (· ≤ ·) :=
  (List.pairwise_mergeSort le_trans_bool le_total_bool texts).imp fun {a b} => (le_iff a b).mp

section ByKey

variable {β : Type} (key : β → String) (elements : List β)

/-- Sorting elements by a text of theirs makes these texts ascend. -/
theorem pairwise_map_mergeSort :
    ((elements.mergeSort fun a b => le (key a) (key b)).map key).Pairwise (· ≤ ·) := by
  have byKey : Std.TransCmp fun a b : β => order (key a) (key b) := transCmp_of_key key
  have sorted := @pairwise_mergeSort_isLE β _ _ byKey (fun a b => le_eq_isLE (key a) (key b)) elements
  exact List.pairwise_map.mpr (sorted.imp fun {a b} inOrder =>
    (le_iff (key a) (key b)).mp ((le_eq_isLE _ _).trans inOrder))

/-- Elements with one text stay in their order. -/
theorem filter_mergeSort_key (text : String) :
    ((elements.mergeSort fun a b => le (key a) (key b)).filter fun element => key element = text) =
      elements.filter fun element => key element = text := by
  have byKey : Std.TransCmp fun a b : β => order (key a) (key b) := transCmp_of_key key
  refine @filter_mergeSort β _ _ byKey (fun a b => le_eq_isLE (key a) (key b)) _ ?_ elements
  intro a b isFirst isSecond
  rw [order_eq_eq_iff, of_decide_eq_true isFirst, of_decide_eq_true isSecond]

/-- The first of several elements with one text stays the first. -/
theorem find?_mergeSort_key (text : String) :
    ((elements.mergeSort fun a b => le (key a) (key b)).find? fun element => key element = text) =
      elements.find? fun element => key element = text := by
  rw [← List.head?_filter, ← List.head?_filter, filter_mergeSort_key]

end ByKey

/-- Dropping repeats takes no text away. -/
theorem mem_dropRepeats (text : String) (texts : List String) :
    text ∈ dropRepeats texts ↔ text ∈ texts := by
  induction texts using dropRepeats.induct with
  | case1 => rfl
  | case2 only => rfl
  | case3 first rest inductionHypothesis =>
      rw [dropRepeats, if_pos rfl, inductionHypothesis]
      constructor
      · exact List.mem_cons_of_mem first
      · intro member
        rcases List.mem_cons.mp member with same | later
        · exact same ▸ List.mem_cons_self
        · exact later
  | case4 first second rest different inductionHypothesis =>
      rw [dropRepeats, if_neg different, List.mem_cons, inductionHypothesis]
      exact List.mem_cons.symm

/-- Among ascending texts no repeat is left, wherever it stood. -/
theorem pairwise_lt_dropRepeats {texts : List String} (ascending : texts.Pairwise (· ≤ ·)) :
    (dropRepeats texts).Pairwise (· < ·) := by
  induction texts using dropRepeats.induct with
  | case1 => exact List.Pairwise.nil
  | case2 only => exact List.pairwise_singleton _ only
  | case3 first rest inductionHypothesis =>
      rw [dropRepeats, if_pos rfl]
      exact inductionHypothesis (List.pairwise_cons.mp ascending).2
  | case4 first second rest different inductionHypothesis =>
      rcases List.pairwise_cons.mp ascending with ⟨least, later⟩
      rw [dropRepeats, if_neg different]
      refine List.pairwise_cons.mpr ⟨fun text member => ?_, inductionHypothesis later⟩
      have below : first < second :=
        lt_of_le_of_ne (least second List.mem_cons_self) different
      rcases List.mem_cons.mp ((mem_dropRepeats text _).mp member) with same | inRest
      · exact same ▸ below
      · exact below.trans_le ((List.pairwise_cons.mp later).1 text inRest)

@[simp] theorem mem_distinctSorted (text : String) (texts : List String) :
    text ∈ distinctSorted texts ↔ text ∈ texts := by
  rw [distinctSorted, mem_dropRepeats, List.mem_mergeSort]

/-- The distinct texts come in strictly ascending order. -/
theorem pairwise_lt_distinctSorted (texts : List String) :
    (distinctSorted texts).Pairwise (· < ·) :=
  pairwise_lt_dropRepeats (pairwise_mergeSort_le texts)

theorem distinctSorted_congr {first second : List String}
    (same : ∀ text, text ∈ first ↔ text ∈ second) : distinctSorted first = distinctSorted second := by
  have ascending := pairwise_lt_distinctSorted first
  have ascending' := pairwise_lt_distinctSorted second
  have perm : (distinctSorted first).Perm (distinctSorted second) := by
    refine (List.perm_ext_iff_of_nodup (ascending.imp ne_of_lt) (ascending'.imp ne_of_lt)).mpr ?_
    simpa only [mem_distinctSorted] using same
  exact perm.eq_of_pairwise (fun _ _ _ _ below above => absurd above below.asymm) ascending ascending'

theorem nodup_distinctSorted (texts : List String) : (distinctSorted texts).Nodup :=
  (pairwise_lt_distinctSorted texts).imp fun below => below.ne

end ContextPack.Text
