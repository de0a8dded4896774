import ContextPack.Pack.Fit
import Mathlib.Algebra.Order.BigOperators.Group.List
import Mathlib.Algebra.Order.Ring.Nat
import Mathlib.Data.List.Sort

namespace ContextPack
namespace Fit

/-!
# The level of a fill

Files with given costs share an available amount.  Each fills up to a common
level or, if it costs less, completely.  The search offers every file an equal
share of what is left, rounded down, and hands on what a cheap file does not
need; this works because the costs ascend.

The level it finds is the largest one whose fill is covered.  That description
does not mention shares any more, so comparisons between two amounts follow
from it without another induction over the search.

The caps are this level at the places of the files that cost more.  Shares only
grow as long as they suffice, so no file that was passed costs more than the
share that ends the search.
-/

/-- What files of the given costs take when they fill up to a level. -/
def filled (level : Nat) (costs : List Nat) : Nat := (costs.map (min level)).sum

@[simp] theorem filled_nil (level : Nat) : filled level [] = 0 := rfl

@[simp] theorem filled_cons (level cost : Nat) (rest : List Nat) :
    filled level (cost :: rest) = min level cost + filled level rest := rfl

theorem filled_perm {first second : List Nat} (same : first.Perm second) (level : Nat) :
    filled level first = filled level second :=
  (same.map _).sum_eq

theorem filled_mono {low high : Nat} (ordered : low ≤ high) (costs : List Nat) :
    filled low costs ≤ filled high costs :=
  List.sum_le_sum fun cost _member => by omega

theorem filled_le_sum (level : Nat) (costs : List Nat) : filled level costs ≤ costs.sum := by
  induction costs with
  | nil => exact Nat.le_refl 0
  | cons cost rest inductionHypothesis =>
      rw [filled_cons, List.sum_cons]
      omega

theorem filled_le_length_mul (level : Nat) (costs : List Nat) :
    filled level costs ≤ costs.length * level := by
  induction costs with
  | nil => exact Nat.zero_le _
  | cons cost rest inductionHypothesis =>
      rw [filled_cons, List.length_cons, Nat.succ_mul]
      omega

/-- Above every cost a level no longer matters. -/
theorem filled_eq_sum {level : Nat} {costs : List Nat} (covered : ∀ cost ∈ costs, cost ≤ level) :
    filled level costs = costs.sum := by
  induction costs with
  | nil => rfl
  | cons cost rest inductionHypothesis =>
      rw [filled_cons, List.sum_cons, Nat.min_eq_right (covered cost List.mem_cons_self),
        inductionHypothesis fun other member => covered other (List.mem_cons_of_mem cost member)]

/-- Below every cost each file takes exactly the level. -/
theorem filled_eq_length_mul {level : Nat} {costs : List Nat}
    (short : ∀ cost ∈ costs, level ≤ cost) : filled level costs = costs.length * level := by
  induction costs with
  | nil => exact (Nat.zero_mul level).symm
  | cons cost rest inductionHypothesis =>
      rw [filled_cons, Nat.min_eq_left (short cost List.mem_cons_self),
        inductionHypothesis fun other member => short other (List.mem_cons_of_mem cost member),
        List.length_cons, Nat.succ_mul, Nat.add_comm]

theorem length_mul_le_sum {least : Nat} {costs : List Nat} (bound : ∀ cost ∈ costs, least ≤ cost) :
    costs.length * least ≤ costs.sum :=
  filled_eq_length_mul bound ▸ filled_le_sum least costs

/-! ## What the search finds -/

/-- The share at which the search ends; none when every cost is covered. -/
def level? : List Nat → Nat → Option Nat
  | [], _ => none
  | cost :: rest, available =>
    let share := available / (rest.length + 1)
    if cost ≤ share then level? rest (available - cost) else some share

/-- No level is needed exactly when everything is covered. -/
theorem level?_eq_none_iff {costs : List Nat} (ascending : costs.Pairwise (· ≤ ·))
    (available : Nat) : level? costs available = none ↔ costs.sum ≤ available := by
  induction costs generalizing available with
  | nil => exact iff_of_true rfl (Nat.zero_le available)
  | cons cost rest inductionHypothesis =>
      rcases List.pairwise_cons.mp ascending with ⟨least, later⟩
      rw [level?, List.sum_cons]
      by_cases offered : cost ≤ available / (rest.length + 1)
      · have covered : cost ≤ available := Nat.le_trans offered (Nat.div_le_self _ _)
        rw [if_pos offered, inductionHypothesis later]
        omega
      · -- The least cost exceeds an equal share, so all of them together exceed the amount.
        rw [if_neg offered]
        have exceeds : available < cost * (rest.length + 1) :=
          (Nat.div_lt_iff_lt_mul (Nat.succ_pos _)).mp (Nat.lt_of_not_le offered)
        have sumLarge := length_mul_le_sum least
        rw [Nat.mul_succ, Nat.mul_comm] at exceeds
        exact iff_of_false (Option.some_ne_none _) (by omega)

/-- What is left after a cheap file still gives the others a share no smaller than its
cost. -/
theorem le_of_lt_filled {cost available level : Nat} {rest : List Nat}
    (offered : cost ≤ available / (rest.length + 1))
    (exceeds : available - cost < filled (level + 1) rest) : cost ≤ level := by
  have equalShares : cost * (rest.length + 1) ≤ available :=
    (Nat.le_div_iff_mul_le (Nat.succ_pos _)).mp offered
  have upper := filled_le_length_mul (level + 1) rest
  have shares : rest.length * cost < rest.length * (level + 1) := by
    rw [Nat.mul_succ, Nat.mul_comm cost] at equalShares
    omega
  exact Nat.le_of_lt_succ (Nat.lt_of_mul_lt_mul_left shares)

/-- The level is covered, and the next one would not be. -/
theorem level?_spec {costs : List Nat} (ascending : costs.Pairwise (· ≤ ·)) {available level : Nat}
    (found : level? costs available = some level) :
    filled level costs ≤ available ∧ available < filled (level + 1) costs := by
  induction costs generalizing available with
  | nil => cases found
  | cons cost rest inductionHypothesis =>
      rcases List.pairwise_cons.mp ascending with ⟨least, later⟩
      rw [level?] at found
      by_cases offered : cost ≤ available / (rest.length + 1)
      · rw [if_pos offered] at found
        rcases inductionHypothesis later found with ⟨covered, exceeds⟩
        have cheap : cost ≤ level := le_of_lt_filled offered exceeds
        rw [filled_cons, filled_cons, Nat.min_eq_right cheap,
          Nat.min_eq_right (Nat.le_succ_of_le cheap)]
        have paid : cost ≤ available := Nat.le_trans offered (Nat.div_le_self _ _)
        omega
      · rw [if_neg offered, Option.some.injEq] at found
        subst found
        have short : ∀ other ∈ cost :: rest, available / (rest.length + 1) + 1 ≤ other := by
          intro other member
          rcases List.mem_cons.mp member with same | inRest
          · omega
          · have := least other inRest
            omega
        rw [filled_eq_length_mul short,
          filled_eq_length_mul fun other member => Nat.le_of_succ_le (short other member)]
        exact ⟨Nat.mul_div_le available _, Nat.lt_mul_div_succ available (Nat.succ_pos _)⟩

/-! ## Caps -/

theorem perm_order (costs : List Nat) : (order costs).Perm costs.zipIdx :=
  List.mergeSort_perm _ _

theorem map_fst_order (costs : List Nat) :
    (order costs).map Prod.fst = costs.mergeSort (· ≤ ·) := by
  have sorted : (order costs).Pairwise fun first second => first.1 ≤ second.1 := by
    refine (List.pairwise_mergeSort ?_ ?_ costs.zipIdx).imp fun {first second} ordered => ?_
    · simp only [Bool.or_eq_true, Bool.and_eq_true, decide_eq_true_iff, beq_iff_eq]
      omega
    · simp only [Bool.or_eq_true, Bool.and_eq_true, decide_eq_true_iff, beq_iff_eq]
      omega
    · simp only [Bool.or_eq_true, Bool.and_eq_true, decide_eq_true_iff, beq_iff_eq] at ordered
      omega
  have same : ((order costs).map Prod.fst).Perm (costs.mergeSort (· ≤ ·)) := by
    refine ((perm_order costs).map Prod.fst).trans ?_
    rw [List.zipIdx_map_fst]
    exact (List.mergeSort_perm costs _).symm
  exact same.eq_of_pairwise (fun _ _ _ _ => Nat.le_antisymm) (List.pairwise_map.mpr sorted)
    (List.pairwise_mergeSort' (· ≤ ·) costs)

/-- Sets the cap at the places of some files. -/
def capAll (share : Nat) (files : List (Nat × Nat)) (caps : List (Option Nat)) :
    List (Option Nat) :=
  files.foldl (fun caps (_, place) => caps.set place (some share)) caps

theorem getElem?_capAll (share : Nat) (files : List (Nat × Nat)) (caps : List (Option Nat))
    (place : Nat) :
    (capAll share files caps)[place]? =
      if place ∈ files.map Prod.snd then caps[place]?.map fun _ => some share
      else caps[place]? := by
  rw [capAll]
  induction files generalizing caps with
  | nil => exact (if_neg List.not_mem_nil).symm
  | cons file rest inductionHypothesis =>
      rw [List.foldl_cons, inductionHypothesis, List.getElem?_set]
      by_cases here : file.2 = place
      · cases known : caps[place]? with
        | none =>
            have outside : ¬place < caps.length := Nat.not_lt_of_le (List.getElem?_eq_none_iff.mp known)
            simp [here, outside]
        | some cap =>
            have inside : place < caps.length := (List.getElem?_eq_some_iff.mp known).1
            simp [here, inside]
      · simp only [if_neg here, List.map_cons, List.mem_cons, Ne.symm here, false_or]

/-- Where the search ends without a share there is no cap. -/
theorem capFrom_of_none {files : List (Nat × Nat)} {available : Nat}
    (none : level? (files.map Prod.fst) available = none) (caps : List (Option Nat)) :
    capFrom caps files available = caps := by
  induction files generalizing available with
  | nil => rfl
  | cons file rest inductionHypothesis =>
      rw [List.map_cons, level?, List.length_map] at none
      rw [capFrom]
      by_cases offered : file.1 ≤ available / (rest.length + 1)
      · rw [if_pos offered] at none ⊢
        exact inductionHypothesis none
      · rw [if_neg offered] at none
        cases none

/-- Where it ends with a share, this is the cap of all files that cost more. -/
theorem capFrom_of_some {files : List (Nat × Nat)}
    (ascending : (files.map Prod.fst).Pairwise (· ≤ ·)) {available share : Nat}
    (found : level? (files.map Prod.fst) available = some share) (caps : List (Option Nat)) :
    capFrom caps files available = capAll share (files.filter fun file => share < file.1) caps := by
  induction files generalizing available with
  | nil => cases found
  | cons file rest inductionHypothesis =>
      rw [List.map_cons] at ascending
      rcases List.pairwise_cons.mp ascending with ⟨least, later⟩
      rw [List.map_cons, level?, List.length_map] at found
      rw [capFrom]
      by_cases offered : file.1 ≤ available / (rest.length + 1)
      · rw [if_pos offered] at found ⊢
        have exceeds := (level?_spec later found).2
        have cheap : file.1 ≤ share :=
          le_of_lt_filled (by rwa [List.length_map]) exceeds
        rw [List.filter_cons_of_neg (by simpa using cheap), inductionHypothesis later found]
      · rw [if_neg offered, Option.some_inj] at found
        subst found
        have dearer : ∀ other ∈ file :: rest, available / (rest.length + 1) < other.1 := by
          intro other member
          rcases List.mem_cons.mp member with rfl | inRest
          · exact Nat.lt_of_not_le offered
          · exact Nat.lt_of_lt_of_le (Nat.lt_of_not_le offered)
              (least other.1 (List.mem_map_of_mem inRest))
        rw [if_neg offered, List.filter_eq_self.mpr fun other member =>
          decide_eq_true (dearer other member)]
        rfl

/-! ## One level for every amount -/

/-- The level that files fill up to; the sum of the costs, which no file
exceeds, when everything is covered. -/
def level (costs : List Nat) (available : Nat) : Nat :=
  (level? (costs.mergeSort (· ≤ ·)) available).getD costs.sum

theorem pairwise_le_mergeSort (costs : List Nat) :
    (costs.mergeSort (· ≤ ·)).Pairwise (· ≤ ·) :=
  List.pairwise_mergeSort' (· ≤ ·) costs

/-- Either everything is covered or the level is the largest covered one. -/
theorem level_cases (costs : List Nat) (available : Nat) :
    (costs.sum ≤ available ∧ level? (costs.mergeSort (· ≤ ·)) available = none ∧
      level costs available = costs.sum) ∨
    (available < costs.sum ∧
      level? (costs.mergeSort (· ≤ ·)) available = some (level costs available) ∧
      filled (level costs available) costs ≤ available ∧
      available < filled (level costs available + 1) costs) := by
  have sorted := pairwise_le_mergeSort costs
  have same := List.mergeSort_perm costs (· ≤ ·)
  have needed := level?_eq_none_iff sorted available
  rw [same.sum_eq] at needed
  cases found : level? (costs.mergeSort (· ≤ ·)) available with
  | none =>
      refine Or.inl ⟨needed.mp found, rfl, ?_⟩
      rw [level, found, Option.getD_none]
  | some share =>
      have shareLevel : level costs available = share := by
        rw [level, found, Option.getD_some]
      have spec := level?_spec sorted found
      rw [filled_perm same, filled_perm same] at spec
      rw [shareLevel]
      refine Or.inr ⟨?_, rfl, spec⟩
      by_contra covered
      rw [needed.mpr (Nat.le_of_not_lt covered)] at found
      cases found

/-- The caps are the level, for all files that cost more. -/
theorem caps_eq (costs : List Nat) (available : Nat) :
    caps costs available = costs.map fun cost =>
      if level costs available < cost then some (level costs available) else none := by
  rw [caps]
  rcases level_cases costs available with ⟨-, none, whole⟩ | ⟨-, found, -⟩
  · rw [← map_fst_order] at none
    rw [capFrom_of_none none, whole]
    refine (List.map_eq_replicate_iff.mpr fun cost member => if_neg ?_).symm
    exact Nat.not_lt_of_le (List.single_le_sum (fun _ _ => Nat.zero_le _) cost member)
  · rw [← map_fst_order] at found
    have ascending : ((order costs).map Prod.fst).Pairwise (· ≤ ·) :=
      map_fst_order costs ▸ pairwise_le_mergeSort costs
    rw [capFrom_of_some ascending found]
    generalize level costs available = share
    refine List.ext_getElem? fun place => ?_
    have isDearer : place ∈ ((order costs).filter fun file => share < file.1).map Prod.snd ↔
        ∃ cost, costs[place]? = some cost ∧ share < cost := by
      simp [List.mem_filter, (perm_order costs).mem_iff, List.mk_mem_zipIdx_iff_getElem?]
    rw [getElem?_capAll, List.getElem?_map, List.getElem?_replicate]
    cases known : costs[place]? with
    | none =>
        have outside : ¬place < costs.length :=
          Nat.not_lt_of_le (List.getElem?_eq_none_iff.mp known)
        simp [outside]
    | some cost =>
        have inside : place < costs.length := (List.getElem?_eq_some_iff.mp known).1
        rw [known] at isDearer
        by_cases dearer : share < cost
        · rw [if_pos (isDearer.mpr ⟨cost, rfl, dearer⟩)]
          simp [inside, dearer]
        · rw [if_neg fun capped => ?_]
          · simp [inside, dearer]
          · rcases isDearer.mp capped with ⟨other, same, above⟩
            cases same
            exact dearer above

/-- Files filled up to the level never take more than there is. -/
theorem filled_level_le (costs : List Nat) (available : Nat) :
    filled (level costs available) costs ≤ available := by
  rcases level_cases costs available with ⟨covered, -, -⟩ | ⟨-, -, covered, -⟩
  · exact Nat.le_trans (filled_le_sum _ costs) covered
  · exact covered

theorem level_le_sum (costs : List Nat) (available : Nat) : level costs available ≤ costs.sum := by
  rcases level_cases costs available with ⟨-, -, whole⟩ | ⟨-, -, covered, exceeds⟩
  · exact Nat.le_of_eq whole
  · -- A level that no file exceeds could be raised without taking more.
    by_contra above
    have reached : ∀ cost ∈ costs, cost ≤ level costs available := fun cost member =>
      Nat.le_trans (List.single_le_sum (fun _ _ => Nat.zero_le _) cost member)
        (Nat.le_of_not_le above)
    rw [filled_eq_sum fun cost member => Nat.le_succ_of_le (reached cost member)] at exceeds
    rw [filled_eq_sum reached] at covered
    omega

/-- With more available the level does not sink. -/
theorem level_mono {less more : Nat} (ordered : less ≤ more) (costs : List Nat) :
    level costs less ≤ level costs more := by
  rcases level_cases costs more with ⟨-, -, whole⟩ | ⟨-, -, -, exceeds⟩
  · exact whole ▸ level_le_sum costs less
  · by_contra above
    have raised := filled_mono (Nat.succ_le_of_lt (Nat.lt_of_not_le above)) costs
    have covered := filled_level_le costs less
    rw [Nat.succ_eq_add_one] at raised
    omega

end Fit
end ContextPack
