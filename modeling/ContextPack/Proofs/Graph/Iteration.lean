import ContextPack.Graph.Rank
import Mathlib.Logic.Function.Iterate

namespace ContextPack
namespace Ranking

/-!
# Where the iteration stops

The iteration takes steps until one of them changes less than the tolerance, or
until no step is left.  Its outcome is the vector after as many steps as it
reports, and it reports that it converged exactly if the last of them settled.
-/

variable {α : Type} [Scalar α]

def scoresAfter (walk : Walk α) (steps : Nat) : List α := (step walk)^[steps] walk.restart

theorem scoresAfter_succ (walk : Walk α) (steps : Nat) :
    scoresAfter walk (steps + 1) = step walk (scoresAfter walk steps) :=
  Function.iterate_succ_apply' _ _ _

/-- The total change of the step that follows so many others. -/
def changeAfter (walk : Walk α) (steps : Nat) : α :=
  change (scoresAfter walk (steps + 1)) (scoresAfter walk steps)

/-- The outcome of at most `left` steps after `taken` ones. -/
structure StopsWithin (walk : Walk α) (tolerance : α) (left taken : Nat) (ranking : Ranking α) :
    Prop where
  scores_eq : ranking.scores = scoresAfter walk ranking.iterations
  taken_le : taken ≤ ranking.iterations
  le_all : ranking.iterations ≤ taken + left
  moves : 0 < left → taken < ranking.iterations
  converged_iff : ranking.converged = true ↔ ∃ last, taken ≤ last ∧
    ranking.iterations = last + 1 ∧ Scalar.lt (changeAfter walk last) tolerance = true
  exhausted : ranking.converged = false → ranking.iterations = taken + left
  /-- No step before the last one was small enough to stop. -/
  goes_on : ∀ earlier, taken ≤ earlier → earlier + 1 < ranking.iterations →
    Scalar.lt (changeAfter walk earlier) tolerance = false

theorem iterate_stopsWithin (walk : Walk α) (tolerance : α) (left taken : Nat) :
    StopsWithin walk tolerance left taken
      (iterate walk tolerance left taken (scoresAfter walk taken)) := by
  induction left generalizing taken with
  | zero =>
      refine ⟨rfl, Nat.le_refl _, Nat.le_refl _, fun none => absurd none (Nat.lt_irrefl 0), ?_, fun _ => rfl,
        fun earlier after before => absurd (Nat.le_succ_of_le after) (Nat.not_le_of_lt before)⟩
      constructor
      · intro impossible
        cases impossible
      · rintro ⟨last, after, same, -⟩
        have taken_eq : taken = last + 1 := same
        omega
  | succ left inductionHypothesis =>
      rw [iterate, ← scoresAfter_succ]
      split
      · next settled =>
          exact ⟨rfl, Nat.le_succ taken, by simp, fun _ => Nat.lt_succ_self taken,
            iff_of_true rfl ⟨taken, Nat.le_refl _, rfl, settled⟩, nofun,
            fun earlier after before => absurd after (Nat.not_le_of_lt (Nat.lt_of_succ_lt_succ before))⟩
      · next unsettled =>
          have later := inductionHypothesis (taken + 1)
          refine ⟨later.scores_eq, Nat.le_of_succ_le later.taken_le,
            Nat.le_trans later.le_all (by omega), fun _ => later.taken_le, ?_, fun none => ?_,
            fun earlier after before => ?_⟩
          · rw [later.converged_iff]
            constructor
            · rintro ⟨last, after, same, settled⟩
              exact ⟨last, Nat.le_of_succ_le after, same, settled⟩
            · rintro ⟨last, after, same, settled⟩
              -- The step just taken did not settle, so the last one is another.
              refine ⟨last, Nat.lt_of_le_of_ne after ?_, same, settled⟩
              rintro rfl
              exact unsettled settled
          · rw [later.exhausted none]
            omega
          · rcases Nat.eq_or_lt_of_le after with rfl | behind
            · exact Bool.eq_false_iff.mpr unsettled
            · exact later.goes_on earlier behind before

end Ranking
end ContextPack
