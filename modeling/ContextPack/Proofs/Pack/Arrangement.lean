import ContextPack.Proofs.Pack.Budget
import ContextPack.Proofs.Pack.Precedence

namespace ContextPack
namespace Assembler

/-!
# The order of the input is of no account

Seeds and candidates are sorted before anything is decided about them, and what
is counted on the way are members of a list and not places in it.  With one
seed for each path and one candidate for each path no two of them tie, so that
an assembly is the same however they come in.
-/

variable {α : Type} [Scalar α] (assembler : Assembler α)

/-- Seeds with different paths are chosen in whatever order they come. -/
theorem chosenSeeds_perm (limits : Limits) {seeds rearranged : List Seed}
    (same : seeds.Perm rearranged) (distinct : (seeds.map Seed.path).Nodup) :
    chosenSeeds limits seeds = chosenSeeds limits rearranged := by
  have asks (a b : Seed) : Text.le a.change.path b.change.path =
      (Text.order a.path b.path).isLE := Text.le_eq_isLE _ _
  have byPath : Std.TransCmp fun a b : Seed => Text.order a.path b.path := transCmp_of_key Seed.path
  have noTies : ∀ a ∈ seeds, ∀ b ∈ seeds, Text.order a.path b.path = .eq → a = b :=
    fun a isSeed b isOther tie =>
      List.inj_on_of_nodup_map distinct isSeed isOther ((Text.order_eq_eq_iff _ _).mp tie)
  rw [chosenSeeds, chosenSeeds, mergeSort_eq_of_perm asks same noTies]

theorem eligible_perm (seedPaths : List String) {candidates rearranged : List (Candidate α)}
    (same : candidates.Perm rearranged) :
    (assembler.eligible seedPaths candidates).Perm (assembler.eligible seedPaths rearranged) :=
  same.filterMap _

theorem rank_perm [Std.TransCmp (Scalar.order : α → α → Ordering)] (seedPaths : List String)
    {candidates rearranged : List (Candidate α)} (same : candidates.Perm rearranged)
    (distinct : (candidates.map Candidate.path).Nodup) :
    assembler.rank (assembler.eligible seedPaths candidates) =
      assembler.rank (assembler.eligible seedPaths rearranged) := by
  refine mergeSort_eq_of_perm rankedLe_eq_isLE ((assembler.eligible_perm seedPaths same).filter _) ?_
  have nodup := nodup_map_path_fitting assembler candidates distinct seedPaths
  exact fun first isFirst second isSecond tie =>
    List.inj_on_of_nodup_map nodup isFirst isSecond (path_eq_of_rankedOrder tie)

/-- Rearranging seeds and candidates changes nothing of an assembly: neither its
fragments nor anything that it counts. -/
theorem assembly_ignores_arrangement [Std.TransCmp (Scalar.order : α → α → Ordering)]
    {seeds rearrangedSeeds : List Seed} {candidates rearranged : List (Candidate α)}
    (sameSeeds : seeds.Perm rearrangedSeeds) (distinctSeeds : (seeds.map Seed.path).Nodup)
    (sameCandidates : candidates.Perm rearranged)
    (distinct : (candidates.map Candidate.path).Nodup) (budget : Nat) :
    assembler.assemble seeds candidates budget =
      assembler.assemble rearrangedSeeds rearranged budget := by
  have dropped (seedPaths : List String) := ((assembler.eligible_perm seedPaths sameCandidates).filter
    fun ranked => !hasFittingSize assembler.limits ranked).length_eq
  rw [assemble, assemble, chosenSeeds_perm assembler.limits sameSeeds distinctSeeds]
  simp only [assembler.rank_perm _ sameCandidates distinct, dropped]

/-- Two neighbours by convention whose score is no number. -/
def unscoredCandidates : List (Candidate Float) :=
  [⟨"d.tf", ⟨0 / 0, 0, 0⟩, none, true, 6, some "x = 1\n"⟩,
   ⟨"c.tf", ⟨0 / 0, 0, 0⟩, none, true, 6, some "y = 2\n"⟩]

/-- The two changed files of the sample and two files that only their paths tell
apart, backwards. -/
theorem assembly_ignores_arrangement_of_unscored :
    let assembler : Assembler Float := ofSettings .default Tokens.estimate Wrap.word
    ((sampleSeeds.map Seed.path).Nodup ∧ (unscoredCandidates.map Candidate.path).Nodup) ∧
      assembler.assemble sampleSeeds unscoredCandidates 100 =
        assembler.assemble sampleSeeds.reverse unscoredCandidates.reverse 100 := by
  intro assembler
  have distinctSeeds : (sampleSeeds.map Seed.path).Nodup := by decide
  have distinct : (unscoredCandidates.map Candidate.path).Nodup := by decide
  exact ⟨⟨distinctSeeds, distinct⟩, assembly_ignores_arrangement assembler
    (List.reverse_perm sampleSeeds).symm distinctSeeds
    (List.reverse_perm unscoredCandidates).symm distinct 100⟩

end Assembler
end ContextPack
