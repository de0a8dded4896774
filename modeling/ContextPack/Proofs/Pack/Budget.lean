import ContextPack.Proofs.Number.Exact
import ContextPack.Proofs.Pack.Assembly

namespace ContextPack
namespace Assembler

/-!
# Assembling for a budget

Two questions about a budget are answered: how much an assembly may cost, and
what a larger budget changes.  Both come down to two quantities of the seeds,
the level they are cut to and the rest they leave.  The level is bounded and
monotone in the budget by the laws of the fill; the rest is the budget less
the price of the whole seeds, which is nothing as soon as they are shrunk.
-/

variable {α : Type} [Scalar α] {assembler : Assembler α}

/-! ## What the seeds take and leave -/

/-- The seed fragments are the drafts cut to one level. -/
theorem seedFragments_eq (assembler : Assembler α) (seeds : List Seed) (budget : Nat) :
    assembler.seedFragments seeds budget =
      ((assembler.drafts seeds).map (Fit.cut assembler.counter
        (Fit.cutLevel assembler.counter assembler.wrap assembler.limits.overheadPerFragment
          (assembler.drafts seeds) budget))).map
        fun draft => assembler.fragment draft Scalar.one := by
  rw [seedFragments, fitted, Fit.fit_eq]

theorem length_seedFragments (assembler : Assembler α) (seeds : List Seed) (budget : Nat) :
    (assembler.seedFragments seeds budget).length = (assembler.drafts seeds).length := by
  rw [seedFragments_eq, List.length_map, List.length_map]

/-- Seeds that a budget covers are shown whole. -/
theorem seedFragments_of_wholePrice_le {seeds : List Seed} {budget : Nat}
    (fits : Fit.wholePrice assembler.counter assembler.wrap assembler.limits.overheadPerFragment
      (assembler.drafts seeds) ≤ budget) :
    assembler.seedFragments seeds budget =
      (assembler.drafts seeds).map fun draft => assembler.fragment draft Scalar.one := by
  rw [seedFragments_eq, Fit.cutLevel, if_pos fits,
    Fit.map_cut_of_sum_le assembler.counter _ (Nat.le_refl _)]

/-- The rest is what the whole seeds leave of the budget, and nothing when
they had to be shrunk. -/
theorem remaining_eq (assembler : Assembler α) (seeds : List Seed) (budget : Nat) :
    assembler.remaining seeds budget =
      if Fit.wholePrice assembler.counter assembler.wrap assembler.limits.overheadPerFragment
          (assembler.drafts seeds) ≤ budget then
        budget - Context.addUp assembler.wrap (((assembler.drafts seeds).map fun draft =>
          assembler.fragment draft Scalar.one).map Fragment.tokens)
      else 0 := by
  rw [remaining, fitted, Fit.fit_eq]
  by_cases fits : Fit.wholePrice assembler.counter assembler.wrap
      assembler.limits.overheadPerFragment (assembler.drafts seeds) ≤ budget
  · rw [if_pos fits, if_neg (by simpa using fits), seedFragments_of_wholePrice_le fits]
  · rw [if_neg fits, if_pos (by simpa using fits)]

theorem remaining_mono (assembler : Assembler α) (seeds : List Seed) {less more : Nat}
    (ordered : less ≤ more) :
    assembler.remaining seeds less ≤ assembler.remaining seeds more := by
  rw [remaining_eq, remaining_eq]
  by_cases fits : Fit.wholePrice assembler.counter assembler.wrap
      assembler.limits.overheadPerFragment (assembler.drafts seeds) ≤ less
  · rw [if_pos fits, if_pos (Nat.le_trans fits ordered)]
    exact Nat.sub_le_sub_right ordered _
  · rw [if_neg fits]
    exact Nat.zero_le _

/-! ## The price of an assembly -/

/-- With exact sums the seed fragments cost what is kept of the contents and
the overhead of each. -/
theorem sum_tokens_seedFragments (exact : assembler.wrap = id) (seeds : List Seed)
    (budget : Nat) :
    ((assembler.seedFragments seeds budget).map Fragment.tokens).sum =
      (((assembler.drafts seeds).map (Fit.cut assembler.counter
        (Fit.cutLevel assembler.counter id assembler.limits.overheadPerFragment
          (assembler.drafts seeds) budget))).map (Draft.price assembler.counter)).sum +
        (assembler.drafts seeds).length * assembler.limits.overheadPerFragment := by
  rw [seedFragments_eq, exact, sum_tokens_map_fragment exact, List.length_map]

theorem sum_tokens_seedFragments_le (exact : assembler.wrap = id)
    (steady : assembler.counter.IsSteady) (seeds : List Seed) (budget : Nat) :
    ((assembler.seedFragments seeds budget).map Fragment.tokens).sum ≤
      budget - (assembler.drafts seeds).length * assembler.limits.overheadPerFragment +
        (assembler.drafts seeds).length * assembler.limits.overheadPerFragment := by
  rw [sum_tokens_seedFragments exact]
  exact Nat.add_le_add_right (Fit.sum_price_cut_le _ _ _ budget steady) _

/-- Shrunk seeds cost more whole than the budget, so with exact sums both
cases of the rest are one subtraction. -/
theorem remaining_exact (exact : assembler.wrap = id) (seeds : List Seed) (budget : Nat) :
    assembler.remaining seeds budget = budget -
      ((Fit.prices assembler.counter (assembler.drafts seeds)).sum +
        (assembler.drafts seeds).length * assembler.limits.overheadPerFragment) := by
  rw [remaining_eq, exact, Fit.wholePrice_id, Fit.addUp_id, sum_tokens_map_fragment exact]
  split
  · rfl
  · next exceeds => exact (Nat.sub_eq_zero_of_le (Nat.le_of_not_le exceeds)).symm

/-- The overhead of the shown seeds is the only thing that may overdraw a
budget. -/
theorem sum_tokens_assemble_le (exact : assembler.wrap = id) (steady : assembler.counter.IsSteady)
    (seeds : List Seed) (candidates : List (Candidate α)) (budget : Nat) :
    ((assembler.assemble seeds candidates budget).fragments.map Fragment.tokens).sum ≤
      max budget ((assembler.drafts seeds).length * assembler.limits.overheadPerFragment) := by
  have ofSeeds := sum_tokens_seedFragments_le exact steady seeds budget
  have ofOthers : ((assembler.expansions seeds candidates budget).map Fragment.tokens).sum ≤
      assembler.remaining seeds budget := sum_tokens_pack_le _ _ _ _
  rw [assemble_fragments, List.map_append, List.sum_append]
  -- Unshrunk seeds cost their whole price, shrunk ones leave no rest: either way the two add up.
  by_cases fits : (Fit.prices assembler.counter (assembler.drafts seeds)).sum +
      (assembler.drafts seeds).length * assembler.limits.overheadPerFragment ≤ budget
  · have whole : ((assembler.seedFragments seeds budget).map Fragment.tokens).sum =
        (Fit.prices assembler.counter (assembler.drafts seeds)).sum +
          (assembler.drafts seeds).length * assembler.limits.overheadPerFragment := by
      have covered := fits
      rw [← Fit.wholePrice_id, ← exact] at covered
      rw [seedFragments_of_wholePrice_le covered, sum_tokens_map_fragment exact]
      rfl
    rw [remaining_exact exact] at ofOthers
    omega
  · rw [remaining_exact exact] at ofOthers
    omega

/-- A budget that the overhead alone exceeds leaves every seed without
content and no room for other files. -/
theorem assemble_of_overBudget (exact : assembler.wrap = id) (steady : assembler.counter.IsSteady)
    (seeds : List Seed) (candidates : List (Candidate α)) (budget : Nat)
    (exceeded : budget <
      (assembler.drafts seeds).length * assembler.limits.overheadPerFragment) :
    (assembler.assemble seeds candidates budget).fragments =
        assembler.seedFragments seeds budget ∧
      (∀ fragment ∈ assembler.seedFragments seeds budget,
        fragment.kind.isSeed = true ∧ assembler.counter fragment.content.toList = 0) ∧
      ((assembler.seedFragments seeds budget).map Fragment.tokens).sum =
        (assembler.drafts seeds).length * assembler.limits.overheadPerFragment := by
  have total := Fit.sum_price_cut_le assembler.counter assembler.limits.overheadPerFragment
    (assembler.drafts seeds) budget steady
  rw [Nat.sub_eq_zero_of_le (Nat.le_of_lt exceeded), Nat.le_zero] at total
  refine ⟨?_, ?_, ?_⟩
  · have costly : 0 < assembler.limits.overheadPerFragment := by
      by_contra free
      rw [Nat.eq_zero_of_not_pos free] at exceeded
      omega
    have nothingLeft : assembler.remaining seeds budget = 0 := by
      rw [remaining_exact exact]
      omega
    have poor : assembler.remaining seeds budget < assembler.limits.overheadPerFragment :=
      nothingLeft.symm ▸ costly
    rw [assemble_fragments, expansions, pack_eq_nil exact poor, List.append_nil]
  · intro fragment member
    rw [seedFragments_eq, exact, List.map_map] at member
    rcases List.mem_map.mp member with ⟨draft, listed, rfl⟩
    rw [Function.comp_apply, fragment_kind, Fit.cut_kind, fragment_content]
    refine ⟨isSeed_of_mem_drafts assembler seeds draft listed, ?_⟩
    rw [List.map_map] at total
    exact List.sum_eq_zero_iff.mp total _ (List.mem_map_of_mem listed)
  · rw [sum_tokens_seedFragments exact, total, Nat.zero_add]

/-- The tokens of an assembly stay within its budget, except for the overhead
of the seeds, which are shown in any case.  When that overhead alone exceeds
the budget the assembly says so, and it is then all that is spent. -/
theorem fragments_within_budget (settings : Settings α) (counter : TokenCounter)
    (steady : counter.IsSteady) (seeds : List Seed) (candidates : List (Candidate α))
    (budget : Nat) :
    let assembly := (ofSettings settings counter id).assemble seeds candidates budget
    let overheadTotal := shownCount settings.limits seeds * settings.limits.overheadPerFragment
    (assembly.fragments.map Fragment.tokens).sum ≤ max budget overheadTotal ∧
      (assembly.seedsOverBudget = true ↔ budget < overheadTotal) ∧
      (budget < overheadTotal →
        assembly.fragments.map Fragment.path =
          (Text.distinctSorted (seeds.map Seed.path)).take settings.limits.maxFragments ∧
        (∀ fragment ∈ assembly.fragments,
          fragment.kind.isSeed = true ∧ counter fragment.content.toList = 0) ∧
        (assembly.fragments.map Fragment.tokens).sum = overheadTotal) := by
  intro assembly overheadTotal
  have exact : (ofSettings settings counter id).wrap = id := rfl
  have overhead : (drafts (ofSettings settings counter id) seeds).length *
      (ofSettings settings counter id).limits.overheadPerFragment = overheadTotal :=
    congrArg (· * settings.limits.overheadPerFragment)
      (length_drafts (ofSettings settings counter id) seeds)
  refine ⟨?_, ?_, fun exceeded => ?_⟩
  · exact overhead ▸ sum_tokens_assemble_le exact steady seeds candidates budget
  · rw [assemble_seedsOverBudget, fitted, exact, Fit.fit_eq, decide_eq_true_iff,
      Fit.wholePrice_id, id_eq, overhead]
    omega
  · rw [← overhead] at exceeded
    rcases assemble_of_overBudget exact steady seeds candidates budget exceeded with
      ⟨onlySeeds, emptied, total⟩
    rw [onlySeeds]
    refine ⟨?_, emptied, total.trans overhead⟩
    rw [map_path_seedFragments, map_path_drafts]
    rfl

/-- Two changed files and a related one.  At the default overhead of 18 each,
the changed ones alone cost 36. -/
def sampleSeeds : List Seed :=
  [⟨⟨"b.py", none, .modified, false, []⟩, some "def total():\n    return 1\n"⟩,
   ⟨⟨"a.py", none, .added, false, []⟩, some "import b\n"⟩]

def sampleCandidates : List (Candidate ℚ) :=
  [⟨"c.py", ⟨1 / 2, 0, 0⟩, some 1, false, 6, some "x = 1\n"⟩]

/-- Both counters are steady, and with either of them a budget of 30 buys the
overhead of the two changed files and nothing else. -/
theorem fragments_within_budget_of_sample :
    TokenCounter.IsSteady Tokens.estimate ∧ TokenCounter.IsSteady Tokens.byteCount ∧
    (((ofSettings Settings.default Tokens.estimate id).assemble sampleSeeds sampleCandidates
      30).fragments.map Fragment.tokens).sum = 36 ∧
    (((ofSettings Settings.default Tokens.byteCount id).assemble sampleSeeds sampleCandidates
      30).fragments.map Fragment.tokens).sum = 36 := by
  have overhead : shownCount (Settings.default : Settings ℚ).limits sampleSeeds *
      (Settings.default : Settings ℚ).limits.overheadPerFragment = 36 := by decide
  have byEstimate := (fragments_within_budget Settings.default Tokens.estimate
    Tokens.estimate_isSteady sampleSeeds sampleCandidates 30).2.2
  have byBytes := (fragments_within_budget Settings.default Tokens.byteCount
    Tokens.byteCount_isSteady sampleSeeds sampleCandidates 30).2.2
  rw [overhead] at byEstimate byBytes
  exact ⟨Tokens.estimate_isSteady, Tokens.byteCount_isSteady, (byEstimate (by decide)).2.2,
    (byBytes (by decide)).2.2⟩

/-! ## A larger budget -/

/-- A fragment shows the same file as another one, and no more of it. -/
structure ShowsLess (small large : Fragment α) : Prop where
  path : small.path = large.path
  content : small.content.toList <+: large.content.toList

theorem seedFragments_mono (steady : assembler.counter.IsSteady) (seeds : List Seed)
    {less more : Nat} (ordered : less ≤ more) :
    List.Forall₂ ShowsLess (assembler.seedFragments seeds less)
      (assembler.seedFragments seeds more) := by
  have raised := Fit.cutLevel_mono assembler.counter assembler.wrap
    assembler.limits.overheadPerFragment (assembler.drafts seeds) ordered
  rw [seedFragments_eq, seedFragments_eq, List.map_map, List.map_map,
    List.forall₂_map_left_iff, List.forall₂_map_right_iff]
  refine List.forall₂_same.mpr fun draft _member => ⟨?_, ?_⟩
  · rw [Function.comp_apply, Function.comp_apply, fragment_path, fragment_path, Fit.cut_path,
      Fit.cut_path]
  · rw [Function.comp_apply, Function.comp_apply, fragment_content, fragment_content,
      Fit.cut_content, Fit.cut_content]
    exact Tokens.truncate_mono assembler.counter steady raised draft.content

theorem expansions_mono (assembler : Assembler α) (seeds : List Seed)
    (candidates : List (Candidate α)) {less more : Nat} (ordered : less ≤ more) :
    assembler.expansions seeds candidates less <+: assembler.expansions seeds candidates more := by
  rw [expansions, expansions, length_seedFragments, length_seedFragments,
    ranked_eq assembler seeds candidates less more]
  exact pack_isPrefix_pack (remaining_mono assembler seeds ordered) _ _ _

/-- At every place that a smaller budget fills, a larger one shows the same
file and at least as much of it. -/
theorem assemble_mono (steady : assembler.counter.IsSteady) (seeds : List Seed)
    (candidates : List (Candidate α)) {less more : Nat} (ordered : less ≤ more)
    (place : Nat) (fragment : Fragment α)
    (found : (assembler.assemble seeds candidates less).fragments[place]? = some fragment) :
    ∃ larger, (assembler.assemble seeds candidates more).fragments[place]? = some larger ∧
      ShowsLess fragment larger := by
  have ofSeeds := seedFragments_mono steady seeds ordered
  rcases expansions_mono assembler seeds candidates ordered with ⟨others, ofOthers⟩
  rw [assemble_fragments] at found ⊢
  rcases Nat.lt_or_ge place (assembler.seedFragments seeds less).length with inSeeds | behindSeeds
  · have inLarger : place < (assembler.seedFragments seeds more).length :=
      ofSeeds.length_eq ▸ inSeeds
    rw [List.getElem?_append_left inSeeds, List.getElem?_eq_getElem inSeeds,
      Option.some.injEq] at found
    rw [List.getElem?_append_left inLarger, List.getElem?_eq_getElem inLarger]
    exact ⟨_, rfl, found ▸ ofSeeds.get inSeeds inLarger⟩
  · rw [List.getElem?_append_right behindSeeds, ofSeeds.length_eq] at found
    rw [List.getElem?_append_right (ofSeeds.length_eq ▸ behindSeeds), ← ofOthers,
      List.getElem?_append_left (List.getElem?_eq_some_iff.mp found).1]
    exact ⟨fragment, found, rfl, List.prefix_rfl⟩

/-- A larger budget drops, moves and shortens nothing, however counts are kept
in range: what a smaller budget shows is the beginning, file by file, of what
the larger one shows. -/
theorem larger_budget_continues (settings : Settings α) (counter : TokenCounter)
    (steady : counter.IsSteady) (wrap : Wrap) (seeds : List Seed)
    (candidates : List (Candidate α)) (less more : Nat) (ordered : less ≤ more) :
    let small := ((ofSettings settings counter wrap).assemble seeds candidates less).fragments
    let large := ((ofSettings settings counter wrap).assemble seeds candidates more).fragments
    small.map Fragment.path <+: large.map Fragment.path ∧
      ∀ (place : Nat) (fragment : Fragment α), small[place]? = some fragment →
        ∃ larger, large[place]? = some larger ∧ fragment.path = larger.path ∧
          fragment.content.toList <+: larger.content.toList := by
  intro small large
  have shown : ∀ (place : Nat) (fragment : Fragment α), small[place]? = some fragment →
      ∃ larger, large[place]? = some larger ∧ ShowsLess fragment larger :=
    assemble_mono steady seeds candidates ordered
  constructor
  · refine List.prefix_iff_getElem?.mpr fun place inside => ?_
    rw [List.length_map] at inside
    rcases shown place small[place] (List.getElem?_eq_getElem inside) with ⟨larger, found, less⟩
    rw [List.getElem?_map, found, Option.map_some, List.getElem_map, less.path]
  · intro place fragment found
    rcases shown place fragment found with ⟨larger, foundLarger, less⟩
    exact ⟨larger, foundLarger, less.path, less.content⟩

/-- The budgets 30, at which the seeds of the sample are empty, and 100, at
which they are whole and the related file is brought in. -/
theorem larger_budget_continues_of_sample :
    let small := ((ofSettings Settings.default Tokens.estimate Wrap.word).assemble sampleSeeds
      sampleCandidates 30).fragments
    let large := ((ofSettings Settings.default Tokens.estimate Wrap.word).assemble sampleSeeds
      sampleCandidates 100).fragments
    (TokenCounter.IsSteady Tokens.estimate ∧ 30 ≤ 100) ∧
      small.map Fragment.path <+: large.map Fragment.path ∧
      ∀ (place : Nat) (fragment : Fragment ℚ), small[place]? = some fragment →
        ∃ larger, large[place]? = some larger ∧ fragment.path = larger.path ∧
          fragment.content.toList <+: larger.content.toList :=
  ⟨⟨Tokens.estimate_isSteady, by decide⟩, larger_budget_continues Settings.default Tokens.estimate
    Tokens.estimate_isSteady Wrap.word sampleSeeds sampleCandidates 30 100 (by decide)⟩

end Assembler
end ContextPack
