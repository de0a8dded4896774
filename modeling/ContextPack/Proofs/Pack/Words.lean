import ContextPack.Proofs.Pack.Budget
import ContextPack.Proofs.Settings.Ranges

namespace ContextPack

/-!
# Counting in machine words

Sums of prices are kept in 64-bit words, in which only the remainder of a count is left.  What
exact sums assemble costs no more than the budget or the overhead of the seeds.  So a count that
is no word is harmless in most places, since it only has to be seen to exceed the budget.  It
does harm in three: when its remainder shows the whole seeds as covered, when it shows another
file as affordable, and when the overhead itself, which is spent in any case, is no word.
-/

theorem Wrap.word_of_lt {count : Nat} (inWord : count < wordModulus) : Wrap.word count = count :=
  Nat.mod_eq_of_lt inWord

/-- Bringing every step of a sum into range leaves the remainder of the whole. -/
theorem Context.addUp_word (terms : List Nat) :
    addUp Wrap.word terms = terms.sum % wordModulus := by
  induction terms using List.reverseRecOn with
  | nil => rfl
  | append_singleton terms term inductionHypothesis =>
      have step : addUp Wrap.word (terms ++ [term]) =
          (addUp Wrap.word terms + term) % wordModulus := by
        rw [addUp, List.foldl_append]
        rfl
      rw [step, inductionHypothesis, List.sum_append, List.sum_singleton, Nat.mod_add_mod]

theorem Context.addUp_word_of_lt {terms : List Nat} (inWord : terms.sum < wordModulus) :
    addUp Wrap.word terms = addUp id terms := by
  rw [addUp_word, Fit.addUp_id, Nat.mod_eq_of_lt inWord]

/-! ## Fitting -/

namespace Fit

variable {counter : TokenCounter} {overhead : Nat} {drafts : List Draft} {budget : Nat}

theorem wholePrice_word (counter : TokenCounter) (overhead : Nat) (drafts : List Draft) :
    wholePrice counter Wrap.word overhead drafts =
      ((prices counter drafts).sum + drafts.length * overhead) % wordModulus := by
  rw [wholePrice, Context.addUp_word, Wrap.word, Wrap.word, ← Nat.add_mod]

/-- Fitting goes wrong only where the overhead is no word or the remainder of the whole price
seems to be covered. -/
theorem fit_word (overheadInWord : drafts.length * overhead < wordModulus)
    (judged : wholePrice counter Wrap.word overhead drafts ≤ budget →
      wholePrice counter id overhead drafts ≤ budget) :
    fit Wrap.word counter overhead drafts budget = fit id counter overhead drafts budget := by
  have sameOverhead : Wrap.word (drafts.length * overhead) = id (drafts.length * overhead) :=
    Wrap.word_of_lt overheadInWord
  have sameJudgement : wholePrice counter Wrap.word overhead drafts ≤ budget ↔
      wholePrice counter id overhead drafts ≤ budget := by
    refine ⟨judged, fun covered => Nat.le_trans ?_ covered⟩
    rw [wholePrice_word, wholePrice_id]
    exact Nat.mod_le _ _
  have sameLevel : cutLevel counter Wrap.word overhead drafts budget =
      cutLevel counter id overhead drafts budget := by
    rw [cutLevel, cutLevel, available, available, sameOverhead]
    exact if_congr sameJudgement rfl rfl
  rw [fit_eq, fit_eq, sameLevel, sameOverhead]
  simp only [← Nat.not_le, sameJudgement]

end Fit

namespace Assembler

variable {α : Type}

section Parts

variable {settings : Settings α} {counter : TokenCounter}

theorem fragment_word (settings : Settings α) (counter : TokenCounter) (draft : Draft)
    (inWord : draft.price counter + settings.limits.overheadPerFragment < wordModulus)
    (score : α) :
    (ofSettings settings counter Wrap.word).fragment draft score =
      (ofSettings settings counter id).fragment draft score :=
  congrArg (fun tokens => ({ (ofSettings settings counter id).fragment draft score with
    tokens := tokens } : Fragment α)) (Wrap.word_of_lt inWord)

/-- No file is taken for affordable on account of a remainder. -/
def PaysInWord (settings : Settings α) (counter : TokenCounter) (budget : Nat)
    (candidate : Candidate α) : Prop :=
  ∀ text, candidate.content = some text →
    (counter text.toList + settings.limits.overheadPerFragment) % wordModulus ≤ budget →
      counter text.toList + settings.limits.overheadPerFragment ≤ budget

/-- A file that fits has a word for its cost, and one that does not seems not to. -/
theorem pack_word {rankedFiles : List (Ranked α)} {budget : Nat} (inWord : budget < wordModulus)
    (pays : ∀ ranked ∈ rankedFiles, PaysInWord settings counter budget ranked.candidate)
    {remaining : Nat} (left : remaining ≤ budget) (room considered : Nat) :
    (ofSettings settings counter Wrap.word).pack rankedFiles room remaining considered =
      (ofSettings settings counter id).pack rankedFiles room remaining considered := by
  induction rankedFiles generalizing room remaining considered with
  | nil => rfl
  | cons ranked rest inductionHypothesis =>
      rw [List.forall_mem_cons] at pays
      rw [pack, pack]
      cases content : ranked.candidate.content with
      | none =>
          dsimp only
          rw [inductionHypothesis pays.2 left]
      | some text =>
          have judged := pays.1 text content
          dsimp only [ofSettings, id_eq, Wrap.word] at judged inductionHypothesis ⊢
          by_cases fits : counter text.toList + settings.limits.overheadPerFragment ≤ remaining
          · have paid := Nat.lt_of_le_of_lt (Nat.le_trans fits left) inWord
            have sameFragment := fragment_word settings counter
              (expansionDraft ranked.candidate.path text) paid ranked.score
            have later := inductionHypothesis pays.2 (Nat.le_trans (Nat.sub_le _
              (counter text.toList + settings.limits.overheadPerFragment)) left)
            dsimp only [ofSettings, expansionDraft] at sameFragment
            rw [Nat.mod_eq_of_lt paid, later, sameFragment]
            rfl
          · have seems : ¬(counter text.toList + settings.limits.overheadPerFragment) %
                wordModulus ≤ remaining := by
              intro affordable
              have paid := Nat.lt_of_le_of_lt (judged (Nat.le_trans affordable left)) inWord
              rw [Nat.mod_eq_of_lt paid] at affordable
              exact fits affordable
            rw [if_pos (Nat.lt_of_not_le fits), if_pos (Nat.lt_of_not_le seems)]
            rfl

variable {seeds : List Seed} {budget : Nat}

/-- The overhead of the shown seeds, which is spent in any case. -/
def overheadTotal (settings : Settings α) (seeds : List Seed) : Nat :=
  shownCount settings.limits seeds * settings.limits.overheadPerFragment

/-- What the shown seeds cost when they are whole. -/
def seedTotal (settings : Settings α) (counter : TokenCounter) (seeds : List Seed) : Nat :=
  (Fit.prices counter ((ofSettings settings counter id).drafts seeds)).sum +
    overheadTotal settings seeds

/-- The overhead is a word, and the whole seeds are not taken for covered on account of a
remainder. -/
structure CountsInWord (settings : Settings α) (counter : TokenCounter) (seeds : List Seed)
    (budget : Nat) : Prop where
  overhead : overheadTotal settings seeds < wordModulus
  covered : seedTotal settings counter seeds % wordModulus ≤ budget →
    seedTotal settings counter seeds ≤ budget

theorem length_drafts_mul (settings : Settings α) (counter : TokenCounter) (wrap : Wrap)
    (seeds : List Seed) :
    ((ofSettings settings counter wrap).drafts seeds).length * settings.limits.overheadPerFragment =
      overheadTotal settings seeds :=
  congrArg (· * settings.limits.overheadPerFragment) (length_drafts _ seeds)

theorem wholePrice_drafts_word (settings : Settings α) (counter : TokenCounter)
    (seeds : List Seed) :
    Fit.wholePrice counter Wrap.word settings.limits.overheadPerFragment
        ((ofSettings settings counter id).drafts seeds) =
      seedTotal settings counter seeds % wordModulus := by
  rw [Fit.wholePrice_word, length_drafts_mul, seedTotal]

theorem wholePrice_drafts_id (settings : Settings α) (counter : TokenCounter)
    (seeds : List Seed) :
    Fit.wholePrice counter id settings.limits.overheadPerFragment
        ((ofSettings settings counter id).drafts seeds) = seedTotal settings counter seeds := by
  rw [Fit.wholePrice_id, length_drafts_mul, seedTotal]

theorem CountsInWord.fitted_eq (counts : CountsInWord settings counter seeds budget) :
    (ofSettings settings counter Wrap.word).fitted seeds budget =
      (ofSettings settings counter id).fitted seeds budget := by
  refine Fit.fit_word ?_ ?_
  · exact (length_drafts_mul settings counter Wrap.word seeds).trans_lt counts.overhead
  · intro covered
    refine (wholePrice_drafts_id settings counter seeds).trans_le (counts.covered ?_)
    exact (wholePrice_drafts_word settings counter seeds).symm.trans_le covered

variable [Scalar α] {candidates : List (Candidate α)}

/-- What is spent on whole files and on parts of them is a word if the budget is one. -/
theorem CountsInWord.sum_tokens_lt (counts : CountsInWord settings counter seeds budget)
    (steady : counter.IsSteady) (inWord : budget < wordModulus) (candidates : List (Candidate α)) :
    (((ofSettings settings counter id).assemble seeds candidates budget).fragments.map
      Fragment.tokens).sum < wordModulus := by
  refine Nat.lt_of_le_of_lt (sum_tokens_assemble_le rfl steady seeds candidates budget) ?_
  exact Nat.max_lt.mpr ⟨inWord, (length_drafts_mul settings counter id seeds).trans_lt counts.overhead⟩

theorem CountsInWord.sum_tokens_seedFragments_lt
    (counts : CountsInWord settings counter seeds budget) (steady : counter.IsSteady) (inWord : budget < wordModulus) :
    (((ofSettings settings counter id).seedFragments seeds budget).map Fragment.tokens).sum <
      wordModulus := by
  have whole := counts.sum_tokens_lt steady inWord []
  rw [assemble_fragments, List.map_append, List.sum_append] at whole
  exact Nat.lt_of_le_of_lt (Nat.le_add_right _ _) whole

/-- No seed fragment costs more than all of them. -/
theorem CountsInWord.seedFragments_eq (counts : CountsInWord settings counter seeds budget)
    (steady : counter.IsSteady) (inWord : budget < wordModulus) :
    (ofSettings settings counter Wrap.word).seedFragments seeds budget =
      (ofSettings settings counter id).seedFragments seeds budget := by
  rw [seedFragments, counts.fitted_eq]
  refine List.map_congr_left fun draft isDraft => fragment_word settings counter draft ?_ _
  have isFragment : (ofSettings settings counter id).fragment draft Scalar.one ∈
      (ofSettings settings counter id).seedFragments seeds budget := List.mem_map_of_mem isDraft
  have single := List.single_le_sum (fun _ _ => Nat.zero_le _) _
    (List.mem_map_of_mem (f := Fragment.tokens) isFragment)
  rw [fragment_tokens rfl] at single
  exact Nat.lt_of_le_of_lt single (counts.sum_tokens_seedFragments_lt steady inWord)

theorem CountsInWord.remaining_eq (counts : CountsInWord settings counter seeds budget)
    (steady : counter.IsSteady) (inWord : budget < wordModulus) :
    (ofSettings settings counter Wrap.word).remaining seeds budget =
      (ofSettings settings counter id).remaining seeds budget := by
  have used : Context.addUp Wrap.word
      (((ofSettings settings counter id).seedFragments seeds budget).map Fragment.tokens) =
        Context.addUp id
          (((ofSettings settings counter id).seedFragments seeds budget).map Fragment.tokens) :=
    Context.addUp_word_of_lt (counts.sum_tokens_seedFragments_lt steady inWord)
  rw [remaining, remaining, counts.fitted_eq, counts.seedFragments_eq steady inWord]
  exact if_congr Iff.rfl rfl (congrArg (budget - ·) used)

theorem CountsInWord.assemble_eq (counts : CountsInWord settings counter seeds budget)
    (steady : counter.IsSteady) (inWord : budget < wordModulus)
    (pays : ∀ candidate ∈ candidates, PaysInWord settings counter budget candidate) :
    (ofSettings settings counter Wrap.word).assemble seeds candidates budget =
      (ofSettings settings counter id).assemble seeds candidates budget := by
  have sameRanked : (ofSettings settings counter Wrap.word).ranked seeds candidates budget =
      (ofSettings settings counter id).ranked seeds candidates budget := by
    rw [ranked, counts.fitted_eq]
    rfl
  have left : (ofSettings settings counter id).remaining seeds budget ≤ budget := by
    rw [remaining_exact rfl]
    exact Nat.sub_le _ _
  have samePacking := pack_word inWord (fun found isRanked => pays found.candidate
    ((mem_ranked_iff (ofSettings settings counter id) seeds candidates budget).mp isRanked).1.1)
    left
  rw [Assembler.assemble_eq, Assembler.assemble_eq, sameRanked,
    counts.seedFragments_eq steady inWord, counts.remaining_eq steady inWord, samePacking, counts.fitted_eq]
  rfl

/-! ## What goes wrong otherwise -/

theorem overheadTotal_le_sum_tokens (settings : Settings α) (counter : TokenCounter)
    (seeds : List Seed) (candidates : List (Candidate α)) (budget : Nat) :
    overheadTotal settings seeds ≤
      (((ofSettings settings counter id).assemble seeds candidates budget).fragments.map
        Fragment.tokens).sum := by
  have exact : (ofSettings settings counter id).wrap = id := rfl
  rw [assemble_fragments, List.map_append, List.sum_append, sum_tokens_seedFragments exact,
    ← length_drafts_mul settings counter id seeds]
  dsimp only [ofSettings]
  omega

theorem seedsOverBudget_iff (settings : Settings α) (counter : TokenCounter) (wrap : Wrap)
    (seeds : List Seed) (candidates : List (Candidate α)) (budget : Nat) :
    ((ofSettings settings counter wrap).assemble seeds candidates budget).seedsOverBudget = true ↔
      budget < Fit.wholePrice counter wrap settings.limits.overheadPerFragment
          ((ofSettings settings counter id).drafts seeds) ∧
        budget < wrap (overheadTotal settings seeds) := by
  rw [assemble_seedsOverBudget, fitted, Fit.fit_eq, decide_eq_true_iff,
    ← length_drafts_mul settings counter wrap]
  rfl

theorem seedsOverBudget_word (settings : Settings α) (counter : TokenCounter)
    (seeds : List Seed) (candidates : List (Candidate α)) (budget : Nat) :
    ((ofSettings settings counter Wrap.word).assemble seeds candidates budget).seedsOverBudget =
        true ↔
      budget < seedTotal settings counter seeds % wordModulus ∧
        budget < overheadTotal settings seeds % wordModulus := by
  rw [seedsOverBudget_iff, wholePrice_drafts_word, Wrap.word]

theorem seedsOverBudget_id (settings : Settings α) (counter : TokenCounter)
    (seeds : List Seed) (candidates : List (Candidate α)) (budget : Nat) :
    ((ofSettings settings counter id).assemble seeds candidates budget).seedsOverBudget = true ↔
      budget < overheadTotal settings seeds := by
  rw [seedsOverBudget_iff, wholePrice_drafts_id, seedTotal, id_eq]
  omega

theorem seedFragments_eq_of_eq
    (same : (ofSettings settings counter Wrap.word).assemble seeds candidates budget =
      (ofSettings settings counter id).assemble seeds candidates budget) :
    (ofSettings settings counter Wrap.word).seedFragments seeds budget =
      (ofSettings settings counter id).seedFragments seeds budget := by
  have sameFragments := congrArg Assembly.fragments same
  rw [assemble_fragments, assemble_fragments] at sameFragments
  refine List.append_inj_left sameFragments ?_
  rw [length_seedFragments, length_seedFragments]
  rfl

/-- What a remainder shows as covered is shown whole.  Exact counts cut it, or tell that the
overhead alone exceeds the budget. -/
theorem seedTotal_le_of_eq (steady : counter.IsSteady)
    (same : (ofSettings settings counter Wrap.word).assemble seeds candidates budget =
      (ofSettings settings counter id).assemble seeds candidates budget)
    (covered : seedTotal settings counter seeds % wordModulus ≤ budget) :
    seedTotal settings counter seeds ≤ budget := by
  let drafts := (ofSettings settings counter id).drafts seeds
  have seemsCovered : Fit.wholePrice counter Wrap.word settings.limits.overheadPerFragment drafts ≤
      budget := (wholePrice_drafts_word settings counter seeds).trans_le covered
  have notOver : ¬budget < overheadTotal settings seeds := by
    rw [← seedsOverBudget_id settings counter seeds candidates, ← same, seedsOverBudget_word]
    exact fun exceeded => Nat.not_lt_of_le covered exceeded.1
  have samePrices : Fit.prices counter drafts = Fit.prices counter (drafts.map (Fit.cut counter
      (Fit.cutLevel counter id settings.limits.overheadPerFragment drafts budget))) := by
    have sameSeeds := seedFragments_eq_of_eq same
    rw [seedFragments_of_wholePrice_le seemsCovered, seedFragments_eq] at sameSeeds
    have sameCounts := congrArg
      (List.map fun fragment : Fragment α => counter fragment.content.toList) sameSeeds
    rw [List.map_map, List.map_map] at sameCounts
    simp only [Function.comp_def, fragment_content] at sameCounts
    exact sameCounts
  have kept := Fit.sum_price_cut_le counter settings.limits.overheadPerFragment drafts budget steady
  rw [← Fit.prices, ← samePrices, length_drafts_mul] at kept
  dsimp only [drafts] at kept
  rw [seedTotal]
  omega

/-- Where no other file is taken for affordable, words and exact counts yield one assembly with
one total just if neither the overhead of the seeds nor the judgement whether the budget covers
them is lost. -/
theorem words_count_exactly_iff (settings : Settings α) (counter : TokenCounter)
    (steady : counter.IsSteady) (seeds : List Seed) (candidates : List (Candidate α)) (budget : Nat)
    (inWord : budget < wordModulus)
    (pays : ∀ candidate ∈ candidates, PaysInWord settings counter budget candidate)
    (stats : ContextStats) :
    let counted := (ofSettings settings counter Wrap.word).assemble seeds candidates budget
    let exact := (ofSettings settings counter id).assemble seeds candidates budget
    counted = exact ∧
        Context.ofFragments Wrap.word counted.fragments budget stats =
          Context.ofFragments id exact.fragments budget stats ↔
      CountsInWord settings counter seeds budget := by
  intro counted exact
  constructor
  · rintro ⟨same, sameContext⟩
    refine ⟨?_, seedTotal_le_of_eq steady same⟩
    have sameTotal : Context.addUp Wrap.word (counted.fragments.map Fragment.tokens) =
        Context.addUp id (exact.fragments.map Fragment.tokens) :=
      congrArg Context.tokensUsed sameContext
    rw [same, Context.addUp_word, Fit.addUp_id] at sameTotal
    refine (overheadTotal_le_sum_tokens settings counter seeds candidates budget).trans_lt ?_
    exact sameTotal ▸ Nat.mod_lt _ (by decide)
  · intro counts
    have same : counted = exact := counts.assemble_eq steady inWord pays
    refine ⟨same, ?_⟩
    have sameTotal : Context.addUp Wrap.word (exact.fragments.map Fragment.tokens) =
        Context.addUp id (exact.fragments.map Fragment.tokens) :=
      Context.addUp_word_of_lt (counts.sum_tokens_lt steady inWord candidates)
    rw [same, Context.ofFragments, Context.ofFragments, sameTotal]

end Parts

/-- The sample is small: its seeds cost no more than 100, and neither does the related file. -/
theorem words_count_exactly_iff_of_sample :
    let counted := (ofSettings Settings.default Tokens.estimate Wrap.word).assemble sampleSeeds
      sampleCandidates 100
    let exact := (ofSettings Settings.default Tokens.estimate id).assemble sampleSeeds
      sampleCandidates 100
    counted = exact ∧ Context.ofFragments Wrap.word counted.fragments 100 {} =
      Context.ofFragments id exact.fragments 100 {} := by
  have pays : ∀ candidate ∈ sampleCandidates,
      PaysInWord Settings.default Tokens.estimate 100 candidate := by
    rw [sampleCandidates, List.forall_mem_singleton]
    rintro text ⟨⟩ -
    decide
  have covered : seedTotal (Settings.default : Settings ℚ) Tokens.estimate sampleSeeds ≤ 100 := by
    cbv
  exact (words_count_exactly_iff Settings.default Tokens.estimate Tokens.estimate_isSteady
    sampleSeeds sampleCandidates 100 (by decide) pays {}).mpr ⟨by decide, fun _ => covered⟩

/-- Settings at whose overhead two fragments cost as much as a word tells apart. -/
def costlySettings : Settings Float :=
  { Settings.default with limits := { overheadPerFragment := wordModulus / 2 } }

/-- The check asks nothing of the overhead.  That of two seeds may vanish in words, so that it
does not exceed any budget. -/
theorem accepted_overhead_is_lost :
    ¬∀ (settings : Settings Float) (seeds : List Seed) (candidates : List (Candidate Float))
      (budget : Nat), settings.check = .ok () →
      settings.limits.overheadPerFragment < wordModulus → budget < wordModulus →
      (ofSettings settings Tokens.estimate Wrap.word).assemble seeds candidates budget =
        (ofSettings settings Tokens.estimate id).assemble seeds candidates budget := by
  intro always
  have passes : costlySettings.problems.isEmpty = true := by decide +kernel
  have accepted := (Settings.check_eq_ok_iff costlySettings).mpr (List.isEmpty_iff.mp passes)
  have same := always costlySettings sampleSeeds [] 100 accepted (by decide) (by decide)
  have twice : overheadTotal costlySettings sampleSeeds = wordModulus := by decide
  have exceeded : 100 < overheadTotal costlySettings sampleSeeds := by
    rw [twice]
    decide
  rw [← seedsOverBudget_id costlySettings Tokens.estimate sampleSeeds [], ← same,
    seedsOverBudget_word, twice, Nat.mod_self] at exceeded
  exact Nat.not_lt_zero _ exceeded.2

end Assembler
end ContextPack
