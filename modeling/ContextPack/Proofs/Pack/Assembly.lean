import ContextPack.Proofs.Pack.Seeds

namespace ContextPack
namespace Assembler

/-!
# The parts of an assembly

An assembly is the seed fragments followed by what packing adds.  The parts
are named here, with the laws of packing that hold for any list of ranked
files: packing never overdraws, a larger rest only lets it go on further, and
what it adds are whole files of the list.

Packing compares the price of a file as it is kept in range with what remains,
so these laws hold for machine words as well.  Where a sum has to be exact, a
lemma says that the assembler leaves counts as they are.
-/

variable {α : Type}

/-! ## Drafts -/

/-- The drafts of the shown seeds, before the budget is looked at. -/
def drafts (assembler : Assembler α) (seeds : List Seed) : List Draft :=
  (chosenSeeds assembler.limits seeds).map
    (Draft.ofSeed assembler.limits.maxFileSize assembler.seedContent)

/-- The drafts brought into the budget. -/
def fitted (assembler : Assembler α) (seeds : List Seed) (budget : Nat) : Fit.Fitted :=
  Fit.fit assembler.wrap assembler.counter assembler.limits.overheadPerFragment
    (assembler.drafts seeds) budget

theorem length_drafts (assembler : Assembler α) (seeds : List Seed) :
    (assembler.drafts seeds).length = shownCount assembler.limits seeds := by
  rw [drafts, List.length_map, length_chosenSeeds]

/-- The drafts name the shown seeds. -/
theorem map_path_drafts (assembler : Assembler α) (seeds : List Seed) :
    (assembler.drafts seeds).map Draft.path =
      (Text.distinctSorted (seeds.map Seed.path)).take assembler.limits.maxFragments := by
  rw [drafts, List.map_map, ← map_path_chosenSeeds]
  exact List.map_congr_left fun seed _member => (Draft.ofSeed_spec _ _ seed).1

/-- Which files the drafts stand for does not depend on the budget. -/
theorem map_path_fitted (assembler : Assembler α) (seeds : List Seed) (budget : Nat) :
    (assembler.fitted seeds budget).drafts.map Draft.path =
      (assembler.drafts seeds).map Draft.path := by
  rw [fitted, Fit.fit_eq, List.map_map]
  exact List.map_congr_left fun draft _member => Fit.cut_path _ _ draft

theorem isSeed_of_mem_drafts (assembler : Assembler α) (seeds : List Seed) (draft : Draft)
    (member : draft ∈ assembler.drafts seeds) : draft.kind.isSeed = true := by
  rcases List.mem_map.mp member with ⟨seed, -, rfl⟩
  exact (Draft.ofSeed_spec _ _ seed).2

theorem isSeed_of_mem_fitted (assembler : Assembler α) (seeds : List Seed) (budget : Nat)
    (draft : Draft) (member : draft ∈ (assembler.fitted seeds budget).drafts) :
    draft.kind.isSeed = true := by
  rw [fitted, Fit.fit_eq] at member
  rcases List.mem_map.mp member with ⟨whole, isDraft, rfl⟩
  rw [Fit.cut_kind]
  exact isSeed_of_mem_drafts assembler seeds whole isDraft

/-! ## Fragments -/

/-- What a fragment takes over from its draft. -/
@[simp] theorem fragment_path (assembler : Assembler α) (draft : Draft) (score : α) :
    (assembler.fragment draft score).path = draft.path := rfl

@[simp] theorem fragment_kind (assembler : Assembler α) (draft : Draft) (score : α) :
    (assembler.fragment draft score).kind = draft.kind := rfl

@[simp] theorem fragment_content (assembler : Assembler α) (draft : Draft) (score : α) :
    (assembler.fragment draft score).content.toList = draft.content :=
  String.toList_ofList

variable {assembler : Assembler α}

theorem fragment_tokens (exact : assembler.wrap = id) (draft : Draft) (score : α) :
    (assembler.fragment draft score).tokens =
      draft.price assembler.counter + assembler.limits.overheadPerFragment := by
  rw [fragment, exact]
  rfl

/-- The price of fragments is the price of their contents and the overhead of
each. -/
theorem sum_tokens_map_fragment (exact : assembler.wrap = id) (drafts : List Draft) (score : α) :
    ((drafts.map fun draft => assembler.fragment draft score).map Fragment.tokens).sum =
      (drafts.map (Draft.price assembler.counter)).sum +
        drafts.length * assembler.limits.overheadPerFragment := by
  induction drafts with
  | nil => simp
  | cons draft rest inductionHypothesis =>
      rw [List.map_cons, List.map_cons, List.sum_cons, inductionHypothesis,
        fragment_tokens exact, List.map_cons, List.sum_cons, List.length_cons, Nat.succ_mul]
      omega

/-! ## Packing -/

/-- The draft of a file that is brought in whole. -/
def expansionDraft (path text : String) : Draft := ⟨path, text.toList, .expansion, false⟩

/-- What bringing in a text takes from the budget. -/
def cost (assembler : Assembler α) (text : String) : Nat :=
  assembler.wrap (assembler.counter text.toList + assembler.limits.overheadPerFragment)

/-- Packing at a readable file. -/
theorem pack_cons_some {ranked : Ranked α} {text : String}
    (readable : ranked.candidate.content = some text) (rest : List (Ranked α))
    (room remaining considered : Nat) :
    (assembler.pack (ranked :: rest) room remaining considered).fragments =
      if assembler.limits.maxExpansionFiles ≤ considered ∨ room = 0 ∨
          remaining < assembler.cost text then []
      else assembler.fragment (expansionDraft ranked.candidate.path text) ranked.score ::
        (assembler.pack rest (room - 1) (remaining - assembler.cost text)
          (considered + 1)).fragments := by
  rw [pack, readable]
  dsimp only
  rw [← cost]
  by_cases capped : assembler.limits.maxExpansionFiles ≤ considered ∨ room = 0
  · rw [if_pos (by simpa using capped), if_pos (or_assoc.mp (Or.inl capped))]
  · rw [if_neg (by simpa using capped)]
    by_cases short : remaining < assembler.cost text
    · rw [if_pos short, if_pos (Or.inr (Or.inr short))]
    · rw [if_neg short, if_neg (by tauto)]
      rfl

theorem pack_cons_none {ranked : Ranked α} (unreadable : ranked.candidate.content = none)
    (rest : List (Ranked α)) (room remaining considered : Nat) :
    (assembler.pack (ranked :: rest) room remaining considered).fragments =
      (assembler.pack rest room remaining considered).fragments := by
  rw [pack, unreadable]

/-- Packing pays for every file out of what remains. -/
theorem sum_tokens_pack_le (rankedFiles : List (Ranked α))
    (room remaining considered : Nat) :
    ((assembler.pack rankedFiles room remaining considered).fragments.map Fragment.tokens).sum ≤
      remaining := by
  induction rankedFiles generalizing room remaining considered with
  | nil => exact Nat.zero_le _
  | cons ranked rest inductionHypothesis =>
      cases content : ranked.candidate.content with
      | none =>
          rw [pack_cons_none content]
          exact inductionHypothesis room remaining considered
      | some text =>
          rw [pack_cons_some content]
          split
          · exact Nat.zero_le _
          · next accepted =>
              have paid : assembler.cost text ≤ remaining := by
                by_contra short
                exact accepted (Or.inr (Or.inr (Nat.lt_of_not_le short)))
              have later := inductionHypothesis (room - 1) (remaining - assembler.cost text)
                (considered + 1)
              have price : (assembler.fragment (expansionDraft ranked.candidate.path text)
                  ranked.score).tokens = assembler.cost text := rfl
              rw [List.map_cons, List.sum_cons, price]
              omega

/-- With more remaining, packing adds the same fragments and perhaps others
after them. -/
theorem pack_isPrefix_pack {less more : Nat} (ordered : less ≤ more)
    (rankedFiles : List (Ranked α)) (room considered : Nat) :
    (assembler.pack rankedFiles room less considered).fragments <+:
      (assembler.pack rankedFiles room more considered).fragments := by
  induction rankedFiles generalizing room less more considered with
  | nil => exact List.prefix_rfl
  | cons ranked rest inductionHypothesis =>
      cases content : ranked.candidate.content with
      | none =>
          rw [pack_cons_none content, pack_cons_none content]
          exact inductionHypothesis ordered room considered
      | some text =>
          rw [pack_cons_some content, pack_cons_some content]
          split
          · exact List.nil_prefix
          · next accepted =>
              have alsoAccepted : ¬ (assembler.limits.maxExpansionFiles ≤ considered ∨ room = 0 ∨
                  more < assembler.cost text) := by
                intro stopped
                rcases stopped with capped | full | short
                · exact accepted (Or.inl capped)
                · exact accepted (Or.inr (Or.inl full))
                · exact accepted (Or.inr (Or.inr (Nat.lt_of_le_of_lt ordered short)))
              rw [if_neg alsoAccepted]
              refine (List.prefix_cons_inj _).mpr ?_
              exact inductionHypothesis (Nat.sub_le_sub_right ordered _) (room - 1) (considered + 1)

/-- What packing adds are files of the list. -/
theorem exists_of_mem_pack {fragment : Fragment α} {rankedFiles : List (Ranked α)}
    {room remaining considered : Nat}
    (member : fragment ∈ (assembler.pack rankedFiles room remaining considered).fragments) :
    ∃ ranked ∈ rankedFiles, fragment.path = ranked.candidate.path := by
  induction rankedFiles generalizing room remaining considered with
  | nil => exact absurd member List.not_mem_nil
  | cons ranked rest inductionHypothesis =>
      have later {room remaining considered : Nat}
          (inRest : fragment ∈ (assembler.pack rest room remaining considered).fragments) :
          ∃ found ∈ ranked :: rest, fragment.path = found.candidate.path := by
        rcases inductionHypothesis inRest with ⟨found, inside, samePath⟩
        exact ⟨found, List.mem_cons_of_mem _ inside, samePath⟩
      cases content : ranked.candidate.content with
      | none =>
          rw [pack_cons_none content] at member
          exact later member
      | some text =>
          rw [pack, content] at member
          dsimp only at member
          split at member
          · exact absurd member List.not_mem_nil
          · split at member
            · exact absurd member List.not_mem_nil
            · rcases List.mem_cons.mp member with rfl | inRest
              · exact ⟨ranked, List.mem_cons_self, rfl⟩
              · exact later inRest

/-- What remains after shrinking pays for nothing that has a price. -/
theorem pack_eq_nil (exact : assembler.wrap = id) {remaining : Nat}
    (poor : remaining < assembler.limits.overheadPerFragment) (rankedFiles : List (Ranked α))
    (room considered : Nat) :
    (assembler.pack rankedFiles room remaining considered).fragments = [] := by
  induction rankedFiles with
  | nil => rfl
  | cons ranked rest inductionHypothesis =>
      cases content : ranked.candidate.content with
      | none =>
          rw [pack_cons_none content]
          exact inductionHypothesis
      | some text =>
          rw [pack_cons_some content]
          refine if_pos (Or.inr (Or.inr ?_))
          rw [cost, exact]
          exact Nat.lt_of_lt_of_le poor (Nat.le_add_left _ _)

/-! ## Parts -/

variable [Scalar α] (assembler : Assembler α) (seeds : List Seed)
  (candidates : List (Candidate α)) (budget : Nat)

/-- The fragments of the seeds. -/
def seedFragments : List (Fragment α) :=
  (assembler.fitted seeds budget).drafts.map fun draft => assembler.fragment draft Scalar.one

theorem map_path_seedFragments :
    (assembler.seedFragments seeds budget).map Fragment.path =
      (assembler.drafts seeds).map Draft.path := by
  rw [← map_path_fitted assembler seeds budget, seedFragments, List.map_map]
  rfl

theorem isSeed_of_mem_seedFragments (fragment : Fragment α)
    (member : fragment ∈ assembler.seedFragments seeds budget) : fragment.kind.isSeed = true := by
  rcases List.mem_map.mp member with ⟨draft, isDraft, rfl⟩
  exact isSeed_of_mem_fitted assembler seeds budget draft isDraft

/-- The candidates that packing is offered, best first. -/
def ranked : List (Ranked α) :=
  assembler.rank (assembler.eligible ((assembler.fitted seeds budget).drafts.map Draft.path)
    candidates)

/-- What packing is offered does not depend on the budget. -/
theorem ranked_eq (first second : Nat) :
    assembler.ranked seeds candidates first = assembler.ranked seeds candidates second := by
  rw [ranked, ranked, map_path_fitted, map_path_fitted]

theorem mem_eligible_iff (seedPaths : List String) {found : Ranked α} :
    found ∈ assembler.eligible seedPaths candidates ↔
      found.candidate ∈ candidates ∧ found.candidate.path ∉ seedPaths ∧
      found.score = assembler.fusion.fuse found.candidate.signals ∧
      (Scalar.isPositive found.score = true ∨ found.candidate.sibling = true) := by
  rw [eligible, List.mem_filterMap]
  constructor
  · rintro ⟨candidate, isCandidate, isFound⟩
    split at isFound
    · cases isFound
    · next noSeed =>
        simp only at isFound
        split at isFound
        · next evident =>
            cases isFound
            refine ⟨isCandidate, fun isSeed => noSeed (List.contains_iff_mem.mpr isSeed), rfl, ?_⟩
            exact Bool.or_eq_true_iff.mp evident
        · cases isFound
  · rintro ⟨isCandidate, noSeed, isScore, evident⟩
    refine ⟨found.candidate, isCandidate, ?_⟩
    rw [if_neg fun isSeed => noSeed (List.contains_iff_mem.mp isSeed), ← isScore]
    exact if_pos (Bool.or_eq_true_iff.mpr evident)

/-- The files that packing is offered: those that are no seeds, have evidence
or a sibling, and are not too large. -/
theorem mem_ranked_iff {found : Ranked α} :
    found ∈ assembler.ranked seeds candidates budget ↔
      (found.candidate ∈ candidates ∧
        found.candidate.path ∉ (assembler.drafts seeds).map Draft.path ∧
        found.score = assembler.fusion.fuse found.candidate.signals ∧
        (Scalar.isPositive found.score = true ∨ found.candidate.sibling = true)) ∧
      found.candidate.size ≤ assembler.limits.maxFileSize := by
  rw [ranked, rank, List.mem_mergeSort, List.mem_filter, mem_eligible_iff, map_path_fitted,
    hasFittingSize, decide_eq_true_iff]

/-- What the seeds leave of the budget.  Shrunk seeds leave nothing. -/
def remaining : Nat :=
  if (assembler.fitted seeds budget).shrunk then 0
  else budget - Context.addUp assembler.wrap
    ((assembler.seedFragments seeds budget).map Fragment.tokens)

/-- The fragments of other files. -/
def expansions : List (Fragment α) :=
  (assembler.pack (assembler.ranked seeds candidates budget)
    (assembler.limits.maxFragments - (assembler.seedFragments seeds budget).length)
    (assembler.remaining seeds budget) 0).fragments

/-- An assembly from its parts. -/
theorem assemble_eq : assembler.assemble seeds candidates budget =
    let packing := assembler.pack (assembler.ranked seeds candidates budget)
      (assembler.limits.maxFragments - (assembler.seedFragments seeds budget).length)
      (assembler.remaining seeds budget) 0
    let found :=
      assembler.eligible ((assembler.fitted seeds budget).drafts.map Draft.path) candidates
    { fragments := assembler.seedFragments seeds budget ++ packing.fragments
      considered := packing.considered
      droppedUnreadable := packing.droppedUnreadable
      droppedSize := (found.filter fun ranked => !hasFittingSize assembler.limits ranked).length
      seedsOverBudget := (assembler.fitted seeds budget).overBudget } :=
  rfl

theorem assemble_fragments :
    (assembler.assemble seeds candidates budget).fragments =
      assembler.seedFragments seeds budget ++ assembler.expansions seeds candidates budget :=
  rfl

theorem assemble_seedsOverBudget :
    (assembler.assemble seeds candidates budget).seedsOverBudget =
      (assembler.fitted seeds budget).overBudget :=
  rfl

end Assembler
end ContextPack
