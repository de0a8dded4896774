import ContextPack.Pack.Assemble
import ContextPack.Proofs.Pack.Level
import ContextPack.Proofs.Text.Order
import ContextPack.Proofs.Text.Truncation
import Mathlib.Data.Finset.Card

namespace ContextPack

/-!
# Seeds in a budget

The seeds of a context are chosen by path alone, so neither their texts nor
the budget decide which files stand in front.  What the budget decides is one
number, the level, and every seed is cut to it; a level that no seed exceeds
leaves all of them whole.  The two cases of fitting, "everything fits" and
"seeds are shrunk", are therefore one formula, however counts are kept in
range.
-/

/-- The path of the changed file. -/
def Seed.path (seed : Seed) : String := seed.change.path

/-! ## Which seeds are shown -/

namespace Assembler

theorem map_path_dropSamePath (seeds : List Seed) :
    (dropSamePath seeds).map Seed.path = Text.dropRepeats (seeds.map Seed.path) := by
  induction seeds using dropSamePath.induct with
  | case1 => rw [dropSamePath, List.map_nil, Text.dropRepeats]
  | case2 seed => rw [dropSamePath, List.map_singleton, Text.dropRepeats]
  | case3 first second rest same inductionHypothesis =>
      rw [dropSamePath, if_pos same, inductionHypothesis]
      have samePath : first.path = second.path := same
      rw [List.map_cons, List.map_cons, List.map_cons, Text.dropRepeats, if_pos samePath, samePath]
  | case4 first second rest different inductionHypothesis =>
      have differentPath : ¬ first.path = second.path := different
      rw [dropSamePath, if_neg different, List.map_cons, inductionHypothesis]
      simp only [List.map_cons, Text.dropRepeats, if_neg differentPath]

/-- The shown paths are the first of the distinct seed paths in order. -/
theorem map_path_chosenSeeds (limits : Limits) (seeds : List Seed) :
    (chosenSeeds limits seeds).map Seed.path =
      (Text.distinctSorted (seeds.map Seed.path)).take limits.maxFragments := by
  have sorted : (seeds.mergeSort fun a b => Text.le a.change.path b.change.path).map Seed.path =
      (seeds.map Seed.path).mergeSort Text.le :=
    List.map_mergeSort fun first _ second _ => rfl
  rw [chosenSeeds, List.map_take, map_path_dropSamePath, sorted, Text.distinctSorted]

/-- How many seeds there is room for: one for each path, no more than there
may be fragments. -/
def shownCount (limits : Limits) (seeds : List Seed) : Nat :=
  min (seeds.map Seed.path).toFinset.card limits.maxFragments

theorem length_chosenSeeds (limits : Limits) (seeds : List Seed) :
    (chosenSeeds limits seeds).length = shownCount limits seeds := by
  have distinct : (Text.distinctSorted (seeds.map Seed.path)).toFinset =
      (seeds.map Seed.path).toFinset := by
    ext path
    rw [List.mem_toFinset, List.mem_toFinset, Text.mem_distinctSorted]
  rw [← List.length_map Seed.path, map_path_chosenSeeds, List.length_take, Nat.min_comm,
    ← List.toFinset_card_of_nodup (Text.nodup_distinctSorted _), distinct, shownCount]

end Assembler

/-! ## Drafts -/

namespace Draft

/-- What the content of a draft costs. -/
def price (counter : TokenCounter) (draft : Draft) : Nat := counter draft.content

theorem ofContent_spec (path : String) (oversized : Bool) (content : Option String) :
    (ofContent path oversized content).path = path ∧
      (ofContent path oversized content).kind.isSeed = true := by
  cases oversized <;> cases content <;> exact ⟨rfl, rfl⟩

/-- A draft names its seed and is never taken for another file's. -/
theorem ofSeed_spec (maxFileSize : Nat) (wanted : SeedContent) (seed : Seed) :
    (ofSeed maxFileSize wanted seed).path = seed.path ∧
      (ofSeed maxFileSize wanted seed).kind.isSeed = true := by
  rw [ofSeed]
  split
  · exact ⟨rfl, rfl⟩
  · split
    · exact ⟨rfl, rfl⟩
    · cases seed.change.patchText? with
      | none => exact ofContent_spec _ _ _
      | some patch =>
          dsimp only
          split
          · exact ⟨rfl, rfl⟩
          · exact ofContent_spec _ _ _

end Draft

/-! ## Fitting -/

namespace Fit

variable (counter : TokenCounter)

@[simp] theorem cut_path (level : Nat) (draft : Draft) :
    (cut counter level draft).path = draft.path := by
  rw [cut]
  split <;> rfl

@[simp] theorem cut_kind (level : Nat) (draft : Draft) :
    (cut counter level draft).kind = draft.kind := by
  rw [cut]
  split <;> rfl

/-- Cutting replaces the content by its truncation; where that loses nothing,
the draft is not touched. -/
theorem cut_content (level : Nat) (draft : Draft) :
    (cut counter level draft).content = Tokens.truncate counter level draft.content := by
  rw [cut]
  split
  · rfl
  · next notShorter =>
      have kept := Tokens.truncate_isPrefix counter level draft.content
      exact (kept.eq_of_length_le (Nat.le_of_not_lt notShorter)).symm

theorem cut_of_le {level : Nat} {draft : Draft} (fits : draft.price counter ≤ level) :
    cut counter level draft = draft := by
  rw [cut, Tokens.truncate_of_le fits]
  exact if_neg (Nat.lt_irrefl _)

theorem price_cut_le (steady : counter.IsSteady) (level : Nat) (draft : Draft) :
    (cut counter level draft).price counter ≤ min level (draft.price counter) := by
  rw [Draft.price, cut_content]
  exact Nat.le_min.mpr ⟨Tokens.counter_truncate_le counter steady level draft.content,
    steady.monotone (Tokens.truncate_isPrefix counter level draft.content)⟩

variable (wrap : Wrap) (overhead : Nat) (drafts : List Draft) (budget : Nat)

/-- The prices of all contents. -/
def prices : List Nat := drafts.map (Draft.price counter)

/-- The prices of all contents with the overhead of all drafts. -/
def wholePrice : Nat :=
  wrap (Context.addUp wrap (prices counter drafts) + wrap (drafts.length * overhead))

/-- What the overhead of all drafts leaves of a budget. -/
def available : Nat := budget - wrap (drafts.length * overhead)

/-- The level to which drafts are cut; the sum of the prices, which no draft
exceeds, when the budget covers all of them. -/
def cutLevel : Nat :=
  if wholePrice counter wrap overhead drafts ≤ budget then (prices counter drafts).sum
  else level (prices counter drafts) (available wrap overhead drafts budget)

theorem map_cut_of_sum_le {level : Nat} (whole : (prices counter drafts).sum ≤ level) :
    drafts.map (cut counter level) = drafts := by
  have untouched : ∀ draft ∈ drafts, cut counter level draft = id draft := by
    intro draft member
    have listed : draft.price counter ∈ prices counter drafts := List.mem_map_of_mem member
    have single := List.single_le_sum (fun _ _ => Nat.zero_le _) _ listed
    exact cut_of_le counter (Nat.le_trans single whole)
  rw [List.map_congr_left untouched, List.map_id]

/-- Drafts that a budget does not cover are cut to the level of the fill.  Those without a cap
cost no more than the level, so they are not touched either way. -/
theorem fit_of_lt (exceeds : budget < wholePrice counter wrap overhead drafts) :
    fit wrap counter overhead drafts budget =
      ⟨drafts.map (cut counter (level (prices counter drafts)
          (available wrap overhead drafts budget))),
        true, decide (budget < wrap (drafts.length * overhead))⟩ := by
  refine (if_neg (Nat.not_le_of_lt exceeds)).trans ?_
  have capped := caps_eq (prices counter drafts) (available wrap overhead drafts budget)
  generalize level (prices counter drafts) (available wrap overhead drafts budget) = share
    at capped ⊢
  unfold prices Draft.price available at capped
  rw [capped, List.map_map, List.zipWith_map_right, List.zipWith_self]
  congr 1
  refine List.map_congr_left fun draft _member => ?_
  by_cases dearer : share < counter draft.content
  · simp [dearer]
  · simp [dearer, cut_of_le counter (Nat.le_of_not_lt dearer)]

/-- Drafts come out of fitting cut to one level. -/
theorem fit_eq : fit wrap counter overhead drafts budget =
    ⟨drafts.map (cut counter (cutLevel counter wrap overhead drafts budget)),
      decide (budget < wholePrice counter wrap overhead drafts),
      decide (budget < wholePrice counter wrap overhead drafts ∧
        budget < wrap (drafts.length * overhead))⟩ := by
  rw [cutLevel]
  by_cases fits : wholePrice counter wrap overhead drafts ≤ budget
  · have notAbove : ¬ budget < wholePrice counter wrap overhead drafts := Nat.not_lt_of_le fits
    rw [if_pos fits, map_cut_of_sum_le counter drafts (Nat.le_refl _),
      decide_eq_false notAbove, decide_eq_false fun both => notAbove both.1]
    exact if_pos fits
  · have above := Nat.lt_of_not_le fits
    rw [if_neg fits, fit_of_lt counter wrap overhead drafts budget above, decide_eq_true above,
      decide_eq_decide.mpr (and_iff_right above)]

/-- A larger budget does not lower the level. -/
theorem cutLevel_mono {less more : Nat} (ordered : less ≤ more) :
    cutLevel counter wrap overhead drafts less ≤ cutLevel counter wrap overhead drafts more := by
  rw [cutLevel, cutLevel]
  by_cases fits : wholePrice counter wrap overhead drafts ≤ less
  · rw [if_pos fits, if_pos (Nat.le_trans fits ordered)]
  · rw [if_neg fits]
    split
    · exact level_le_sum _ _
    · exact level_mono (Nat.sub_le_sub_right ordered _) _

/-! ## Exact sums -/

theorem addUp_id (terms : List Nat) : Context.addUp id terms = terms.sum :=
  List.sum_eq_foldl.symm

theorem wholePrice_id : wholePrice counter id overhead drafts =
    (prices counter drafts).sum + drafts.length * overhead := by
  rw [wholePrice, addUp_id]
  rfl

/-- With exact sums the drafts fill what the overhead leaves, whether or not
that covers all of them. -/
theorem cutLevel_id : cutLevel counter id overhead drafts budget =
    level (prices counter drafts) (available id overhead drafts budget) := by
  rw [cutLevel, wholePrice_id]
  split
  · next fits =>
      rcases level_cases (prices counter drafts) (available id overhead drafts budget) with
        ⟨-, -, whole⟩ | ⟨exceeds, -⟩
      · exact whole.symm
      · rw [available, id_eq] at exceeds
        omega
  · rfl

/-- The contents that are kept cost no more than the overhead leaves. -/
theorem sum_price_cut_le (steady : counter.IsSteady) :
    ((drafts.map (cut counter (cutLevel counter id overhead drafts budget))).map
      (Draft.price counter)).sum ≤ budget - drafts.length * overhead := by
  rw [cutLevel_id]
  refine Nat.le_trans ?_
    (filled_level_le (prices counter drafts) (available id overhead drafts budget))
  rw [filled, prices, List.map_map, List.map_map]
  exact List.sum_le_sum fun draft _member => price_cut_le counter steady _ draft

end Fit

end ContextPack
