import ContextPack.Proofs.Pack.Budget
import ContextPack.Proofs.Pack.Precedence
import Mathlib.Data.Finset.Sort

namespace ContextPack

/-!
# Which files an assembly shows

An assembly can be said without its loop: in front the seeds by path, behind
them as many related files, in order of precedence, as the caps and the budget
allow.  Packing finds exactly the longest part of the readable files that the
rest pays for, since it stops at the first one that does not fit and costs only
add up.
-/

/-! ## The longest part that is paid for -/

/-- The longest beginning of what is offered that has no more than a number of
elements and costs no more than there is. -/
structure IsLongestPaid {β : Type} (cost : β → Nat) (count rest : Nat) (offered chosen : List β) :
    Prop where
  front : chosen <+: offered
  length_le : chosen.length ≤ count
  paid : (chosen.map cost).sum ≤ rest
  longest : ∀ longer, longer <+: offered → longer.length ≤ count →
    (longer.map cost).sum ≤ rest → longer.length ≤ chosen.length

namespace IsLongestPaid

variable {β : Type} {cost : β → Nat} {count rest : Nat} {offered chosen : List β}

theorem of_nil (cost : β → Nat) (count rest : Nat) : IsLongestPaid cost count rest [] [] where
  front := List.prefix_rfl
  length_le := Nat.zero_le count
  paid := Nat.zero_le rest
  longest _ continued _ _ := continued.length_le

theorem of_full (cost : β → Nat) (rest : Nat) (offered : List β) :
    IsLongestPaid cost 0 rest offered [] where
  front := List.nil_prefix
  length_le := Nat.le_refl 0
  paid := Nat.zero_le rest
  longest _ _ few _ := few

/-- Nothing is chosen when the first element costs too much. -/
theorem of_short {first : β} (short : rest < cost first) (count : Nat) (others : List β) :
    IsLongestPaid cost count rest (first :: others) [] where
  front := List.nil_prefix
  length_le := Nat.zero_le count
  paid := Nat.zero_le rest
  longest longer continued _ paid := by
    rcases List.prefix_cons_iff.mp continued with rfl | ⟨later, rfl, -⟩
    · exact Nat.le_refl 0
    · rw [List.map_cons, List.sum_cons] at paid
      omega

/-- A first element that fits is chosen, and with it what the others leave. -/
theorem cons {first : β} (fits : cost first ≤ rest)
    (later : IsLongestPaid cost count (rest - cost first) offered chosen) :
    IsLongestPaid cost (count + 1) rest (first :: offered) (first :: chosen) where
  front := (List.prefix_cons_inj first).mpr later.front
  length_le := Nat.succ_le_succ later.length_le
  paid := by
    have paid := later.paid
    rw [List.map_cons, List.sum_cons]
    omega
  longest longer continued few paid := by
    rcases List.prefix_cons_iff.mp continued with rfl | ⟨tail, rfl, inOthers⟩
    · exact Nat.zero_le _
    · rw [List.map_cons, List.sum_cons] at paid
      exact Nat.succ_le_succ (later.longest tail inOthers (Nat.le_of_succ_le_succ few) (by omega))

end IsLongestPaid

namespace Assembler

/-! ## Seeds -/

/-- The seeds that stand in front: of each path the first one, by path, as many
as there may be fragments. -/
def shownSeeds (limits : Limits) (seeds : List Seed) : List Seed :=
  (((seeds.map Seed.path).toFinset.sort (· ≤ ·)).take limits.maxFragments).filterMap fun path =>
    seeds.find? fun seed => seed.path = path

/-- Of ascending seeds, the one that is kept of a path is the first. -/
theorem find?_of_mem_dropSamePath {seeds : List Seed} (ascending : (seeds.map Seed.path).Pairwise (· ≤ ·))
    {kept : Seed} (member : kept ∈ dropSamePath seeds) :
    seeds.find? (fun seed => seed.path = kept.path) = some kept := by
  induction seeds using dropSamePath.induct with
  | case1 =>
      rw [dropSamePath] at member
      exact absurd member List.not_mem_nil
  | case2 seed =>
      rw [dropSamePath, List.mem_singleton] at member
      rw [member]
      exact List.find?_cons_of_pos (decide_eq_true rfl)
  | case3 first second rest same inductionHypothesis =>
      rw [dropSamePath, if_pos same] at member
      have samePath : first.path = second.path := same
      have found := inductionHypothesis
        (ascending.sublist (((List.sublist_cons_self second rest).cons_cons first).map _)) member
      rw [List.find?_cons] at found ⊢
      split at found
      · exact found
      · next other =>
          rw [samePath] at other
          rw [List.find?_cons, other]
          exact found
  | case4 first second rest different inductionHypothesis =>
      rw [dropSamePath, if_neg different] at member
      rcases List.pairwise_cons.mp ascending with ⟨least, later⟩
      rcases List.mem_cons.mp member with rfl | inRest
      · exact List.find?_cons_of_pos (decide_eq_true rfl)
      · have found := inductionHypothesis later inRest
        have listed := List.mem_map_of_mem (f := Seed.path) (List.mem_of_find?_eq_some found)
        have inOrder : first.path ≤ second.path := least _ List.mem_cons_self
        have behind : second.path ≤ kept.path := by
          rcases List.mem_cons.mp listed with same | deeper
          · exact same.ge
          · exact (List.pairwise_cons.mp later).1 _ deeper
        have apart : first.path ≠ kept.path := fun same =>
          different (le_antisymm inOrder (behind.trans_eq same.symm))
        rw [List.find?_cons_of_neg (by simpa using apart)]
        exact found

theorem sort_toFinset (texts : List String) :
    texts.toFinset.sort (· ≤ ·) = Text.distinctSorted texts := by
  have same : texts.toFinset = (Text.distinctSorted texts).toFinset := by
    ext text
    rw [List.mem_toFinset, List.mem_toFinset, Text.mem_distinctSorted]
  rw [same, List.toFinset_sort (· ≤ ·) (Text.nodup_distinctSorted texts)]
  exact (Text.pairwise_lt_distinctSorted texts).imp le_of_lt

/-- The loop chooses the seeds that are to stand in front. -/
theorem chosenSeeds_eq_shownSeeds (limits : Limits) (seeds : List Seed) :
    chosenSeeds limits seeds = shownSeeds limits seeds := by
  have ascending := Text.pairwise_map_mergeSort Seed.path seeds
  have isFirst : ∀ seed ∈ chosenSeeds limits seeds,
      (seeds.find? fun other => other.path = seed.path) = some seed := by
    intro seed member
    rw [← Text.find?_mergeSort_key]
    exact find?_of_mem_dropSamePath ascending (List.mem_of_mem_take member)
  rw [shownSeeds, sort_toFinset, ← map_path_chosenSeeds, List.filterMap_map]
  exact ((List.filterMap_congr isFirst).trans List.filterMap_some).symm

/-! ## Other files -/

section Packing

variable {α : Type} (assembler : Assembler α)

/-- The fragment that a readable file becomes. -/
def expansion (ranked : Ranked α) : Fragment α :=
  assembler.fragment (expansionDraft ranked.candidate.path (ranked.candidate.content.getD ""))
    ranked.score

/-- What a fragment of that file takes from the budget. -/
def expansionCost (ranked : Ranked α) : Nat := (assembler.expansion ranked).tokens

def isReadable (ranked : Ranked α) : Bool := ranked.candidate.content.isSome

/-- Packing passes over unreadable files; of the others it takes as many as the
caps and the rest allow. -/
theorem exists_pack_eq (rankedFiles : List (Ranked α)) (room remaining considered : Nat) :
    ∃ chosen, IsLongestPaid assembler.expansionCost
        (min (assembler.limits.maxExpansionFiles - considered) room) remaining
        (rankedFiles.filter isReadable) chosen ∧
      (assembler.pack rankedFiles room remaining considered).fragments =
        chosen.map assembler.expansion := by
  induction rankedFiles generalizing room remaining considered with
  | nil => exact ⟨[], .of_nil _ _ _, rfl⟩
  | cons ranked others inductionHypothesis =>
      cases content : ranked.candidate.content with
      | none =>
          have unreadable : isReadable ranked = false := by rw [isReadable, content, Option.isSome_none]
          rw [pack_cons_none content, List.filter_cons_of_neg (Bool.eq_false_iff.mp unreadable)]
          exact inductionHypothesis room remaining considered
      | some text =>
          have readable : isReadable ranked = true := by rw [isReadable, content, Option.isSome_some]
          have fragment : assembler.expansion ranked = assembler.fragment
              (expansionDraft ranked.candidate.path text) ranked.score := by
            rw [expansion, content, Option.getD_some]
          have isCost : assembler.expansionCost ranked = assembler.cost text := by
            rw [expansionCost, fragment]
            rfl
          rw [pack_cons_some content, List.filter_cons_of_pos readable]
          split
          · next stopped =>
              refine ⟨[], ?_, rfl⟩
              rcases stopped with capped | full | short
              · rw [Nat.sub_eq_zero_of_le capped, Nat.zero_min]
                exact .of_full _ _ _
              · rw [full, Nat.min_zero]
                exact .of_full _ _ _
              · exact .of_short (isCost.symm ▸ short) _ _
          · next accepted =>
              rw [not_or, not_or, Nat.not_le, Nat.not_lt] at accepted
              rcases accepted with ⟨uncapped, roomLeft, paid⟩
              rcases inductionHypothesis (room - 1) (remaining - assembler.cost text)
                (considered + 1) with ⟨chosen, longest, packed⟩
              have count : min (assembler.limits.maxExpansionFiles - considered) room =
                  min (assembler.limits.maxExpansionFiles - (considered + 1)) (room - 1) + 1 := by
                omega
              refine ⟨ranked :: chosen, ?_, ?_⟩
              · rw [count]
                rw [← isCost] at paid longest
                exact longest.cons paid
              · rw [packed, List.map_cons, fragment]

end Packing

variable {α : Type} [Scalar α] (assembler : Assembler α) (seeds : List Seed)
  (candidates : List (Candidate α)) (budget : Nat)

/-- The readable files that are no seeds, have a score or a neighbour by
convention, and are not too large, in the order of precedence. -/
structure IsOffer (offered : List (Ranked α)) : Prop where
  mem_iff : ∀ ranked, ranked ∈ offered ↔
    ranked.candidate ∈ candidates ∧ ranked.candidate.path ∉ seeds.map Seed.path ∧
    ranked.candidate.content.isSome = true ∧
    ranked.candidate.size ≤ assembler.limits.maxFileSize ∧
    ranked.score = assembler.fusion.fuse ranked.candidate.signals ∧
    (Scalar.isPositive ranked.score = true ∨ ranked.candidate.sibling = true)
  inOrder : offered.Pairwise Precedes

theorem nodup_map_path_ranked (distinct : (candidates.map Candidate.path).Nodup) :
    ((assembler.ranked seeds candidates budget).map fun ranked => ranked.candidate.path).Nodup :=
  ((List.mergeSort_perm _ rankedLe).map _).nodup_iff.mpr
    (nodup_map_path_fitting assembler candidates distinct _)

/-- The ranked files without those that no fragment can show: the unreadable
ones, and the changed ones that found no room. -/
def offer : List (Ranked α) :=
  ((assembler.ranked seeds candidates budget).filter isReadable).filter fun ranked =>
    ranked.candidate.path ∉ seeds.map Seed.path

/-- Where seeds find no room, neither does any other file; so it is of no
account that packing is offered them again. -/
theorem exists_expansions_eq :
    ∃ chosen, IsLongestPaid assembler.expansionCost
        (min assembler.limits.maxExpansionFiles
          (assembler.limits.maxFragments - (assembler.drafts seeds).length))
        (assembler.remaining seeds budget) (assembler.offer seeds candidates budget) chosen ∧
      assembler.expansions seeds candidates budget = chosen.map assembler.expansion := by
  rcases assembler.exists_pack_eq (assembler.ranked seeds candidates budget)
    (assembler.limits.maxFragments - (assembler.seedFragments seeds budget).length)
    (assembler.remaining seeds budget) 0 with ⟨chosen, longest, packed⟩
  rw [length_seedFragments, Nat.sub_zero] at longest
  refine ⟨chosen, ?_, packed⟩
  rw [length_drafts, shownCount] at longest ⊢
  rcases Nat.le_total (seeds.map Seed.path).toFinset.card assembler.limits.maxFragments with
    allShown | cut
  · have isShown : (assembler.drafts seeds).map Draft.path =
        Text.distinctSorted (seeds.map Seed.path) := by
      rw [map_path_drafts, List.take_of_length_le]
      rwa [← sort_toFinset, Finset.length_sort]
    have noSeed : ∀ ranked ∈ (assembler.ranked seeds candidates budget).filter isReadable,
        decide (ranked.candidate.path ∉ seeds.map Seed.path) = true := by
      intro ranked member
      have notShown := ((mem_ranked_iff assembler seeds candidates budget).mp
        (List.mem_filter.mp member).1).1.2.1
      rw [isShown, Text.mem_distinctSorted] at notShown
      exact decide_eq_true notShown
    rw [offer, List.filter_eq_self.mpr noSeed]
    exact longest
  · have full : min assembler.limits.maxExpansionFiles (assembler.limits.maxFragments -
        min (seeds.map Seed.path).toFinset.card assembler.limits.maxFragments) = 0 := by
      omega
    rw [full] at longest ⊢
    rw [List.eq_nil_of_length_eq_zero (Nat.le_zero.mp longest.length_le)]
    exact .of_full _ _ _

theorem isOffer_offer [Std.TransCmp (Scalar.order : α → α → Ordering)]
    (distinct : (candidates.map Candidate.path).Nodup) :
    assembler.IsOffer seeds candidates (assembler.offer seeds candidates budget) where
  mem_iff ranked := by
    have fewer : ranked.candidate.path ∉ seeds.map Seed.path →
        ranked.candidate.path ∉ (assembler.drafts seeds).map Draft.path := by
      rw [map_path_drafts]
      exact fun noSeed isShown => noSeed
        ((Text.mem_distinctSorted _ _).mp (List.mem_of_mem_take isShown))
    rw [offer, List.mem_filter, List.mem_filter, mem_ranked_iff, isReadable, decide_eq_true_iff]
    tauto
  inOrder := ((pairwise_precedes_mergeSort
    (nodup_map_path_fitting assembler candidates distinct _)).filter _).filter _

/-! ## The whole assembly -/

/-- The drafts of the seeds that stand in front. -/
def shownDrafts : List Draft :=
  (shownSeeds assembler.limits seeds).map
    (Draft.ofSeed assembler.limits.maxFileSize assembler.seedContent)

/-- Whether a budget pays for the seeds as they are, so that none is cut. -/
def coversSeeds : Bool :=
  Fit.wholePrice assembler.counter assembler.wrap assembler.limits.overheadPerFragment
    (assembler.shownDrafts seeds) ≤ budget

/-- A fragment shows a draft, or the start of it. -/
structure ShowsDraft (draft : Draft) (fragment : Fragment α) : Prop where
  path : fragment.path = draft.path
  kind : fragment.kind = draft.kind
  score : fragment.score = Scalar.one
  content : fragment.content.toList <+: draft.content

omit [Scalar α] in
theorem drafts_eq_shownDrafts : assembler.drafts seeds = assembler.shownDrafts seeds := by
  rw [drafts, shownDrafts, chosenSeeds_eq_shownSeeds]

theorem seedFragments_show :
    List.Forall₂ ShowsDraft (assembler.shownDrafts seeds) (assembler.seedFragments seeds budget) := by
  rw [seedFragments_eq, drafts_eq_shownDrafts, List.map_map, List.forall₂_map_right_iff]
  refine List.forall₂_same.mpr fun draft _member => ⟨Fit.cut_path _ _ draft, Fit.cut_kind _ _ draft, rfl, ?_⟩
  rw [Function.comp_apply, fragment_content, Fit.cut_content]
  exact Tokens.truncate_isPrefix _ _ _

theorem remaining_of_coversSeeds : assembler.remaining seeds budget =
    if assembler.coversSeeds seeds budget then budget - Context.addUp assembler.wrap
      ((assembler.seedFragments seeds budget).map Fragment.tokens) else 0 := by
  rw [remaining, fitted, Fit.fit_eq, coversSeeds, ← drafts_eq_shownDrafts]
  by_cases covered : Fit.wholePrice assembler.counter assembler.wrap
      assembler.limits.overheadPerFragment (assembler.drafts seeds) ≤ budget
  · rw [if_neg (by simpa using covered), if_pos (decide_eq_true covered)]
  · rw [if_pos (by simpa using covered), if_neg (by simpa using covered)]

/-- The fragments are those of the shown seeds and, behind them, the longest
part of the offered files that the caps allow and the rest pays for.  Shrunk
seeds leave no rest.  So no path has two fragments, there are no more fragments
than allowed, and no file displaces a seed. -/
theorem fragments_follow_selection [Std.TransCmp (Scalar.order : α → α → Ordering)]
    (distinct : (candidates.map Candidate.path).Nodup) :
    let limits := assembler.limits
    let drafts := assembler.shownDrafts seeds
    let fragments := (assembler.assemble seeds candidates budget).fragments
    ∃ (ofSeeds : List (Fragment α)) (offered chosen : List (Ranked α)),
      fragments = ofSeeds ++ chosen.map assembler.expansion ∧
      List.Forall₂ ShowsDraft drafts ofSeeds ∧
      (assembler.coversSeeds seeds budget = true →
        ofSeeds = drafts.map fun draft => assembler.fragment draft Scalar.one) ∧
      assembler.IsOffer seeds candidates offered ∧
      IsLongestPaid assembler.expansionCost
        (min limits.maxExpansionFiles (limits.maxFragments - drafts.length))
        (if assembler.coversSeeds seeds budget then
          budget - Context.addUp assembler.wrap (ofSeeds.map Fragment.tokens) else 0)
        offered chosen ∧
      ((seeds.map Seed.path).toFinset.sort (· ≤ ·)).take limits.maxFragments <+:
        fragments.map Fragment.path ∧
      (fragments.map Fragment.path).Nodup ∧ fragments.length ≤ limits.maxFragments := by
  intro limits drafts fragments
  rcases exists_expansions_eq assembler seeds candidates budget with ⟨chosen, longest, packed⟩
  have whole : fragments = assembler.seedFragments seeds budget ++ chosen.map assembler.expansion := by
    rw [← packed]
    exact assemble_fragments assembler seeds candidates budget
  have isOffer := isOffer_offer assembler seeds candidates budget distinct
  have frontPaths : (assembler.seedFragments seeds budget).map Fragment.path =
      ((seeds.map Seed.path).toFinset.sort (· ≤ ·)).take limits.maxFragments := by
    rw [map_path_seedFragments, map_path_drafts, sort_toFinset]
  have paths : fragments.map Fragment.path =
      ((seeds.map Seed.path).toFinset.sort (· ≤ ·)).take limits.maxFragments ++
        chosen.map fun ranked => ranked.candidate.path := by
    rw [whole, List.map_append, frontPaths, List.map_map]
    rfl
  refine ⟨_, _, chosen, whole, seedFragments_show assembler seeds budget, fun covered => ?_, isOffer,
    ?_, ?_, ?_, ?_⟩
  · rw [coversSeeds, ← drafts_eq_shownDrafts] at covered
    rw [seedFragments_of_wholePrice_le (of_decide_eq_true covered), drafts_eq_shownDrafts]
  · rw [drafts_eq_shownDrafts, remaining_of_coversSeeds] at longest
    exact longest
  · rw [paths]
    exact List.prefix_append _ _
  · rw [paths]
    refine List.Nodup.append ((Finset.sort_nodup _ _).sublist (List.take_sublist _ _)) ?_ ?_
    · exact (nodup_map_path_ranked assembler seeds candidates budget distinct).sublist
        ((longest.front.sublist.trans (List.filter_sublist.trans List.filter_sublist)).map _)
    · intro path isSeed isOther
      rcases List.mem_map.mp isOther with ⟨ranked, isChosen, rfl⟩
      refine ((isOffer.mem_iff ranked).mp (longest.front.mem isChosen)).2.1 ?_
      exact List.mem_toFinset.mp ((Finset.mem_sort _).mp (List.mem_of_mem_take isSeed))
  · have fewSeeds : (assembler.drafts seeds).length ≤ limits.maxFragments := by
      rw [length_drafts]
      exact Nat.min_le_right _ _
    have fewOthers := longest.length_le
    rw [whole, List.length_append, length_seedFragments, List.length_map]
    change _ ≤ assembler.limits.maxFragments
    change _ ≤ assembler.limits.maxFragments at fewSeeds
    omega

/-- Four changed files, two of them with one path. -/
def crowdedSeeds : List Seed :=
  [⟨⟨"b.py", none, .modified, false, []⟩, some "def total():\n    return 1\n"⟩,
   ⟨⟨"d.py", none, .deleted, false, []⟩, none⟩,
   ⟨⟨"a.py", none, .added, false, []⟩, some "import b\n"⟩,
   ⟨⟨"b.py", none, .modified, false, []⟩, none⟩]

/-- A changed file that is offered again, and one that is related. -/
def crowdedCandidates : List (Candidate Float) :=
  [⟨"d.py", ⟨0.5, 0, 0⟩, some 1, false, 6, some "x = 1\n"⟩,
   ⟨"c.py", ⟨0.25, 0, 0⟩, none, true, 6, some "y = 2\n"⟩]

/-- With room for two fragments the first two paths are shown, and neither the
third changed file nor a related one comes in their place. -/
theorem fragments_follow_selection_of_crowd :
    let assembler : Assembler Float :=
      { ofSettings .default Tokens.estimate Wrap.word with limits := { maxFragments := 2 } }
    (crowdedCandidates.map Candidate.path).Nodup ∧
      (assembler.assemble crowdedSeeds crowdedCandidates 1000).fragments.map Fragment.path =
        ["a.py", "b.py"] := by
  intro assembler
  have distinct : (crowdedCandidates.map Candidate.path).Nodup := by decide
  refine ⟨distinct, ?_⟩
  rcases fragments_follow_selection assembler crowdedSeeds crowdedCandidates 1000 distinct with
    ⟨-, -, -, -, -, -, -, -, front, -, few⟩
  have first : ((crowdedSeeds.map Seed.path).toFinset.sort (· ≤ ·)).take 2 = ["a.py", "b.py"] := by
    have paths : (crowdedSeeds.map Seed.path).toFinset = ["a.py", "b.py", "d.py"].toFinset := by decide
    rw [paths, (List.toFinset_sort (· ≤ ·) (by decide)).mpr (by decide)]
    rfl
  change ((crowdedSeeds.map Seed.path).toFinset.sort (· ≤ ·)).take 2 <+: _ at front
  rw [first] at front
  refine (front.eq_of_length_le ?_).symm
  rw [List.length_map]
  exact few

end Assembler
end ContextPack
