import ContextPack.Proofs.Pack.Selection
import ContextPack.Proofs.Pack.Signals
import Mathlib.Data.List.Perm.Subperm

namespace ContextPack

/-!
# More evidence never costs a file its place

Raising the signals of a file raises its score and moves it forward among the
ranked files.  Whatever stands before it then stood before it already, so less
is spent and fewer places are taken when packing comes to it.

Other files may lose their place by this.  The file itself cannot, because
packing asks only what stands before a file and never what comes behind it.
-/

/-! ## More evidence makes a higher score -/

/-- No piece of evidence is stronger than its counterpart. -/
structure Signals.IsAtMost (weaker stronger : Signals ℚ) : Prop where
  walk : weaker.walk ≤ stronger.walk
  lexical : weaker.lexical ≤ stronger.lexical
  cochange : weaker.cochange ≤ stronger.cochange

namespace Fusion

/-- No weight turns evidence for a file into evidence against it. -/
def HasNonnegWeights : Fusion ℚ → Prop
  | weighted walk lexical cochange => 0 ≤ walk ∧ 0 ≤ lexical ∧ 0 ≤ cochange
  | sum => True
  | maximum => True

theorem fuse_mono {fusion : Fusion ℚ} (nonneg : fusion.HasNonnegWeights)
    {weaker stronger : Signals ℚ} (more : weaker.IsAtMost stronger) :
    fusion.fuse weaker ≤ fusion.fuse stronger := by
  cases fusion with
  | sum => exact add_le_add (add_le_add more.walk more.lexical) more.cochange
  | weighted walk lexical cochange =>
      rcases nonneg with ⟨walk_nonneg, lexical_nonneg, cochange_nonneg⟩
      refine add_le_add (add_le_add ?_ ?_) ?_
      · exact mul_le_mul_of_nonneg_left more.walk walk_nonneg
      · exact mul_le_mul_of_nonneg_left more.lexical lexical_nonneg
      · exact mul_le_mul_of_nonneg_left more.cochange cochange_nonneg
  | maximum => exact max_le_max (max_le_max more.walk more.lexical) more.cochange

end Fusion

/-! ## Less before a file -/

/-- What is chosen of one offer is chosen of another if it costs no more there
and nothing stands before it but what was chosen before it. -/
theorem IsLongestPaid.mem_of_subperm {β : Type} {cost : β → Nat} {count rest : Nat}
    {offered chosen otherwise otherChosen : List β}
    (first : IsLongestPaid cost count rest offered chosen)
    (second : IsLongestPaid cost count rest otherwise otherChosen)
    {one other : β} {front behind before after : List β} (isChosen : chosen = front ++ one :: behind)
    (isOffered : otherwise = before ++ other :: after) (fewer : before.Subperm front)
    (cheaper : cost other ≤ cost one) : other ∈ otherChosen := by
  have spent : (before.map cost).sum ≤ (front.map cost).sum := by
    rcases fewer with ⟨part, same, within⟩
    rw [← (same.map cost).sum_eq]
    exact (within.map cost).sum_le_sum fun _ _ => Nat.zero_le _
  have few := first.length_le
  have paid := first.paid
  rw [isChosen, List.length_append, List.length_cons] at few
  rw [isChosen, List.map_append, List.sum_append, List.map_cons, List.sum_cons] at paid
  have isFront : before ++ [other] <+: otherwise :=
    ⟨after, by rw [isOffered, List.append_assoc, List.singleton_append]⟩
  have taken : (before ++ [other]).length ≤ otherChosen.length := by
    refine second.longest _ isFront ?_ ?_
    · have shorter := fewer.length_le
      rw [List.length_append, List.length_singleton]
      omega
    · rw [List.map_append, List.sum_append, List.map_singleton, List.sum_singleton]
      omega
  have inside := List.prefix_of_prefix_length_le isFront second.front taken
  exact inside.mem (List.mem_append_right before (List.mem_singleton_self other))

namespace Assembler

/-! ## Moving forward -/

theorem Precedes.asymm {α : Type} [Scalar α] [Std.TransCmp (Scalar.order : α → α → Ordering)]
    {first second : Ranked α} (before : Precedes first second) : ¬Precedes second first := by
  rw [← rankedOrder_eq_lt_iff] at before ⊢
  rw [Std.OrientedCmp.gt_of_lt before]
  exact fun impossible => by cases impossible

/-- What stands before a file stood before it when its score was lower. -/
theorem Precedes.of_raised {ranked lower higher : Ranked ℚ} (before : Precedes ranked higher)
    (raised : lower.score ≤ higher.score)
    (sameDistance : lower.candidate.distance = higher.candidate.distance)
    (samePath : lower.candidate.path = higher.candidate.path) : Precedes ranked lower := by
  rcases before with above | ⟨level, nearer⟩
  · exact Or.inl (compare_lt_iff_lt.mpr (raised.trans_lt (compare_lt_iff_lt.mp above)))
  · rw [← sameDistance, ← samePath] at nearer
    rcases raised.lt_or_eq with less | same
    · exact Or.inl (compare_lt_iff_lt.mpr (less.trans_eq (compare_eq_iff_eq.mp level)))
    · exact Or.inr ⟨by rw [same]; exact level, nearer⟩

variable (assembler : Assembler ℚ) (seeds : List Seed) (budget : Nat)

/-- The files that packing can take, best first. -/
def readable (candidates : List (Candidate ℚ)) : List (Ranked ℚ) :=
  (assembler.ranked seeds candidates budget).filter isReadable

variable {assembler seeds budget}

theorem mem_readable_iff {candidates : List (Candidate ℚ)} {found : Ranked ℚ} :
    found ∈ assembler.readable seeds budget candidates ↔
      ((found.candidate ∈ candidates ∧
          found.candidate.path ∉ (assembler.drafts seeds).map Draft.path ∧
          found.score = assembler.fusion.fuse found.candidate.signals ∧
          (0 < found.score ∨ found.candidate.sibling = true)) ∧
        found.candidate.size ≤ assembler.limits.maxFileSize) ∧
      found.candidate.content.isSome = true := by
  rw [readable, List.mem_filter, mem_ranked_iff, Scalar.isPositive_rat, decide_eq_true_iff, isReadable]

variable (assembler seeds budget) in
theorem pairwise_precedes_readable {candidates : List (Candidate ℚ)}
    (distinct : (candidates.map Candidate.path).Nodup) :
    (assembler.readable seeds budget candidates).Pairwise Precedes :=
  (pairwise_precedes_mergeSort (nodup_map_path_fitting assembler candidates distinct _)).filter _

section Raised

variable {before after : List (Candidate ℚ)} {candidate : Candidate ℚ} {signals : Signals ℚ}

/-- All other files are offered to packing as they were. -/
theorem mem_readable_of_ne {ranked : Ranked ℚ}
    (member : ranked ∈ assembler.readable seeds budget
      (before ++ { candidate with signals := signals } :: after))
    (different : ranked.candidate ≠ { candidate with signals := signals }) :
    ranked ∈ assembler.readable seeds budget (before ++ candidate :: after) := by
  rcases mem_readable_iff.mp member with ⟨⟨⟨isCandidate, evident⟩, fitting⟩, hasText⟩
  refine mem_readable_iff.mpr ⟨⟨⟨?_, evident⟩, fitting⟩, hasText⟩
  rcases List.mem_append.mp isCandidate with inFront | behind
  · exact List.mem_append_left _ inFront
  · have inRest := (List.mem_cons.mp behind).resolve_left different
    exact List.mem_append_right _ (List.mem_cons_of_mem _ inRest)

/-- With stronger evidence a file has no other files before it than it had. -/
theorem subperm_of_raised (distinct : ((before ++ candidate :: after).map Candidate.path).Nodup)
    {lower higher : Ranked ℚ} {front behind ahead rest : List (Ranked ℚ)}
    (isLower : lower.candidate = candidate)
    (isHigher : higher.candidate = { candidate with signals := signals })
    (raised : lower.score ≤ higher.score)
    (old : assembler.readable seeds budget (before ++ candidate :: after) = front ++ lower :: behind)
    (new : assembler.readable seeds budget
      (before ++ { candidate with signals := signals } :: after) = ahead ++ higher :: rest) :
    ahead.Subperm front := by
  have inOrder := assembler.pairwise_precedes_readable seeds budget distinct
  have samePaths : (before ++ { candidate with signals := signals } :: after).map Candidate.path =
      (before ++ candidate :: after).map Candidate.path := by
    rw [List.map_append, List.map_append, List.map_cons, List.map_cons]
  have inNewOrder := assembler.pairwise_precedes_readable seeds budget (samePaths ▸ distinct)
  have listed : ∀ ranked ∈ ahead ++ higher :: rest, ranked ∈ assembler.readable seeds budget
      (before ++ { candidate with signals := signals } :: after) := fun ranked member => new ▸ member
  rw [old] at inOrder
  rw [new] at inNewOrder
  rcases List.pairwise_append.mp inNewOrder with ⟨aheadInOrder, -, aheadBefore⟩
  have nodup : ahead.Nodup := aheadInOrder.imp fun {first second} precedes same => by
    rw [same] at precedes
    exact precedes.asymm precedes
  refine List.subperm_of_subset nodup fun ranked member => ?_
  have beforeHigher : Precedes ranked higher := aheadBefore ranked member higher List.mem_cons_self
  have beforeLower : Precedes ranked lower := beforeHigher.of_raised raised
    (by rw [isLower, isHigher]) (by rw [isLower, isHigher])
  have isListed := listed ranked (List.mem_append_left _ member)
  have different : ranked.candidate ≠ { candidate with signals := signals } := by
    intro same
    have higherListed := listed higher (List.mem_append_right _ List.mem_cons_self)
    have isHigherToo : ranked = higher := by
      have score := (mem_readable_iff.mp isListed).1.1.2.2.1
      have otherScore := (mem_readable_iff.mp higherListed).1.1.2.2.1
      rw [same, ← isHigher, ← otherScore] at score
      cases ranked
      cases higher
      exact congr (congrArg Ranked.mk (same.trans isHigher.symm)) score
    rw [isHigherToo] at beforeHigher
    exact beforeHigher.asymm beforeHigher
  have wasListed := mem_readable_of_ne isListed different
  rw [old] at wasListed
  rcases List.mem_append.mp wasListed with inFront | notInFront
  · exact inFront
  · rcases List.mem_cons.mp notInFront with rfl | inBehind
    · exact absurd beforeLower beforeLower.asymm
    · have afterLower := (List.pairwise_append.mp inOrder).2.1
      exact absurd beforeLower ((List.pairwise_cons.mp afterLower).1 ranked inBehind).asymm

/-- Of a file that is brought in the same fragment is brought in on stronger
evidence, with the score of that evidence. -/
theorem mem_expansions_of_raised (nonneg : assembler.fusion.HasNonnegWeights)
    (distinct : ((before ++ candidate :: after).map Candidate.path).Nodup)
    (more : candidate.signals.IsAtMost signals) {fragment : Fragment ℚ}
    (member : fragment ∈ assembler.expansions seeds (before ++ candidate :: after) budget)
    (samePath : fragment.path = candidate.path) :
    fragment.score = assembler.fusion.fuse candidate.signals ∧
      { fragment with score := assembler.fusion.fuse signals } ∈ assembler.expansions seeds
        (before ++ { candidate with signals := signals } :: after) budget := by
  have raised := Fusion.fuse_mono nonneg more
  let room := assembler.limits.maxFragments - (assembler.seedFragments seeds budget).length
  rcases assembler.exists_pack_eq (assembler.ranked seeds (before ++ candidate :: after) budget) room
    (assembler.remaining seeds budget) 0 with ⟨chosen, longest, packed⟩
  rcases assembler.exists_pack_eq (assembler.ranked seeds
      (before ++ { candidate with signals := signals } :: after) budget) room
    (assembler.remaining seeds budget) 0 with ⟨newChosen, newLongest, newPacked⟩
  rw [expansions, packed] at member
  rcases List.mem_map.mp member with ⟨lower, isChosen, rfl⟩
  have wasOffered : lower ∈ assembler.readable seeds budget (before ++ candidate :: after) :=
    longest.front.mem isChosen
  rcases mem_readable_iff.mp wasOffered with ⟨⟨⟨isCandidate, noSeed, isScore, evident⟩, fitting⟩, hasText⟩
  have isLower : lower.candidate = candidate :=
    List.inj_on_of_nodup_map distinct isCandidate
      (List.mem_append_right before List.mem_cons_self) samePath
  rw [isLower] at noSeed isScore evident fitting hasText
  let higher : Ranked ℚ :=
    ⟨{ candidate with signals := signals }, assembler.fusion.fuse signals⟩
  have scoreRaised : lower.score ≤ higher.score := isScore ▸ raised
  have isOffered : higher ∈ assembler.readable seeds budget
      (before ++ { candidate with signals := signals } :: after) := by
    refine mem_readable_iff.mpr ⟨⟨⟨?_, noSeed, rfl, ?_⟩, fitting⟩, hasText⟩
    · exact List.mem_append_right before List.mem_cons_self
    · exact evident.imp_left fun positive => positive.trans_le scoreRaised
  rcases List.append_of_mem isChosen with ⟨front, behind, parts⟩
  rcases List.append_of_mem isOffered with ⟨ahead, rest, newParts⟩
  rcases longest.front with ⟨others, continued⟩
  have old : assembler.readable seeds budget (before ++ candidate :: after) =
      front ++ lower :: (behind ++ others) := by
    rw [readable, ← continued, parts, List.append_assoc, List.cons_append]
  have fewer := subperm_of_raised distinct isLower rfl scoreRaised old newParts
  have sameCost : assembler.expansionCost higher = assembler.expansionCost lower := by
    rw [expansionCost, expansionCost, expansion, expansion, isLower]
    rfl
  have isNewlyChosen : higher ∈ newChosen :=
    longest.mem_of_subperm newLongest parts newParts fewer sameCost.le
  refine ⟨isScore, ?_⟩
  rw [expansions, newPacked]
  refine List.mem_map.mpr ⟨higher, isNewlyChosen, ?_⟩
  rw [expansion, expansion, isLower]
  rfl

end Raised

/-- Stronger evidence for a file evicts it from no assembly: what was shown of
it is shown again, with a score that is no lower.  Nothing else of the file and
nothing of the other files may have changed. -/
theorem stronger_evidence_keeps_fragment (assembler : Assembler ℚ)
    (nonneg : assembler.fusion.HasNonnegWeights) (seeds : List Seed)
    {before after : List (Candidate ℚ)} {candidate : Candidate ℚ}
    (distinct : ((before ++ candidate :: after).map Candidate.path).Nodup)
    {signals : Signals ℚ} (more : candidate.signals.IsAtMost signals) (budget : Nat) :
    ∀ fragment ∈ (assembler.assemble seeds (before ++ candidate :: after) budget).fragments,
      fragment.path = candidate.path →
      ∃ score ≥ fragment.score, { fragment with score := score } ∈
        (assembler.assemble seeds (before ++ { candidate with signals := signals } :: after)
          budget).fragments := by
  intro fragment member samePath
  rw [assemble_fragments] at member ⊢
  rcases List.mem_append.mp member with ofSeed | broughtIn
  · exact ⟨fragment.score, le_rfl, List.mem_append_left _ ofSeed⟩
  · rcases mem_expansions_of_raised nonneg distinct more broughtIn samePath with ⟨isScore, stays⟩
    refine ⟨assembler.fusion.fuse signals, ?_, List.mem_append_right _ stays⟩
    rw [isScore]
    exact Fusion.fuse_mono nonneg more

/-- Three files, the first ranked by the walk and the others by likeness. -/
def rival : Candidate ℚ := ⟨"c.py", ⟨1 / 2, 0, 0⟩, some 1, false, 6, some "x = 1\n"⟩

def overtaking : Candidate ℚ := ⟨"d.py", ⟨0, 1 / 2, 0⟩, some 1, false, 6, some "y = 2\n"⟩

def trailing : Candidate ℚ := ⟨"e.py", ⟨0, 1 / 4, 0⟩, none, false, 6, some "z = 3\n"⟩

/-- Likeness counts half, and co-change not at all. -/
def halvingLikeness : Assembler ℚ :=
  { ofSettings (Settings.default : Settings ℚ) Tokens.estimate id with
    fusion := .weighted 1 (1 / 2) 0 }

/-- A budget of 45 shows two of the three files.  The second of them stays when
it overtakes the first. -/
theorem stronger_evidence_keeps_fragment_of_rivals :
    let shown := halvingLikeness.expansion ⟨overtaking, 1 / 4⟩
    halvingLikeness.fusion.HasNonnegWeights ∧ overtaking.signals.IsAtMost ⟨0, 3 / 2, 0⟩ ∧
      shown ∈ (halvingLikeness.assemble [] [rival, overtaking, trailing] 45).fragments ∧
      ∃ score ≥ (1 / 4 : ℚ), { shown with score := score } ∈ (halvingLikeness.assemble []
        [rival, { overtaking with signals := ⟨0, 3 / 2, 0⟩ }, trailing] 45).fragments := by
  intro shown
  have nonneg : halvingLikeness.fusion.HasNonnegWeights := by
    norm_num [halvingLikeness, Fusion.HasNonnegWeights]
  have distinct : (([rival] ++ overtaking :: [trailing]).map Candidate.path).Nodup := by decide
  have more : overtaking.signals.IsAtMost ⟨0, 3 / 2, 0⟩ := by
    constructor <;> norm_num [overtaking]
  have isShown : shown ∈ (halvingLikeness.assemble [] [rival, overtaking, trailing] 45).fragments := by
    have offered : (halvingLikeness.eligible [] [rival, overtaking, trailing]).filter
        (hasFittingSize halvingLikeness.limits) =
          [⟨rival, 1 / 2⟩, ⟨overtaking, 1 / 4⟩, ⟨trailing, 1 / 8⟩] := by with_unfolding_all rfl
    have inOrder : halvingLikeness.ranked [] [rival, overtaking, trailing] 45 =
        [⟨rival, 1 / 2⟩, ⟨overtaking, 1 / 4⟩, ⟨trailing, 1 / 8⟩] := by
      have noSeed : (halvingLikeness.fitted [] 45).drafts = [] := by with_unfolding_all rfl
      rw [ranked, noSeed, List.map_nil, rank, offered]
      exact List.mergeSort_of_pairwise (by decide +kernel)
    have wholeBudget : halvingLikeness.remaining [] 45 = 45 := by decide +kernel
    have room : (halvingLikeness.seedFragments [] 45).length = 0 := by decide +kernel
    rw [assemble_fragments, expansions, inOrder, wholeBudget, room, pack_cons_some rfl,
      if_neg (by decide), pack_cons_some rfl, if_neg (by decide)]
    exact List.mem_append_right _ (List.mem_cons_of_mem _ List.mem_cons_self)
  exact ⟨nonneg, more, isShown, stronger_evidence_keeps_fragment halvingLikeness nonneg [] distinct
    more 45 shown isShown rfl⟩

end Assembler
end ContextPack
