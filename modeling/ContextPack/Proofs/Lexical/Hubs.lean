import ContextPack.Proofs.Lexical.Cosine
import ContextPack.Proofs.Lexical.Holders
import ContextPack.Proofs.Number.Exact

namespace ContextPack.Lexical.Index

/-!
# Hubs

The fan-out of a document is added up posting list by posting list.  Every list that
names the document connects it to the others that the list names, so the sum counts
each other document once for every term that the two have in common.  Hubs are the
documents whose fan-out lies above that of a given place among all fan-outs, and the
documents up to this place are none.
-/

section FanOut

variable {α : Type} (index : Index α)

instance (term : String) (document : Nat) : Decidable (index.IsPosted term document) :=
  inferInstanceAs (Decidable (∃ entry ∈ index.entries, entry.term = term ∧
    ∃ posting ∈ entry.postings, posting.document = document))

/-- The terms that two documents are both posted for. -/
def commonTerms (first second : Nat) : Finset String :=
  index.terms.filter fun term => index.IsPosted term first ∧ index.IsPosted term second

/-- The documents that a term connects a document to. -/
def connected (document : Nat) (term : String) : Finset Nat :=
  ((Finset.range index.documentCount).erase document).filter fun other =>
    index.IsPosted term document ∧ index.IsPosted term other

variable {index}

theorem IsSound.isPosted_iff (sound : index.IsSound) {entry : Entry α}
    (member : entry ∈ index.entries) (document : Nat) :
    index.IsPosted entry.term document ↔ document ∈ entry.postings.map Posting.document := by
  rw [List.mem_map]
  constructor
  · rintro ⟨other, isEntry, same, isPosted⟩
    rwa [sound.eq_of_term isEntry member same] at isPosted
  · intro isPosted
    exact ⟨entry, member, rfl, isPosted⟩

/-- A posting list connects a document that it names to all others that it names. -/
theorem IsConsistent.card_connected (consistent : index.IsConsistent) {entry : Entry α}
    (member : entry ∈ index.entries) (document : Nat) :
    (index.connected document entry.term).card =
      if (posting? entry.postings document).isSome then entry.postings.length - 1 else 0 := by
  have isPosted_iff := consistent.toIsSound.isPosted_iff member
  have named : index.IsPosted entry.term document ↔
      (posting? entry.postings document).isSome = true := by
    rw [isPosted_iff, List.mem_map, isSome_posting?_iff]
  by_cases isPosted : index.IsPosted entry.term document
  · have others : index.connected document entry.term =
        (entry.postings.map Posting.document).toFinset.erase document := by
      ext other
      have bound : index.IsPosted entry.term other → other < index.documentCount :=
        consistent.toIsSound.document_lt
      rw [connected, Finset.mem_filter, Finset.mem_erase, Finset.mem_erase, Finset.mem_range,
        List.mem_toFinset, ← isPosted_iff]
      tauto
    have isNamed : document ∈ (entry.postings.map Posting.document).toFinset :=
      List.mem_toFinset.mpr ((isPosted_iff document).mp isPosted)
    rw [if_pos (named.mp isPosted), others, Finset.card_erase_of_mem isNamed,
      List.toFinset_card_of_nodup (consistent.once entry member), List.length_map]
  · rw [if_neg fun isSome => isPosted (named.mpr isSome), connected, Finset.card_eq_zero,
      Finset.filter_eq_empty_iff]
    intro other _ both
    exact isPosted both.1

/-- The fan-out of a document counts the terms that it has in common with each other
document. -/
theorem IsConsistent.getElem?_fanOut (consistent : index.IsConsistent) {document : Nat}
    (isDocument : document < index.documentCount) :
    index.fanOut[document]? =
      some (∑ other ∈ (Finset.range index.documentCount).erase document,
        (index.commonTerms document other).card) := by
  have perEntry : ∑ term ∈ index.terms, (index.connected document term).card =
      (index.entries.map fun entry =>
        if (posting? entry.postings document).isSome then entry.postings.length - 1 else 0).sum :=
    sum_terms consistent.toIsSound fun entry member => consistent.card_connected member document
  -- Terms with the documents they lead to are documents with the terms that lead to them.
  have perDocument : ∑ term ∈ index.terms, (index.connected document term).card =
      ∑ other ∈ (Finset.range index.documentCount).erase document,
        (index.commonTerms document other).card := by
    simp only [connected, commonTerms, Finset.card_filter]
    exact Finset.sum_comm
  rw [fanOut, List.getElem?_map, List.getElem?_range isDocument, Option.map_some, ← perDocument,
    perEntry, foldl_eq_sum fun entry : Entry α =>
      if (posting? entry.postings document).isSome then entry.postings.length - 1 else 0]
  · rw [Nat.zero_add]
  · intro total entry
    split
    · rfl
    · rfl

theorem length_fanOut (index : Index α) : index.fanOut.length = index.documentCount := by
  rw [fanOut, List.length_map, List.length_range]

end FanOut

/-! ## Percentiles -/

/-- The place among ascending values, counted from one, that a share of them reaches. -/
noncomputable def percentileRank (share : ℝ) (count : Nat) : Nat :=
  max 1 ⌈share * count⌉₊

theorem percentileRank_le {share : ℝ} (atMost : share ≤ 1) {count : Nat} (positive : 0 < count) :
    percentileRank share count ≤ count := by
  refine max_le positive (Nat.ceil_le.mpr ?_)
  exact mul_le_of_le_one_left (Nat.cast_nonneg count) atMost

theorem percentileRank_mono {share greater : ℝ} (below : share ≤ greater) (count : Nat) :
    percentileRank share count ≤ percentileRank greater count :=
  max_le_max le_rfl (Nat.ceil_mono (mul_le_mul_of_nonneg_right below (Nat.cast_nonneg count)))

theorem percentileRank_one {count : Nat} (positive : 0 < count) :
    percentileRank 1 count = count := by
  rw [percentileRank, one_mul, Nat.ceil_natCast]
  exact max_eq_right positive

variable {share greater : ℝ} {ascending : List Nat}

/-- The percentile's value is the one at the percentile's place. -/
theorem getElem?_percentileRank (nonneg : 0 ≤ share) (atMost : share ≤ 1)
    (nonempty : 0 < ascending.length) :
    ascending[percentileRank share ascending.length - 1]? =
      some (percentileValue share ascending) := by
  have clamped : Scalar.clamp share Scalar.zero Scalar.one = share := by
    simp [Scalar.clamp, nonneg.not_gt, atMost.not_gt]
  have place : max 1 (min ⌈share * ascending.length⌉₊ ascending.length) =
      percentileRank share ascending.length := by
    have bound : ⌈share * ascending.length⌉₊ ≤ ascending.length :=
      (le_max_right _ _).trans (percentileRank_le atMost nonempty)
    rw [min_eq_left bound, percentileRank]
  have inRange : percentileRank share ascending.length - 1 < ascending.length := by
    have positive : 1 ≤ percentileRank share ascending.length := le_max_left 1 _
    exact (Nat.sub_lt positive Nat.one_pos).trans_le (percentileRank_le atMost nonempty)
  have value : percentileValue share ascending =
      (ascending[percentileRank share ascending.length - 1]?).getD 0 := by
    rw [percentileValue, clamped, ← place]
    rfl
  rw [value, List.getElem?_eq_getElem inRange, Option.getD_some]

theorem le_of_getElem? (sorted : ascending.Pairwise (· ≤ ·)) {first second low high : Nat}
    (before : first ≤ second) (isLow : ascending[first]? = some low)
    (isHigh : ascending[second]? = some high) : low ≤ high := by
  rcases List.getElem?_eq_some_iff.mp isLow with ⟨firstBound, rfl⟩
  rcases List.getElem?_eq_some_iff.mp isHigh with ⟨secondBound, rfl⟩
  rcases before.eq_or_lt with same | earlier
  · subst same
    exact le_rfl
  · exact List.pairwise_iff_getElem.mp sorted first second firstBound secondBound earlier

/-- A greater share reaches no lesser value. -/
theorem percentileValue_mono (sorted : ascending.Pairwise (· ≤ ·)) (nonempty : 0 < ascending.length)
    (nonneg : 0 ≤ share) (below : share ≤ greater) (atMost : greater ≤ 1) :
    percentileValue share ascending ≤ percentileValue greater ascending :=
  le_of_getElem? sorted (Nat.sub_le_sub_right (percentileRank_mono below _) 1)
    (getElem?_percentileRank nonneg (below.trans atMost) nonempty)
    (getElem?_percentileRank (nonneg.trans below) atMost nonempty)

/-- Only values behind the percentile's place can lie above its value. -/
theorem countP_above_le (sorted : ascending.Pairwise (· ≤ ·)) (nonempty : 0 < ascending.length)
    (nonneg : 0 ≤ share) (atMost : share ≤ 1) :
    (ascending.countP fun value => percentileValue share ascending < value) ≤
      ascending.length - percentileRank share ascending.length := by
  have reached : (ascending.take (percentileRank share ascending.length)).countP
      (fun value => percentileValue share ascending < value) = 0 := by
    rw [List.countP_eq_zero]
    intro value member
    rcases List.mem_take_iff_getElem.mp member with ⟨place, bound, isValue⟩
    have found : ascending[place]? = some value := by
      rw [← isValue]
      exact List.getElem?_eq_getElem _
    have before : place ≤ percentileRank share ascending.length - 1 :=
      Nat.le_sub_one_of_lt (lt_min_iff.mp bound).1
    have notAbove := le_of_getElem? sorted before found
      (getElem?_percentileRank nonneg atMost nonempty)
    simpa using notAbove
  calc ascending.countP (fun value => percentileValue share ascending < value)
    _ = (ascending.take (percentileRank share ascending.length) ++
          ascending.drop (percentileRank share ascending.length)).countP
          (fun value => percentileValue share ascending < value) := by rw [List.take_append_drop]
    _ = (ascending.drop (percentileRank share ascending.length)).countP
          (fun value => percentileValue share ascending < value) := by
        rw [List.countP_append, reached, Nat.zero_add]
    _ ≤ (ascending.drop (percentileRank share ascending.length)).length := List.countP_le_length
    _ = ascending.length - percentileRank share ascending.length := List.length_drop

/-! ## Documents above a percentile -/

/-- The fan-out that hubs exceed. -/
noncomputable def threshold (index : Index ℝ) (share : ℝ) : Nat :=
  percentileValue share (index.fanOut.mergeSort (· ≤ ·))

variable {index : Index ℝ}

theorem hubs_eq (index : Index ℝ) (share : ℝ) (exempt : List Nat) :
    index.hubs share exempt =
      (index.fanOut.zipIdx.filter fun (fan, document) =>
        index.threshold share < fan && !exempt.contains document).map Prod.snd := by
  rw [hubs, ← List.filterMap_eq_map, List.filterMap_filter]
  rfl

theorem mem_hubs (share : ℝ) (exempt : List Nat) (document : Nat) :
    document ∈ index.hubs share exempt ↔
      (∃ fan, index.fanOut[document]? = some fan ∧ index.threshold share < fan) ∧
        document ∉ exempt := by
  simp only [hubs_eq, List.mem_map, List.mem_filter, List.mem_zipIdx_iff_getElem?, Prod.exists,
    Bool.and_eq_true, decide_eq_true_eq, Bool.not_eq_true', List.contains_eq_mem,
    decide_eq_false_iff_not]
  constructor
  · rintro ⟨fan, place, ⟨isFan, above, notExempt⟩, rfl⟩
    exact ⟨⟨fan, isFan, above⟩, notExempt⟩
  · rintro ⟨⟨fan, isFan, above⟩, notExempt⟩
    exact ⟨fan, document, ⟨isFan, above, notExempt⟩, rfl⟩

/-- A hub's fan-out lies above that at the percentile's place among all of them. -/
theorem mem_hubs_iff (nonempty : 0 < index.documentCount) (nonneg : 0 ≤ share) (atMost : share ≤ 1)
    (exempt : List Nat) (document : Nat) :
    document ∈ index.hubs share exempt ↔
      document ∉ exempt ∧ ∃ fan value, index.fanOut[document]? = some fan ∧
        (index.fanOut.mergeSort (· ≤ ·))[percentileRank share index.documentCount - 1]? =
          some value ∧ value < fan := by
  have count : (index.fanOut.mergeSort (· ≤ ·)).length = index.documentCount := by
    rw [List.length_mergeSort, length_fanOut]
  have place := getElem?_percentileRank nonneg atMost (count ▸ nonempty)
  rw [count] at place
  rw [mem_hubs, threshold, place, and_comm]
  refine and_congr_right fun _ => exists_congr fun fan => ?_
  constructor
  · rintro ⟨isFan, above⟩
    exact ⟨_, isFan, rfl, above⟩
  · rintro ⟨value, isFan, isValue, above⟩
    exact ⟨isFan, Option.some.inj isValue ▸ above⟩

theorem nodup_hubs (index : Index ℝ) (share : ℝ) (exempt : List Nat) :
    (index.hubs share exempt).Nodup := by
  have places : (index.fanOut.zipIdx.map Prod.snd).Nodup := by
    rw [List.zipIdx_map_snd]
    exact List.nodup_range'
  rw [hubs_eq]
  exact (List.filter_sublist.map Prod.snd).nodup places

theorem hubs_eq_filter (index : Index ℝ) (share : ℝ) (exempt : List Nat) :
    index.hubs share exempt = (index.hubs share []).filter (· ∉ exempt) := by
  rw [hubs_eq, hubs_eq, List.filter_map, List.filter_filter]
  congr 2
  funext place
  simp [Bool.and_comm]

theorem length_hubs_nil (index : Index ℝ) (share : ℝ) :
    (index.hubs share []).length =
      index.fanOut.countP fun fan => index.threshold share < fan := by
  rw [hubs_eq, List.length_map, ← List.countP_eq_length_filter]
  conv_rhs => rw [← List.zipIdx_map_fst 0 index.fanOut, List.countP_map]
  congr 1
  funext place
  simp

theorem sorted_fans (index : Index ℝ) :
    (index.fanOut.mergeSort (· ≤ ·)).Pairwise (· ≤ ·) ∧
      (index.fanOut.mergeSort (· ≤ ·)).length = index.documentCount := by
  rw [List.length_mergeSort, length_fanOut]
  exact ⟨List.pairwise_mergeSort' (· ≤ ·) index.fanOut, rfl⟩

/-- Hubs are no more than the documents behind the percentile's place. -/
theorem length_hubs_le (nonempty : 0 < index.documentCount) (nonneg : 0 ≤ share)
    (atMost : share ≤ 1) (exempt : List Nat) :
    (index.hubs share exempt).length ≤
      index.documentCount - percentileRank share index.documentCount := by
  rcases sorted_fans index with ⟨sorted, count⟩
  have above := countP_above_le sorted (count ▸ nonempty) nonneg atMost
  rw [count] at above
  calc (index.hubs share exempt).length
    _ ≤ (index.hubs share []).length := by
        rw [hubs_eq_filter]
        exact List.length_filter_le _ _
    _ = index.fanOut.countP fun fan => index.threshold share < fan := by
        rw [length_hubs_nil]
    _ = (index.fanOut.mergeSort (· ≤ ·)).countP fun fan => index.threshold share < fan :=
        ((List.mergeSort_perm _ _).countP_eq _).symm
    _ ≤ index.documentCount - percentileRank share index.documentCount := above

theorem hubs_subset (nonempty : 0 < index.documentCount) (nonneg : 0 ≤ share)
    (below : share ≤ greater) (atMost : greater ≤ 1) (exempt : List Nat) :
    index.hubs greater exempt ⊆ index.hubs share exempt := by
  rcases sorted_fans index with ⟨sorted, count⟩
  have lower : index.threshold share ≤ index.threshold greater :=
    percentileValue_mono sorted (count ▸ nonempty) nonneg below atMost
  intro document isHub
  rcases (mem_hubs greater exempt document).mp isHub with ⟨⟨fan, isFan, above⟩, notExempt⟩
  exact (mem_hubs share exempt document).mpr ⟨⟨fan, isFan, lower.trans_lt above⟩, notExempt⟩

/-- A document's fan-out counts its common terms with all other documents.  Hubs are the
documents whose fan-out lies above the one at the percentile's place.  Exempt documents
are no hubs and change nothing for the others.  Hubs are at most as many as the documents
behind the percentile's place, so that there are none if the share is one, and a greater
share makes no hub of a document that was none. -/
theorem hubs_follow_percentile (settings : LexicalSettings ℝ) (rareThreshold : Nat)
    (scale : TermScale ℝ) {documents : List Document} (distinct : DistinctTerms documents)
    (nonempty : documents ≠ []) :
    let index := build settings rareThreshold scale documents
    (index.fanOut.length = documents.length ∧
      ∀ document < documents.length, index.fanOut[document]? =
        some (∑ other ∈ (Finset.range documents.length).erase document,
          (index.commonTerms document other).card)) ∧
    (∀ share exempt, 0 ≤ share → share ≤ 1 → ∀ document,
      (document ∈ index.hubs share exempt ↔
        document ∉ exempt ∧ ∃ fan value, index.fanOut[document]? = some fan ∧
          (index.fanOut.mergeSort (· ≤ ·))[max 1 ⌈share * documents.length⌉₊ - 1]? = some value ∧
          value < fan)) ∧
    (∀ share exempt, (index.hubs share exempt).Nodup ∧
      index.hubs share exempt = (index.hubs share []).filter (· ∉ exempt)) ∧
    (∀ share exempt, 0 ≤ share → share ≤ 1 → (index.hubs share exempt).length ≤
      documents.length - max 1 ⌈share * documents.length⌉₊) ∧
    (∀ exempt, index.hubs 1 exempt = []) ∧
    ∀ share greater exempt, 0 ≤ share → share ≤ greater → greater ≤ 1 →
      index.hubs greater exempt ⊆ index.hubs share exempt := by
  intro index
  have consistent : index.IsConsistent :=
    isConsistent_build settings rareThreshold scale distinct
  have positive : 0 < index.documentCount := List.length_pos_iff.mpr nonempty
  refine ⟨⟨length_fanOut index, fun document => consistent.getElem?_fanOut⟩, ?_, ?_, ?_, ?_, ?_⟩
  · intro share exempt nonneg atMost
    exact mem_hubs_iff positive nonneg atMost exempt
  · intro share exempt
    exact ⟨nodup_hubs index share exempt, hubs_eq_filter index share exempt⟩
  · intro share exempt nonneg atMost
    exact length_hubs_le positive nonneg atMost exempt
  · intro exempt
    have bound := length_hubs_le positive zero_le_one le_rfl exempt
    rw [percentileRank_one positive, Nat.sub_self] at bound
    exact List.eq_nil_of_length_eq_zero (Nat.eq_zero_of_le_zero bound)
  · intro share greater exempt nonneg below atMost
    exact hubs_subset positive nonneg below atMost exempt

/-- A document and two others that hold one of its terms each. -/
def star : List Document := [[("left", 1), ("right", 1)], [("left", 1)], [("right", 1)]]

/-- Each of the others shares its term with the first document. -/
theorem fanOut_star :
    let settings : LexicalSettings ℝ :=
      { LexicalSettings.default with maxDocumentRatio := 1, minIdf := 1 }
    (build settings 0 countScale star).fanOut = [2, 1, 1] := by
  intro settings
  have holders : occurrences star =
      [("left", [⟨0, 1⟩, ⟨1, 1⟩]), ("right", [⟨0, 1⟩, ⟨2, 1⟩])] := by cbv
  have weighed (first second : Nat) :
      weigh settings 0 countScale star.length [⟨first, 1⟩, ⟨second, 1⟩] = some 1 := by
    simp [weigh, countScale, settings, star, Scalar.ofNat]
    norm_num
  have kept (second : Nat) : (([⟨0, 1⟩, ⟨second, 1⟩] : List Posting).mergeSort Posting.le).take
      settings.maxPostings = [⟨0, 1⟩, ⟨second, 1⟩] := by
    rw [List.mergeSort_of_pairwise (by simp [Posting.le])]
    rfl
  have entries : (build settings 0 countScale star).entries =
      [⟨"left", 1, [⟨0, 1⟩, ⟨1, 1⟩]⟩, ⟨"right", 1, [⟨0, 1⟩, ⟨2, 1⟩]⟩] := by
    simp only [build, holders, List.filterMap_cons, List.filterMap_nil, weighed, kept,
      Option.map_some]
  rw [fanOut, entries]
  rfl

/-- At the median the first of the three documents is the only hub, unless it is exempt.  At
three quarters none is one that is not one at the median. -/
theorem hubs_follow_percentile_of_star :
    let settings : LexicalSettings ℝ :=
      { LexicalSettings.default with maxDocumentRatio := 1, minIdf := 1 }
    let index := build settings 0 countScale star
    DistinctTerms star ∧ star ≠ [] ∧ 0 ∈ index.hubs (1 / 2) [] ∧
      (index.hubs (1 / 2) []).length ≤ 1 ∧ 0 ∉ index.hubs (1 / 2) [0] ∧
      index.hubs 1 [] = [] ∧ index.hubs (3 / 4) [2] ⊆ index.hubs (1 / 2) [2] := by
  intro settings index
  have distinct : DistinctTerms star := by
    intro document member
    fin_cases member
    · decide
    · decide
    · decide
  have nonempty : star ≠ [] := List.cons_ne_nil _ _
  rcases hubs_follow_percentile settings 0 countScale distinct nonempty with
    ⟨-, isHub_iff, -, few, whole, fewer⟩
  have place : max 1 ⌈(1 / 2 : ℝ) * star.length⌉₊ = 2 := by
    have half : ⌈(1 / 2 : ℝ) * star.length⌉₊ = 2 := by
      rw [Nat.ceil_eq_iff two_ne_zero]
      norm_num [star]
    rw [half]
    rfl
  have fans : index.fanOut = [2, 1, 1] := fanOut_star
  have ascending : [2, 1, 1].mergeSort (· ≤ ·) = [1, 1, 2] := by cbv
  have isHub := isHub_iff (1 / 2) [] (by norm_num) (by norm_num) 0
  have isExempt := isHub_iff (1 / 2) [0] (by norm_num) (by norm_num) 0
  rw [place, fans, ascending] at isHub
  have atMost := few (1 / 2) [] (by norm_num) (by norm_num)
  rw [place] at atMost
  refine ⟨distinct, nonempty, isHub.mpr ⟨List.not_mem_nil, 2, 1, rfl, rfl, by decide⟩, atMost,
    fun member => (isExempt.mp member).1 List.mem_cons_self, whole [], ?_⟩
  exact fewer (1 / 2) (3 / 4) [2] (by norm_num) (by norm_num) (by norm_num)

end ContextPack.Lexical.Index
