import Mathlib.Analysis.SpecialFunctions.Sqrt
import ContextPack.Proofs.Lexical.Postings
import ContextPack.Proofs.Number.Real

namespace ContextPack.Lexical.Index

/-!
# Similarity is a cosine

Similarity is added up along postings, and divided by norms that are taken from
vectors.  Both are about the same numbers: what the vectors of the two documents
hold, term by term.  So without rounding the result is the cosine of the vectors,
which no order of the two documents changes and which cannot exceed one.
-/

section Definitions

variable {α : Type} (index : Index α)

/-- The terms of an index. -/
def terms : Finset String := (index.entries.map Entry.term).toFinset

/-- A document is among the postings of a term. -/
def IsPosted (term : String) (document : Nat) : Prop :=
  ∃ entry ∈ index.entries, entry.term = term ∧ ∃ posting ∈ entry.postings, posting.document = document

end Definitions

section Entries

variable {α : Type} [Analytic α] {index : Index α}

theorem mem_vector {document : Nat} {entry : Entry α} {value : α} :
    (entry, value) ∈ index.vector document ↔ entry ∈ index.entries ∧
      ∃ posting, posting? entry.postings document = some posting ∧
        index.scale.frequency posting.count * entry.weight = value := by
  rw [vector, List.mem_filterMap]
  constructor
  · rintro ⟨other, member, found⟩
    rcases Option.map_eq_some_iff.mp found with ⟨posting, isFound, same⟩
    rcases Prod.mk.inj same with ⟨rfl, isValue⟩
    exact ⟨member, posting, isFound, isValue⟩
  · rintro ⟨member, posting, found, rfl⟩
    exact ⟨entry, member, by rw [found, Option.map_some]⟩

theorem isSome_posting?_iff (postings : List Posting) (document : Nat) :
    (posting? postings document).isSome = true ↔ ∃ posting ∈ postings, posting.document = document := by
  rw [posting?, List.find?_isSome]
  simp only [beq_iff_eq]

omit [Analytic α] in
theorem IsSound.document_lt (sound : index.IsSound) {term : String} {document : Nat}
    (posted : index.IsPosted term document) : document < index.documentCount := by
  rcases posted with ⟨entry, member, -, posting, isPosting, rfl⟩
  exact sound.placed entry member posting isPosting

omit [Analytic α] in
/-- A sum over terms is a sum over entries. -/
theorem sum_terms {M : Type} [AddCommMonoid M] (sound : index.IsSound) {count : String → M}
    {countEntry : Entry α → M} (same : ∀ entry ∈ index.entries, count entry.term = countEntry entry) :
    ∑ term ∈ index.terms, count term = (index.entries.map countEntry).sum := by
  rw [terms, List.sum_toFinset count sound.nodup_terms, List.map_map]
  exact congrArg List.sum (List.map_congr_left same)

end Entries

variable (index : Index ℝ)

/-- What the vector of a document holds for a term, and zero for terms that it
does not hold. -/
noncomputable def stored (document : Nat) (term : String) : ℝ :=
  (((index.vector document).find? fun place => place.1.term = term).map Prod.snd).getD 0

/-- The length of a document's vector. -/
noncomputable def magnitude (document : Nat) : ℝ :=
  √(∑ term ∈ index.terms, index.stored document term ^ 2)

/-- The cosine of the vectors of two documents. -/
noncomputable def cosine (first second : Nat) : ℝ :=
  (∑ term ∈ index.terms, index.stored first term * index.stored second term) /
    (index.magnitude first * index.magnitude second)

/-! ## Terms and entries -/

/-- What an entry is worth in a document. -/
noncomputable def worth (document : Nat) (entry : Entry ℝ) : ℝ :=
  ((posting? entry.postings document).map fun posting =>
    index.scale.frequency posting.count * entry.weight).getD 0

variable {index}

theorem stored_term (sound : index.IsSound) {entry : Entry ℝ} (member : entry ∈ index.entries)
    (document : Nat) : index.stored document entry.term = index.worth document entry := by
  rw [stored, worth]
  cases found : (index.vector document).find? fun place => place.1.term = entry.term with
  | none =>
      cases isPosted : posting? entry.postings document with
      | none => rfl
      | some posting =>
          have inVector : (entry, index.scale.frequency posting.count * entry.weight) ∈
              index.vector document := mem_vector.mpr ⟨member, posting, isPosted, rfl⟩
          exact absurd (decide_eq_true rfl) (List.find?_eq_none.mp found _ inVector)
  | some place =>
      have sameTerm : place.1.term = entry.term := by simpa using List.find?_some found
      rcases mem_vector.mp (List.mem_of_find?_eq_some found) with ⟨isEntry, posting, isPosted, isValue⟩
      rw [sound.eq_of_term isEntry member sameTerm] at isPosted isValue
      rw [isPosted, Option.map_some, Option.map_some, Option.getD_some, Option.getD_some, isValue]

theorem norm_eq_magnitude (sound : index.IsSound) (document : Nat) :
    index.norm document = index.magnitude document := by
  have squares : ∑ term ∈ index.terms, index.stored document term ^ 2 =
      (index.entries.map fun entry => index.worth document entry ^ 2).sum :=
    sum_terms sound fun entry member => by rw [stored_term sound member]
  rw [norm, Scalar.sqrt_real, Scalar.sum_real, magnitude, squares, vector, sum_map_filterMap]
  congr 3
  funext entry
  rw [worth]
  cases posting? entry.postings document with
  | none => exact (zero_pow two_ne_zero).symm
  | some posting => exact (pow_two _).symm

/-! ## Common terms -/

/-- Two documents have a product for each entry with postings of both. -/
theorem products_eq (seed other : Nat) : products (index.vector seed) index.scale other =
    index.entries.filterMap fun entry =>
      (posting? entry.postings seed).bind fun first =>
        (posting? entry.postings other).map fun second =>
          index.scale.frequency first.count * entry.weight *
            index.scale.frequency second.count * entry.weight := by
  rw [products, vector, List.filterMap_filterMap]
  congr 1
  funext entry
  cases posting? entry.postings seed with
  | none => rfl
  | some posting => rfl

theorem products_eq_nil_iff (sound : index.IsSound) (seed other : Nat) :
    products (index.vector seed) index.scale other = [] ↔
      ¬∃ term, index.IsPosted term seed ∧ index.IsPosted term other := by
  rw [products_eq, List.filterMap_eq_nil_iff]
  constructor
  · rintro nothing ⟨term, ⟨entry, member, rfl, inSeed⟩, same, isEntry, sameTerm, inOther⟩
    rw [sound.eq_of_term isEntry member sameTerm, ← isSome_posting?_iff] at inOther
    rw [← isSome_posting?_iff] at inSeed
    rcases Option.isSome_iff_exists.mp inSeed with ⟨first, isFirst⟩
    rcases Option.isSome_iff_exists.mp inOther with ⟨second, isSecond⟩
    have product := nothing entry member
    rw [isFirst, isSecond] at product
    cases product
  · intro apart entry member
    cases isFirst : posting? entry.postings seed with
    | none => rfl
    | some first =>
        cases isSecond : posting? entry.postings other with
        | none => rfl
        | some second =>
            refine absurd ⟨entry.term, ⟨entry, member, rfl, ?_⟩, ⟨entry, member, rfl, ?_⟩⟩ apart
            · exact (isSome_posting?_iff _ _).mp (Option.isSome_iff_exists.mpr ⟨first, isFirst⟩)
            · exact (isSome_posting?_iff _ _).mp (Option.isSome_iff_exists.mpr ⟨second, isSecond⟩)

theorem sum_products (sound : index.IsSound) (seed other : Nat) :
    (products (index.vector seed) index.scale other).sum =
      ∑ term ∈ index.terms, index.stored seed term * index.stored other term := by
  have perEntry : ∑ term ∈ index.terms, index.stored seed term * index.stored other term =
      (index.entries.map fun entry => index.worth seed entry * index.worth other entry).sum :=
    sum_terms sound fun entry member => by rw [stored_term sound member, stored_term sound member]
  rw [perEntry, products_eq, ← List.map_id (List.filterMap _ _), sum_map_filterMap]
  congr 2
  funext entry
  rw [worth, worth]
  cases posting? entry.postings seed with
  | none => exact (zero_mul _).symm
  | some first =>
      cases posting? entry.postings other with
      | none => exact (mul_zero _).symm
      | some second => exact mul_assoc _ _ _

/-! ## The range of a cosine -/

theorem magnitude_nonneg (document : Nat) : 0 ≤ index.magnitude document := Real.sqrt_nonneg _

theorem cosine_comm (first second : Nat) : index.cosine first second = index.cosine second first := by
  rw [cosine, cosine, mul_comm (index.magnitude first)]
  congr 2
  funext term
  exact mul_comm _ _

/-- Cauchy and Schwarz. -/
theorem cosine_le_one (first second : Nat) : index.cosine first second ≤ 1 :=
  div_le_one_of_le₀ (Real.sum_mul_le_sqrt_mul_sqrt _ _ _)
    (mul_nonneg (magnitude_nonneg first) (magnitude_nonneg second))

/-- Documents with one vector are as similar as can be. -/
theorem cosine_eq_one {first second : Nat} (same : index.vector first = index.vector second)
    (nonzero : index.magnitude first ≠ 0) : index.cosine first second = 1 := by
  have alike (term : String) : index.stored first term = index.stored second term := by
    rw [stored, stored, same]
  have squares : 0 ≤ ∑ term ∈ index.terms, index.stored first term ^ 2 :=
    Finset.sum_nonneg fun term _ => sq_nonneg _
  have magnitude : index.magnitude second = index.magnitude first := by
    rw [Index.magnitude, Index.magnitude]
    simp only [alike]
  rw [cosine, magnitude, div_eq_one_iff_eq (mul_ne_zero nonzero nonzero), Index.magnitude,
    Real.mul_self_sqrt squares]
  simp only [pow_two, alike]

/-- Both documents hold a term with the weight of that term, so that no product
is negative whatever the weight is. -/
theorem cosine_nonneg (sound : index.IsSound) (positive : ∀ count, 0 < index.scale.frequency count)
    (first second : Nat) : 0 ≤ index.cosine first second := by
  have products : 0 ≤ ∑ term ∈ index.terms, index.stored first term * index.stored second term := by
    refine Finset.sum_nonneg fun term member => ?_
    rcases List.mem_map.mp (List.mem_toFinset.mp member) with ⟨entry, isEntry, rfl⟩
    rw [stored_term sound isEntry, stored_term sound isEntry, worth, worth]
    cases posting? entry.postings first with
    | none => exact (zero_mul _).ge
    | some posting =>
        cases posting? entry.postings second with
        | none => exact (mul_zero _).ge
        | some posting' =>
            calc (0 : ℝ)
              _ ≤ index.scale.frequency posting.count * index.scale.frequency posting'.count *
                    (entry.weight * entry.weight) :=
                  mul_nonneg (mul_pos (positive _) (positive _)).le (mul_self_nonneg _)
              _ = index.scale.frequency posting.count * entry.weight *
                    (index.scale.frequency posting'.count * entry.weight) := mul_mul_mul_comm _ _ _ _
  exact div_nonneg products (mul_nonneg (magnitude_nonneg first) (magnitude_nonneg second))

/-! ## Similarities -/

theorem norm_nonneg (document : Nat) : 0 ≤ index.norm document := Real.sqrt_nonneg _

/-- Norms that do not vanish give the cosine, which is not cut at one. -/
theorem similarityTo?_eq (sound : index.IsSound) {seed other : Nat}
    (common : ∃ term, index.IsPosted term seed ∧ index.IsPosted term other) :
    index.similarityTo? (index.vector seed) (index.norm seed) other =
      if index.norm seed ≠ 0 ∧ index.norm other ≠ 0 then some (index.cosine seed other) else none := by
  have products : (products (index.vector seed) index.scale other).isEmpty = false :=
    List.isEmpty_eq_false_iff.mpr fun isNil => (products_eq_nil_iff sound seed other).mp isNil common
  have range : index.cosine seed other ≤ 1 := cosine_le_one seed other
  rw [cosine, ← sum_products sound, List.sum_eq_foldl, ← norm_eq_magnitude sound,
    ← norm_eq_magnitude sound] at range ⊢
  have vanishes : 0 < index.norm seed * index.norm other ↔
      index.norm seed ≠ 0 ∧ index.norm other ≠ 0 := by
    rw [← mul_ne_zero_iff]
    exact (mul_nonneg (norm_nonneg seed) (norm_nonneg other)).lt_iff_ne'
  simp only [similarityTo?, products, Bool.false_eq_true, if_false, Scalar.zero_real, Scalar.lt_real,
    decide_eq_true_eq, Scalar.minimum_real, Scalar.one_real, min_eq_left range, vanishes]

/-- Without a common term there is nothing to compare. -/
theorem similarityTo?_eq_none (sound : index.IsSound) {seed other : Nat}
    (apart : ¬∃ term, index.IsPosted term seed ∧ index.IsPosted term other) :
    index.similarityTo? (index.vector seed) (index.norm seed) other = none := by
  rw [similarityTo?, (products_eq_nil_iff sound seed other).mpr apart]
  rfl

theorem mem_similarities_iff (sound : index.IsSound) (seed other : Nat) (value : ℝ) :
    (other, value) ∈ index.similarities seed ↔
      other ≠ seed ∧ (∃ term, index.IsPosted term seed ∧ index.IsPosted term other) ∧
        index.norm seed ≠ 0 ∧ index.norm other ≠ 0 ∧ value = index.cosine seed other := by
  rw [mem_similarities]
  by_cases common : ∃ term, index.IsPosted term seed ∧ index.IsPosted term other
  · rw [similarityTo?_eq sound common, Option.ite_none_right_eq_some, Option.some.injEq, and_assoc]
    rcases common with ⟨term, inSeed, inOther⟩
    constructor
    · rintro ⟨-, -, different, seedNorm, otherNorm, isValue⟩
      exact ⟨different, ⟨term, inSeed, inOther⟩, seedNorm, otherNorm, isValue.symm⟩
    · rintro ⟨different, -, seedNorm, otherNorm, isValue⟩
      exact ⟨sound.document_lt inSeed, sound.document_lt inOther, different, seedNorm, otherNorm,
        isValue.symm⟩
  · rw [similarityTo?_eq_none sound common]
    exact iff_of_false (fun claimed => nomatch claimed.2.2.2) fun claimed => common claimed.2.1

/-- The similarities of a document are the cosines of its vector to those of the
other documents that have a term in common with it, unless a vector vanishes.
They lie between zero and one, and either document of a pair gives the same. -/
theorem similarities_are_cosines (settings : LexicalSettings ℝ) (rareThreshold : Nat)
    {scale : TermScale ℝ} (positive : ∀ count, 0 < scale.frequency count)
    (documents : List Document) (seed : Nat) :
    let index := build settings rareThreshold scale documents
    ((index.similarities seed).map Prod.fst).Nodup ∧
      ∀ other value,
        ((other, value) ∈ index.similarities seed ↔
          other ≠ seed ∧ (∃ term, index.IsPosted term seed ∧ index.IsPosted term other) ∧
            index.norm seed ≠ 0 ∧ index.norm other ≠ 0 ∧ value = index.cosine seed other) ∧
        ((other, value) ∈ index.similarities seed → 0 ≤ value ∧ value ≤ 1) ∧
        ((other, value) ∈ index.similarities seed ↔
          (seed, value) ∈ index.similarities other) := by
  intro index
  have sound : index.IsSound := isSound_build settings rareThreshold scale documents
  refine ⟨nodup_map_fst_similarities index seed, fun other value => ?_⟩
  have exact (first second : Nat) := mem_similarities_iff sound first second value
  refine ⟨exact seed other, fun member => ?_, ?_⟩
  · rw [((exact seed other).mp member).2.2.2.2]
    exact ⟨cosine_nonneg sound positive seed other, cosine_le_one seed other⟩
  · rw [exact, exact, cosine_comm other]
    have swap : (∃ term, index.IsPosted term seed ∧ index.IsPosted term other) ↔
        ∃ term, index.IsPosted term other ∧ index.IsPosted term seed :=
      exists_congr fun term => and_comm
    rw [swap, ne_comm]
    tauto

/-- Two documents that are the same. -/
def twins : List Document := [[("merge", 2)], [("merge", 2)]]

/-- All terms are equally rare, and more occurrences are worth more. -/
noncomputable def countScale : TermScale ℝ := ⟨fun _ _ => 1, fun count => count + 1⟩

theorem similarities_are_cosines_of_twins :
    let settings : LexicalSettings ℝ := { LexicalSettings.default with maxDocumentRatio := 1, minIdf := 1 }
    (∀ count, 0 < countScale.frequency count) ∧
      (1, 1) ∈ (build settings 0 countScale twins).similarities 0 := by
  intro settings
  have positive : ∀ count, 0 < countScale.frequency count := fun count => Nat.cast_add_one_pos count
  have gathered : occurrences twins = [("merge", [⟨0, 2⟩, ⟨1, 2⟩])] := by
    rw [occurrences, List.mergeSort_of_pairwise (by decide)]
    rfl
  have entries : (build settings 0 countScale twins).entries = [⟨"merge", 1, [⟨0, 2⟩, ⟨1, 2⟩]⟩] := by
    have sorted : ([⟨0, 2⟩, ⟨1, 2⟩] : List Posting).mergeSort Posting.le = [⟨0, 2⟩, ⟨1, 2⟩] :=
      List.mergeSort_of_pairwise (by decide)
    have weighed : weigh settings 0 countScale twins.length [⟨0, 2⟩, ⟨1, 2⟩] = some 1 := by
      simp [weigh, countScale, settings, twins, Scalar.ofNat]
    simp only [build, gathered, List.filterMap_cons, weighed, sorted]
    rfl
  have same : (build settings 0 countScale twins).vector 0 =
      (build settings 0 countScale twins).vector 1 := by
    rw [vector, vector, entries]
    rfl
  have nonzero : (build settings 0 countScale twins).norm 0 ≠ 0 := by
    rw [norm, vector, entries]
    simp [posting?, build, countScale]
    norm_num
  refine ⟨positive, ?_⟩
  rw [((similarities_are_cosines settings 0 positive twins 0).2 1 1).1]
  refine ⟨by decide, ⟨"merge", ?_, ?_⟩, nonzero, ?_, ?_⟩
  · exact ⟨_, entries ▸ List.mem_cons_self, rfl, ⟨0, 2⟩, by decide, rfl⟩
  · exact ⟨_, entries ▸ List.mem_cons_self, rfl, ⟨1, 2⟩, by decide, rfl⟩
  · rwa [norm, ← same]
  · rw [norm_eq_magnitude (isSound_build settings 0 countScale twins)] at nonzero
    exact (cosine_eq_one same nonzero).symm

end ContextPack.Lexical.Index
