import ContextPack.Proofs.Lexical.Tables

namespace ContextPack.Lexical

/-!
# Filling the tables of an index

The tables of an index are filled in separate passes over its documents: weights are
given to terms, documents are posted for the terms that have one, and vectors are made
of the postings that are left.  All passes agree on the terms that are kept and on the
documents that each of these is posted for.
-/

open Scalar (ofNat)

/-! ## The passes -/

section Filled

theorem listed_map_filter (documents : List Document) (keep : String → Bool) :
    listed (documents.map fun document => document.filter fun (term, _) => keep term) =
      (listed documents).filter fun occurrence => keep occurrence.1 := by
  rw [listed, listed, List.zipIdx_map, List.flatMap_map, List.filter_flatMap]
  congr 1
  funext place
  rw [List.filter_map]
  rfl

theorem postingsOf_filter {keep : String → Bool} {term : String} (isKept : keep term = true)
    (occurrences : List (String × Posting)) :
    postingsOf term (occurrences.filter fun occurrence => keep occurrence.1) =
      postingsOf term occurrences := by
  rw [postingsOf, postingsOf, List.filter_filter]
  congr 2
  funext occurrence
  by_cases same : occurrence.1 = term
  · simp [same, isKept]
  · simp [same]

theorem postingsOf_filter_of_not {keep : String → Bool} {term : String}
    (dropped : keep term = false) (occurrences : List (String × Posting)) :
    postingsOf term (occurrences.filter fun occurrence => keep occurrence.1) = [] := by
  apply postingsOf_of_not_mem
  intro member
  rcases List.mem_map.mp member with ⟨occurrence, isKept, rfl⟩
  rw [(List.mem_filter.mp isKept).2] at dropped
  cases dropped

/-- Dropping terms from the documents drops what is gathered for them. -/
theorem occurrences_map_filter (documents : List Document) (keep : String → Bool) :
    occurrences (documents.map fun document => document.filter fun (term, _) => keep term) =
      (occurrences documents).filter fun group => keep group.1 := by
  have : Std.Antisymm fun first second : String × List Posting => first.1 < second.1 :=
    ⟨fun _ _ before after => absurd after (lt_asymm before)⟩
  have : Std.Irrefl fun first second : String × List Posting => first.1 < second.1 :=
    ⟨fun group => lt_irrefl group.1⟩
  have ascending (documents : List Document) : (occurrences documents).Pairwise fun first second =>
      first.1 < second.1 := List.pairwise_map.mp (occurrences_spec documents).1
  -- Both lists ascend by term, so they are equal if they have the same groups.
  refine (ascending _).eq_of_mem_iff ((ascending documents).filter _) fun group => ?_
  rw [mem_occurrences, listed_map_filter, List.mem_filter, mem_occurrences]
  cases isKept : keep group.1 with
  | true =>
      rw [postingsOf_filter isKept, eq_self, and_true]
  | false =>
      rw [postingsOf_filter_of_not isKept]
      simp

variable {α : Type} [Analytic α] (settings : LexicalSettings α) (rareThreshold : Nat)
  (scale : TermScale α) (documents : List Document)

theorem weigh_eq : Tables.weigh settings rareThreshold scale documents =
    (Index.build settings rareThreshold scale documents).tables.weights := by
  simp only [Tables.weigh, Index.tables, Index.build, List.map_filterMap, Option.map_map]
  rfl

/-- A term has the weight that its postings give it. -/
theorem lookup_weigh {group : String × List Posting} (member : group ∈ occurrences documents) :
    (Tables.weigh settings rareThreshold scale documents).lookup group.1 =
      Index.weigh settings rareThreshold scale documents.length group.2 := by
  have once : ((Tables.weigh settings rareThreshold scale documents).map Prod.fst).Nodup := by
    rw [weigh_eq, Index.tables, List.map_map]
    exact (Index.isSound_build settings rareThreshold scale documents).nodup_terms
  ext weight
  rw [lookup_eq_some_iff_mem once, Tables.weigh, List.mem_filterMap]
  constructor
  · rintro ⟨other, isGroup, isRow⟩
    rcases Option.map_eq_some_iff.mp isRow with ⟨found, isWeight, same⟩
    rcases Prod.mk.inj same with ⟨sameTerm, rfl⟩
    have samePostings : other.2 = group.2 := by
      rw [((mem_occurrences other).mp isGroup).1, ((mem_occurrences group).mp member).1, sameTerm]
    rwa [samePostings] at isWeight
  · intro isWeight
    exact ⟨group, member, Option.map_eq_some_iff.mpr ⟨weight, isWeight, rfl⟩⟩

/-- A term is posted if it has a weight, which it has if an index has an entry for it. -/
theorem post_eq :
    Tables.post settings (Tables.weigh settings rareThreshold scale documents) documents =
      (Index.build settings rareThreshold scale documents).tables.postings := by
  rw [Tables.post, occurrences_map_filter documents fun term =>
    ((Tables.weigh settings rareThreshold scale documents).lookup term).isSome,
    Index.tables_postings, Index.build, List.map_filterMap, ← List.filterMap_eq_map,
    List.filterMap_filter]
  refine List.filterMap_congr fun group member => ?_
  rw [lookup_weigh settings rareThreshold scale documents member]
  rcases group with ⟨term, postings⟩
  dsimp only
  cases Index.weigh settings rareThreshold scale documents.length postings with
  | none => rfl
  | some weight => rfl

variable {documents}

theorem build?_eq (distinct : DistinctTerms documents) :
    Tables.build? settings rareThreshold scale documents =
      some (Index.build settings rareThreshold scale documents).tables := by
  have filled := fill?_tables (Index.isConsistent_build settings rareThreshold scale distinct)
  rw [Tables.build?, post_eq, weigh_eq]
  refine (congrArg (Option.bind · _) filled).trans ?_
  rw [Option.bind_some, map_norm_vectors]
  rfl

/-! ## Agreement -/

/-- Tables that agree with the documents that they are filled from, and with each
other. -/
structure Tables.Agree (settings : LexicalSettings α) (scale : TermScale α)
    (documents : List Document) (tables : Tables α) : Prop where
  weighed_iff : ∀ term,
    (tables.weights.lookup term).isSome = true ↔ IsKept settings scale documents term
  posted_iff : ∀ term,
    (tables.postings.lookup term).isSome = true ↔ IsKept settings scale documents term
  first : ∀ term postings, tables.postings.lookup term = some postings →
    ∃ holders, AreHolders documents term holders ∧ postings = holders.take settings.maxPostings
  vectors : ∀ document < documents.length, ∃ vector, tables.vectors[document]? = some vector ∧
    (vector.map Prod.fst).Pairwise (· < ·) ∧
    ∀ term, term ∈ vector.map Prod.fst ↔ ∃ postings,
      tables.postings.lookup term = some postings ∧ document ∈ postings.map Posting.document

theorem pairwise_terms_vector {index : Index α} (sound : index.IsSound) (document : Nat) :
    ((index.vector document).map fun place => place.1.term).Pairwise (· < ·) := by
  refine List.pairwise_map.mpr ((List.pairwise_map.mp sound.ascending).filterMap _ ?_)
  intro first second before place isFirst other isSecond
  rcases Option.map_eq_some_iff.mp isFirst with ⟨-, -, rfl⟩
  rcases Option.map_eq_some_iff.mp isSecond with ⟨-, -, rfl⟩
  exact before

/-- A vector has the terms that its document is posted for. -/
theorem mem_terms_vector {index : Index α} (document : Nat) (term : String) :
    (term ∈ (index.vector document).map fun place => place.1.term) ↔
      index.IsPosted term document := by
  rw [List.mem_map]
  constructor
  · rintro ⟨⟨entry, value⟩, member, rfl⟩
    rcases Index.mem_vector.mp member with ⟨isEntry, posting, isFound, -⟩
    refine ⟨entry, isEntry, rfl, ?_⟩
    exact (Index.isSome_posting?_iff _ _).mp (Option.isSome_iff_exists.mpr ⟨posting, isFound⟩)
  · rintro ⟨entry, isEntry, rfl, isPosted⟩
    rw [← Index.isSome_posting?_iff] at isPosted
    rcases Option.isSome_iff_exists.mp isPosted with ⟨posting, isFound⟩
    exact ⟨(entry, _), Index.mem_vector.mpr ⟨isEntry, posting, isFound, rfl⟩, rfl⟩

theorem agree_build (distinct : DistinctTerms documents) :
    (Index.build settings rareThreshold scale documents).tables.Agree settings scale documents := by
  have sound := Index.isSound_build settings rareThreshold scale documents
  constructor
  case weighed_iff =>
    intro term
    rw [Index.tables_weights, isSome_lookup_entries sound]
    exact Index.exists_entry_iff settings rareThreshold scale distinct term
  case posted_iff =>
    intro term
    rw [Index.tables_postings, isSome_lookup_entries sound]
    exact Index.exists_entry_iff settings rareThreshold scale distinct term
  case first =>
    intro term postings found
    rw [Index.tables_postings, lookup_entries sound] at found
    rcases found with ⟨entry, member, rfl, rfl⟩
    exact Index.exists_holders settings rareThreshold scale distinct member
  case vectors =>
    intro document isDocument
    refine ⟨_, getElem?_vectors isDocument, ?_, fun term => ?_⟩
    · rw [List.map_map]
      exact pairwise_terms_vector sound document
    · rw [List.map_map]
      refine (mem_terms_vector document term).trans ?_
      simp only [Index.tables_postings, lookup_entries sound, List.mem_map]
      constructor
      · rintro ⟨entry, member, isTerm, isPosted⟩
        exact ⟨_, ⟨entry, member, isTerm, rfl⟩, isPosted⟩
      · rintro ⟨_, ⟨entry, member, isTerm, rfl⟩, isPosted⟩
        exact ⟨entry, member, isTerm, isPosted⟩

/-- Filling the tables of an index succeeds and gives tables that agree, and what is
computed by reading them is what the index says, whatever document is asked for. -/
theorem build_fills_tables (distinct : DistinctTerms documents) :
    let index := Index.build settings rareThreshold scale documents
    Tables.build? settings rareThreshold scale documents = some index.tables ∧
      index.tables.Agree settings scale documents ∧
      (∀ seed, index.tables.similarities? seed = some (index.similarities seed)) ∧
      index.tables.fanOut? = some index.fanOut := by
  intro index
  have consistent : index.IsConsistent :=
    Index.isConsistent_build settings rareThreshold scale distinct
  exact ⟨build?_eq settings rareThreshold scale distinct,
    agree_build settings rareThreshold scale distinct,
    similarities?_tables consistent, fanOut?_tables consistent⟩

end Filled

/-- Documents that could be posted for a term are not, if nothing may be posted.  The
term is in the tables all the same. -/
theorem build_fills_tables_of_twins :
    let settings : LexicalSettings ℝ :=
      { LexicalSettings.default with maxDocumentRatio := 1, minIdf := 1, maxPostings := 0 }
    DistinctTerms Index.twins ∧ ∃ tables,
      Tables.build? settings 0 Index.countScale Index.twins = some tables ∧
        tables.postings.lookup "merge" = some [] ∧
        (∃ similarities, tables.similarities? 0 = some similarities) ∧
        ∃ fans, tables.fanOut? = some fans := by
  intro settings
  have distinct : DistinctTerms Index.twins := by
    intro document member
    fin_cases member
    · decide
    · decide
  have kept : IsKept settings Index.countScale Index.twins "merge" := by
    have holders : holderCount Index.twins "merge" = 2 := by decide
    have count : Index.twins.length = 2 := rfl
    refine ⟨by decide, ?_, ?_⟩
    · rw [holders, count]
      simp [settings, ofNat]
    · simp [settings, Index.countScale]
  rcases build_fills_tables settings 0 Index.countScale distinct with ⟨built, agree, similar, fans⟩
  rcases Option.isSome_iff_exists.mp ((agree.posted_iff "merge").mpr kept) with ⟨postings, found⟩
  rcases agree.first "merge" postings found with ⟨holders, -, nothing⟩
  refine ⟨distinct, _, built, ?_, ⟨_, similar 0⟩, ⟨_, fans⟩⟩
  rw [found, nothing]
  rfl

end ContextPack.Lexical
