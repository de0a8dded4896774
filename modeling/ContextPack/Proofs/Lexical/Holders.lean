import ContextPack.Proofs.Lexical.Postings

namespace ContextPack.Lexical

/-!
# Holders of a term

A document lists a term once, so a term has one posting for each document that
holds it.  Sorting these puts the documents that hold it most often in front, and
nothing but their number decides whether an index keeps the term.
-/

open Scalar (lt ofNat)

/-- A document holds a term as often as a posting says. -/
def IsHolder (documents : List Document) (term : String) (posting : Posting) : Prop :=
  ∃ document, documents[posting.document]? = some document ∧ (term, posting.count) ∈ document

/-- How many documents hold a term. -/
def holderCount (documents : List Document) (term : String) : Nat :=
  documents.countP fun document => term ∈ document.map Prod.fst

/-- No document lists a term twice. -/
def DistinctTerms (documents : List Document) : Prop :=
  ∀ document ∈ documents, (document.map Prod.fst).Nodup

/-- The holder of a posting holds the term more often, or as often and comes
first. -/
def Posting.Before (first second : Posting) : Prop :=
  second.count < first.count ∨ first.count = second.count ∧ first.document < second.document

/-- The holders of a term, each once, those that hold it most often in front. -/
structure AreHolders (documents : List Document) (term : String) (holders : List Posting) :
    Prop where
  mem_iff : ∀ posting, posting ∈ holders ↔ IsHolder documents term posting
  inOrder : holders.Pairwise Posting.Before
  once : (holders.map Posting.document).Nodup

section Kept

variable {α : Type} [Analytic α]

/-- A term of some document that is neither too common nor too weak. -/
def IsKept (settings : LexicalSettings α) (scale : TermScale α) (documents : List Document)
    (term : String) : Prop :=
  (∃ document ∈ documents, term ∈ document.map Prod.fst) ∧
    lt settings.maxDocumentRatio
      (ofNat (holderCount documents term) / ofNat documents.length) = false ∧
    lt (scale.rarity documents.length (holderCount documents term)) settings.minIdf = false

end Kept

variable {documents : List Document} {term : String}

/-! ## Postings and documents -/

theorem mem_listed (occurrence : String × Posting) :
    occurrence ∈ listed documents ↔ IsHolder documents occurrence.1 occurrence.2 := by
  rcases occurrence with ⟨term, place, count⟩
  rw [listed, List.mem_flatMap]
  constructor
  · rintro ⟨⟨document, other⟩, placed, inDocument⟩
    rcases List.mem_map.mp inDocument with ⟨⟨term, count⟩, member, same⟩
    cases same
    exact ⟨document, List.mem_zipIdx_iff_getElem?.mp placed, member⟩
  · rintro ⟨document, placed, member⟩
    exact ⟨(document, place), List.mem_zipIdx_iff_getElem?.mpr placed,
      List.mem_map.mpr ⟨(term, count), member, rfl⟩⟩

theorem mem_postingsOf_listed (posting : Posting) :
    posting ∈ postingsOf term (listed documents) ↔ IsHolder documents term posting := by
  rw [postingsOf, List.mem_map]
  constructor
  · rintro ⟨⟨other, _⟩, member, rfl⟩
    rcases List.mem_filter.mp member with ⟨isListed, same⟩
    obtain rfl : other = term := of_decide_eq_true same
    exact (mem_listed _).mp isListed
  · intro isHolder
    have isListed : (term, posting) ∈ listed documents := (mem_listed _).mpr isHolder
    exact ⟨(term, posting), List.mem_filter.mpr ⟨isListed, decide_eq_true rfl⟩, rfl⟩

/-- The postings of one term are listed in the order of their documents. -/
theorem pairwise_listed (distinct : DistinctTerms documents) :
    (listed documents).Pairwise fun first second =>
      first.1 = second.1 → first.2.document < second.2.document := by
  rw [listed, List.pairwise_flatMap]
  constructor
  · rintro ⟨document, place⟩ placed
    have once := distinct document (List.fst_mem_of_mem_zipIdx placed)
    rw [List.pairwise_map]
    exact (List.pairwise_map.mp once).imp fun different same => absurd same different
  · have ascending : (documents.zipIdx.map Prod.snd).Pairwise (· < ·) := by
      rw [List.zipIdx_map_snd]
      exact List.pairwise_lt_range'
    refine (List.pairwise_map.mp ascending).imp ?_
    rintro ⟨first, place⟩ ⟨second, later⟩ before occurrence isFirst other isSecond -
    rcases List.mem_map.mp isFirst with ⟨_, -, rfl⟩
    rcases List.mem_map.mp isSecond with ⟨_, -, rfl⟩
    exact before

theorem pairwise_postingsOf_listed (distinct : DistinctTerms documents) (term : String) :
    (postingsOf term (listed documents)).Pairwise fun first second =>
      first.document < second.document := by
  rw [postingsOf, List.pairwise_map]
  refine ((pairwise_listed distinct).filter _).imp_of_mem fun isFirst isSecond before => before ?_
  have first := of_decide_eq_true (List.mem_filter.mp isFirst).2
  have second := of_decide_eq_true (List.mem_filter.mp isSecond).2
  exact first.trans second.symm

theorem nodup_documents_postingsOf_listed (distinct : DistinctTerms documents) (term : String) :
    ((postingsOf term (listed documents)).map Posting.document).Nodup :=
  List.pairwise_map.mpr ((pairwise_postingsOf_listed distinct term).imp ne_of_lt)

/-- A document that lists no term twice has one occurrence of each of its terms. -/
theorem countP_of_nodup {document : Document} (once : (document.map Prod.fst).Nodup) (term : String)
    (place : Nat) :
    (document.map fun (term, count) => (term, (⟨place, count⟩ : Posting))).countP
        (fun occurrence => occurrence.1 = term) =
      if term ∈ document.map Prod.fst then 1 else 0 := by
  rw [← once.count, List.count, List.countP_map, List.countP_map]
  congr 1

/-- Documents at whatever places have as many occurrences of a term as hold it. -/
theorem countP_placed {placed : List (Document × Nat)}
    (distinct : DistinctTerms (placed.map Prod.fst)) (term : String) :
    (placed.flatMap fun (document, place) =>
        document.map fun (term, count) => (term, (⟨place, count⟩ : Posting))).countP
      (fun occurrence => occurrence.1 = term) =
      holderCount (placed.map Prod.fst) term := by
  induction placed with
  | nil => rfl
  | cons first others inductionHypothesis =>
      rcases List.forall_mem_cons.mp distinct with ⟨once, later⟩
      rw [List.flatMap_cons, List.countP_append, countP_of_nodup once, inductionHypothesis later,
        holderCount, holderCount, List.map_cons, List.countP_cons, Nat.add_comm]
      simp only [decide_eq_true_eq]

/-- A term has as many postings as documents hold it. -/
theorem length_postingsOf_listed (distinct : DistinctTerms documents) (term : String) :
    (postingsOf term (listed documents)).length = holderCount documents term := by
  have places : documents.zipIdx.map Prod.fst = documents := List.zipIdx_map_fst 0 documents
  rw [postingsOf, List.length_map, ← List.countP_eq_length_filter, listed,
    countP_placed (places.symm ▸ distinct), places]

/-! ## Holders in order -/

/-- The comparison behind `Posting.le`. -/
def Posting.order : Posting → Posting → Ordering :=
  compareLex (fun first second => compare second.count first.count)
    (fun first second => compare first.document second.document)

theorem Posting.le_eq_isLE (first second : Posting) :
    Posting.le first second = (Posting.order first second).isLE := by
  rw [Posting.le, Posting.order, compareLex]
  rcases lt_trichotomy second.count first.count with more | same | fewer
  · simp [Nat.compare_eq_lt.mpr more, more]
  · rw [same, Bool.eq_iff_iff]
    simp [Nat.isLE_compare]
  · simp [Nat.compare_eq_gt.mpr fewer, fewer.not_gt, fewer.ne]

theorem Posting.order_eq_lt_iff (first second : Posting) :
    Posting.order first second = .lt ↔ first.Before second := by
  rw [Posting.order, compareLex, Ordering.then_eq_lt, Nat.compare_eq_lt, Nat.compare_eq_lt,
    Nat.compare_eq_eq, eq_comm, Posting.Before]

theorem Posting.document_eq_of_order (first second : Posting)
    (tie : Posting.order first second = .eq) : first.document = second.document := by
  rw [Posting.order, compareLex, Ordering.then_eq_eq] at tie
  exact Nat.compare_eq_eq.mp tie.2

instance : Std.TransCmp Posting.order := by
  have byCount : Std.TransCmp fun first second : Posting => compare second.count first.count :=
    @transCmp_of_key _ _ (fun first second : Nat => compare second first) inferInstance
      Posting.count
  have byDocument : Std.TransCmp fun first second : Posting =>
      compare first.document second.document := transCmp_of_key Posting.document
  exact inferInstanceAs (Std.TransCmp (compareLex _ _))

theorem areHolders_mergeSort (distinct : DistinctTerms documents) (term : String) :
    AreHolders documents term ((postingsOf term (listed documents)).mergeSort Posting.le) := by
  have once := nodup_documents_postingsOf_listed distinct term
  have sorted := pairwise_mergeSort_lt Posting.le_eq_isLE Posting.document_eq_of_order once
  refine ⟨fun posting => List.mem_mergeSort.trans (mem_postingsOf_listed posting), ?_, ?_⟩
  · exact sorted.imp fun {first second} before => (Posting.order_eq_lt_iff first second).mp before
  · exact ((List.mergeSort_perm _ Posting.le).map Posting.document).nodup_iff.mpr once

/-! ## Occurrences -/

/-- A term occurs with its postings, if it has any. -/
theorem mem_occurrences (group : String × List Posting) :
    group ∈ occurrences documents ↔
      group.2 = postingsOf group.1 (listed documents) ∧ group.2 ≠ [] := by
  have terms (term : String) : term ∈ (occurrences documents).map Prod.fst ↔
      term ∈ (listed documents).map Prod.fst := by
    refine (mem_map_fst_gatherPostings _ _).trans ?_
    exact ((List.mergeSort_perm _ _).map Prod.fst).mem_iff
  have whole := (occurrences_spec documents).2
  constructor
  · intro member
    refine ⟨whole group member, fun isNil => ?_⟩
    rcases List.mem_map.mp ((terms _).mp (List.mem_map_of_mem member)) with
      ⟨occurrence, isListed, same⟩
    have posting : occurrence.2 ∈ postingsOf group.1 (listed documents) := by
      rw [mem_postingsOf_listed, ← same]
      exact (mem_listed occurrence).mp isListed
    rw [← whole group member, isNil] at posting
    exact List.not_mem_nil posting
  · rintro ⟨arePostings, nonempty⟩
    rcases List.exists_mem_of_ne_nil _ nonempty with ⟨posting, member⟩
    rw [arePostings, mem_postingsOf_listed] at member
    have isListed : (group.1, posting) ∈ listed documents := (mem_listed _).mpr member
    have occurs := (terms group.1).mpr (List.mem_map.mpr ⟨_, isListed, rfl⟩)
    rcases List.mem_map.mp occurs with ⟨other, isGroup, same⟩
    have isOther : other = group :=
      Prod.ext same ((whole other isGroup).trans (same ▸ arePostings.symm))
    exact isOther ▸ isGroup

theorem postingsOf_listed_ne_nil_iff (distinct : DistinctTerms documents) (term : String) :
    postingsOf term (listed documents) ≠ [] ↔
      ∃ document ∈ documents, term ∈ document.map Prod.fst := by
  rw [← List.length_pos_iff, length_postingsOf_listed distinct, holderCount, List.countP_pos_iff]
  simp only [decide_eq_true_eq]

/-! ## What an index keeps of them -/

namespace Index

variable {α : Type}

/-- A sound index that posts no document twice for a term. -/
structure IsConsistent (index : Index α) : Prop extends index.IsSound where
  once : ∀ entry ∈ index.entries, (entry.postings.map Posting.document).Nodup

variable [Analytic α] (settings : LexicalSettings α) (rareThreshold : Nat) (scale : TermScale α)

/-- An entry is a term of some document that has a weight, with the first of its
holders. -/
theorem mem_entries_build {entry : Entry α} :
    entry ∈ (build settings rareThreshold scale documents).entries ↔
      ∃ group ∈ occurrences documents, group.1 = entry.term ∧
        weigh settings rareThreshold scale documents.length group.2 = some entry.weight ∧
        (group.2.mergeSort Posting.le).take settings.maxPostings = entry.postings := by
  rw [build, List.mem_filterMap]
  refine exists_congr fun group => and_congr_right fun _ => ?_
  rw [Option.map_eq_some_iff]
  constructor
  · rintro ⟨weight, isWeight, rfl⟩
    exact ⟨rfl, isWeight, rfl⟩
  · rintro ⟨isTerm, isWeight, arePostings⟩
    exact ⟨entry.weight, isWeight, by rw [isTerm, arePostings]⟩

theorem isSome_weigh_iff (documentCount : Nat) (postings : List Posting) :
    (weigh settings rareThreshold scale documentCount postings).isSome = true ↔
      lt settings.maxDocumentRatio (ofNat postings.length / ofNat documentCount) = false ∧
        lt (scale.rarity documentCount postings.length) settings.minIdf = false := by
  rw [weigh]
  split
  · next refused =>
      rw [Bool.or_eq_true] at refused
      rcases refused with common | weak
      · simp [common]
      · simp [weak]
  · next kept =>
      rw [Bool.not_eq_true, Bool.or_eq_false_iff] at kept
      refine iff_of_true ?_ kept
      split
      · rfl
      · rfl

/-- The terms of an index are those that are kept. -/
theorem exists_entry_iff (distinct : DistinctTerms documents) (term : String) :
    (∃ entry ∈ (build settings rareThreshold scale documents).entries, entry.term = term) ↔
      IsKept settings scale documents term := by
  have counted := length_postingsOf_listed distinct term
  have weighed := isSome_weigh_iff settings rareThreshold scale documents.length
    (postingsOf term (listed documents))
  rw [IsKept, ← postingsOf_listed_ne_nil_iff distinct, ← counted, ← weighed]
  simp only [mem_entries_build, mem_occurrences]
  constructor
  · rintro ⟨entry, ⟨group, ⟨arePostings, nonempty⟩, same, isWeight, -⟩, rfl⟩
    rw [arePostings, same] at nonempty isWeight
    exact ⟨nonempty, Option.isSome_iff_exists.mpr ⟨_, isWeight⟩⟩
  · rintro ⟨nonempty, hasWeight⟩
    rcases Option.isSome_iff_exists.mp hasWeight with ⟨weight, isWeight⟩
    exact ⟨⟨term, weight, _⟩, ⟨(term, _), ⟨rfl, nonempty⟩, rfl, isWeight, rfl⟩, rfl⟩

/-- An entry has the first of the holders of its term. -/
theorem exists_holders (distinct : DistinctTerms documents) {entry : Entry α}
    (member : entry ∈ (build settings rareThreshold scale documents).entries) :
    ∃ holders, AreHolders documents entry.term holders ∧
      entry.postings = holders.take settings.maxPostings := by
  rcases (mem_entries_build settings rareThreshold scale).mp member with
    ⟨group, isGroup, same, -, kept⟩
  have arePostings := ((mem_occurrences group).mp isGroup).1
  rw [same] at arePostings
  exact ⟨_, areHolders_mergeSort distinct entry.term, arePostings ▸ kept.symm⟩

theorem isConsistent_build (distinct : DistinctTerms documents) :
    (build settings rareThreshold scale documents).IsConsistent where
  toIsSound := isSound_build settings rareThreshold scale documents
  once := by
    intro entry member
    rcases exists_holders settings rareThreshold scale distinct member with ⟨holders, are, kept⟩
    rw [kept]
    exact ((List.take_sublist _ _).map _).nodup are.once

end Index

end ContextPack.Lexical
