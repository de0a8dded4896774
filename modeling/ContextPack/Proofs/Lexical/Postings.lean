import ContextPack.Lexical.Index
import ContextPack.Proofs.Data.Sorting
import ContextPack.Proofs.Text.Order
import Mathlib.Data.List.Nodup

namespace ContextPack.Lexical

/-!
# Postings of a term

Occurrences sorted by term put those of one term side by side.  Gathering them
gives every term once, with all documents that hold it in their order, and what
an index keeps of a term are some of these.
-/

/-! ## Gathering -/

/-- The first gathered term is that of the first occurrence. -/
theorem head?_map_fst_gatherPostings (occurrences : List (String × Posting)) :
    ((gatherPostings occurrences).map Prod.fst).head? = (occurrences.map Prod.fst).head? := by
  rcases occurrences with _ | ⟨⟨term, posting⟩, rest⟩
  · rfl
  · rw [gatherPostings]
    split
    · rfl
    · split
      · rfl
      · rfl

/-- Gathering from a first occurrence on, by what the later ones give. -/
theorem gatherPostings_cons (term : String) (posting : Posting) (rest : List (String × Posting)) :
    (rest = [] ∧ gatherPostings ((term, posting) :: rest) = [(term, [posting])]) ∨
      ∃ next postings others, gatherPostings rest = (next, postings) :: others ∧
        (rest.map Prod.fst).head? = some next ∧
        gatherPostings ((term, posting) :: rest) =
          if next = term then (term, posting :: postings) :: others
          else (term, [posting]) :: (next, postings) :: others := by
  have start := head?_map_fst_gatherPostings rest
  cases gathered : gatherPostings rest with
  | nil =>
      rw [gathered] at start
      have isNil := List.map_eq_nil_iff.mp (List.head?_eq_none_iff.mp start.symm)
      exact Or.inl ⟨isNil, by rw [gatherPostings, gathered]⟩
  | cons group others =>
      rw [gathered] at start
      exact Or.inr ⟨group.1, group.2, others, rfl, start.symm, by rw [gatherPostings, gathered]⟩

/-- The postings of a term among occurrences, in their order. -/
def postingsOf (term : String) (occurrences : List (String × Posting)) : List Posting :=
  (occurrences.filter fun occurrence => occurrence.1 = term).map Prod.snd

theorem postingsOf_cons_self (term : String) (posting : Posting) (rest : List (String × Posting)) :
    postingsOf term ((term, posting) :: rest) = posting :: postingsOf term rest := by
  rw [postingsOf, List.filter_cons_of_pos (by simp), List.map_cons, postingsOf]

theorem postingsOf_cons_of_ne {term other : String} (different : other ≠ term) (posting : Posting)
    (rest : List (String × Posting)) :
    postingsOf term ((other, posting) :: rest) = postingsOf term rest := by
  rw [postingsOf, List.filter_cons_of_neg (by simpa using different), postingsOf]

theorem postingsOf_of_not_mem {term : String} {occurrences : List (String × Posting)}
    (absent : term ∉ occurrences.map Prod.fst) : postingsOf term occurrences = [] := by
  rw [postingsOf, List.map_eq_nil_iff, List.filter_eq_nil_iff]
  exact fun occurrence member same => absent (of_decide_eq_true same ▸ List.mem_map_of_mem member)

@[simp] theorem mem_map_fst_gatherPostings (term : String) (occurrences : List (String × Posting)) :
    term ∈ (gatherPostings occurrences).map Prod.fst ↔ term ∈ occurrences.map Prod.fst := by
  induction occurrences with
  | nil => rfl
  | cons first rest inductionHypothesis =>
      rcases gatherPostings_cons first.1 first.2 rest with
        ⟨rfl, single⟩ | ⟨next, postings, others, gathered, -, more⟩
      · rw [single]
        rfl
      · rw [gathered, List.map_cons, List.mem_cons] at inductionHypothesis
        rw [more, List.map_cons, List.mem_cons, ← inductionHypothesis]
        split
        · next same =>
            rw [List.map_cons, List.mem_cons, same]
            exact or_self_left.symm
        · rw [List.map_cons, List.mem_cons, List.map_cons, List.mem_cons]

/-- From ascending occurrences each term is gathered once, with all its
postings. -/
theorem gatherPostings_spec {occurrences : List (String × Posting)}
    (ascending : (occurrences.map Prod.fst).Pairwise (· ≤ ·)) :
    ((gatherPostings occurrences).map Prod.fst).Pairwise (· < ·) ∧
      ∀ group ∈ gatherPostings occurrences, group.2 = postingsOf group.1 occurrences := by
  induction occurrences with
  | nil => exact ⟨List.Pairwise.nil, nofun⟩
  | cons first rest inductionHypothesis =>
      rcases first with ⟨term, posting⟩
      rcases List.pairwise_cons.mp ascending with ⟨least, later⟩
      rcases inductionHypothesis later with ⟨inOrder, whole⟩
      rcases gatherPostings_cons term posting rest with
        ⟨rfl, single⟩ | ⟨next, postings, others, gathered, start, more⟩
      · rw [single]
        refine ⟨List.pairwise_singleton _ term, fun group member => ?_⟩
        rw [List.mem_singleton.mp member, postingsOf_cons_self]
        rfl
      · have onlyThese (other : String) := mem_map_fst_gatherPostings other rest
        rw [gathered, List.map_cons] at inOrder onlyThese
        rw [gathered] at whole
        rcases List.pairwise_cons.mp inOrder with ⟨nextLeast, -⟩
        have notBehind : term ≤ next := least next (List.mem_of_mem_head? start)
        rw [more]
        split
        · next same =>
            subst same
            refine ⟨inOrder, fun group member => ?_⟩
            rcases List.mem_cons.mp member with rfl | other
            · rw [postingsOf_cons_self, ← whole (next, postings) List.mem_cons_self]
            · have below : next < group.1 := nextLeast group.1 (List.mem_map_of_mem other)
              rw [postingsOf_cons_of_ne below.ne]
              exact whole group (List.mem_cons_of_mem _ other)
        · next different =>
            have below : term < next := lt_of_le_of_ne notBehind (Ne.symm different)
            -- The next term is the least of the others, so this one does not come again.
            have first : ∀ other ∈ next :: others.map Prod.fst, term < other := by
              intro other member
              rcases List.mem_cons.mp member with rfl | deeper
              · exact below
              · exact below.trans (nextLeast other deeper)
            have absent : term ∉ rest.map Prod.fst := fun member =>
              lt_irrefl term (first term ((onlyThese term).mpr member))
            refine ⟨List.pairwise_cons.mpr ⟨first, inOrder⟩, fun group member => ?_⟩
            rcases List.mem_cons.mp member with rfl | other
            · rw [postingsOf_cons_self, postingsOf_of_not_mem absent]
            · have behind : term < group.1 := first group.1 (List.mem_map_of_mem other)
              rw [postingsOf_cons_of_ne behind.ne]
              exact whole group other

/-! ## Occurrences in documents -/

/-- All occurrences, document by document. -/
def listed (documents : List Document) : List (String × Posting) :=
  documents.zipIdx.flatMap fun (document, place) =>
    document.map fun (term, count) => (term, (⟨place, count⟩ : Posting))

theorem document_lt_of_mem_listed {documents : List Document} {occurrence : String × Posting}
    (member : occurrence ∈ listed documents) : occurrence.2.document < documents.length := by
  rcases List.mem_flatMap.mp member with ⟨⟨document, place⟩, placed, inDocument⟩
  rcases List.mem_map.mp inDocument with ⟨⟨term, count⟩, -, rfl⟩
  have bound := List.snd_lt_add_of_mem_zipIdx placed
  rwa [Nat.zero_add] at bound

/-- Every term of a document is listed once, with its holders in their order. -/
theorem occurrences_spec (documents : List Document) :
    ((occurrences documents).map Prod.fst).Pairwise (· < ·) ∧
      ∀ group ∈ occurrences documents, group.2 = postingsOf group.1 (listed documents) := by
  rcases gatherPostings_spec (Text.pairwise_map_mergeSort Prod.fst (listed documents)) with
    ⟨inOrder, whole⟩
  refine ⟨inOrder, fun group member => ?_⟩
  rw [postingsOf, ← Text.filter_mergeSort_key]
  exact whole group member

/-! ## What an index keeps -/

namespace Index

variable {α : Type}

/-- An index with each term once, whose postings are of its documents. -/
structure IsSound (index : Index α) : Prop where
  ascending : (index.entries.map Entry.term).Pairwise (· < ·)
  placed : ∀ entry ∈ index.entries, ∀ posting ∈ entry.postings,
    posting.document < index.documentCount

namespace IsSound

variable {index : Index α}

theorem nodup_terms (sound : index.IsSound) : (index.entries.map Entry.term).Nodup :=
  sound.ascending.imp fun below => below.ne

theorem eq_of_term (sound : index.IsSound) {first second : Entry α} (isFirst : first ∈ index.entries)
    (isSecond : second ∈ index.entries) (same : first.term = second.term) : first = second :=
  List.inj_on_of_nodup_map sound.nodup_terms isFirst isSecond same

end IsSound

variable [Analytic α]

theorem isSound_build (settings : LexicalSettings α) (rareThreshold : Nat) (scale : TermScale α)
    (documents : List Document) : (build settings rareThreshold scale documents).IsSound := by
  rcases occurrences_spec documents with ⟨ascending, whole⟩
  refine ⟨?_, fun entry member posting isKept => ?_⟩
  · refine List.pairwise_map.mpr ((List.pairwise_map.mp ascending).filterMap _ ?_)
    intro first second below entry isFirst other isSecond
    rcases Option.map_eq_some_iff.mp isFirst with ⟨-, -, rfl⟩
    rcases Option.map_eq_some_iff.mp isSecond with ⟨-, -, rfl⟩
    exact below
  · rcases List.mem_filterMap.mp member with ⟨group, isGroup, weighed⟩
    rcases Option.map_eq_some_iff.mp weighed with ⟨weight, -, rfl⟩
    have isPosting : posting ∈ postingsOf group.1 (listed documents) := by
      rw [← whole group isGroup]
      exact List.mem_mergeSort.mp (List.mem_of_mem_take isKept)
    rcases List.mem_map.mp isPosting with ⟨occurrence, isListed, rfl⟩
    exact document_lt_of_mem_listed (List.mem_filter.mp isListed).1

/-! ## Documents that are compared -/

/-- No document is compared twice. -/
theorem nodup_map_fst_similarities (index : Index α) (seed : Nat) :
    ((index.similarities seed).map Prod.fst).Nodup := by
  rw [similarities]
  split
  · refine (map_filterMap_sublist (fun other pair isPair => ?_) _).nodup List.nodup_range
    split at isPair
    · cases isPair
    · rcases Option.map_eq_some_iff.mp isPair with ⟨-, -, rfl⟩
      rfl
  · exact List.nodup_nil

theorem mem_similarities {index : Index α} {seed other : Nat} {value : α} :
    (other, value) ∈ index.similarities seed ↔
      seed < index.documentCount ∧ other < index.documentCount ∧ other ≠ seed ∧
        index.similarityTo? (index.vector seed) (index.norm seed) other = some value := by
  rw [similarities]
  by_cases isDocument : seed < index.documentCount
  · rw [if_pos isDocument, List.mem_filterMap]
    constructor
    · rintro ⟨place, inRange, isFound⟩
      split at isFound
      · cases isFound
      · next different =>
          rcases Option.map_eq_some_iff.mp isFound with ⟨similarity, isSimilarity, same⟩
          rcases Prod.mk.inj same with ⟨rfl, rfl⟩
          exact ⟨isDocument, List.mem_range.mp inRange, different, isSimilarity⟩
    · rintro ⟨-, inRange, different, isSimilarity⟩
      refine ⟨other, List.mem_range.mpr inRange, ?_⟩
      rw [if_neg different, isSimilarity, Option.map_some]
  · rw [if_neg isDocument]
    exact iff_of_false List.not_mem_nil fun claimed => isDocument claimed.1

end Index

end ContextPack.Lexical
