import ContextPack.Proofs.Data.Sorting
import ContextPack.Proofs.Lexical.Cosine
import ContextPack.Proofs.Lexical.Holders

namespace ContextPack.Lexical

/-!
# Tables of an index

An index may be kept in tables, weights and postings by term, vectors and norms by
document.  A term is then looked up because another table has it, and a document
because a posting names it, and such a reading could find nothing.  In the tables of
an index it never does, and what is computed from them is what the index says.
-/

open Scalar (lt zero one ofNat)

/-- What an index knows, by term and by document. -/
structure Tables (α : Type) where
  documentCount : Nat
  weights : List (String × α)
  postings : List (String × List Posting)
  vectors : List (List (String × α))
  norms : List α
  scale : TermScale α

/-- Changes the row at a place, if there is one. -/
def change? {β : Type} (rows : List β) (place : Nat) (change : β → β) : Option (List β) :=
  rows[place]?.map fun row => rows.set place (change row)

namespace Tables

variable {α : Type} [Analytic α]

/-! ## Filling tables -/

/-- The weights of terms that are neither too common nor too weak. -/
def weigh (settings : LexicalSettings α) (rareThreshold : Nat) (scale : TermScale α)
    (documents : List Document) : List (String × α) :=
  (occurrences documents).filterMap fun (term, postings) =>
    (Index.weigh settings rareThreshold scale documents.length postings).map fun weight =>
      (term, weight)

/-- The postings of terms that have a weight, as many as an index keeps. -/
def post (settings : LexicalSettings α) (weights : List (String × α)) (documents : List Document) :
    List (String × List Posting) :=
  let weighed := documents.map fun document =>
    document.filter fun (term, _) => (weights.lookup term).isSome
  (occurrences weighed).map fun (term, postings) =>
    (term, (postings.mergeSort Posting.le).take settings.maxPostings)

/-- The vectors of documents: each term is added, one after another, to those of the
documents that are posted for it. -/
def fill? (scale : TermScale α) (documentCount : Nat) (weights : List (String × α))
    (postings : List (String × List Posting)) : Option (List (List (String × α))) :=
  postings.foldlM
    (fun vectors (term, posted) => do
      let weight ← weights.lookup term
      posted.foldlM
        (fun vectors posting => change? vectors posting.document fun vector =>
          vector ++ [(term, scale.frequency posting.count * weight)])
        vectors)
    (List.replicate documentCount [])

/-- Fills all tables, each from those before it. -/
def build? (settings : LexicalSettings α) (rareThreshold : Nat) (scale : TermScale α)
    (documents : List Document) : Option (Tables α) := do
  let weights := weigh settings rareThreshold scale documents
  let postings := post settings weights documents
  let vectors ← fill? scale documents.length weights postings
  let norms := vectors.map fun vector =>
    Analytic.sqrt (Scalar.sum (vector.map fun (_, value) => value * value))
  return { documentCount := documents.length, weights, postings, vectors, norms, scale }

/-! ## Reading tables -/

/-- Adds to the number of a document, which is zero if it has none so far. -/
def addDot (dots : Std.TreeMap Nat α) (document : Nat) (product : α) : Std.TreeMap Nat α :=
  dots.insert document (dots[document]?.getD zero + product)

/-- What one term adds to the dot products with the documents that are posted for it.  The
document itself is left out. -/
def addProducts (scale : TermScale α) (seed : Nat) (dots : Std.TreeMap Nat α)
    (entry : Entry α) (value : α) : Std.TreeMap Nat α :=
  entry.postings.foldl
    (fun dots posting =>
      if posting.document = seed then dots
      else addDot dots posting.document (value * scale.frequency posting.count * entry.weight))
    dots

/-- The dot products of a document's vector with those of the documents that share a term with
it, added up term by term and posting by posting. -/
def dots? (tables : Tables α) (seed : Nat) (vector : List (String × α)) :
    Option (Std.TreeMap Nat α) :=
  vector.foldlM
    (fun dots (term, value) => do
      let weight ← tables.weights.lookup term
      let postings ← tables.postings.lookup term
      return addProducts tables.scale seed dots ⟨term, weight, postings⟩ value)
    ∅

/-- The similarities of a document, with what is found in the tables.  There are none
for a document without a vector. -/
def similarities? (tables : Tables α) (seed : Nat) : Option (List (Nat × α)) :=
  match tables.vectors[seed]? with
  | none => some []
  | some vector => do
    let dots ← tables.dots? seed vector
    let norm ← tables.norms[seed]?
    let similarities ← dots.toList.mapM fun (other, dot) => do
      let otherNorm ← tables.norms[other]?
      let norms := norm * otherNorm
      return if lt zero norms then some (other, Scalar.minimum (dot / norms) one) else none
    return similarities.filterMap id

/-- The fan-outs of all documents, added up posting by posting. -/
def fanOut? (tables : Tables α) : Option (List Nat) :=
  tables.postings.foldlM
    (fun fans (_, posted) =>
      posted.foldlM
        (fun fans posting => change? fans posting.document (· + (posted.length - 1)))
        fans)
    (List.replicate tables.documentCount 0)

end Tables

/-! ## Changing rows -/

section Rows

variable {β γ : Type}

/-- In rows with a row for each document, the row of one document is changed. -/
theorem change?_map_range {count place : Nat} (isPlace : place < count) (row : Nat → β)
    (change : β → β) :
    change? ((List.range count).map row) place change =
      some ((List.range count).map (Function.update row place (change (row place)))) := by
  have found : ((List.range count).map row)[place]? = some (row place) := by
    rw [List.getElem?_map, List.getElem?_range isPlace, Option.map_some]
  rw [change?, found, Option.map_some]
  congr 1
  apply List.ext_getElem
  · simp
  · intro document _ _
    by_cases same : place = document
    · subst same
      simp
    · simp [same, Ne.symm same]

/-- What becomes of the row of a document when each posting changes the row of its
document. -/
def changed (change : Posting → β → β) (postings : List Posting) (document : Nat) (row : β) : β :=
  (Index.posting? postings document).elim row fun posting => change posting row

theorem changed_cons_self (change : Posting → β → β) (posting : Posting) (postings : List Posting)
    (row : β) :
    changed change (posting :: postings) posting.document row = change posting row := by
  simp [changed, Index.posting?]

theorem changed_cons_of_ne (change : Posting → β → β) {posting : Posting} {document : Nat}
    (different : posting.document ≠ document) (postings : List Posting) (row : β) :
    changed change (posting :: postings) document row = changed change postings document row := by
  simp [changed, Index.posting?, different]

theorem changed_of_not_mem (change : Posting → β → β) {postings : List Posting} {document : Nat}
    (absent : document ∉ postings.map Posting.document) (row : β) :
    changed change postings document row = row := by
  have notFound : Index.posting? postings document = none := by
    rw [Index.posting?, List.find?_eq_none]
    intro posting member same
    exact absent (List.mem_map.mpr ⟨posting, member, eq_of_beq same⟩)
  rw [changed, notFound, Option.elim_none]

/-- Postings of different documents change different rows, none of which is missing. -/
theorem foldlM_change? (change : Posting → β → β) {postings : List Posting} {count : Nat}
    (once : (postings.map Posting.document).Nodup)
    (placed : ∀ posting ∈ postings, posting.document < count) (row : Nat → β) :
    postings.foldlM (fun rows posting => change? rows posting.document (change posting))
        ((List.range count).map row) =
      some ((List.range count).map fun document =>
        changed change postings document (row document)) := by
  induction postings generalizing row with
  | nil => rfl
  | cons posting others inductionHypothesis =>
      rcases List.nodup_cons.mp once with ⟨absent, later⟩
      rcases List.forall_mem_cons.mp placed with ⟨isPlace, laterPlaced⟩
      rw [List.foldlM_cons, change?_map_range isPlace, Option.bind_eq_bind, Option.bind_some,
        inductionHypothesis later laterPlaced]
      congr 2
      funext document
      by_cases same : document = posting.document
      · subst same
        rw [Function.update_self, changed_of_not_mem change absent, changed_cons_self]
      · rw [Function.update_of_ne same, changed_cons_of_ne change (Ne.symm same)]

/-- If each group changes the row of a document in its way, all groups together change
it one after another. -/
theorem foldlM_rows {step : List β → γ → Option (List β)} {count : Nat} {groups : List γ}
    (part : γ → Nat → β → β)
    (steps : ∀ group ∈ groups, ∀ row : Nat → β, step ((List.range count).map row) group =
      some ((List.range count).map fun document => part group document (row document)))
    (row : Nat → β) :
    groups.foldlM step ((List.range count).map row) =
      some ((List.range count).map fun document =>
        groups.foldl (fun held group => part group document held) (row document)) := by
  induction groups generalizing row with
  | nil => rfl
  | cons group others inductionHypothesis =>
      rcases List.forall_mem_cons.mp steps with ⟨first, later⟩
      rw [List.foldlM_cons, first, Option.bind_eq_bind, Option.bind_some, inductionHypothesis later]
      rfl

end Rows

/-! ## The tables of an index -/

section Canonical

variable {α : Type} [Analytic α]

/-- What an index says of terms and documents, in tables. -/
def Index.tables (index : Index α) : Tables α where
  documentCount := index.documentCount
  weights := index.entries.map fun entry => (entry.term, entry.weight)
  postings := index.entries.map fun entry => (entry.term, entry.postings)
  vectors := (List.range index.documentCount).map fun document =>
    (index.vector document).map fun (entry, value) => (entry.term, value)
  norms := (List.range index.documentCount).map index.norm
  scale := index.scale

theorem Index.tables_weights (index : Index α) :
    index.tables.weights = index.entries.map fun entry => (entry.term, entry.weight) := rfl

theorem Index.tables_postings (index : Index α) :
    index.tables.postings = index.entries.map fun entry => (entry.term, entry.postings) := rfl

variable {index : Index α}

omit [Analytic α] in
/-- A table of the entries is read by their terms. -/
theorem lookup_entries {β : Type} (sound : index.IsSound) (part : Entry α → β) (term : String)
    (value : β) :
    (index.entries.map fun entry => (entry.term, part entry)).lookup term = some value ↔
      ∃ entry ∈ index.entries, entry.term = term ∧ part entry = value := by
  have once : ((index.entries.map fun entry => (entry.term, part entry)).map Prod.fst).Nodup := by
    rw [List.map_map]
    exact sound.nodup_terms
  rw [lookup_eq_some_iff_mem once, List.mem_map]
  simp only [Prod.mk.injEq]

omit [Analytic α] in
theorem isSome_lookup_entries {β : Type} (sound : index.IsSound) (part : Entry α → β)
    (term : String) :
    ((index.entries.map fun entry => (entry.term, part entry)).lookup term).isSome = true ↔
      ∃ entry ∈ index.entries, entry.term = term := by
  rw [Option.isSome_iff_exists]
  simp only [lookup_entries sound]
  constructor
  · rintro ⟨-, entry, member, isTerm, -⟩
    exact ⟨entry, member, isTerm⟩
  · rintro ⟨entry, member, isTerm⟩
    exact ⟨part entry, entry, member, isTerm, rfl⟩

theorem lookup_weights (sound : index.IsSound) {entry : Entry α} (member : entry ∈ index.entries) :
    index.tables.weights.lookup entry.term = some entry.weight :=
  (lookup_entries sound Entry.weight _ _).mpr ⟨entry, member, rfl, rfl⟩

theorem lookup_postings (sound : index.IsSound) {entry : Entry α} (member : entry ∈ index.entries) :
    index.tables.postings.lookup entry.term = some entry.postings :=
  (lookup_entries sound Entry.postings _ _).mpr ⟨entry, member, rfl, rfl⟩

theorem getElem?_vectors {document : Nat} (isDocument : document < index.documentCount) :
    index.tables.vectors[document]? =
      some ((index.vector document).map fun (entry, value) => (entry.term, value)) := by
  rw [Index.tables, List.getElem?_map, List.getElem?_range isDocument, Option.map_some]

theorem getElem?_norms {document : Nat} (isDocument : document < index.documentCount) :
    index.tables.norms[document]? = some (index.norm document) := by
  rw [Index.tables, List.getElem?_map, List.getElem?_range isDocument, Option.map_some]

/-- Norms are those of the vectors. -/
theorem map_norm_vectors (index : Index α) :
    (index.tables.vectors.map fun vector =>
      Analytic.sqrt (Scalar.sum (vector.map fun (_, value) => value * value))) =
      index.tables.norms := by
  rw [Index.tables, List.map_map]
  refine List.map_congr_left fun document _ => ?_
  rw [Function.comp_apply, List.map_map, Index.norm]
  rfl

/-- Entry by entry a document's vector grows by the terms that it is posted for. -/
theorem foldl_changed_vector (index : Index α) (entries : List (Entry α)) (document : Nat)
    (vector : List (String × α)) :
    entries.foldl
      (fun vector entry => changed
        (fun posting vector =>
          vector ++ [(entry.term, index.scale.frequency posting.count * entry.weight)])
        entry.postings document vector)
      vector =
    vector ++ (({ index with entries } : Index α).vector document).map fun (entry, value) =>
      (entry.term, value) := by
  induction entries generalizing vector with
  | nil => simp [Index.vector]
  | cons entry others inductionHypothesis =>
      rw [List.foldl_cons, inductionHypothesis]
      cases found : Index.posting? entry.postings document with
      | none => simp [changed, Index.vector, found]
      | some posting => simp [changed, Index.vector, found]

/-- Filling vectors posting by posting finds the weight of every term and the vector of
every document, and gives the vectors of the index. -/
theorem fill?_tables (consistent : index.IsConsistent) :
    Tables.fill? index.scale index.documentCount index.tables.weights index.tables.postings =
      some index.tables.vectors := by
  have empty : List.replicate index.documentCount ([] : List (String × α)) =
      (List.range index.documentCount).map fun _ => [] := by
    simp
  rw [Tables.fill?, empty, Index.tables_postings, List.foldlM_map,
    foldlM_rows fun entry => changed
      (fun posting vector =>
        vector ++ [(entry.term, index.scale.frequency posting.count * entry.weight)])
      entry.postings]
  · simp only [foldl_changed_vector]
    rfl
  · intro entry member row
    dsimp only
    rw [lookup_weights consistent.toIsSound member, Option.bind_eq_bind, Option.bind_some]
    exact foldlM_change? _ (consistent.once entry member) (consistent.placed entry member) row

/-- Adding up fan-outs finds a place for every document that is posted. -/
theorem fanOut?_tables (consistent : index.IsConsistent) :
    index.tables.fanOut? = some index.fanOut := by
  have empty : List.replicate index.documentCount 0 =
      (List.range index.documentCount).map fun _ => 0 := by
    simp
  have sameCount : index.tables.documentCount = index.documentCount := rfl
  rw [Tables.fanOut?, sameCount, empty, Index.tables_postings, List.foldlM_map,
    foldlM_rows fun entry => changed (fun _ fan => fan + (entry.postings.length - 1))
      entry.postings]
  · rw [Index.fanOut]
    congr 2
    funext document
    congr 1
    funext total entry
    rw [changed]
    cases Index.posting? entry.postings document with
    | none => rfl
    | some posting => rfl
  · intro entry member row
    exact foldlM_change? _ (consistent.once entry member) (consistent.placed entry member) row

/-- A term adds to the dot product of each document that is posted for it, the compared
document apart. -/
theorem getElem?_addProducts (scale : TermScale α) (seed : Nat) {entry : Entry α}
    (once : (entry.postings.map Posting.document).Nodup) (dots : Std.TreeMap Nat α) (value : α)
    (other : Nat) :
    (Tables.addProducts scale seed dots entry value)[other]? =
      if other = seed then dots[other]?
      else changed
        (fun posting held =>
          some (held.getD zero + value * scale.frequency posting.count * entry.weight))
        entry.postings other dots[other]? := by
  rw [Tables.addProducts]
  generalize entry.postings = postings at once
  induction postings generalizing dots with
  | nil => exact (ite_self _).symm
  | cons posting others inductionHypothesis =>
      rcases List.nodup_cons.mp once with ⟨absent, later⟩
      rw [List.foldl_cons, inductionHypothesis _ later]
      by_cases isSeed : posting.document = seed
      · rw [if_pos isSeed]
        refine ite_congr rfl (fun _ => rfl) fun isOther => ?_
        rw [changed_cons_of_ne _ fun same => isOther (same.symm.trans isSeed)]
      · rw [if_neg isSeed, Tables.addDot, Std.TreeMap.getElem?_insert]
        by_cases same : posting.document = other
        · subst same
          rw [if_neg isSeed, if_neg isSeed, changed_of_not_mem _ absent, changed_cons_self,
            if_pos Std.ReflCmp.compare_self]
        · rw [changed_cons_of_ne _ same, if_neg fun isEqual => same (Nat.compare_eq_eq.mp isEqual)]

/-- The dot products after all terms of a vector. -/
def dotsOf (scale : TermScale α) (seed : Nat) (vector : List (Entry α × α)) :
    Std.TreeMap Nat α :=
  vector.foldl (fun dots (entry, value) => Tables.addProducts scale seed dots entry value) ∅

/-- A document gets the sum of its products as soon as there is one. -/
theorem getElem?_dotsOf (scale : TermScale α) (seed : Nat) {vector : List (Entry α × α)}
    (once : ∀ place ∈ vector, (place.1.postings.map Posting.document).Nodup) (other : Nat) :
    (dotsOf scale seed vector)[other]? =
      if other = seed ∨ Index.products vector scale other = [] then none
      else some ((Index.products vector scale other).foldl (· + ·) zero) := by
  -- What is held from earlier terms is the start of the sum.
  have loop (dots : Std.TreeMap Nat α) :
      (vector.foldl (fun dots (entry, value) => Tables.addProducts scale seed dots entry value)
        dots)[other]? =
      if other = seed ∨ Index.products vector scale other = [] then dots[other]?
      else some ((Index.products vector scale other).foldl (· + ·) (dots[other]?.getD zero)) := by
    induction vector generalizing dots with
    | nil => exact (if_pos (Or.inr rfl)).symm
    | cons place others inductionHypothesis =>
        rcases List.forall_mem_cons.mp once with ⟨first, later⟩
        rw [List.foldl_cons, inductionHypothesis later, getElem?_addProducts scale seed first]
        by_cases isSeed : other = seed
        · simp [isSeed]
        cases found : Index.posting? place.1.postings other with
        | none =>
            have skipped : Index.products (place :: others) scale other =
                Index.products others scale other := by
              simp [Index.products, found]
            rw [skipped]
            simp [changed, found, isSeed]
        | some posting =>
            have leads : Index.products (place :: others) scale other =
                place.2 * scale.frequency posting.count * place.1.weight ::
                  Index.products others scale other := by
              simp [Index.products, found]
            rw [leads]
            by_cases isNil : Index.products others scale other = []
            · simp [changed, found, isSeed, isNil]
            · simp [changed, found, isSeed, isNil]
  exact (loop ∅).trans (by simp)

/-- The loop over a vector finds weight and postings of every term. -/
theorem dots?_tables (sound : index.IsSound) (seed document : Nat) :
    index.tables.dots? seed
        ((index.vector document).map fun (entry, value) => (entry.term, value)) =
      some (dotsOf index.scale seed (index.vector document)) := by
  rw [Tables.dots?, List.foldlM_map, dotsOf]
  have isEntry : ∀ place ∈ index.vector document, place.1 ∈ index.entries := fun place member =>
    (Index.mem_vector.mp member).1
  generalize (∅ : Std.TreeMap Nat α) = dots
  generalize index.vector document = vector at isEntry
  induction vector generalizing dots with
  | nil => rfl
  | cons place others inductionHypothesis =>
      rcases List.forall_mem_cons.mp isEntry with ⟨first, later⟩
      rw [List.foldlM_cons]
      simp only [lookup_weights sound first, lookup_postings sound first, Option.bind_eq_bind,
        Option.bind_some]
      exact inductionHypothesis _ later

/-- Only documents of the index are posted. -/
theorem lt_of_products_ne_nil (sound : index.IsSound) {document other : Nat}
    (common : Index.products (index.vector document) index.scale other ≠ []) :
    other < index.documentCount := by
  rcases List.exists_mem_of_ne_nil _ common with ⟨product, member⟩
  rcases List.mem_filterMap.mp member with ⟨⟨entry, value⟩, isPlace, isProduct⟩
  rcases Option.map_eq_some_iff.mp isProduct with ⟨posting, isPosted, -⟩
  have isEntry : entry ∈ index.entries := (Index.mem_vector.mp isPlace).1
  have isDocument : posting.document = other := by simpa using List.find?_some isPosted
  exact isDocument ▸ sound.placed entry isEntry posting (List.mem_of_find?_eq_some isPosted)

/-- The dot products ascend by document and are those with the documents that the index finds
something in common with. -/
theorem toList_dotsOf (consistent : index.IsConsistent) (seed document : Nat) :
    (dotsOf index.scale seed (index.vector document)).toList =
      (List.range index.documentCount).filterMap fun other =>
        if other = seed ∨ Index.products (index.vector document) index.scale other = [] then none
        else some
          (other, (Index.products (index.vector document) index.scale other).foldl (· + ·) zero) := by
  let ascends (first second : Nat × α) : Prop := first.1 < second.1
  have : Std.Antisymm ascends := ⟨fun _ _ before after => absurd after (Nat.lt_asymm before)⟩
  have : Std.Irrefl ascends := ⟨fun _ => Nat.lt_irrefl _⟩
  have once : ∀ place ∈ index.vector document, (place.1.postings.map Posting.document).Nodup :=
    fun place member => consistent.once place.1 (Index.mem_vector.mp member).1
  refine List.Pairwise.eq_of_mem_iff (r := ascends) ?_ ?_ fun place => ?_
  · exact Std.TreeMap.ordered_keys_toList.imp Nat.compare_eq_lt.mp
  · refine List.pairwise_filterMap.mpr (List.pairwise_lt_range.imp fun before => ?_)
    intro first isFirst second isSecond
    split at isFirst
    · cases isFirst
    · split at isSecond
      · cases isSecond
      · cases isFirst
        cases isSecond
        exact before
  · rcases place with ⟨other, dot⟩
    rw [Std.TreeMap.mem_toList_iff_getElem?_eq_some, getElem?_dotsOf index.scale seed once,
      List.mem_filterMap]
    constructor
    · intro found
      split at found
      · cases found
      · next common =>
          refine ⟨other, List.mem_range.mpr ?_, ?_⟩
          · exact lt_of_products_ne_nil consistent.toIsSound (not_or.mp common).2
          · rw [if_neg common]
            exact congrArg (fun dot => some (other, dot)) (Option.some.inj found)
    · rintro ⟨document, -, found⟩
      split at found
      · cases found
      · next common =>
          cases found
          exact if_neg common

/-- Comparing a document finds weight and postings of all its terms, and the norms of all
documents that it is compared with. -/
theorem similarities?_tables (consistent : index.IsConsistent) (seed : Nat) :
    index.tables.similarities? seed = some (index.similarities seed) := by
  rw [Tables.similarities?]
  by_cases isDocument : seed < index.documentCount
  · have norms : ∀ place ∈ (dotsOf index.scale seed (index.vector seed)).toList,
        index.tables.norms[place.1]? = some (index.norm place.1) := fun place member => by
      rw [toList_dotsOf consistent, List.mem_filterMap] at member
      rcases member with ⟨other, isOther, found⟩
      split at found
      · cases found
      · cases found
        exact getElem?_norms (List.mem_range.mp isOther)
    simp only [getElem?_vectors isDocument, dots?_tables consistent.toIsSound,
      getElem?_norms isDocument, Option.bind_eq_bind, Option.bind_some]
    rw [mapM_eq_some_map fun (other, dot) =>
      if lt zero (index.norm seed * index.norm other) then
        some (other, Scalar.minimum (dot / (index.norm seed * index.norm other)) one)
      else none]
    · rw [Option.bind_some, List.filterMap_map, toList_dotsOf consistent, List.filterMap_filterMap,
        Index.similarities, if_pos isDocument]
      refine congrArg some (List.filterMap_congr fun other _ => ?_)
      rw [Index.similarityTo?]
      by_cases isSeed : other = seed
      · simp [isSeed]
      · by_cases common : Index.products (index.vector seed) index.scale other = []
        · simp [isSeed, common]
        · simp only [isSeed, common, or_self, if_false, Option.bind_some, Function.comp_apply, id,
            List.isEmpty_iff]
          split <;> rfl
    · rintro ⟨other, dot⟩ member
      rw [norms _ member]
      rfl
  · have noVector : index.tables.vectors[seed]? = none := by
      simp [Index.tables, Nat.le_of_not_lt isDocument]
    rw [noVector, Index.similarities, if_neg isDocument]

end Canonical

end ContextPack.Lexical
