import ContextPack.Graph.Store
import ContextPack.Settings.Basic
import ContextPack.Text.Pieces

/-!
# The lexical index

For each term that is neither too common nor too weak, its weight and the
documents that hold it most often.  A document is compared with another by the
cosine of their vectors, whose entries are scaled frequencies times weights.
Documents connected to unusually many others are hubs.

How frequency and rarity become numbers is a parameter, so that the laws of
the index do not depend on it.
-/

namespace ContextPack.Lexical

/-- Terms of a document with their frequencies, by term. -/
abbrev Document := List (String × Nat)

/-- How counts become numbers. -/
structure TermScale (α : Type) where
  /-- Weight of a term from the number of documents and of those that hold
  it. -/
  rarity : Nat → Nat → α
  /-- Worth of a frequency. -/
  frequency : Nat → α

/-- Logarithmic scaling: rarity is smoothed, and the tenth mention is worth
less than the first. -/
def TermScale.logarithmic {α : Type} [Analytic α] : TermScale α where
  rarity documents holders :=
    Analytic.ln ((Scalar.ofNat documents + Scalar.one) / (Scalar.ofNat holders + Scalar.one))
      + Scalar.one
  frequency count := Scalar.one + Analytic.ln (Scalar.ofNat (max count 1))

/-- An occurrence of a term in a document. -/
structure Posting where
  document : Nat
  count : Nat
deriving DecidableEq

/-- A term of the index. -/
structure Entry (α : Type) where
  term : String
  weight : α
  postings : List Posting

/-- The index with its terms ascending. -/
structure Index (α : Type) where
  documentCount : Nat
  entries : List (Entry α)
  scale : TermScale α

/-- Frequent documents first, then in their order. -/
def Posting.le (a b : Posting) : Bool :=
  b.count < a.count || (a.count == b.count && a.document ≤ b.document)

/-- Puts neighbours with the same term together. -/
def gatherPostings : List (String × Posting) → List (String × List Posting)
  | [] => []
  | (term, posting) :: rest =>
    match gatherPostings rest with
    | [] => [(term, [posting])]
    | (next, postings) :: others =>
      if next = term then (term, posting :: postings) :: others
      else (term, [posting]) :: (next, postings) :: others

/-- All terms with the documents that hold them, both ascending. -/
def occurrences (documents : List Document) : List (String × List Posting) :=
  let all := documents.zipIdx.flatMap fun (document, place) =>
    document.map fun (term, count) => (term, (⟨place, count⟩ : Posting))
  gatherPostings (all.mergeSort fun a b => Text.le a.1 b.1)

namespace Index

variable {α : Type} [Analytic α]

open Scalar (lt one ofNat)

/-- The weight of a term, unless it is too common or too weak. -/
def weigh (settings : LexicalSettings α) (rareThreshold : Nat) (scale : TermScale α)
    (documentCount : Nat) (postings : List Posting) : Option α :=
  let holders := postings.length
  let rarity := scale.rarity documentCount holders
  if lt settings.maxDocumentRatio (ofNat holders / ofNat documentCount) ||
      lt rarity settings.minIdf then none
  else if postings.foldl (fun total posting => total + posting.count) 0 ≤ rareThreshold then some (rarity * settings.rareBoost)
  else some rarity

/-- Builds the index of a list of documents. -/
def build (settings : LexicalSettings α) (rareThreshold : Nat) (scale : TermScale α)
    (documents : List Document) : Index α where
  documentCount := documents.length
  scale := scale
  entries := (occurrences documents).filterMap fun (term, postings) =>
    (weigh settings rareThreshold scale documents.length postings).map fun weight =>
      ⟨term, weight, (postings.mergeSort Posting.le).take settings.maxPostings⟩

def termCount (index : Index α) : Nat := index.entries.length

def entry? (index : Index α) (term : String) : Option (Entry α) :=
  index.entries.find? fun entry => entry.term == term

def posting? (postings : List Posting) (document : Nat) : Option Posting :=
  postings.find? fun posting => posting.document == document

/-- The indexed terms of a document with their worth, ascending. -/
def vector (index : Index α) (document : Nat) : List (Entry α × α) :=
  index.entries.filterMap fun entry =>
    (posting? entry.postings document).map fun posting =>
      (entry, index.scale.frequency posting.count * entry.weight)

/-- The length of a document's vector. -/
def norm (index : Index α) (document : Nat) : α :=
  Analytic.sqrt (Scalar.sum ((index.vector document).map fun (_, value) => value * value))

/-- Products of the values that two documents have for common terms, by
term. -/
def products (vector : List (Entry α × α)) (scale : TermScale α) (other : Nat) : List α :=
  vector.filterMap fun (entry, value) =>
    (posting? entry.postings other).map fun posting =>
      value * scale.frequency posting.count * entry.weight

/-- The similarity of a document whose vector and norm are given to another
one; none without a common term or with a vanishing norm. -/
def similarityTo? (index : Index α) (vector : List (Entry α × α)) (norm : α) (other : Nat) :
    Option α :=
  let common := products vector index.scale other
  if common.isEmpty then none
  else
    let dot := common.foldl (· + ·) Scalar.zero
    let scale := norm * index.norm other
    if lt Scalar.zero scale then some (Scalar.minimum (dot / scale) one) else none

/-- Cosine similarities of a document to the others, by document. -/
def similarities (index : Index α) (seed : Nat) : List (Nat × α) :=
  if seed < index.documentCount then
    let vector := index.vector seed
    let norm := index.norm seed
    (List.range index.documentCount).filterMap fun other =>
      if other = seed then none
      else (index.similarityTo? vector norm other).map fun value => (other, value)
  else []

/-- For each document the number of others that its postings connect it to,
counted for every term. -/
def fanOut (index : Index α) : List Nat :=
  (List.range index.documentCount).map fun document =>
    index.entries.foldl
      (fun total entry =>
        if (posting? entry.postings document).isSome then total + (entry.postings.length - 1)
        else total)
      0

/-- The value below or at which a share of an ascending list lies. -/
def percentileValue (share : α) (ascending : List Nat) : Nat :=
  let place := Scalar.ceilNat
    (Scalar.clamp share Scalar.zero one * ofNat ascending.length)
  (ascending[max 1 (min place ascending.length) - 1]?).getD 0

/-- Documents whose fan-out is above the percentile's value, ascending and
without the exempt ones. -/
def hubs (index : Index α) (percentile : α) (exempt : List Nat) : List Nat :=
  let fans := index.fanOut
  let threshold := percentileValue percentile (fans.mergeSort (· ≤ ·))
  fans.zipIdx.filterMap fun (fan, document) =>
    if threshold < fan && !exempt.contains document then some document else none

end Index

end ContextPack.Lexical
