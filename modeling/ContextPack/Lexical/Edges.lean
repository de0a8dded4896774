import ContextPack.Graph.Edge
import ContextPack.Lexical.Index
import ContextPack.Lexical.Terms

/-!
# Lexical edges

Each changed file is linked to the files that are most similar to it in words,
hubs and other changed files left out.
-/

namespace ContextPack.Lexical

/-- A readable file. -/
structure TextFile where
  path : String
  content : String
deriving DecidableEq

/-- What lexical linking yields. -/
structure Outcome (α : Type) where
  edges : EdgeBuffer α
  termsIndexed : Nat
  hubsSuppressed : Nat

variable {α : Type} [Analytic α]

open Scalar (zero one le)

/-- The step from one to the next larger binary floating-point number. -/
def smallestStep : α := one / Scalar.ofNat 4503599627370496

/-- Maps similarities from the least accepted one up to one linearly onto the
range of weights. -/
def scaleWeight (settings : LexicalSettings α) (similarity : α) : α :=
  let span := one - settings.minSimilarity
  if le span smallestStep then settings.weightMax
  else
    let share := Scalar.clamp ((similarity - settings.minSimilarity) / span) zero one
    settings.weightMin + share * (settings.weightMax - settings.weightMin)

/-- More similar first, then by path. -/
def matchLe (a b : String × α) : Bool :=
  match Scalar.order b.2 a.2 with
  | .lt => true
  | .gt => false
  | .eq => Text.le a.1 b.1

/-- The files that a seed is linked to, best first. -/
def neighbors (settings : LexicalSettings α) (files : Array TextFile) (index : Index α)
    (seeds hubs : List Nat) (seed : Nat) : List (String × α) :=
  let accepted := (index.similarities seed).filter fun (document, similarity) =>
    le settings.minSimilarity similarity && !seeds.contains document && !hubs.contains document
  let named := accepted.filterMap fun (document, similarity) =>
    files[document]?.map fun file => (file.path, similarity)
  (named.mergeSort matchLe).take settings.topNeighbors

/-- Links the seeds, given by position, to the files similar to them. -/
def edges (settings : LexicalSettings α) (rareThreshold : Nat) (files : List TextFile)
    (seeds : List Nat) : Outcome α :=
  let documents := files.map fun file => frequencies settings.minTermLength file.content
  let index := Index.build settings rareThreshold .logarithmic documents
  let seeds := Graph.distinctAscending seeds
  let hubs := index.hubs settings.hubPercentile seeds
  let indexed := files.toArray
  let links := seeds.flatMap fun seed =>
    match indexed[seed]? with
    | none => []
    | some file =>
      (neighbors settings indexed index seeds hubs seed).flatMap fun (other, similarity) =>
        let weight := scaleWeight settings similarity
        [(⟨file.path, other, .lexical, weight⟩ : PathEdge α),
         ⟨other, file.path, .lexical, weight * settings.backwardFactor⟩]
  { edges := .ofList links, termsIndexed := index.termCount, hubsSuppressed := hubs.length }

end ContextPack.Lexical
