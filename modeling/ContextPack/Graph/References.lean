import ContextPack.Data.Runs
import ContextPack.Graph.Edge
import ContextPack.Graph.Imports
import ContextPack.Settings.Basic
import ContextPack.Symbols.Basic
import Std.Data.HashMap.Basic

/-!
# Reference edges

Files are related when one uses a name that the other provides, and when one
imports the other.  Every such edge has an edge back, discounted, so that a
change also leads to the places that depend on it.  Names that many files
provide say nothing and are left out.
-/

namespace ContextPack

structure FactsFile where
  path : String
  facts : SymbolFacts

namespace References

variable {α : Type} [Scalar α]

/-- For each provided name the positions of the files that provide it,
ascending. -/
def providers (files : List FactsFile) : Std.HashMap String (List Nat) :=
  files.zipIdx.foldr
    (fun (file, place) table =>
      (Text.distinctSorted file.facts.provided).foldl
        (fun table name => table.insert name (place :: table.getD name [])) table)
    ∅

/-- Positions of the files that a use of a name leads to. -/
def linked (table : Std.HashMap String (List Nat)) (limit : Nat) (place : Nat)
    (own : List String) (name : String) : List Nat :=
  if own.contains name then []
  else
    let found := table.getD name []
    if limit < found.length then [] else found.filter (· ≠ place)

/-- Where a use leads and why. -/
abbrev Use := Nat × EdgeKind

/-- Order of the uses of one file: by the file they lead to, then by kind. -/
def Use.le (a b : Use) : Bool :=
  a.1 < b.1 || (a.1 == b.1 && a.2.place ≤ b.2.place)

/-- All uses that lead from a file to others: names called or mentioned, and
names used as types. -/
def uses (table : Std.HashMap String (List Nat)) (limit : Nat) (place : Nat)
    (facts : SymbolFacts) : List Use :=
  let own := facts.provided
  let mentioned := Text.distinctSorted (facts.calls ++ facts.references)
  let along (kind : EdgeKind) (names : List String) : List Use :=
    names.flatMap fun name =>
      (linked table limit place own name).map fun target => (target, kind)
  along .forwardCall mentioned ++ along .forwardType (Text.distinctSorted facts.types)

/-- An edge and the discounted edge back. -/
def withMirror (settings : ReferenceSettings α) (source target : String) (kind : EdgeKind)
    (weight : α) : List (PathEdge α) :=
  [⟨source, target, kind, weight⟩,
   ⟨target, source, .backwardCall, weight * settings.backwardFactor⟩]

/-- Edges of a file to the files whose names it uses. -/
def symbolEdges (settings : ReferenceSettings α) (files : Array FactsFile)
    (table : Std.HashMap String (List Nat)) (place : Nat) (file : FactsFile) :
    List (PathEdge α) :=
  let found := uses table settings.maxDefinitionsPerSymbol place file.facts
  (tally Use.le found).flatMap fun ((target, kind), count) =>
    match files[target]? with
    | none => []
    | some other =>
      let weight := Scalar.ofNat (min count settings.maxSymbolsPerEdge) * settings.symbolWeight
      withMirror settings file.path other.path kind weight

def importEdges (settings : ReferenceSettings α) (paths : List String) (file : FactsFile) :
    List (PathEdge α) :=
  let targets := Text.distinctSorted (file.facts.imports.filterMap (Imports.resolve paths file.path))
  targets.flatMap fun target =>
    withMirror settings file.path target .importing settings.importWeight

/-- All reference edges, file by file. -/
def edges (settings : ReferenceSettings α) (files : List FactsFile) : EdgeBuffer α :=
  let table := providers files
  let paths := files.map FactsFile.path
  let indexed := files.toArray
  .ofList <| files.zipIdx.flatMap fun (file, place) =>
    symbolEdges settings indexed table place file ++ importEdges settings paths file

end References

end ContextPack
