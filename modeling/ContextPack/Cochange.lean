import ContextPack.Data.Runs
import ContextPack.Graph.Edge
import ContextPack.Settings.Basic
import ContextPack.Text.Pieces

/-!
# Co-change

Files that changed together with a seed in past commits are related to it, the
more often the stronger.  Commits with very many files say nothing about any
pair of them and are left out.
-/

namespace ContextPack.Cochange

/-- A seed, another file and how often both changed together. -/
structure Pair where
  seed : String
  other : String
  count : Nat
deriving DecidableEq

/-- Order of pairs: by seed, then by the other file. -/
def pairLe (a b : String × String) : Bool :=
  match Text.order a.1 b.1 with
  | .lt => true
  | .gt => false
  | .eq => Text.le a.2 b.2

/-- The files of a commit that count: none of a commit that is too large. -/
def counted (maxFiles : Nat) (commit : List String) : List String :=
  if maxFiles < commit.length then [] else commit

/-- Pairs of a seed and a file that is no seed in a commit. -/
def commitPairs (seeds : List String) (files : List String) : List (String × String) :=
  (files.filter seeds.contains).flatMap fun seed =>
    (files.filter fun file => !seeds.contains file).map fun other => (seed, other)

/-- How often each seed changed together with each other file, ascending, and
how many commits touched a seed. -/
def countPairs (seeds : List String) (maxFiles : Nat) (commits : List (List String)) :
    List Pair × Nat :=
  let counting := commits.map (counted maxFiles)
  let pairs := tally pairLe (counting.flatMap (commitPairs seeds))
  let used := (counting.filter fun files => files.any seeds.contains).length
  (pairs.map fun ((seed, other), count) => ⟨seed, other, count⟩, used)

variable {α : Type} [Scalar α]

/-- The pairs that count often enough and lead to a candidate. -/
def keptPairs (settings : CochangeSettings α) (candidates : List String) (pairs : List Pair) :
    List Pair :=
  pairs.filter fun pair => settings.minCount ≤ pair.count && candidates.contains pair.other

def largestCount (pairs : List Pair) : Nat :=
  (pairs.map Pair.count).foldl max 0

/-- Edges both ways for each kept pair, weighted in proportion to its count. -/
def edges (settings : CochangeSettings α) (kept : List Pair) : EdgeBuffer α :=
  let largest : α := Scalar.ofNat (largestCount kept)
  .ofList <| kept.flatMap fun pair =>
    let weight := settings.weight * Scalar.ofNat pair.count / largest
    [⟨pair.seed, pair.other, .cochange, weight⟩, ⟨pair.other, pair.seed, .cochange, weight⟩]

end ContextPack.Cochange
