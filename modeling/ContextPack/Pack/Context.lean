import ContextPack.Number.Scalar

/-!
# The context pack

The result of the engine: fragments in order, the budget they were chosen for
and what the run counted on its way.
-/

namespace ContextPack

inductive FragmentKind where
  /-- The patch of a changed file. -/
  | seedHunks
  /-- A changed file as it is now. -/
  | seedFile
  /-- A line that stands for a changed file that cannot be shown. -/
  | placeholder
  /-- A related file that did not change. -/
  | expansion
deriving DecidableEq

/-- Whether a fragment stands for a changed file. -/
def FragmentKind.isSeed : FragmentKind → Bool
  | .expansion => false
  | _ => true

/-- A part of the context. -/
structure Fragment (α : Type) where
  id : String
  path : String
  content : String
  kind : FragmentKind
  /-- Relevance; one for a changed file. -/
  score : α
  /-- Price with the overhead of a fragment. -/
  tokens : Nat
  truncated : Bool

/-- What a run counted. -/
structure ContextStats where
  seedCount : Nat := 0
  filesScanned : Nat := 0
  graphNodes : Nat := 0
  graphEdges : Nat := 0
  lexicalEdges : Nat := 0
  lexicalTerms : Nat := 0
  lexicalHubsSuppressed : Nat := 0
  cochangeEdges : Nat := 0
  cochangePairs : Nat := 0
  siblingCandidates : Nat := 0
  cochangeCommitsWalked : Nat := 0
  cochangeCommitsUsed : Nat := 0
  cochangeTruncated : Option String := none
  walkIterations : Nat := 0
  walkConverged : Bool := false
  candidatesConsidered : Nat := 0
  candidatesDroppedUnreadable : Nat := 0
  candidatesDroppedSize : Nat := 0
  seedsOverBudget : Bool := false
deriving DecidableEq

/-- The finished result. -/
structure Context (α : Type) where
  fragments : List (Fragment α)
  fragmentCount : Nat
  budgetTokens : Nat
  tokensUsed : Nat
  stats : ContextStats

/-- How many values a 64-bit word tells apart. -/
def wordModulus : Nat := 18446744073709551616

namespace Context

variable {α : Type}

/-- A sum in which every step is brought into range. -/
def addUp (wrap : Nat → Nat) (terms : List Nat) : Nat :=
  terms.foldl (fun total term => wrap (total + term)) 0

/-- A context with its totals; `wrap` brings sums into the range of counts. -/
def ofFragments (wrap : Nat → Nat) (fragments : List (Fragment α)) (budget : Nat)
    (stats : ContextStats) : Context α where
  fragments := fragments
  fragmentCount := fragments.length
  budgetTokens := budget
  tokensUsed := addUp wrap (fragments.map Fragment.tokens)
  stats := stats

def paths (context : Context α) : List String := context.fragments.map Fragment.path

def containsPath (context : Context α) (path : String) : Bool :=
  context.fragments.any fun fragment => fragment.path == path

end Context

end ContextPack
