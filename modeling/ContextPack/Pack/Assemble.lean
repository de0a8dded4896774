import ContextPack.Digest.FragmentId
import ContextPack.Pack.Fit
import ContextPack.Pack.Signals

/-!
# Assembly

The context is put together from the changed files, by path, and after them
the other files by score until one does not fit.  A file takes part when its
score is positive or a sibling made it eligible.
-/

namespace ContextPack

/-- A file that did not change and may be brought in. -/
structure Candidate (α : Type) where
  path : String
  signals : Signals α
  /-- Hops from the nearest changed file. -/
  distance : Option Nat
  /-- Made eligible by a sibling. -/
  sibling : Bool
  /-- In bytes. -/
  size : Nat
  /-- The text, if the file could be read as one. -/
  content : Option String

/-- What assembling yields. -/
structure Assembly (α : Type) where
  fragments : List (Fragment α)
  considered : Nat
  droppedUnreadable : Nat
  droppedSize : Nat
  seedsOverBudget : Bool

structure Assembler (α : Type) where
  limits : Limits
  seedContent : SeedContent
  fusion : Fusion α
  counter : TokenCounter
  wrap : Wrap

def Assembler.ofSettings {α : Type} (settings : Settings α) (counter : TokenCounter)
    (wrap : Wrap) : Assembler α :=
  ⟨settings.limits, settings.assembly.seedContent, settings.assembly.fusion, counter, wrap⟩

/-- A candidate with its score. -/
structure Ranked (α : Type) where
  candidate : Candidate α
  score : α

namespace Assembler

variable {α : Type} [Scalar α]

/-! ## Seeds -/

/-- Only the first of neighbours with one path. -/
def dropSamePath : List Seed → List Seed
  | [] => []
  | [seed] => [seed]
  | first :: second :: rest =>
    if first.change.path = second.change.path then dropSamePath (first :: rest)
    else first :: dropSamePath (second :: rest)
termination_by seeds => seeds.length

/-- The seeds by path, one for each path, as many as there may be
fragments. -/
def chosenSeeds (limits : Limits) (seeds : List Seed) : List Seed :=
  (dropSamePath (seeds.mergeSort fun a b => Text.le a.change.path b.change.path)).take
    limits.maxFragments

def fragment (assembler : Assembler α) (draft : Draft) (score : α) : Fragment α :=
  let content := String.ofList draft.content
  { id := fragmentId draft.path content
    path := draft.path
    content := content
    kind := draft.kind
    score := score
    tokens := assembler.wrap
      (assembler.counter draft.content + assembler.limits.overheadPerFragment)
    truncated := draft.truncated }

/-! ## Other files -/

/-- Nearer first, unreachable last. -/
def compareDistance : Option Nat → Option Nat → Ordering
  | some a, some b => compare a b
  | some _, none => .lt
  | none, some _ => .gt
  | none, none => .eq

/-- Higher score first, then the nearer file, then by path. -/
def rankedLe (a b : Ranked α) : Bool :=
  match Scalar.order b.score a.score with
  | .lt => true
  | .gt => false
  | .eq =>
    match compareDistance a.candidate.distance b.candidate.distance with
    | .lt => true
    | .gt => false
    | .eq => Text.le a.candidate.path b.candidate.path

/-- Candidates that are no seeds and are eligible, with their scores. -/
def eligible (assembler : Assembler α) (seedPaths : List String)
    (candidates : List (Candidate α)) : List (Ranked α) :=
  candidates.filterMap fun candidate =>
    if seedPaths.contains candidate.path then none
    else
      let score := assembler.fusion.fuse candidate.signals
      if Scalar.isPositive score || candidate.sibling then some ⟨candidate, score⟩ else none

/-- Whether a file is not too large to be brought in. -/
def hasFittingSize (limits : Limits) (ranked : Ranked α) : Bool :=
  ranked.candidate.size ≤ limits.maxFileSize

/-- The eligible candidates of fitting size, best first. -/
def rank (assembler : Assembler α) (eligible : List (Ranked α)) : List (Ranked α) :=
  (eligible.filter (hasFittingSize assembler.limits)).mergeSort rankedLe

/-- What packing has put in so far. -/
structure Packing (α : Type) where
  fragments : List (Fragment α)
  considered : Nat
  droppedUnreadable : Nat

/-- Packs ranked candidates until a cap is reached or one does not fit.
`room` is the number of fragments that may be added, `remaining` what is left
of the budget. -/
def pack (assembler : Assembler α) : List (Ranked α) → Nat → Nat → Nat → Packing α
  | [], _, _, considered => ⟨[], considered, 0⟩
  | ranked :: rest, room, remaining, considered =>
    match ranked.candidate.content with
    | none =>
      let later := pack assembler rest room remaining considered
      { later with droppedUnreadable := later.droppedUnreadable + 1 }
    | some text =>
      if assembler.limits.maxExpansionFiles ≤ considered || room = 0 then ⟨[], considered, 0⟩
      else
        let content := text.toList
        let cost := assembler.wrap
          (assembler.counter content + assembler.limits.overheadPerFragment)
        if remaining < cost then ⟨[], considered + 1, 0⟩
        else
          let later := pack assembler rest (room - 1) (remaining - cost) (considered + 1)
          let draft : Draft := ⟨ranked.candidate.path, content, .expansion, false⟩
          { later with fragments := assembler.fragment draft ranked.score :: later.fragments }

/-! ## Both together -/

/-- Assembles the context for a budget. -/
def assemble (assembler : Assembler α) (seeds : List Seed) (candidates : List (Candidate α))
    (budget : Nat) : Assembly α :=
  let limits := assembler.limits
  let drafts := (chosenSeeds limits seeds).map (Draft.ofSeed limits.maxFileSize assembler.seedContent)
  let fitted := Fit.fit assembler.wrap assembler.counter limits.overheadPerFragment drafts budget
  let seedFragments := fitted.drafts.map fun draft => assembler.fragment draft Scalar.one
  let used := Context.addUp assembler.wrap (seedFragments.map Fragment.tokens)
  let remaining := if fitted.shrunk then 0 else budget - used
  let found := assembler.eligible (fitted.drafts.map Draft.path) candidates
  let packing := assembler.pack (assembler.rank found)
    (limits.maxFragments - seedFragments.length) remaining 0
  { fragments := seedFragments ++ packing.fragments
    considered := packing.considered
    droppedUnreadable := packing.droppedUnreadable
    droppedSize := (found.filter fun ranked => !hasFittingSize limits ranked).length
    seedsOverBudget := fitted.overBudget }

end Assembler

end ContextPack
