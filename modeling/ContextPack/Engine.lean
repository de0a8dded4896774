import ContextPack.Cochange.Mining
import ContextPack.Files.Reading
import ContextPack.Files.Scan
import ContextPack.Graph.Distance
import ContextPack.Graph.Rank
import ContextPack.Graph.References
import ContextPack.Graph.SeedSignals
import ContextPack.Lexical.Edges
import ContextPack.Pack.Assemble
import ContextPack.Repository.Compare
import ContextPack.Settings.Check
import ContextPack.Sibling
import ContextPack.Symbols.Extract
import ContextPack.Text.Tokens
import ContextPack.Workspace

/-!
# The engine

Builds the context of a change.  The changed files are the seeds; all other
files of the working tree are candidates.  Four producers relate files to one
another, one graph holds their edges, a walk over it ranks the candidates, and
the best of them are packed behind the seeds until the budget is spent.
-/

namespace ContextPack.Engine

/-- How to build: tunables, the price of a text, and the width of counts. -/
structure Setup where
  settings : Settings Float
  counter : TokenCounter
  wrap : Wrap

/-! ## Sources -/

/-- The files to read: those that were scanned and the seeds, ascending. -/
def sourcePaths (scanned : List ScannedFile) (seeds : List String) : List String :=
  Text.distinctSorted (scanned.map ScannedFile.path ++ seeds)

/-- The readable files among some paths.  A seed is read whatever its size. -/
def readSources (tree : Entry) (maxFileSize : Nat) (seeds paths : List String) :
    List Lexical.TextFile :=
  paths.filterMap fun path =>
    let limit := if seeds.contains path then none else some maxFileSize
    let place := Entry.segments path
    match tree.resolve? place with
    | some (_, .file ..) =>
      match tree.readText place path limit with
      | .ok content => some ⟨path, content⟩
      | .error _ => none
    | _ => none

def contentOf (files : List Lexical.TextFile) (path : String) : Option String :=
  (files.find? fun file => file.path = path).map Lexical.TextFile.content

/-! ## Relations -/

variable {α : Type} [Scalar α]

/-- What the four producers found. -/
structure Relations (α : Type) where
  references : EdgeBuffer α
  lexical : Lexical.Outcome α
  cochange : Cochange.Outcome α
  sibling : Sibling.Outcome α

/-- The graph of the files and the seeds, with everything that relates them. -/
def graphOf (paths : List String) (relations : Relations α) : Graph α :=
  let nodes := paths.foldl (fun (graph : Graph α) path => (graph.addNode path).1) .empty
  (((nodes.merge relations.references).merge relations.lexical.edges).merge
    relations.cochange.edges).merge relations.sibling.edges

/-! ## Candidates -/

/-- The evidence for a node: its rank and its strongest edges from a seed. -/
def signalsOf (ranking : Ranking α) (fromSeeds : List (EdgeKey × α)) (node : Nat) : Signals α :=
  { walk := ranking.score node
    lexical := Graph.strongest fromSeeds .lexical node
    cochange := Graph.strongest fromSeeds .cochange node }

/-- The scanned files that are nodes but no seeds, with their evidence. -/
def candidates (graph : Graph α) (seedNodes : List Nat) (ranking : Ranking α)
    (members seeds : List String) (content : String → Option String)
    (scanned : List ScannedFile) : List (Candidate α) :=
  let distances := (graph.distances seedNodes).toArray
  let fromSeeds := graph.seedEdges seedNodes
  (scanned.filter fun file => !seeds.contains file.path).filterMap fun file =>
    (graph.node? file.path).map fun node =>
      { path := file.path
        signals := signalsOf ranking fromSeeds node
        distance := distances[node]?.getD none
        sibling := members.contains file.path
        size := file.size
        content := content file.path }

/-! ## Building -/

/-- The token budget: at least one token, the default if none is asked for. -/
def budgetOf (settings : Settings α) : Option Nat → Except ContextError Nat
  | some 0 => .error .invalidBudget
  | some budget => .ok budget
  | none => .ok settings.limits.defaultBudget

/-- Everything that relates files of a working tree. -/
def relate (settings : Settings Float) (workspace : Workspace) (repository : Repository)
    (head : Option String) (files : List Lexical.TextFile) (seeds scanned : List String) :
    Relations Float :=
  let facts := files.map fun file =>
    (⟨file.path, Symbols.extract file.path file.content⟩ : FactsFile)
  let seedPlaces := files.zipIdx.filterMap fun (file, place) =>
    if seeds.contains file.path then some place else none
  { references := References.edges settings.references facts
    lexical := Lexical.edges settings.lexical settings.limits.rareIdentifierThreshold files seedPlaces
    cochange := Cochange.mine settings.cochange repository head seeds scanned
    sibling := Sibling.edges settings.sibling workspace.filesIn seeds scanned }

/-- The context of a change that touches some files. -/
def pack (setup : Setup) (workspace : Workspace) (repository : Repository) (changes : ChangeSet)
    (budget : Nat) : Context Float :=
  let settings := setup.settings
  let (scanned, scanStats) := Scan.run settings.scan settings.limits.maxFileSize workspace.tree []
  let seeds := changes.files.map FileChange.path
  let files := readSources workspace.tree settings.limits.maxFileSize seeds
    (sourcePaths scanned seeds)
  let relations := relate settings workspace repository changes.head.commit files seeds
    (scanned.map ScannedFile.path)
  let graph := graphOf (Text.distinctSorted (files.map Lexical.TextFile.path ++ seeds)) relations
  let seedNodes := seeds.filterMap graph.node?
  let ranking := Ranking.ofGraph graph seedNodes settings.walk
  let ranked := candidates graph seedNodes ranking relations.sibling.members seeds
    (contentOf files) scanned
  let sources := changes.files.map fun change => (⟨change, contentOf files change.path⟩ : Seed)
  let assembly := (Assembler.ofSettings settings setup.counter setup.wrap).assemble sources ranked
    budget
  let stats : ContextStats :=
    { seedCount := changes.files.length
      filesScanned := scanned.length
      graphNodes := graph.nodeCount
      graphEdges := graph.edgeCount
      lexicalEdges := graph.countOfKind .lexical
      lexicalTerms := relations.lexical.termsIndexed
      lexicalHubsSuppressed := relations.lexical.hubsSuppressed
      cochangeEdges := graph.countOfKind .cochange
      cochangePairs := relations.cochange.pairs.length
      siblingCandidates := relations.sibling.members.length
      cochangeCommitsWalked := relations.cochange.walked
      cochangeCommitsUsed := relations.cochange.used
      cochangeTruncated := relations.cochange.truncated.map Truncation.name
      walkIterations := ranking.iterations
      walkConverged := ranking.converged
      candidatesConsidered := assembly.considered
      candidatesDroppedUnreadable := assembly.droppedUnreadable
      candidatesDroppedSize := assembly.droppedSize + scanStats.skippedSize
      seedsOverBudget := assembly.seedsOverBudget }
  .ofFragments setup.wrap assembly.fragments budget stats

/-- Builds the context of the change that a range names, in the repository
around a place. `path` is the name of the place in messages. -/
def build (setup : Setup) (workspace : Workspace) (path : String) (place : List String)
    (range : String) (budget : Option Nat) : Except ContextError (Context Float) := do
  let budget ← budgetOf setup.settings budget
  setup.settings.check
  let repository ← workspace.repositoryAround path place
  let changes ← repository.changeSet workspace.tree range
  if changes.files.isEmpty then return .ofFragments setup.wrap [] budget {}
  else return pack setup workspace repository changes budget

/-- The setup that settings ask for when nothing else is said. -/
def Setup.ofSettings (settings : Settings Float) : Setup :=
  ⟨settings, Tokens.estimate, .word⟩

end ContextPack.Engine
