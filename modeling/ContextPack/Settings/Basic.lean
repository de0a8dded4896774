import ContextPack.Number.Scalar

/-!
# Settings

Every tunable of the engine with its default.  Settings are a plain value,
handed to each stage that needs a section of them.  Reals are of a type `α` so
that the laws of a stage can be stated over exact numbers.
-/

namespace ContextPack

/-- Sizes that bound the result. -/
structure Limits where
  /-- In bytes; larger files are never brought in. -/
  maxFileSize : Nat := 100000
  maxFragments : Nat := 200
  rareIdentifierThreshold : Nat := 3
  maxExpansionFiles : Nat := 20
  /-- Price of a fragment besides its content. -/
  overheadPerFragment : Nat := 18
  defaultBudget : Nat := 50000
deriving DecidableEq

/-- Parameters of the random walk that ranks files. -/
structure WalkSettings (α : Type) where
  /-- Probability that a step of the walk goes on; otherwise it restarts at a
  changed file. -/
  alpha : α
  /-- Total change below which the iteration has settled. -/
  tolerance : α
  maxIterations : Nat

/-- Parameters of lexical similarity. -/
structure LexicalSettings (α : Type) where
  minSimilarity : α
  hubPercentile : α
  topNeighbors : Nat
  maxDocumentRatio : α
  minIdf : α
  maxPostings : Nat
  weightMin : α
  weightMax : α
  backwardFactor : α
  /-- Multiplier for identifiers that occur in few files. -/
  rareBoost : α
  minTermLength : Nat

/-- Parameters of co-change mining. -/
structure CochangeSettings (α : Type) where
  weight : α
  minCount : Nat
  maxFilesPerCommit : Nat
  commitsLimit : Nat
  timeoutSeconds : Nat

/-- Parameters of sibling expansion. -/
structure SiblingSettings (α : Type) where
  maxFilesPerDirectory : Nat
  /-- Extensions, without a dot, whose directory layout carries meaning. -/
  extensions : List String
  /-- File names treated the same way. -/
  fileNames : List String
  edgeWeight : α

/-- Parameters of reference edges. -/
structure ReferenceSettings (α : Type) where
  /-- Weight of each symbol that connects two files. -/
  symbolWeight : α
  maxSymbolsPerEdge : Nat
  /-- Discount of the edge back from the definition to its user. -/
  backwardFactor : α
  importWeight : α
  /-- A symbol that more files provide connects none. -/
  maxDefinitionsPerSymbol : Nat

/-- How the signals of a candidate become one score. -/
inductive Fusion (α : Type) where
  | sum
  | weighted (walk lexical cochange : α)
  | maximum

/-- What a changed file contributes. -/
inductive SeedContent where
  | hunks
  | full
deriving DecidableEq

structure AssemblySettings (α : Type) where
  fusion : Fusion α := .sum
  seedContent : SeedContent := .hunks

structure ScanSettings where
  includeExtensions : List String
  excludeGlobs : List String
  respectIgnoreFiles : Bool := true
  followSymlinks : Bool := false
deriving DecidableEq

structure Settings (α : Type) where
  limits : Limits
  walk : WalkSettings α
  lexical : LexicalSettings α
  cochange : CochangeSettings α
  sibling : SiblingSettings α
  references : ReferenceSettings α
  assembly : AssemblySettings α
  scan : ScanSettings

variable {α : Type} [Scalar α]

open Scalar (decimal ofNat)

def WalkSettings.default : WalkSettings α where
  alpha := decimal 6 1
  tolerance := decimal 1 4
  maxIterations := 50

def LexicalSettings.default : LexicalSettings α where
  minSimilarity := decimal 1 1
  hubPercentile := decimal 95 2
  topNeighbors := 10
  maxDocumentRatio := decimal 2 1
  minIdf := decimal 16 1
  maxPostings := 200
  weightMin := decimal 1 1
  weightMax := decimal 2 1
  backwardFactor := decimal 7 1
  rareBoost := ofNat 2
  minTermLength := 3

def CochangeSettings.default : CochangeSettings α where
  weight := decimal 4 1
  minCount := 2
  maxFilesPerCommit := 30
  commitsLimit := 500
  timeoutSeconds := 10

def SiblingSettings.default : SiblingSettings α where
  maxFilesPerDirectory := 20
  extensions :=
    ["tf", "tfvars", "hcl", "yaml", "yml", "json", "toml", "ini", "cfg", "conf",
     "properties", "env", "proto", "sql", "xml"]
  fileNames := ["dockerfile", "makefile", "procfile", "jenkinsfile"]
  edgeWeight := decimal 5 2

def ReferenceSettings.default : ReferenceSettings α where
  symbolWeight := decimal 25 2
  maxSymbolsPerEdge := 4
  backwardFactor := decimal 7 1
  importWeight := ofNat 1
  maxDefinitionsPerSymbol := 8

def ScanSettings.default : ScanSettings where
  includeExtensions :=
    [".py", ".pyi", ".rs", ".go", ".js", ".jsx", ".mjs", ".cjs", ".ts", ".tsx", ".java",
     ".kt", ".scala", ".c", ".h", ".cc", ".cpp", ".hpp", ".cs", ".rb", ".php", ".swift",
     ".sh", ".bash", ".sql", ".proto", ".graphql", ".tf", ".tfvars", ".hcl", ".yaml", ".yml",
     ".json", ".toml", ".ini", ".cfg", ".conf", ".properties", ".env", ".xml", ".gradle",
     ".md", ".rst", ".txt"]
  excludeGlobs :=
    ["**/node_modules/**", "**/vendor/**", "**/dist/**", "**/target/**", "**/*.lock",
     "**/package-lock.json", "**/*.min.js"]

def Settings.default : Settings α where
  limits := {}
  walk := .default
  lexical := .default
  cochange := .default
  sibling := .default
  references := .default
  assembly := {}
  scan := .default

end ContextPack
