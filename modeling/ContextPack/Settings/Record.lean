import ContextPack.Data.Datum
import ContextPack.Settings.Basic
import ContextPack.Text.Blank

/-!
# Settings as records

How settings are spelled as nested records: a section for each part, a key for
each tunable.  A key that is left out keeps its default and a key that means
nothing is passed over; a value of the wrong kind spoils the whole record.

Lists of texts may be given as one text with commas.  Their items are trimmed
and empty ones dropped, and extensions are brought to small letters with a
leading dot; doing either a second time changes nothing.
-/

namespace ContextPack

variable {α : Type} [Scalar α]

/-! ## Writing -/

def naturalDatum (n : Nat) : Datum α := .integer n

def textsDatum (texts : List String) : Datum α := .list (texts.map .text)

def Limits.fields (limits : Limits) : List (String × Datum α) :=
  [("max_file_size", naturalDatum limits.maxFileSize),
   ("max_fragments", naturalDatum limits.maxFragments),
   ("rare_identifier_threshold", naturalDatum limits.rareIdentifierThreshold),
   ("max_expansion_files", naturalDatum limits.maxExpansionFiles),
   ("overhead_per_fragment", naturalDatum limits.overheadPerFragment),
   ("default_budget_tokens", naturalDatum limits.defaultBudget)]

def WalkSettings.fields (walk : WalkSettings α) : List (String × Datum α) :=
  [("alpha", .real walk.alpha),
   ("tolerance", .real walk.tolerance),
   ("max_iterations", naturalDatum walk.maxIterations)]

def LexicalSettings.fields (lexical : LexicalSettings α) : List (String × Datum α) :=
  [("min_similarity", .real lexical.minSimilarity),
   ("hub_percentile", .real lexical.hubPercentile),
   ("top_k_neighbors", naturalDatum lexical.topNeighbors),
   ("max_df_ratio", .real lexical.maxDocumentRatio),
   ("min_idf", .real lexical.minIdf),
   ("max_postings", naturalDatum lexical.maxPostings),
   ("weight_min", .real lexical.weightMin),
   ("weight_max", .real lexical.weightMax),
   ("backward_factor", .real lexical.backwardFactor),
   ("rare_boost", .real lexical.rareBoost),
   ("min_term_len", naturalDatum lexical.minTermLength)]

def CochangeSettings.fields (cochange : CochangeSettings α) : List (String × Datum α) :=
  [("weight", .real cochange.weight),
   ("min_count", naturalDatum cochange.minCount),
   ("max_files_per_commit", naturalDatum cochange.maxFilesPerCommit),
   ("commits_limit", naturalDatum cochange.commitsLimit),
   ("timeout_seconds", naturalDatum cochange.timeoutSeconds)]

def SiblingSettings.fields (sibling : SiblingSettings α) : List (String × Datum α) :=
  [("max_files_per_dir", naturalDatum sibling.maxFilesPerDirectory),
   ("extensions", textsDatum sibling.extensions),
   ("file_names", textsDatum sibling.fileNames),
   ("edge_weight", .real sibling.edgeWeight)]

def ReferenceSettings.fields (references : ReferenceSettings α) : List (String × Datum α) :=
  [("symbol_weight", .real references.symbolWeight),
   ("max_symbols_per_edge", naturalDatum references.maxSymbolsPerEdge),
   ("backward_factor", .real references.backwardFactor),
   ("import_weight", .real references.importWeight),
   ("max_definitions_per_symbol", naturalDatum references.maxDefinitionsPerSymbol)]

def Fusion.fields : Fusion α → List (String × Datum α)
  | .sum => [("kind", .text "sum")]
  | .weighted walk lexical cochange =>
    [("kind", .text "weighted"), ("ppr", .real walk), ("lexical", .real lexical),
      ("cochange", .real cochange)]
  | .maximum => [("kind", .text "max")]

def SeedContent.toDatum : SeedContent → Datum α
  | .hunks => .text "hunks"
  | .full => .text "full"

def AssemblySettings.fields (assembly : AssemblySettings α) : List (String × Datum α) :=
  [("fusion", .record assembly.fusion.fields),
   ("seed_content", assembly.seedContent.toDatum)]

def ScanSettings.fields (scan : ScanSettings) : List (String × Datum α) :=
  [("include_extensions", textsDatum scan.includeExtensions),
   ("exclude_globs", textsDatum scan.excludeGlobs),
   ("respect_gitignore", .boolean scan.respectIgnoreFiles),
   ("follow_symlinks", .boolean scan.followSymlinks)]

def Settings.fields (settings : Settings α) : List (String × Datum α) :=
  [("limits", .record settings.limits.fields),
   ("ppr", .record settings.walk.fields),
   ("lexical", .record settings.lexical.fields),
   ("cochange", .record settings.cochange.fields),
   ("sibling", .record settings.sibling.fields),
   ("graph", .record settings.references.fields),
   ("assemble", .record settings.assembly.fields),
   ("scan", .record settings.scan.fields)]

/-- Settings as a record of records with every key. -/
def Settings.toDatum (settings : Settings α) : Datum α := .record settings.fields

/-! ## Reading -/

/-- Largest whole number a setting can hold. -/
def naturalLimit : Nat := 18446744073709551615

/-- A whole number that a 64-bit word holds. -/
def Datum.word? (value : Datum α) : Option Nat :=
  match value.natural? with
  | some n => if n ≤ naturalLimit then some n else none
  | none => none

/-- A real; a whole number is one too. -/
def Datum.real? : Datum α → Option α
  | .real x => some x
  | .integer (.ofNat n) => some (Scalar.ofNat n)
  | .integer (.negSucc n) => some (-(Scalar.ofNat (n + 1)))
  | _ => none

/-- Items trimmed, empty ones dropped. -/
def normalizeItems (items : List String) : List String :=
  (items.map Text.trim).filter fun item => item != ""

def commaItems (text : String) : List String :=
  normalizeItems ((Text.pieces ',' text.toList).map String.ofList)

/-- A list of texts, or one text with commas. -/
def Datum.textItems? : Datum α → Option (List String)
  | .text value => some (commaItems value)
  | value => value.texts?.map normalizeItems

/-- Small letters and a leading dot. -/
def normalizeExtension (item : String) : String :=
  let small := Text.lowerAscii item.toList
  match small with
  | '.' :: _ => String.ofList small
  | _ => String.ofList ('.' :: small)

def Datum.extensionItems? (value : Datum α) : Option (List String) :=
  value.textItems?.map fun items => items.map normalizeExtension

/-- What a format lets stand for a record besides a record. -/
structure RecordDialect where
  /-- A null stands for an empty record. -/
  nullIsEmpty : Bool
  /-- A list gives the values of the fields in their order, the last ones
  perhaps left out. -/
  listIsPositional : Bool

/-- The fields of a record whose fields have these names in order. -/
def RecordDialect.fields? (dialect : RecordDialect) (names : List String) :
    Datum α → Option (List (String × Datum α))
  | .record fields => some fields
  | .null => if dialect.nullIsEmpty then some [] else none
  | .list items =>
    if dialect.listIsPositional && items.length ≤ names.length then some (names.zip items) else none
  | _ => none

/-- JSON: a list may stand for a record. -/
def RecordDialect.json : RecordDialect := ⟨false, true⟩

/-- A field read with `read`, or its default when it is left out. -/
def fieldOr {β : Type} (fields : List (String × Datum α)) (name : String)
    (read : Datum α → Option β) (default : β) : Option β :=
  match Datum.lookup name fields with
  | some value => read value
  | none => some default

def requiredField {β : Type} (fields : List (String × Datum α)) (name : String)
    (read : Datum α → Option β) : Option β :=
  match Datum.lookup name fields with
  | some value => read value
  | none => none

def Limits.ofDatum? (dialect : RecordDialect) (value : Datum α) : Option Limits := do
  let fields ← dialect.fields?
      ["max_file_size", "max_fragments", "rare_identifier_threshold", "max_expansion_files",
       "overhead_per_fragment", "default_budget_tokens"] value
  let base : Limits := {}
  let maxFileSize ← fieldOr fields "max_file_size" Datum.word? base.maxFileSize
  let maxFragments ← fieldOr fields "max_fragments" Datum.word? base.maxFragments
  let rareIdentifierThreshold ←
    fieldOr fields "rare_identifier_threshold" Datum.word? base.rareIdentifierThreshold
  let maxExpansionFiles ← fieldOr fields "max_expansion_files" Datum.word? base.maxExpansionFiles
  let overheadPerFragment ←
    fieldOr fields "overhead_per_fragment" Datum.word? base.overheadPerFragment
  let defaultBudget ← fieldOr fields "default_budget_tokens" Datum.word? base.defaultBudget
  return { maxFileSize, maxFragments, rareIdentifierThreshold, maxExpansionFiles,
           overheadPerFragment, defaultBudget }

def WalkSettings.ofDatum? (dialect : RecordDialect) (value : Datum α) :
    Option (WalkSettings α) := do
  let fields ← dialect.fields?
      ["alpha", "tolerance", "max_iterations"] value
  let base : WalkSettings α := .default
  let alpha ← fieldOr fields "alpha" Datum.real? base.alpha
  let tolerance ← fieldOr fields "tolerance" Datum.real? base.tolerance
  let maxIterations ← fieldOr fields "max_iterations" Datum.word? base.maxIterations
  return { alpha, tolerance, maxIterations }

def LexicalSettings.ofDatum? (dialect : RecordDialect) (value : Datum α) :
    Option (LexicalSettings α) := do
  let fields ← dialect.fields?
      ["min_similarity", "hub_percentile", "top_k_neighbors", "max_df_ratio", "min_idf",
       "max_postings", "weight_min", "weight_max", "backward_factor", "rare_boost",
       "min_term_len"] value
  let base : LexicalSettings α := .default
  let minSimilarity ← fieldOr fields "min_similarity" Datum.real? base.minSimilarity
  let hubPercentile ← fieldOr fields "hub_percentile" Datum.real? base.hubPercentile
  let topNeighbors ← fieldOr fields "top_k_neighbors" Datum.word? base.topNeighbors
  let maxDocumentRatio ← fieldOr fields "max_df_ratio" Datum.real? base.maxDocumentRatio
  let minIdf ← fieldOr fields "min_idf" Datum.real? base.minIdf
  let maxPostings ← fieldOr fields "max_postings" Datum.word? base.maxPostings
  let weightMin ← fieldOr fields "weight_min" Datum.real? base.weightMin
  let weightMax ← fieldOr fields "weight_max" Datum.real? base.weightMax
  let backwardFactor ← fieldOr fields "backward_factor" Datum.real? base.backwardFactor
  let rareBoost ← fieldOr fields "rare_boost" Datum.real? base.rareBoost
  let minTermLength ← fieldOr fields "min_term_len" Datum.word? base.minTermLength
  return { minSimilarity, hubPercentile, topNeighbors, maxDocumentRatio, minIdf, maxPostings,
           weightMin, weightMax, backwardFactor, rareBoost, minTermLength }

def CochangeSettings.ofDatum? (dialect : RecordDialect) (value : Datum α) :
    Option (CochangeSettings α) := do
  let fields ← dialect.fields?
      ["weight", "min_count", "max_files_per_commit", "commits_limit", "timeout_seconds"] value
  let base : CochangeSettings α := .default
  let weight ← fieldOr fields "weight" Datum.real? base.weight
  let minCount ← fieldOr fields "min_count" Datum.word? base.minCount
  let maxFilesPerCommit ← fieldOr fields "max_files_per_commit" Datum.word? base.maxFilesPerCommit
  let commitsLimit ← fieldOr fields "commits_limit" Datum.word? base.commitsLimit
  let timeoutSeconds ← fieldOr fields "timeout_seconds" Datum.word? base.timeoutSeconds
  return { weight, minCount, maxFilesPerCommit, commitsLimit, timeoutSeconds }

def SiblingSettings.ofDatum? (dialect : RecordDialect) (value : Datum α) :
    Option (SiblingSettings α) := do
  let fields ← dialect.fields?
      ["max_files_per_dir", "extensions", "file_names", "edge_weight"] value
  let base : SiblingSettings α := .default
  let maxFilesPerDirectory ← fieldOr fields "max_files_per_dir" Datum.word? base.maxFilesPerDirectory
  let extensions ← fieldOr fields "extensions" Datum.textItems? base.extensions
  let fileNames ← fieldOr fields "file_names" Datum.textItems? base.fileNames
  let edgeWeight ← fieldOr fields "edge_weight" Datum.real? base.edgeWeight
  return { maxFilesPerDirectory, extensions, fileNames, edgeWeight }

def ReferenceSettings.ofDatum? (dialect : RecordDialect) (value : Datum α) :
    Option (ReferenceSettings α) := do
  let fields ← dialect.fields?
      ["symbol_weight", "max_symbols_per_edge", "backward_factor", "import_weight",
       "max_definitions_per_symbol"] value
  let base : ReferenceSettings α := .default
  let symbolWeight ← fieldOr fields "symbol_weight" Datum.real? base.symbolWeight
  let maxSymbolsPerEdge ← fieldOr fields "max_symbols_per_edge" Datum.word? base.maxSymbolsPerEdge
  let backwardFactor ← fieldOr fields "backward_factor" Datum.real? base.backwardFactor
  let importWeight ← fieldOr fields "import_weight" Datum.real? base.importWeight
  let maxDefinitionsPerSymbol ←
    fieldOr fields "max_definitions_per_symbol" Datum.word? base.maxDefinitionsPerSymbol
  return { symbolWeight, maxSymbolsPerEdge, backwardFactor, importWeight, maxDefinitionsPerSymbol }

/-- The fields of a tagged record; as a list the tag comes first and the
fields of its kind follow, all of them. -/
def Fusion.fields? : Datum α → Option (List (String × Datum α))
  | .record fields => some fields
  | .list [.text kind] => some [("kind", .text kind)]
  | .list [.text kind, walk, lexical, cochange] =>
    if kind = "weighted" then
      some [("kind", .text kind), ("ppr", walk), ("lexical", lexical), ("cochange", cochange)]
    else none
  | _ => none

/-- A way of fusing signals, told by its `kind`. -/
def Fusion.ofDatum? (value : Datum α) : Option (Fusion α) := do
  let fields ← Fusion.fields? value
  let kind ← requiredField fields "kind" Datum.text?
  if kind = "sum" then return .sum
  else if kind = "max" then return .maximum
  else if kind = "weighted" then
    let walk ← requiredField fields "ppr" Datum.real?
    let lexical ← requiredField fields "lexical" Datum.real?
    let cochange ← requiredField fields "cochange" Datum.real?
    return .weighted walk lexical cochange
  else none

def SeedContent.ofDatum? (value : Datum α) : Option SeedContent := do
  let kind ← value.text?
  if kind = "hunks" then return .hunks
  else if kind = "full" then return .full
  else none

def AssemblySettings.ofDatum? (dialect : RecordDialect) (value : Datum α) :
    Option (AssemblySettings α) := do
  let fields ← dialect.fields?
      ["fusion", "seed_content"] value
  let base : AssemblySettings α := {}
  let fusion ← fieldOr fields "fusion" Fusion.ofDatum? base.fusion
  let seedContent ← fieldOr fields "seed_content" SeedContent.ofDatum? base.seedContent
  return { fusion, seedContent }

def ScanSettings.ofDatum? (dialect : RecordDialect) (value : Datum α) : Option ScanSettings := do
  let fields ← dialect.fields?
      ["include_extensions", "exclude_globs", "respect_gitignore", "follow_symlinks"] value
  let base : ScanSettings := .default
  let includeExtensions ←
    fieldOr fields "include_extensions" Datum.extensionItems? base.includeExtensions
  let excludeGlobs ← fieldOr fields "exclude_globs" Datum.textItems? base.excludeGlobs
  let respectIgnoreFiles ←
    fieldOr fields "respect_gitignore" Datum.boolean? base.respectIgnoreFiles
  let followSymlinks ← fieldOr fields "follow_symlinks" Datum.boolean? base.followSymlinks
  return { includeExtensions, excludeGlobs, respectIgnoreFiles, followSymlinks }

def Settings.ofDatum? (dialect : RecordDialect) (value : Datum α) : Option (Settings α) := do
  let fields ← dialect.fields?
      ["limits", "ppr", "lexical", "cochange", "sibling", "graph", "assemble", "scan"] value
  let base : Settings α := .default
  let limits ← fieldOr fields "limits" (Limits.ofDatum? dialect) base.limits
  let walk ← fieldOr fields "ppr" (WalkSettings.ofDatum? dialect) base.walk
  let lexical ← fieldOr fields "lexical" (LexicalSettings.ofDatum? dialect) base.lexical
  let cochange ← fieldOr fields "cochange" (CochangeSettings.ofDatum? dialect) base.cochange
  let sibling ← fieldOr fields "sibling" (SiblingSettings.ofDatum? dialect) base.sibling
  let references ← fieldOr fields "graph" (ReferenceSettings.ofDatum? dialect) base.references
  let assembly ← fieldOr fields "assemble" (AssemblySettings.ofDatum? dialect) base.assembly
  let scan ← fieldOr fields "scan" (ScanSettings.ofDatum? dialect) base.scan
  return { limits, walk, lexical, cochange, sibling, references, assembly, scan }

end ContextPack
