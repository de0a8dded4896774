import ContextPack.Proofs.Data.Overlay
import ContextPack.Proofs.Settings.Values

namespace ContextPack

/-!
# Settings key by key

Settings are sections of keys, and what a key takes depends on its kind alone.  Every section
is read key by key, and so are the settings section by section.
-/

variable {α : Type} [Scalar α]

/-! ## Keys and sections -/

/-- A key, with a default that it takes as it is. -/
structure Key (α : Type) [Scalar α] where
  name : String
  kind : KeyKind
  default : Datum α
  normal : kind.normal? default = some default

namespace Key

def natural (name : String) (n : Nat) (fits : Nat.ble n naturalLimit = true) : Key α where
  name
  kind := .natural
  default := naturalDatum n
  normal := by
    rw [KeyKind.normal?, Datum.word?_naturalDatum (Nat.le_of_ble_eq_true fits), Option.map_some]

def real (name : String) (x : α) : Key α := ⟨name, .real, .real x, rfl⟩

def texts (name : String) (items : List String)
    (normal : normalizeItems items = items) : Key α where
  name
  kind := .texts
  default := textsDatum items
  normal := by rw [KeyKind.normal?, Datum.textItems?_textsDatum, Option.map_some, normal]

def extensions (name : String) (items : List String)
    (normal : (normalizeItems items).map normalizeExtension = items) : Key α where
  name
  kind := .extensions
  default := textsDatum items
  normal := by rw [KeyKind.normal?, Datum.extensionItems?_textsDatum, Option.map_some, normal]

def truth (name : String) (value : Bool) : Key α := ⟨name, .truth, .boolean value, rfl⟩

def fusion (name : String) (fusion : Fusion α) : Key α where
  name
  kind := .fusion
  default := .record fusion.fields
  normal := by cases fusion <;> rfl

def seedContent (name : String) (content : SeedContent) : Key α where
  name
  kind := .seedContent
  default := content.toDatum
  normal := by cases content <;> rfl

end Key

/-- A section, whose keys have different names. -/
structure Section (α : Type) [Scalar α] where
  name : String
  keys : List (Key α)
  distinct : (keys.map Key.name).Nodup

/-- A field of a record: how its value is read and written again, and what it is when it is
left out. -/
structure Field (α : Type) where
  name : String
  read : Datum α → Option (Datum α)
  default : Datum α

/-- Fields read one by one. -/
def readFields (fields : List (Field α)) (given : List (String × Datum α)) :
    Option (List (String × Datum α)) :=
  fields.mapM fun field =>
    (fieldOr given field.name field.read field.default).map fun value => (field.name, value)

def Key.field (key : Key α) : Field α := ⟨key.name, key.kind.normal?, key.default⟩

namespace Section

def fields (part : Section α) : List (Field α) := part.keys.map Key.field

theorem nodup_fields (part : Section α) : (part.fields.map Field.name).Nodup := by
  rw [fields, List.map_map]
  exact part.distinct

def defaults (part : Section α) : List (String × Datum α) :=
  part.keys.map fun key => (key.name, key.default)

/-- A section read as a whole and written again. -/
def read? (part : Section α) (dialect : RecordDialect) (value : Datum α) : Option (Datum α) :=
  (dialect.fields? (part.keys.map Key.name) value).bind fun given =>
    (readFields part.fields given).map .record

def field (dialect : RecordDialect) (part : Section α) : Field α :=
  ⟨part.name, part.read? dialect, .record part.defaults⟩

end Section

/-! ## The sections -/

def Limits.part : Section α :=
  let base : Limits := {}
  { name := "limits"
    keys :=
      [.natural "max_file_size" base.maxFileSize rfl,
       .natural "max_fragments" base.maxFragments rfl,
       .natural "rare_identifier_threshold" base.rareIdentifierThreshold rfl,
       .natural "max_expansion_files" base.maxExpansionFiles rfl,
       .natural "overhead_per_fragment" base.overheadPerFragment rfl,
       .natural "default_budget_tokens" base.defaultBudget rfl]
    distinct := by simp [Key.natural] }

def WalkSettings.part : Section α :=
  let base : WalkSettings α := .default
  { name := "ppr"
    keys :=
      [.real "alpha" base.alpha,
       .real "tolerance" base.tolerance,
       .natural "max_iterations" base.maxIterations rfl]
    distinct := by simp [Key.natural, Key.real] }

def LexicalSettings.part : Section α :=
  let base : LexicalSettings α := .default
  { name := "lexical"
    keys :=
      [.real "min_similarity" base.minSimilarity,
       .real "hub_percentile" base.hubPercentile,
       .natural "top_k_neighbors" base.topNeighbors rfl,
       .real "max_df_ratio" base.maxDocumentRatio,
       .real "min_idf" base.minIdf,
       .natural "max_postings" base.maxPostings rfl,
       .real "weight_min" base.weightMin,
       .real "weight_max" base.weightMax,
       .real "backward_factor" base.backwardFactor,
       .real "rare_boost" base.rareBoost,
       .natural "min_term_len" base.minTermLength rfl]
    distinct := by simp [Key.natural, Key.real] }

def CochangeSettings.part : Section α :=
  let base : CochangeSettings α := .default
  { name := "cochange"
    keys :=
      [.real "weight" base.weight,
       .natural "min_count" base.minCount rfl,
       .natural "max_files_per_commit" base.maxFilesPerCommit rfl,
       .natural "commits_limit" base.commitsLimit rfl,
       .natural "timeout_seconds" base.timeoutSeconds rfl]
    distinct := by simp [Key.natural, Key.real] }

/-- The lists of the default do not depend on the numbers. -/
theorem SiblingSettings.normalizeItems_default :
    normalizeItems (default : SiblingSettings α).extensions =
        (default : SiblingSettings α).extensions ∧
      normalizeItems (default : SiblingSettings α).fileNames =
        (default : SiblingSettings α).fileNames := by
  change normalizeItems (default : SiblingSettings Float).extensions =
        (default : SiblingSettings Float).extensions ∧
      normalizeItems (default : SiblingSettings Float).fileNames =
        (default : SiblingSettings Float).fileNames
  decide +kernel

def SiblingSettings.part : Section α :=
  let base : SiblingSettings α := .default
  { name := "sibling"
    keys :=
      [.natural "max_files_per_dir" base.maxFilesPerDirectory rfl,
       .texts "extensions" base.extensions normalizeItems_default.1,
       .texts "file_names" base.fileNames normalizeItems_default.2,
       .real "edge_weight" base.edgeWeight]
    distinct := by simp [Key.natural, Key.texts, Key.real] }

def ReferenceSettings.part : Section α :=
  let base : ReferenceSettings α := .default
  { name := "graph"
    keys :=
      [.real "symbol_weight" base.symbolWeight,
       .natural "max_symbols_per_edge" base.maxSymbolsPerEdge rfl,
       .real "backward_factor" base.backwardFactor,
       .real "import_weight" base.importWeight,
       .natural "max_definitions_per_symbol" base.maxDefinitionsPerSymbol rfl]
    distinct := by simp [Key.natural, Key.real] }

def AssemblySettings.part : Section α :=
  let base : AssemblySettings α := {}
  { name := "assemble"
    keys :=
      [.fusion "fusion" base.fusion,
       .seedContent "seed_content" base.seedContent]
    distinct := by simp [Key.fusion, Key.seedContent] }

def ScanSettings.part : Section α :=
  let base : ScanSettings := .default
  { name := "scan"
    keys :=
      [.extensions "include_extensions" base.includeExtensions (by decide +kernel),
       .texts "exclude_globs" base.excludeGlobs (by decide +kernel),
       .truth "respect_gitignore" base.respectIgnoreFiles,
       .truth "follow_symlinks" base.followSymlinks]
    distinct := by simp [Key.extensions, Key.texts, Key.truth] }

/-- All sections. -/
def Settings.sections : List (Section α) :=
  [Limits.part, WalkSettings.part, LexicalSettings.part, CochangeSettings.part,
   SiblingSettings.part, ReferenceSettings.part, AssemblySettings.part, ScanSettings.part]

theorem Settings.nodup_sections : ((sections : List (Section α)).map Section.name).Nodup := by
  simp [sections, Limits.part, WalkSettings.part, LexicalSettings.part, CochangeSettings.part,
    SiblingSettings.part, ReferenceSettings.part, AssemblySettings.part, ScanSettings.part]

/-! ## Reading key by key -/

section Reading

variable {β γ : Type} {given : List (String × Datum α)} {name : String}

omit [Scalar α] in
theorem readFields_cons (field : Field α) (fields : List (Field α)) :
    readFields (field :: fields) given =
      (fieldOr given field.name field.read field.default).bind fun value =>
        (readFields fields given).map fun others => (field.name, value) :: others := by
  rw [readFields, List.mapM_cons]
  unfold readFields
  cases fieldOr given field.name field.read field.default with
  | none => rfl
  | some value =>
      cases fields.mapM fun field =>
        (fieldOr given field.name field.read field.default).map (field.name, ·) with
      | none => rfl
      | some others => rfl

omit [Scalar α] in
/-- Reading one more field and going on is going on field by field. -/
theorem bind_fieldOr {read : Datum α → Option β} {write : β → Datum α} {default : β}
    {normal : Datum α → Option (Datum α)} {written : Datum α} {fields : List (Field α)}
    {next : β → Option γ} {out : γ → Datum α} {record : List (String × Datum α) → Datum α}
    (reads : ∀ value, (read value).map write = normal value) (writes : write default = written)
    (step : ∀ x, (next x).map out =
      (readFields fields given).map fun others => record ((name, write x) :: others)) :
    ((fieldOr given name read default).bind next).map out =
      (readFields (⟨name, normal, written⟩ :: fields) given).map record := by
  have same : fieldOr given name normal written = (fieldOr given name read default).map write := by
    rw [fieldOr, fieldOr]
    split
    · next value _ => exact (reads value).symm
    · exact congrArg some writes.symm
  rw [readFields_cons, same]
  cases fieldOr given name read default with
  | none => rfl
  | some x =>
      refine (step x).trans ?_
      rw [Option.map_some, Option.bind_some, Option.map_map]
      rfl

omit [Scalar α] in
theorem map_bind {read : List (String × Datum α) → Option γ} {out : γ → Datum α}
    {next : List (String × Datum α) → Option (Datum α)}
    (step : ∀ given, (read given).map out = next given)
    (fields : Option (List (String × Datum α))) : (fields.bind read).map out = fields.bind next := by
  cases fields with
  | none => rfl
  | some given => exact step given

end Reading

section Sections

variable (dialect : RecordDialect) (value : Datum α)

theorem Limits.read?_eq :
    (Limits.ofDatum? dialect value).map (fun limits => .record limits.fields) =
      part.read? dialect value := by
  refine map_bind (fun given => ?_) _
  iterate 6 refine bind_fieldOr (fun _ => rfl) rfl fun _ => ?_
  rfl

theorem WalkSettings.read?_eq :
    (WalkSettings.ofDatum? dialect value).map (fun walk => .record walk.fields) =
      part.read? dialect value := by
  refine map_bind (fun given => ?_) _
  iterate 3 refine bind_fieldOr (fun _ => rfl) rfl fun _ => ?_
  rfl

theorem LexicalSettings.read?_eq :
    (LexicalSettings.ofDatum? dialect value).map (fun lexical => .record lexical.fields) =
      part.read? dialect value := by
  refine map_bind (fun given => ?_) _
  iterate 11 refine bind_fieldOr (fun _ => rfl) rfl fun _ => ?_
  rfl

theorem CochangeSettings.read?_eq :
    (CochangeSettings.ofDatum? dialect value).map (fun cochange => .record cochange.fields) =
      part.read? dialect value := by
  refine map_bind (fun given => ?_) _
  iterate 5 refine bind_fieldOr (fun _ => rfl) rfl fun _ => ?_
  rfl

theorem SiblingSettings.read?_eq :
    (SiblingSettings.ofDatum? dialect value).map (fun sibling => .record sibling.fields) =
      part.read? dialect value := by
  refine map_bind (fun given => ?_) _
  iterate 4 refine bind_fieldOr (fun _ => rfl) rfl fun _ => ?_
  rfl

theorem ReferenceSettings.read?_eq :
    (ReferenceSettings.ofDatum? dialect value).map (fun references => .record references.fields) =
      part.read? dialect value := by
  refine map_bind (fun given => ?_) _
  iterate 5 refine bind_fieldOr (fun _ => rfl) rfl fun _ => ?_
  rfl

theorem AssemblySettings.read?_eq :
    (AssemblySettings.ofDatum? dialect value).map (fun assembly => .record assembly.fields) =
      part.read? dialect value := by
  refine map_bind (fun given => ?_) _
  iterate 2 refine bind_fieldOr (fun _ => rfl) rfl fun _ => ?_
  rfl

theorem ScanSettings.read?_eq :
    (ScanSettings.ofDatum? dialect value).map (fun scan => .record scan.fields) =
      part.read? dialect value := by
  refine map_bind (fun given => ?_) _
  iterate 4 refine bind_fieldOr (fun _ => rfl) rfl fun _ => ?_
  rfl

/-- All settings read section by section. -/
theorem Settings.read?_eq :
    (Settings.ofDatum? dialect value).map Settings.toDatum =
      (dialect.fields? (sections.map (Section.name (α := α))) value).bind fun given =>
        (readFields (sections.map (Section.field dialect)) given).map .record := by
  refine map_bind (fun given => ?_) _
  refine bind_fieldOr (Limits.read?_eq dialect) rfl fun _ => ?_
  refine bind_fieldOr (WalkSettings.read?_eq dialect) rfl fun _ => ?_
  refine bind_fieldOr (LexicalSettings.read?_eq dialect) rfl fun _ => ?_
  refine bind_fieldOr (CochangeSettings.read?_eq dialect) rfl fun _ => ?_
  refine bind_fieldOr (SiblingSettings.read?_eq dialect) rfl fun _ => ?_
  refine bind_fieldOr (ReferenceSettings.read?_eq dialect) rfl fun _ => ?_
  refine bind_fieldOr (AssemblySettings.read?_eq dialect) rfl fun _ => ?_
  refine bind_fieldOr (ScanSettings.read?_eq dialect) rfl fun _ => ?_
  rfl

end Sections

/-! ## Writing -/

omit [Scalar α] in
@[simp] theorem naturalDatum_inj {m n : Nat} :
    (naturalDatum m : Datum α) = naturalDatum n ↔ m = n := by
  rw [naturalDatum, naturalDatum, Datum.integer.injEq, Int.natCast_inj]

omit [Scalar α] in
@[simp] theorem textsDatum_inj {texts others : List String} :
    (textsDatum texts : Datum α) = textsDatum others ↔ texts = others := by
  have injective : Function.Injective (Datum.text : String → Datum α) := fun _ _ => Datum.text.inj
  rw [textsDatum, textsDatum, Datum.list.injEq, injective.list_map.eq_iff]

omit [Scalar α] in
@[simp] theorem Fusion.fields_inj {fusion other : Fusion α} :
    fusion.fields = other.fields ↔ fusion = other := by
  cases fusion <;> cases other <;> simp [fields]

omit [Scalar α] in
@[simp] theorem SeedContent.toDatum_inj {content other : SeedContent} :
    (content.toDatum : Datum α) = other.toDatum ↔ content = other := by
  cases content <;> cases other <;> simp [toDatum]

omit [Scalar α] in
@[simp] theorem Limits.fields_inj {limits other : Limits} :
    (limits.fields : List (String × Datum α)) = other.fields ↔ limits = other := by
  cases limits
  cases other
  simp [fields]

omit [Scalar α] in
@[simp] theorem WalkSettings.fields_inj {walk other : WalkSettings α} :
    walk.fields = other.fields ↔ walk = other := by
  cases walk
  cases other
  simp [fields]

omit [Scalar α] in
@[simp] theorem LexicalSettings.fields_inj {lexical other : LexicalSettings α} :
    lexical.fields = other.fields ↔ lexical = other := by
  cases lexical
  cases other
  simp [fields]

omit [Scalar α] in
@[simp] theorem CochangeSettings.fields_inj {cochange other : CochangeSettings α} :
    cochange.fields = other.fields ↔ cochange = other := by
  cases cochange
  cases other
  simp [fields]

omit [Scalar α] in
@[simp] theorem SiblingSettings.fields_inj {sibling other : SiblingSettings α} :
    sibling.fields = other.fields ↔ sibling = other := by
  cases sibling
  cases other
  simp [fields]

omit [Scalar α] in
@[simp] theorem ReferenceSettings.fields_inj {references other : ReferenceSettings α} :
    references.fields = other.fields ↔ references = other := by
  cases references
  cases other
  simp [fields]

omit [Scalar α] in
@[simp] theorem AssemblySettings.fields_inj {assembly other : AssemblySettings α} :
    assembly.fields = other.fields ↔ assembly = other := by
  cases assembly
  cases other
  simp [fields]

omit [Scalar α] in
@[simp] theorem ScanSettings.fields_inj {scan other : ScanSettings} :
    (scan.fields : List (String × Datum α)) = other.fields ↔ scan = other := by
  cases scan
  cases other
  simp [fields]

omit [Scalar α] in
/-- What is written tells the settings. -/
theorem Settings.toDatum_injective : Function.Injective (toDatum : Settings α → Datum α) := by
  rintro ⟨⟩ ⟨⟩ same
  simpa [toDatum, fields] using same

end ContextPack
