import ContextPack.Data.Toml.Document
import ContextPack.Data.Yaml.Node
import ContextPack.Files.Entry
import ContextPack.Path.Basic
import ContextPack.Settings.Check
import ContextPack.Settings.Environment
import ContextPack.Settings.Record
import ContextPack.Text.Utf8

/-!
# Loading settings

Settings come from three layers, each over the one before: defaults, a file,
and the environment.  A file that the caller names has to be in order; one that
is merely found is passed over when it is not.
-/

namespace ContextPack

/-- TOML: a list may stand for a record. -/
def RecordDialect.toml : RecordDialect := ⟨false, true⟩

/-- YAML: a null stands for an empty record. -/
def RecordDialect.yaml : RecordDialect := ⟨true, false⟩

/-- Variables of the environment: a list may stand for a record. -/
def RecordDialect.environment : RecordDialect := ⟨false, true⟩

/-- A settings file: its name in messages and its bytes, if it can be read. -/
structure SettingsFile where
  path : String
  bytes? : Option (List UInt8)

inductive SettingsFileProblem where
  | unreadable
  | tomlSyntax
  | tomlSettings
  | yamlSyntax
  | yamlSettings
  | unknownFormat (extension : String)
deriving DecidableEq

/-- Why settings cannot be loaded. -/
inductive LoadProblem where
  | file (path : String) (problem : SettingsFileProblem)
  /-- With the environment's values the settings make no sense. -/
  | override
  /-- The settings break a rule. -/
  | refused (error : ContextError)
deriving DecidableEq

def SettingsFileProblem.message (path : String) : SettingsFileProblem → String
  | unreadable => "Failed reading config file: " ++ path
  | tomlSyntax => "Invalid TOML syntax: " ++ path
  | tomlSettings => "Invalid TOML config: " ++ path
  | yamlSyntax => "Invalid YAML syntax: " ++ path
  | yamlSettings => "Invalid YAML config: " ++ path
  | unknownFormat ending => "Unsupported config extension '." ++ ending ++ "' for file " ++ path

def LoadProblem.message : LoadProblem → String
  | file path problem => problem.message path
  | override => "Invalid configuration override"
  | refused error => error.message

variable {α : Type} [Scalar α] [RealLiteral α]

/-! ## Files -/

/-- The section that holds the settings in a file shared with others. -/
def sharedSection : String := "diff-context"

/-- The part of a file's value that holds the settings. -/
def settingsPart (value : Datum α) : Datum α := (value.field? sharedSection).getD value

/-- The ending of a file's name in small letters, empty without one. -/
def formatOf (path : String) : String := (Path.extension? path).getD ""

/-- The settings of a file's text in the format that its name tells. -/
def Settings.ofText (path : String) (text : List Char) : Except SettingsFileProblem (Settings α) :=
  let format := formatOf path
  if format == "toml" then
    match Toml.read? text with
    | none => .error .tomlSyntax
    | some value =>
      match Settings.ofDatum? .toml (settingsPart value) with
      | some settings => .ok settings
      | none => .error .tomlSettings
  else if format == "yaml" || format == "yml" then
    match Yaml.read? text with
    | none => .error .yamlSyntax
    | some value =>
      match Settings.ofDatum? .yaml (settingsPart value) with
      | some settings => .ok settings
      | none => .error .yamlSettings
  else .error (.unknownFormat format)

def Settings.ofFile (file : SettingsFile) : Except SettingsFileProblem (Settings α) :=
  match file.bytes?.bind Utf8.decode? with
  | none => .error .unreadable
  | some text => Settings.ofText file.path text

/-- Names under which a settings file is looked for, in this order. -/
def settingsFileNames : List String :=
  ["diff-context.toml", ".diff-context.toml", "diff-context.yml", "diff-context.yaml",
   ".diff-context.yml", ".diff-context.yaml"]

/-- The bytes of the file at a place, links followed. -/
def Entry.bytesAt? (tree : Entry) (place : List String) : Option (List UInt8) :=
  match tree.resolve? place with
  | some (_, .file bytes _) => some bytes
  | _ => none

def SettingsFile.find? (tree : Entry) (directory : List String) : Option SettingsFile :=
  settingsFileNames.findSome? fun name =>
    (tree.bytesAt? (directory ++ [name])).map fun bytes => ⟨name, some bytes⟩

/-- The settings of the file that the caller names, else of one that was found,
else the defaults. -/
def Settings.fromFiles (named found : Option SettingsFile) : Except LoadProblem (Settings α) :=
  match named, found with
  | some file, _ => (Settings.ofFile file).mapError (.file file.path)
  | none, some file =>
    match Settings.ofFile file with
    | .ok settings => .ok settings
    | .error _ => .ok .default
  | none, none => .ok .default

/-! ## Overrides -/

/-- Settings with single keys replaced. -/
def Settings.override? (base : Settings α) (upper : Datum α) : Option (Settings α) :=
  Settings.ofDatum? .environment (base.toDatum.overlay upper)

def Settings.load (named found : Option SettingsFile) (environment : List (String × String)) :
    Except LoadProblem (Settings Float) := do
  let base ← Settings.fromFiles named found
  match Settings.override? base (Environment.settingsOf environment) with
  | none => throw .override
  | some settings =>
    settings.check.mapError LoadProblem.refused
    return settings

end ContextPack
