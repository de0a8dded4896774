import ContextPack.CommandLine.Arguments
import ContextPack.CommandLine.Host
import ContextPack.Decimal.Fixed
import ContextPack.Engine
import ContextPack.Pack.JsonOutput
import ContextPack.Pack.Markdown
import ContextPack.Path.Basic
import ContextPack.Settings.Load
import ContextPack.Text.Utf8

/-!
# Building on request

Carries out a request: finds the working tree, loads the settings, lets the
request override them, builds the context, and prints it or writes it to a
file.
-/

namespace ContextPack.CommandLine

/-- Why a request is not carried out. -/
inductive BuildProblem where
  | inaccessible (path : String)
  | notDirectory (path : String)
  | settings (problem : LoadProblem)
  | context (error : ContextError)
  | noDirectory (problem : DirectoryProblem)
  | unwritable (path : String)
deriving DecidableEq

def BuildProblem.message : BuildProblem → String
  | inaccessible path => "Cannot access " ++ path
  | notDirectory path => "Path is not a directory: " ++ path
  | settings problem => problem.message
  | context error => error.message
  | noDirectory problem => problem.message
  | unwritable path => "Failed to write " ++ path

/-- What a run leaves behind besides files. -/
structure Outcome where
  /-- Zero if all went well. -/
  code : Nat
  /-- The text on the standard output. -/
  printed : String
  /-- The text on the standard error output. -/
  noted : String
deriving DecidableEq

/-! ## Settings -/

/-- Scan settings with what a request says. -/
def BuildRequest.scanSettings (request : BuildRequest) (scan : ScanSettings) : ScanSettings :=
  { scan with
    includeExtensions := match request.extensions with
      | some text => (commaItems text).map normalizeExtension
      | none => scan.includeExtensions
    excludeGlobs := match request.globs with
      | some text => commaItems text
      | none => scan.excludeGlobs
    respectIgnoreFiles := scan.respectIgnoreFiles && !request.noIgnoreFiles }

/-- Settings with what a request says. -/
def BuildRequest.adjust (request : BuildRequest) (settings : Settings Float) : Settings Float :=
  { settings with
    scan := request.scanSettings settings.scan
    assembly := { settings.assembly with
      seedContent := if request.fullSeeds then .full else settings.assembly.seedContent } }

variable {m : Type → Type} [Monad m]

def Host.settingsFileIn? (host : Host m) (directory : String) : m (Option SettingsFile) :=
  settingsFileNames.findSomeM? fun name => do
    let bytes ← host.bytes? (directory ++ "/" ++ name)
    return bytes.map fun bytes => ⟨name, some bytes⟩

/-- The settings for a directory: of the file that the request names, else of
one in the directory. -/
def Host.settingsFor (host : Host m) (request : BuildRequest) (directory : String) :
    m (Except LoadProblem (Settings Float)) := do
  let environment ← host.environment
  match request.config with
  | some path => return Settings.load (some ⟨path, ← host.bytes? path⟩) none environment
  | none => return Settings.load none (← host.settingsFileIn? directory) environment

/-! ## Output -/

/-- The text of a context in the form asked for. -/
def BuildRequest.render (request : BuildRequest) (now : String) (context : Context Float) : String :=
  let timestamp := if request.noTimestamp then none else some now
  match request.format with
  | .json => context.renderJson timestamp
  | .markdown => context.renderMarkdown (Fixed.render 4) timestamp

/-- What is said when a context was written to a file. -/
def writtenNote (context : Context Float) (path : String) : String :=
  "Wrote " ++ toString context.fragmentCount ++ " fragment(s), " ++ toString context.tokensUsed ++
    " / " ++ toString context.budgetTokens ++ " tokens, to " ++ path ++ "\n"

/-- Prints a text, or writes it to the file asked for. -/
def Host.deliver (host : Host m) (request : BuildRequest) (context : Context Float)
    (text : String) : ExceptT BuildProblem m Outcome := do
  match request.output with
  | none => return ⟨0, text, ""⟩
  | some path =>
    let directory := Path.enclosing path
    if directory != "" then
      match ← host.makeDirectories directory with
      | .ok _ => pure ()
      | .error problem => throw (.noDirectory problem)
    if ← host.write path (Utf8.ofString text) then return ⟨0, "", writtenNote context path⟩
    else throw (.unwritable path)

/-! ## Running -/

/-- Carries out a request. -/
def Host.build (host : Host m) (request : BuildRequest) : ExceptT BuildProblem m Outcome := do
  match ← host.realPath? request.path with
  | none => throw (.inaccessible request.path)
  | some root =>
    if !root.isDirectory then throw (.notDirectory root.text)
    match ← host.settingsFor request root.text with
    | .error problem => throw (.settings problem)
    | .ok settings =>
      let (workspace, place) ← host.workspaceAround root.text
      let setup := Engine.Setup.ofSettings (request.adjust settings)
      match Engine.build setup workspace root.text place request.range request.budget with
      | .error error => throw (.context error)
      | .ok context =>
        let now ← host.now
        host.deliver request context (request.render now context)

end ContextPack.CommandLine
