import Std.Time.DateTime.Timestamp
import ContextPack.CommandLine.Run
import ContextPack.Storage.Opened
import ContextPack.Text.Timestamp

/-!
# The program

The command line on a real machine: reads directories and files, and hands them
to the library as trees and stored repositories.
-/

namespace ContextPack.Machine

/-! ## Reading -/

def bytes? (path : String) : IO (Option ByteArray) := do
  try return some (← IO.FS.readBinFile path) catch _ => return none

/-- The absolute path without links, if something is there. -/
def realPath? (path : String) : IO (Option String) := do
  try return some (← IO.FS.realPath path).toString catch _ => return none

/-- What stands directly in a directory: names and whether each is a file, a
directory or a link. -/
def entriesIn (directory : String) : IO (List (String × IO.FS.FileType)) := do
  try
    let entries ← (← IO.FS.realPath directory).readDir
    entries.toList.mapM fun entry => do
      return (entry.fileName, (← entry.path.symlinkMetadata).type)
  catch _ => return []

def isDirectory (path : String) : IO Bool := do
  try return (← (← IO.FS.realPath path).metadata).type == .dir catch _ => return false

/-- The paths of all files below a directory, each behind `above`. -/
partial def filesBelow (directory above : String) : IO (List String) := do
  let entries ← entriesIn directory
  let paths ← entries.mapM fun (name, type) => do
    match type with
    | .dir => filesBelow (directory ++ "/" ++ name) (above ++ name ++ "/")
    | .file => return [above ++ name]
    | _ => return []
  return paths.flatten

/-- The files in which a repository is kept. -/
def storedFiles (directory : String) : IO Storage.StoredFiles := do
  let top ← (← entriesIn directory).filterMapM fun (name, type) => do
    return if type == .file then some name else none
  let inner ← ["objects", "refs"].mapM fun name =>
    filesBelow (directory ++ "/" ++ name) (name ++ "/")
  let paths := top ++ inner.flatten
  let contents ← paths.filterMapM fun path => do
    return (← bytes? (directory ++ "/" ++ path)).map fun data => (path, data)
  let table : Std.HashMap String ByteArray := .ofList contents
  return ⟨paths, fun path => table[path]?⟩

/-! ## Working trees -/

/-- The text of a link: that of the staged link at its path if this leads to the
same place, else the way to where it leads. -/
def linkText (root : String) (place : List String) (staged : Option String) : IO (Option String) := do
  let directory := String.intercalate "/" (root :: place.dropLast)
  match ← realPath? (String.intercalate "/" (root :: place)), staged with
  | none, staged => return staged
  | some real, some text =>
    if (← realPath? (directory ++ "/" ++ text)) == some real then return some text
    else return some (way real)
  | some real, none => return some (way real)
where
  /-- The way from the link to an absolute path. -/
  way (real : String) : String :=
    let around := Entry.segments root
    let steps := Entry.segments real
    if around.isPrefixOf steps then
      String.intercalate "/" (place.dropLast.map (fun _ => "..") ++ steps.drop around.length)
    else real

/-- What stands at a place of a working tree.  Whether a file can be run is told
by what is staged. -/
partial def readEntry (root : String) (staged : String → Option (FileMode × String))
    (place : List String) (type : IO.FS.FileType) : IO (Option Entry) := do
  let path := String.intercalate "/" (root :: place)
  let known := staged (String.intercalate "/" place)
  match type with
  | .dir =>
    let entries ← (← entriesIn path).filterMapM fun (name, type) => do
      if place.isEmpty && name == Worktree.controlName then return none
      return (← readEntry root staged (place ++ [name]) type).map fun entry => (name, entry)
    return some (.directory entries)
  | .file =>
    return (← bytes? path).map fun data =>
      .file data.toList (match known with
        | some (.executable, _) => true
        | _ => false)
  | .symlink =>
    let text := match known with
      | some (.link, text) => some text
      | _ => none
    return (← linkText root place text).map .link
  | .other => return none

/-- The modes of staged files, and the texts of staged links. -/
def stagedFiles (repository : Repository) : Std.HashMap String (FileMode × String) :=
  .ofList <| repository.staged.map fun file =>
    (file.path, file.mode,
      if file.mode == .link then String.ofList (Utf8.decodeLossy (repository.contentOf file)) else "")

/-- The workspace whose root is a directory; none if it is no repository. -/
def workspaceAt? (directory : String) : IO (Option Workspace) := do
  let control := directory ++ "/" ++ Worktree.controlName
  let owned ← isDirectory control
  if !owned && !(← isDirectory (directory ++ "/objects")) then return none
  let files ← storedFiles (if owned then control else directory)
  match files.open? (!owned) with
  | none => return none
  | some repository =>
    let staged := stagedFiles repository
    let read ← if owned then readEntry directory (fun path => staged[path]?) [] .dir
      else pure none
    let tree := read.getD (.directory [])
    let tree := match ← bytes? (control ++ "/info/exclude") with
      | some data => tree.put [Worktree.controlName, "info", "exclude"] (.file data.toList false)
      | none => tree
    return some ⟨tree, some repository⟩

/-- The workspace around an absolute path, and the place of the path in it. -/
def workspaceAround (path : String) : IO (Workspace × List String) := do
  let steps := Entry.segments path
  let found ← (List.range (steps.length + 1)).reverse.findSomeM? fun depth => do
    let root := "/" ++ String.intercalate "/" (steps.take depth)
    let place := steps.drop depth
    return (← workspaceAt? root).map fun workspace =>
      let bare := workspace.tree.children.isEmpty
      (workspace, if bare then [] else place)
  return found.getD (⟨.directory [], none⟩, [])

/-! ## The host -/

def directoryProblem (error : IO.Error) : DirectoryProblem :=
  match error with
  | .alreadyExists .. => .occupied
  | .inappropriateType .. => .blocked
  | error => .refused (toString error)

/-- The environment of this process, as the system keeps it. -/
def environment : IO (List (String × String)) := do
  let data := ((← bytes? "/proc/self/environ").map ByteArray.toList).getD []
  let entries := Text.pieces '\x00' (Utf8.decodeLossy data)
  return entries.filterMap fun entry =>
    match Text.splitFirst? ['='] entry with
    | some (name, value) => some (String.ofList name, String.ofList value)
    | none => none

def host : CommandLine.Host IO where
  realPath? path := do
    match ← realPath? path with
    | some real => return some ⟨real, ← isDirectory real⟩
    | none => return none
  bytes? path := do return (← bytes? path).map ByteArray.toList
  workspaceAround := workspaceAround
  makeDirectories path := do
    try
      IO.FS.createDirAll path
      return .ok ()
    catch error => return .error (directoryProblem error)
  write path data := do
    try
      IO.FS.writeBinFile path ⟨data.toArray⟩
      return true
    catch _ => return false
  environment := environment
  now := do return Timestamp.text (← Std.Time.Timestamp.now).toSecondsSinceUnixEpoch.val.toNat

end ContextPack.Machine

def main (words : List String) : IO UInt32 := do
  let outcome ← ContextPack.Machine.host.run words
  IO.print outcome.printed
  IO.eprint outcome.noted
  return UInt32.ofNat outcome.code
