import ContextPack.Files.Entry
import ContextPack.Files.Ignore
import ContextPack.Path.Noise
import ContextPack.Settings.Basic
import ContextPack.Text.Small

/-!
# Scanning

The files of a working tree that may be brought into a context.  Ignored files
and hidden directories are not even looked at; of the others, each is left out
for the first reason that applies: a glob, its extension, its name, its size.
-/

namespace ContextPack

/-- A file that may be brought in. -/
structure ScannedFile where
  path : String
  /-- In bytes. -/
  size : Nat
deriving DecidableEq

/-- What a scan counted. -/
structure ScanStats where
  scanned : Nat := 0
  included : Nat := 0
  skippedGlob : Nat := 0
  skippedExtension : Nat := 0
  skippedSize : Nat := 0
  skippedNoise : Nat := 0
deriving DecidableEq

namespace Scan

/-! ## Which files are looked at -/

/-- Names of files without an extension that are known all the same. -/
def knownNames : List String :=
  ["makefile", "dockerfile", "rakefile", "gemfile", "procfile", "vagrantfile", "jenkinsfile"]

/-- Names of directories that are never entered. -/
def closedDirectories : List String :=
  ["node_modules", "__pycache__", ".git", ".venv", "venv"]

/-- Whether a directory is entered: hidden ones are not, with one exception. -/
def isEntered (name : String) : Bool :=
  !closedDirectories.contains name && (name == ".github" || !name.startsWith ".")

/-- The ignore files that count at a place, nearest first, by their kind. -/
structure IgnoreRules where
  /-- Of the scan's own. -/
  own : List IgnoreFile
  /-- Of version control. -/
  shared : List IgnoreFile
  /-- Of one repository. -/
  excluded : List IgnoreFile

def ignoreFile? (tree : Entry) (directory file : List String) : Option IgnoreFile :=
  match tree.resolve? (directory ++ file) with
  | some (_, .file bytes _) => some (.ofText directory (Utf8.decodeLossy bytes))
  | _ => none

/-- The rules inside a directory, its own put in front. -/
def IgnoreRules.enter (rules : IgnoreRules) (tree : Entry) (respect : Bool)
    (directory : List String) : IgnoreRules :=
  let found (file : List String) : List IgnoreFile := (ignoreFile? tree directory file).toList
  let shared (file : List String) : List IgnoreFile := if respect then found file else []
  ⟨found [".ignore"] ++ rules.own, shared [".gitignore"] ++ rules.shared,
   shared [".git", "info", "exclude"] ++ rules.excluded⟩

/-- Whether something is ignored: the scan's own files come first. -/
def IgnoreRules.ignores (rules : IgnoreRules) (place : List String) (isDirectory : Bool) : Bool :=
  let verdict := [rules.own, rules.shared, rules.excluded].findSome? fun files =>
    firstVerdict? files place isDirectory
  verdict.getD false

/-- The rules at a directory from those of all directories around it. -/
def rulesAround (tree : Entry) (respect : Bool) (place : List String) : IgnoreRules :=
  (List.range (place.length + 1)).foldl
    (fun rules depth => rules.enter tree respect (place.take depth)) ⟨[], [], []⟩

/-- Files of a directory and below it.  `place` is where the directory is
reached and `chain` holds where it and those around it really are, so that a
link to one of them is not followed again. -/
def filesBelow (tree : Entry) (settings : ScanSettings) : Nat → List String →
    List (List String) → IgnoreRules → List (List String × Nat)
  | 0, _, _, _ => []
  | fuel + 1, place, chain, rules =>
    let entries := ((chain.head?.bind tree.at?).map Entry.children).getD []
    entries.flatMap fun (name, entry) =>
      let here := place ++ [name]
      let isLink := match entry with
        | .link _ => true
        | _ => false
      let real := (chain.headD []) ++ [name]
      let reached := if isLink && settings.followSymlinks then tree.resolve? real
        else some (real, entry)
      match reached with
      | none => []
      | some (_, .link _) => []
      | some (_, .file bytes _) =>
        if rules.ignores here false then [] else [(here, bytes.length)]
      | some (target, .directory _) =>
        if rules.ignores here true || !isEntered name || chain.contains target then []
        else filesBelow tree settings fuel here (target :: chain)
          (rules.enter tree settings.respectIgnoreFiles here)

/-! ## Which files are kept -/

/-- Why a file is left out. -/
inductive Reason where
  | glob
  | extension
  | noise
  | size
deriving DecidableEq

/-- Whether a file's extension is listed, or its name known without one. -/
def hasListedExtension (settings : ScanSettings) (name : String) : Bool :=
  let small := Text.small name.toList
  match Path.nameExtension? small with
  | some ending => settings.includeExtensions.contains (String.ofList ('.' :: ending))
  | none => knownNames.contains (String.ofList small)

/-- The first reason to leave a file out, if there is one. -/
def reason? (globs : List Glob) (settings : ScanSettings) (maxFileSize : Nat) (path name : String)
    (size : Nat) : Option Reason :=
  if globs.any fun glob => glob.fits false (Utf8.ofString path) then some .glob
  else if !hasListedExtension settings name then some .extension
  else if Path.isNoise path then some .noise
  else if maxFileSize < size then some .size
  else none

/-- The path of a file from where the scan began. -/
def pathFrom (start place : List String) : String :=
  Path.normalize (String.intercalate "/" (place.drop start.length))

/-- A file looked at, and why it is left out. -/
structure Judged where
  file : ScannedFile
  reason : Option Reason

def statsOf (judged : List Judged) : ScanStats :=
  let count (reason : Option Reason) : Nat :=
    (judged.filter fun item => item.reason = reason).length
  { scanned := judged.length, included := count none, skippedGlob := count (some .glob)
    skippedExtension := count (some .extension), skippedSize := count (some .size)
    skippedNoise := count (some .noise) }

/-- Scans a directory of a tree: the files that may be brought in, by path. -/
def run (settings : ScanSettings) (maxFileSize : Nat) (tree : Entry) (start : List String) :
    List ScannedFile × ScanStats :=
  let globs := settings.excludeGlobs.filterMap fun text => Glob.read? text.toList
  let rules := rulesAround tree settings.respectIgnoreFiles start
  let found :=
    match tree.resolve? start with
    | some (real, .directory _) => filesBelow tree settings (tree.count + 1) start [real] rules
    | _ => []
  let judged := found.map fun (place, size) =>
    let path := pathFrom start place
    (⟨⟨path, size⟩, reason? globs settings maxFileSize path (place.getLast?.getD "") size⟩ : Judged)
  let kept := (judged.filter fun item => item.reason = none).map Judged.file
  (kept.mergeSort fun a b => Text.le a.path b.path, statsOf judged)

end Scan

end ContextPack
