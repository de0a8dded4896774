import ContextPack.Files.Ignore
import ContextPack.Files.Entry
import ContextPack.Repository.Delta

/-!
# Working trees

The files of a working tree as version control sees them: what is staged, and
what lies beside it and is not ignored.
-/

namespace ContextPack.Worktree

/-- The directory in which a repository keeps its own files. -/
def controlName : String := ".git"

/-- The ignore files that count inside a directory, nearest first. -/
structure Rules where
  shared : List IgnoreFile
  excluded : List IgnoreFile

def ignoreAt (tree : Entry) (directory file : List String) : List IgnoreFile :=
  match tree.at? (directory ++ file) with
  | some (.file bytes _) => [.ofText directory (Utf8.decodeLossy bytes)]
  | _ => []

def Rules.enter (rules : Rules) (tree : Entry) (directory : List String) : Rules :=
  ⟨ignoreAt tree directory [".gitignore"] ++ rules.shared, rules.excluded⟩

def Rules.atRoot (tree : Entry) : Rules :=
  Rules.enter ⟨[], ignoreAt tree [] [controlName, "info", "exclude"]⟩ tree []

def Rules.ignores (rules : Rules) (place : List String) (isDirectory : Bool) : Bool :=
  (firstVerdict? (rules.shared ++ rules.excluded) place isDirectory).getD false

/-- A file that is there. -/
structure Present where
  file : FileVersion
  ignored : Bool

def pathOf (place : List String) : String := String.intercalate "/" place

mutual

/-- The files below a directory, each with whether it or a directory around it
is ignored. -/
def present (tree : Entry) (place : List String) (rules : Rules) (ignored : Bool) :
    Entry → List Present
  | .file bytes executable =>
    [⟨⟨pathOf place, if executable then .executable else .regular, bytes⟩, ignored⟩]
  | .link target => [⟨⟨pathOf place, .link, Utf8.ofString target⟩, ignored⟩]
  | .directory entries => presentIn tree place rules ignored entries

def presentIn (tree : Entry) (place : List String) (rules : Rules) (ignored : Bool) :
    List (String × Entry) → List Present
  | [] => []
  | (name, entry) :: rest =>
    let here := place ++ [name]
    let others := presentIn tree place rules ignored rest
    if name = controlName then others
    else
      let inside := if entry.isDirectory then rules.enter tree here else rules
      let hidden := ignored || rules.ignores here entry.isDirectory
      present tree here inside hidden entry ++ others

end

/-- The files of a working tree, ascending by path. -/
def files (tree : Entry) : List Present :=
  (present tree [] (Rules.atRoot tree) false tree).mergeSort fun a b =>
    Text.le a.file.path b.file.path

/-! ## Comparing -/

/-- What differs between what is staged and what is there. -/
def unstaged (repository : Repository) (present : List Present) : List Delta :=
  (Delta.pair TrackedFile.path (fun item : Present => item.file.path)
      repository.staged present).flatMap fun
    | .left staged => [.deleted (Delta.version repository staged)]
    | .right item => if item.ignored then [] else [.added item.file false]
    | .both staged item =>
      let version := Delta.version repository staged
      if version = item.file then [] else Delta.ofVersions version item.file

/-- Two deltas of one path as one: first from the commit to what is staged, then
on to what is there. -/
def combine : Delta → Delta → List Delta
  | .deleted old, _ => [.deleted old]
  | .added .., .deleted _ => []
  | .added .., .modified _ new => [.added new true]
  | .modified old _, .modified _ new => [.modified old new]
  | .modified old _, .deleted _ => [.deleted old]
  | _, later => [later]

/-- Ascending deltas of two steps as one. -/
def chain (first second : List Delta) : List Delta :=
  (Delta.pair Delta.path Delta.path first second).flatMap fun
    | .left delta => [delta]
    | .right delta => [delta]
    | .both a b => combine a b

/-- What differs between a commit and the working tree. -/
def deltas (repository : Repository) (tree : Entry) (commit : Commit) : List Delta :=
  chain (Delta.between repository commit.files repository.staged)
    (unstaged repository (files tree))

/-- What the next commit records if everything is staged: all files that are
there, but ignored ones only if they are tracked. -/
def everything (repository : Repository) (present : List Present) : List FileVersion :=
  (Delta.pair TrackedFile.path (fun item : Present => item.file.path)
      repository.staged present).filterMap fun
    | .left _ => none
    | .right item => if item.ignored then none else some item.file
    | .both _ item => some item.file

end ContextPack.Worktree
