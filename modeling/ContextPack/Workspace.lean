import ContextPack.Error
import ContextPack.Files.Entry
import ContextPack.Path.Basic
import ContextPack.Repository.Basic

/-!
# Workspaces

A directory tree and the repository whose working tree it is, if it is one.
-/

namespace ContextPack

structure Workspace where
  tree : Entry
  repository : Option Repository

namespace Workspace

/-- The repository around a place, which has to exist and to have a working
tree.  `path` is the name of the place in messages. -/
def repositoryAround (workspace : Workspace) (path : String) (place : List String) :
    Except ContextError Repository :=
  match workspace.tree.resolve? place, workspace.repository with
  | some _, some repository =>
    if repository.isBare then .error (.bareRepository path) else .ok repository
  | _, _ => .error (.repositoryNotFound path)

def pathIn (directory name : String) : String :=
  Path.normalize (if directory.isEmpty then name else directory ++ "/" ++ name)

/-- The files directly in a directory, by name. -/
def filesIn (workspace : Workspace) (directory : String) : List String :=
  match workspace.tree.resolve? (Entry.segments directory) with
  | some (_, entry) => (entry.fileNames.mergeSort Text.le).map (pathIn directory)
  | none => []

end Workspace

end ContextPack
