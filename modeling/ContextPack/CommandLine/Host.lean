import ContextPack.Files.Writing
import ContextPack.Workspace

/-!
# Hosts

What the command line asks of the machine that it runs on, as a record of
actions.  The rules of the command line are stated over any host; one whose
files are a tree makes them plain functions.
-/

namespace ContextPack.CommandLine

structure RealPath where
  /-- The absolute path without links. -/
  text : String
  isDirectory : Bool
deriving DecidableEq

/-- Paths are taken as written: a relative one starts where the program runs. -/
structure Host (m : Type → Type) where
  realPath? : String → m (Option RealPath)
  /-- The bytes of a file. -/
  bytes? : String → m (Option (List UInt8))
  /-- The workspace around an absolute path, and the place of the path in it. -/
  workspaceAround : String → m (Workspace × List String)
  /-- Makes a directory and those around it. -/
  makeDirectories : String → m (Except DirectoryProblem Unit)
  /-- Writes a file and tells whether that was possible. -/
  write : String → List UInt8 → m Bool
  /-- The environment. -/
  environment : m (List (String × String))
  /-- The present time as text. -/
  now : m String

/-! ## Trees -/

/-- The steps of a path; one that ends in a slash has to lead to a directory. -/
def stepsOf (path : String) : List String :=
  Entry.segments path ++ if path.endsWith "/" then ["."] else []

/-- The steps of a path from the root of a tree that stands at an absolute path. -/
def stepsFrom (root path : String) : Option (List String) :=
  if path.startsWith "/" then
    let start := Entry.segments root
    let steps := stepsOf path
    if start.isPrefixOf steps then some (steps.drop start.length) else none
  else some (stepsOf path)

def absolutePath (root : String) (place : List String) : String :=
  String.intercalate "/" (root :: place)

/-- A host all of whose files are the tree of a workspace.  The program runs at
the root of the tree, which stands at the absolute path `root`. -/
def Host.ofWorkspace (root : String) (environment : List (String × String)) (now : String) :
    Host (StateM Workspace) where
  realPath? path := do
    let workspace ← get
    let found := (stepsFrom root path).bind workspace.tree.resolve?
    return found.map fun (place, entry) => ⟨absolutePath root place, entry.isDirectory⟩
  bytes? path := do
    let workspace ← get
    match (stepsFrom root path).bind workspace.tree.resolve? with
    | some (_, .file bytes _) => return some bytes
    | _ => return none
  workspaceAround path := do
    return (← get, (stepsFrom root path).getD [])
  makeDirectories path := do
    let workspace ← get
    match stepsFrom root path with
    | none => return .error .occupied
    | some steps =>
      match workspace.tree.makeDirectories steps with
      | .error problem => return .error problem
      | .ok (tree, _) =>
        set { workspace with tree }
        return .ok ()
  write path bytes := do
    let workspace ← get
    match (stepsFrom root path).bind fun steps => workspace.tree.write? steps bytes with
    | some tree =>
      set { workspace with tree }
      return true
    | none => return false
  environment := return environment
  now := return now

end ContextPack.CommandLine
