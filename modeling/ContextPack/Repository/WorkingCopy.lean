import ContextPack.Files.Writing
import ContextPack.Repository.Worktree
import ContextPack.Workspace

/-!
# Working copies

A working tree together with a repository that is kept as a plain value.  Its
operations are those by which a history grows: staging, committing, naming
commits and going back to one.
-/

namespace ContextPack

structure WorkingCopy where
  isBare : Bool
  tree : Entry
  /-- Newest first. -/
  commits : List Commit
  /-- Full names and the commits they name. -/
  references : List (String × String)
  head : Head
  /-- Ascending by path. -/
  staged : List TrackedFile

namespace WorkingCopy

def branchName (name : String) : String := "refs/heads/" ++ name

def tagName (name : String) : String := "refs/tags/" ++ name

/-- Nothing is there, and the first commit will be on the branch `main`. -/
def empty (isBare : Bool) : WorkingCopy :=
  { isBare, tree := .directory [], commits := [], references := []
    head := .reference (branchName "main"), staged := [] }

/-! ## Contents -/

/-- The id of a content: its bytes as the characters of a text. -/
def contentId (bytes : List UInt8) : String :=
  String.ofList (bytes.map fun byte => Char.ofNat byte.toNat)

def contentOf (id : String) : List UInt8 := id.toList.map fun c => UInt8.ofNat c.toNat

/-- A file as it would be recorded. -/
def tracked (file : FileVersion) : TrackedFile := ⟨file.path, file.mode, contentId file.bytes⟩

def repository (copy : WorkingCopy) : Repository :=
  { isBare := copy.isBare
    commit? := fun id => copy.commits.find? fun commit => commit.id = id
    commitIds := copy.commits.map Commit.id
    bytes? := fun id => some (contentOf id)
    references := copy.references
    head := copy.head
    staged := copy.staged }

def workspace (copy : WorkingCopy) : Workspace := ⟨copy.tree, some copy.repository⟩

/-! ## Recording -/

def stage? (copy : WorkingCopy) (path : String) : Option WorkingCopy :=
  ((Worktree.files copy.tree).find? fun item => item.file.path = path).map fun item =>
    let others := copy.staged.filter fun file => file.path != path
    { copy with
      staged := (tracked item.file :: others).mergeSort fun a b => Text.le a.path b.path }

/-- Names with one of them set. -/
def setName (name id : String) (references : List (String × String)) : List (String × String) :=
  (name, id) :: references.filter fun reference => reference.1 != name

/-- Gives the current commit a further name. -/
def name? (copy : WorkingCopy) (name : String) : Option WorkingCopy :=
  copy.repository.headId?.map fun id =>
    { copy with references := setName name id copy.references }

/-- Stages everything and commits it on top of the current commit and further
parents. -/
def commitAll (copy : WorkingCopy) (id : String) (time : Int) (others : List String) :
    WorkingCopy :=
  let staged := (Worktree.everything copy.repository (Worktree.files copy.tree)).map tracked
  let commit : Commit :=
    { id, parents := copy.repository.headId?.toList ++ others, time, files := staged }
  let grown := { copy with commits := commit :: copy.commits, staged }
  match copy.head with
  | .reference name => { grown with references := setName name id copy.references }
  | .commit _ => { grown with head := .commit id }

/-! ## Going elsewhere -/

/-- What stands in a tree for a file. -/
def entryOf : FileMode → List UInt8 → Entry
  | .link, bytes => .link (String.ofList (Utf8.decodeLossy bytes))
  | .executable, bytes => .file bytes true
  | .regular, bytes => .file bytes false

/-- Makes the working tree that of a branch.  Of other files only ignored ones
stay. -/
def checkout? (copy : WorkingCopy) (name : String) : Option WorkingCopy :=
  let reference := branchName name
  ((copy.repository.target? reference).bind copy.repository.commit?).map fun commit =>
    let isTracked (path : String) : Bool := copy.staged.any fun file => file.path = path
    let kept := ((Worktree.files copy.tree).filter fun item =>
      item.ignored && !isTracked item.file.path).map Worktree.Present.file
    let recorded := commit.files.map fun file =>
      (⟨file.path, file.mode, contentOf file.content⟩ : FileVersion)
    let control := copy.tree.children.filter fun child => child.1 = Worktree.controlName
    let tree := (kept ++ recorded).foldl
      (fun (tree : Entry) file => tree.put (Entry.segments file.path) (entryOf file.mode file.bytes))
      (.directory control)
    { copy with tree, head := .reference reference, staged := commit.files }

/-- Begins a history of its own: the next commit has no parent. -/
def beginBranch (copy : WorkingCopy) (name : String) : WorkingCopy :=
  { copy with head := .reference (branchName name) }

end WorkingCopy

end ContextPack
