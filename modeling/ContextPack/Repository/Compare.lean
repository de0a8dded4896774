import ContextPack.Error
import ContextPack.Repository.Ancestry
import ContextPack.Repository.Revision
import ContextPack.Repository.Worktree

/-!
# Change sets

Reads the change that a range names: between two commits, or between a commit
and the working tree.
-/

namespace ContextPack.Repository

/-- What the working tree is called as an end of a range. -/
def workingTreeName : String := "WORKTREE"

/-- The commit of an id; a commit that cannot be read is an error. -/
def commitOf (repository : Repository) (id : String) : Except ContextError Commit :=
  match repository.commit? id with
  | some commit => .ok commit
  | none => .error (.git ("object not found - no match for id (" ++ id ++ ")"))

/-- The commit that an end of a range names. -/
def endpoint (repository : Repository) (range revision : String) : Except ContextError Commit :=
  match Revision.resolve repository revision with
  | .ok id => repository.commitOf id
  | .error problem => .error (.invalidRange range (.unresolved revision problem.message))

/-- An end of a range that is a commit. -/
def pointAt (revision : String) (commit : Commit) : RevisionPoint := ⟨revision, some commit.id⟩

def changesBetween (repository : Repository) (base head : Commit) : List FileChange :=
  Delta.changes (Delta.between repository base.files head.files)

/-- The change that a range names; `tree` is the working tree. -/
def changeSet (repository : Repository) (tree : Entry) (range : String) :
    Except ContextError ChangeSet := do
  match RevisionRange.parse range with
  | .error problem => throw (.invalidRange range problem)
  | .ok (.between base head) =>
    let first ← repository.endpoint range base
    let last ← repository.endpoint range head
    return ⟨pointAt base first, pointAt head last, repository.changesBetween first last⟩
  | .ok (.mergeBase base head) =>
    let first ← repository.endpoint range base
    let last ← repository.endpoint range head
    match Ancestry.mergeBase? repository first.id last.id with
    | none => throw (.invalidRange range (.noMergeBase "no merge base found"))
    | some id =>
      let fork ← repository.commitOf id
      return ⟨pointAt base fork, pointAt head last, repository.changesBetween fork last⟩
  | .ok (.workingTree base) =>
    let first ← repository.endpoint range base
    return ⟨pointAt base first, ⟨workingTreeName, none⟩,
      Delta.changes (Worktree.deltas repository tree first)⟩

end ContextPack.Repository
