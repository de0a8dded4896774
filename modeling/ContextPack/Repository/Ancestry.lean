import ContextPack.Repository.Basic
import Std.Data.HashMap

/-!
# Ancestry

Which commits come before others: the ancestors of a commit, newest first but
no commit after its parents, and the nearest common ancestor of two commits.
-/

namespace ContextPack.Ancestry

/-- What ancestry needs of a commit.  One that cannot be read has no parents. -/
structure Node where
  id : String
  parents : List String
  time : Int
deriving DecidableEq

def node (repository : Repository) (id : String) : Node :=
  match repository.commit? id with
  | some commit => ⟨id, commit.parents, commit.time⟩
  | none => ⟨id, [], 0⟩

/-- Commits reached so far: those of the last round, those of all rounds, and
every id among them. -/
structure Reached where
  fresh : List Node
  nodes : List Node
  ids : Std.HashMap String Unit

/-- A commit reached, unless it was before. -/
def Reached.add (repository : Repository) (reached : Reached) (id : String) : Reached :=
  if reached.ids.contains id then reached
  else
    let commit := node repository id
    ⟨commit :: reached.fresh, commit :: reached.nodes, reached.ids.insert id ()⟩

/-- Everything reached by so many rounds, each of which goes to all parents of
the commits of the last one. -/
def rounds (repository : Repository) : Nat → Reached → Reached
  | 0, reached => reached
  | fuel + 1, reached =>
    if reached.fresh.isEmpty then reached
    else
      let parents := reached.fresh.flatMap Node.parents
      rounds repository fuel
        (parents.foldl (Reached.add repository) { reached with fresh := [] })

/-- A commit and everything before it. -/
def reach (repository : Repository) (id : String) : Reached :=
  rounds repository (repository.commitIds.length + 1)
    (Reached.add repository ⟨[], [], {}⟩ id)

/-! ## Order -/

/-- How often each commit is a parent among some commits. -/
abbrev ChildCounts := Std.HashMap String Nat

def childCounts (nodes : List Node) : ChildCounts :=
  (nodes.flatMap Node.parents).foldl
    (fun counts id => counts.insert id (counts.getD id 0 + 1)) {}

/-- A commit put among others that are newest first. -/
def insertByTime (commit : Node) : List Node → List Node
  | [] => [commit]
  | other :: rest =>
    if other.time < commit.time then commit :: other :: rest
    else other :: insertByTime commit rest

/-- Takes one child off a parent; the second part holds parents of which no
child is left. -/
def release (state : ChildCounts × List String) (parent : String) : ChildCounts × List String :=
  let left := state.1.getD parent 0 - 1
  (state.1.insert parent left, if left = 0 then parent :: state.2 else state.2)

/-- Commits one after the other: always the newest of those whose children are
all done. -/
def newestFirst (repository : Repository) : Nat → List Node → ChildCounts → List String
  | 0, _, _ => []
  | _, [], _ => []
  | fuel + 1, commit :: ready, counts =>
    let (counts, freed) := commit.parents.foldl release (counts, [])
    let ready := freed.foldl (fun ready id => insertByTime (node repository id) ready) ready
    commit.id :: newestFirst repository fuel ready counts

/-- A commit and everything before it, newest first, no commit after one of its
parents. -/
def history (repository : Repository) (start : String) : List String :=
  let reached := reach repository start
  newestFirst repository reached.nodes.length [node repository start] (childCounts reached.nodes)

/-! ## Common ancestors -/

/-- The newest of some commits, the first of equals. -/
def newest : List Node → Option Node
  | [] => none
  | commit :: rest =>
    match newest rest with
    | some other => if commit.time < other.time then some other else some commit
    | none => some commit

/-- The nearest common ancestor of two commits: one that both have and that is
no parent of another such one; of several the newest. -/
def mergeBase? (repository : Repository) (first second : String) : Option String :=
  let ours := reach repository first
  let common := (reach repository second).nodes.filter fun commit => ours.ids.contains commit.id
  let parents := childCounts common
  (newest (common.filter fun commit => !parents.contains commit.id)).map Node.id

end ContextPack.Ancestry
