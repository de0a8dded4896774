import ContextPack.Repository.Ancestry
import ContextPack.Repository.Delta

/-!
# History

A walk through past commits that is bounded in the number of commits and in
time.  It yields the changed files of each commit that is no merge.
-/

namespace ContextPack

/-- The files that a past commit changed. -/
structure HistoricalCommit where
  id : String
  files : List String
deriving DecidableEq

/-- Which bound stopped a walk. -/
inductive Truncation where
  | commitLimit
  | deadline
deriving DecidableEq

def Truncation.name : Truncation → String
  | commitLimit => "commit_limit"
  | deadline => "deadline"

/-- What is recorded of a commit that can be read. -/
structure CommitRecord where
  parentCount : Nat
  /-- The files it changed; none if they cannot be told. -/
  files : Option (List String)

/-- A walk under way. -/
structure HistoryWalk where
  /-- What is still ahead; an item without an id is one that failed. -/
  pending : List (Option String)
  maxCommits : Nat
  /-- The time for the walk is over. -/
  expired : Bool
  /-- How many commits were visited. -/
  walked : Nat
  truncated : Option Truncation

namespace HistoryWalk

/-- A walk that has not begun. -/
def start (pending : List (Option String)) (maxCommits : Nat) (expired : Bool) : HistoryWalk :=
  ⟨pending, maxCommits, expired, 0, none⟩

/-- The changed files of a commit that is to be reported: it can be read, has
at most one parent, and its files can be told. -/
def reported? (records : String → Option CommitRecord) (id : String) : Option (List String) :=
  match records id with
  | some record => if record.parentCount ≤ 1 then record.files else none
  | none => none

/-- Visits items up to the next commit to be reported.  Both bounds are looked
at before every item, the number of commits first. -/
def seek (records : String → Option CommitRecord) (maxCommits : Nat) (expired : Bool) :
    List (Option String) → Nat → Option HistoricalCommit × HistoryWalk
  | [], walked =>
    let truncated := if walked < maxCommits && expired then some .deadline else none
    (none, ⟨[], maxCommits, expired, walked, truncated⟩)
  | item :: rest, walked =>
    if maxCommits ≤ walked then
      (none, ⟨item :: rest, maxCommits, expired, walked, some .commitLimit⟩)
    else if expired then (none, ⟨item :: rest, maxCommits, expired, walked, some .deadline⟩)
    else
      match item with
      | none => seek records maxCommits expired rest walked
      | some id =>
        match reported? records id with
        | some files => (some ⟨id, files⟩, ⟨rest, maxCommits, expired, walked + 1, none⟩)
        | none => seek records maxCommits expired rest (walked + 1)

/-- The next commit reported, and the walk after it.  A walk that was stopped
stays as it is. -/
def next (records : String → Option CommitRecord) (walk : HistoryWalk) :
    Option HistoricalCommit × HistoryWalk :=
  if walk.truncated.isSome then (none, walk)
  else seek records walk.maxCommits walk.expired walk.pending walk.walked

/-- Asks for the next commit until there is none, at most `fuel` times. -/
def collect (records : String → Option CommitRecord) : Nat → HistoryWalk →
    List HistoricalCommit × HistoryWalk
  | 0, walk => ([], walk)
  | fuel + 1, walk =>
    match walk.next records with
    | (some commit, later) =>
      let (others, last) := collect records fuel later
      (commit :: others, last)
    | (none, last) => ([], last)

/-- The whole walk: everything reported, and the state at its end. -/
def run (records : String → Option CommitRecord) (walk : HistoryWalk) :
    List HistoricalCommit × HistoryWalk :=
  collect records (walk.pending.length + 1) walk

end HistoryWalk

namespace Repository

/-- The record of a commit: what it changed against its first parent. -/
def record? (repository : Repository) (id : String) : Option CommitRecord :=
  (repository.commit? id).map fun commit =>
    let before : Option (List TrackedFile) :=
      match commit.parents with
      | [] => some []
      | parent :: _ => (repository.commit? parent).map Commit.files
    { parentCount := commit.parents.length
      files := before.map fun files =>
        Text.distinctSorted ((Delta.changedPaths files commit.files).map Path.normalize) }

/-- The walk through a commit and everything before it. -/
def walkFrom (repository : Repository) (start : String) (maxCommits : Nat) (expired : Bool) :
    List HistoricalCommit × HistoryWalk :=
  let items := (Ancestry.history repository start).map some
  (HistoryWalk.start items maxCommits expired).run repository.record?

end Repository

end ContextPack
