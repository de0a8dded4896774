import ContextPack.Text.Pieces

/-!
# Repositories

What a repository records: commits, each with the files it tracks, names for
commits, and the files staged for the next commit.  The bytes of a file are
kept once under a content id, so that two files are compared by their ids.
-/

namespace ContextPack

inductive FileMode where
  | regular
  | executable
  | link
deriving DecidableEq

/-- A file as a commit or the staging area records it. -/
structure TrackedFile where
  path : String
  mode : FileMode
  /-- The id of its bytes. -/
  content : String
deriving DecidableEq

structure Commit where
  id : String
  parents : List String
  /-- When it was made, in seconds. -/
  time : Int
  /-- What it records, ascending by path. -/
  files : List TrackedFile
deriving DecidableEq

/-- Where the next commit goes. -/
inductive Head where
  /-- A reference by its full name; before its first commit it names none. -/
  | reference (name : String)
  | commit (id : String)
deriving DecidableEq

structure Repository where
  /-- It has no working tree. -/
  isBare : Bool
  /-- The commit of an id, if it can be read. -/
  commit? : String → Option Commit
  /-- Every commit id of which an abbreviation is accepted. -/
  commitIds : List String
  /-- The bytes of a content id. -/
  bytes? : String → Option (List UInt8)
  /-- Full names and the commits they name. -/
  references : List (String × String)
  head : Head
  /-- The files staged for the next commit, ascending by path. -/
  staged : List TrackedFile

namespace Repository

def valueOf? (name : String) : List (String × String) → Option String
  | [] => none
  | (key, value) :: rest => if key = name then some value else valueOf? name rest

/-- The commit that a full name stands for. -/
def target? (repository : Repository) (name : String) : Option String :=
  valueOf? name repository.references

/-- The id of the current commit; none before the first one. -/
def headId? (repository : Repository) : Option String :=
  match repository.head with
  | .reference name => repository.target? name
  | .commit id => some id

/-- The bytes of a tracked file; a content that cannot be read has none. -/
def contentOf (repository : Repository) (file : TrackedFile) : List UInt8 :=
  (repository.bytes? file.content).getD []

end Repository

end ContextPack
