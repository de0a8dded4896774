import ContextPack.Cochange
import ContextPack.Repository.History

/-!
# Mining co-change

Finds co-changes in the history of a repository.  A walk that a bound cuts
short just yields fewer of them.
-/

namespace ContextPack.Cochange

/-- What mining yields. -/
structure Outcome (α : Type) where
  edges : EdgeBuffer α
  pairs : List Pair
  /-- How many commits were visited. -/
  walked : Nat
  /-- How many of them counted. -/
  used : Nat
  truncated : Option Truncation

variable {α : Type} [Scalar α]

/-- Nothing was mined. -/
def Outcome.empty : Outcome α := ⟨.empty, [], 0, 0, none⟩

/-- What follows from commits that were walked through. -/
def ofCommits (settings : CochangeSettings α) (seeds candidates : List String)
    (walked : List HistoricalCommit × HistoryWalk) : Outcome α :=
  let (commits, walk) := walked
  let (counts, used) :=
    countPairs seeds settings.maxFilesPerCommit (commits.map HistoricalCommit.files)
  let pairs := keptPairs settings candidates counts
  { edges := edges settings pairs, pairs, walked := walk.walked, used
    truncated := walk.truncated }

/-- The commit at which mining begins: the one asked for, else the current one.
A commit that is not there is none. -/
def startOf (repository : Repository) (start : Option String) : Option String :=
  (start <|> repository.headId?).bind fun id => (repository.commit? id).map Commit.id

/-- Mines the history that leads to a commit. -/
def mine (settings : CochangeSettings α) (repository : Repository) (start : Option String)
    (seeds candidates : List String) : Outcome α :=
  if seeds.isEmpty || settings.commitsLimit = 0 then .empty
  else
    match startOf repository start with
    | none => .empty
    | some id =>
      ofCommits settings seeds candidates
        (repository.walkFrom id settings.commitsLimit (settings.timeoutSeconds = 0))

end ContextPack.Cochange
