import ContextPack.Difference.Hunks
import ContextPack.Difference.Similarity
import ContextPack.Path.Basic
import ContextPack.Repository.Basic

/-!
# Deltas

What differs between two states of the files: files added, deleted, modified
and renamed.  A deleted and an added file of similar content are one renamed
file.
-/

namespace ContextPack

/-- A file in one state, with its bytes. -/
structure FileVersion where
  path : String
  mode : FileMode
  bytes : List UInt8
deriving DecidableEq

inductive Delta where
  /-- `tracked` tells a staged file from one that merely lies about. -/
  | added (file : FileVersion) (tracked : Bool)
  | deleted (file : FileVersion)
  | modified (old new : FileVersion)
  | renamed (old new : FileVersion)
deriving DecidableEq

namespace Delta

def path : Delta → String
  | added file _ => file.path
  | deleted file => file.path
  | modified _ new => new.path
  | renamed _ new => new.path

/-! ## Comparing listings -/

/-- An entry of one ascending listing, of the other, or of both. -/
inductive Paired (α β : Type) where
  | left (entry : α)
  | right (entry : β)
  | both (first : α) (second : β)

/-- The entries of two ascending listings, those of one path together. -/
def pair {α β : Type} (leftPath : α → String) (rightPath : β → String) :
    List α → List β → List (Paired α β)
  | [], [] => []
  | a :: as, [] => .left a :: pair leftPath rightPath as []
  | [], b :: bs => .right b :: pair leftPath rightPath [] bs
  | a :: as, b :: bs =>
    match Text.order (leftPath a) (rightPath b) with
    | .lt => .left a :: pair leftPath rightPath as (b :: bs)
    | .gt => .right b :: pair leftPath rightPath (a :: as) bs
    | .eq => .both a b :: pair leftPath rightPath as bs
termination_by as bs => as.length + bs.length

/-- Whether two modes are those of different kinds of entries. -/
def changesKind (a b : FileMode) : Bool := (a == .link) != (b == .link)

/-- What happened to a file that is there in both states and not the same. A
change of kind is a deletion and an addition. -/
def ofVersions (old new : FileVersion) : List Delta :=
  if changesKind old.mode new.mode then [deleted old, added new true] else [modified old new]

def version (repository : Repository) (file : TrackedFile) : FileVersion :=
  ⟨file.path, file.mode, repository.contentOf file⟩

/-- What differs between two listings of tracked files. -/
def between (repository : Repository) (old new : List TrackedFile) : List Delta :=
  (pair TrackedFile.path TrackedFile.path old new).flatMap fun
    | .left a => [deleted (version repository a)]
    | .right b => [added (version repository b) true]
    | .both a b => if a = b then [] else ofVersions (version repository a) (version repository b)

/-- The paths at which two listings differ, ascending. -/
def changedPaths (old new : List TrackedFile) : List String :=
  (pair TrackedFile.path TrackedFile.path old new).filterMap fun
    | .left a => some a.path
    | .right b => some b.path
    | .both a b => if a = b then none else some b.path

/-! ## Renames -/

/-- A deleted and an added file, by their numbers, and how similar they are. -/
structure RenameMatch where
  source : Nat
  target : Nat
  score : Nat
deriving DecidableEq

/-- How similar the files of a match have to be, in percent. -/
def renameThreshold : Nat := 50

/-- How many deleted files each added file is compared with. -/
def renameLimit : Nat := 1001

/-- The score by which a file is matched so far. -/
def scoreOf (isHeld : RenameMatch → Bool) (held : List RenameMatch) : Nat :=
  ((held.find? isHeld).map RenameMatch.score).getD 0

/-- The matches held, and whether one was given up. -/
structure Matching where
  held : List RenameMatch
  gaveUp : Bool

/-- Takes a match that beats those of both its files, which are given up. -/
def Matching.offer (state : Matching) (candidate : RenameMatch) : Matching :=
  let isSource (item : RenameMatch) : Bool := item.source == candidate.source
  let isTarget (item : RenameMatch) : Bool := item.target == candidate.target
  if scoreOf isSource state.held < candidate.score &&
      scoreOf isTarget state.held < candidate.score then
    let rest := state.held.filter fun item => !isSource item && !isTarget item
    ⟨candidate :: rest, state.gaveUp || rest.length < state.held.length⟩
  else state

/-- Offers all candidates until no match is given up any more. -/
def settleMatches (candidates : List RenameMatch) : Nat → List RenameMatch → List RenameMatch
  | 0, held => held
  | fuel + 1, held =>
    let next := candidates.foldl Matching.offer ⟨held, false⟩
    if next.gaveUp then settleMatches candidates fuel next.held else next.held

/-- A deleted file that may have been renamed. -/
def source? : Delta → Option FileVersion
  | deleted file => if file.mode = .link then none else some file
  | _ => none

/-- An added file that another may have been renamed to. -/
def target? : Delta → Option FileVersion
  | added file true => if file.mode = .link then none else some file
  | _ => none

/-- Every pair of a deleted and an added file that can be compared. -/
def candidates (deltas : List (Delta × Nat)) : List RenameMatch :=
  let measured (file? : Delta → Option FileVersion) : List (Difference.Measured × Nat) :=
    deltas.filterMap fun (delta, number) =>
      (file? delta).map fun file => (Difference.measure file.bytes, number)
  let sources := (measured source?).take renameLimit
  if sources.isEmpty then []
  else
    (measured target?).flatMap fun (new, target) =>
      sources.filterMap fun (old, source) =>
        (Difference.similarity? old new).map fun score => ⟨source, target, score⟩

/-- Deltas with similar deleted and added files taken for renamed ones. -/
def findRenames (deltas : List Delta) : List Delta :=
  let numbered := deltas.zipIdx
  let offered := candidates numbered
  let kept := (settleMatches offered (offered.length + 1) []).filter fun item =>
    renameThreshold ≤ item.score
  numbered.filterMap fun (delta, number) =>
    if kept.any fun item => item.source == number then none
    else
      match delta, (kept.find? fun item => item.target == number).bind
          fun item => deltas[item.source]? with
      | added new _, some (deleted old) => some (renamed old new)
      | _, _ => some delta

/-! ## Changes -/

/-- How many bytes tell whether a content is binary. -/
def binaryWindow : Nat := 8000

/-- Whether a content is binary: it has a zero byte early on. -/
def isBinary (bytes : List UInt8) : Bool := (bytes.take binaryWindow).contains 0

/-- The change from one content to another. -/
def change (status : ChangeStatus) (oldPath path : String) (old new : List UInt8) : FileChange :=
  let binary := isBinary old || isBinary new
  let newPath := Path.normalize path
  let before := Path.normalize oldPath
  { path := newPath
    oldPath := if before = newPath then none else some before
    status
    binary
    hunks := if binary then [] else Difference.hunks old new }

def toChange : Delta → FileChange
  | added file _ => change .added file.path file.path [] file.bytes
  | deleted file => change .deleted file.path file.path file.bytes []
  | modified old new => change .modified old.path new.path old.bytes new.bytes
  | renamed old new => change .renamed old.path new.path old.bytes new.bytes

/-- Neighbours of one path reduced to the first. -/
def firstOfEach : List FileChange → List FileChange
  | [] => []
  | [change] => [change]
  | first :: second :: rest =>
    if first.path = second.path then firstOfEach (first :: rest)
    else first :: firstOfEach (second :: rest)
termination_by changes => changes.length

/-- The changes that deltas make, one for each path, ascending. -/
def changes (deltas : List Delta) : List FileChange :=
  firstOfEach (((findRenames deltas).map toChange).mergeSort fun a b => Text.le a.path b.path)

end Delta

end ContextPack
