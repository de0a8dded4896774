import ContextPack.Text.Pieces

/-!
# Changes

What a change set says about its files: how each one changed and the hunks of
its textual patch.
-/

namespace ContextPack

inductive ChangeStatus where
  | added
  | modified
  | deleted
  | renamed
deriving DecidableEq

/-- Consecutive lines, counted from one.  With a count of zero it is the empty
span at `start`. -/
structure LineRange where
  start : Nat
  count : Nat
deriving DecidableEq

/-- How many line numbers a 32-bit word tells apart. -/
def lineModulus : Nat := 4294967296

/-- The last line of a span, in 32-bit words. -/
def LineRange.finish (range : LineRange) : Nat :=
  if range.count = 0 then range.start else (range.start + range.count - 1) % lineModulus

/-- One hunk of a unified diff. -/
structure Hunk where
  old : LineRange
  new : LineRange
  /-- The header line and the lines below it, each with its mark in front. -/
  text : String
deriving DecidableEq

structure FileChange where
  path : String
  oldPath : Option String
  status : ChangeStatus
  binary : Bool
  hunks : List Hunk
deriving DecidableEq

namespace FileChange

/-- Spans of new lines, empty ones left out. -/
def addedRanges (change : FileChange) : List LineRange :=
  (change.hunks.map Hunk.new).filter fun range => 0 < range.count

/-- Spans of old lines, empty ones left out. -/
def removedRanges (change : FileChange) : List LineRange :=
  (change.hunks.map Hunk.old).filter fun range => 0 < range.count

/-- A text with a line end after its last line. -/
def closeLine (text : List Char) : List Char :=
  if text.getLast? = some '\n' then text else text ++ ['\n']

/-- The patch of a file: its hunks one below the other; none for a binary file
or without hunks. -/
def patchText? (change : FileChange) : Option String :=
  if change.binary || change.hunks.isEmpty then none
  else some (String.ofList (change.hunks.flatMap fun hunk => closeLine hunk.text.toList))

end FileChange

/-- One end of the analysed range. -/
structure RevisionPoint where
  /-- As the caller wrote it. -/
  spec : String
  /-- The commit it names; none for the working tree. -/
  commit : Option String
deriving DecidableEq

/-- The change under analysis. -/
structure ChangeSet where
  base : RevisionPoint
  head : RevisionPoint
  /-- One entry for each changed file, by path. -/
  files : List FileChange
deriving DecidableEq

end ContextPack
