import ContextPack.Difference.Lines

/-!
# Lines worth comparing

Before two files are compared, equal lines at both ends are set aside.  Of the
rest, a line that does not occur in the other file has changed for certain.  A
line that occurs there very often is taken for changed too when it stands
between such lines and hardly any others are near.
-/

namespace ContextPack.Difference

/-- What a line is worth. -/
inductive Worth where
  /-- It does not occur in the other file. -/
  | absent
  | usual
  /-- It occurs there very often. -/
  | common
deriving DecidableEq

/-- A file of which some lines are compared. -/
structure Selected where
  /-- Places of the lines that are compared. -/
  places : Array Nat
  /-- Their numbers. -/
  numbers : Array Nat
  /-- Places of the lines between the equal ends that are not compared. -/
  discarded : List Nat

/-- The length of the equal front of two files. -/
def equalFront (old new : Array Nat) : Nat → Nat
  | 0 => 0
  | count + 1 =>
    let front := equalFront old new count
    if front = count && old[count]? == new[count]? then count + 1 else front

/-- The length of the equal front, looked at from its start. -/
def commonFront (old new : Array Nat) : Nat := equalFront old new (min old.size new.size)

/-- How far to either side the neighbours of a common line are looked at. -/
def neighbourhood : Nat := 100

/-- Lines that occur at least this often are common, however long the file. -/
def commonLimit : Nat := 1024

/-- Lines next to a common one up to the first of some worth: how many are
worth nothing, and how many are common. -/
def run (worths : List Worth) : Nat × Nat :=
  let near := (worths.take neighbourhood).takeWhile (· != .usual)
  ((near.filter (· == .absent)).length, (near.filter (· == .common)).length)

/-- Whether a common line is taken for changed. `before` goes backwards from the
line and `after` forwards. -/
def isDiscarded (before after : List Worth) : Bool :=
  let (idleBefore, commonBefore) := run before
  let (idleAfter, commonAfter) := run after
  let idle := idleBefore + idleAfter
  let common := commonBefore + commonAfter + 2
  idleBefore != 0 && idleAfter != 0 && common * 4 < common + idle

/-- Which of the lines are compared, the worths before each of them at hand. -/
def keptFlags : List Worth → List Worth → List Bool
  | _, [] => []
  | before, worth :: after =>
    let kept := worth == .usual || (worth == .common && !isDiscarded before after)
    kept :: keptFlags (worth :: before) after

/-- Selects lines of a file between its equal ends. -/
def select (lines : Array Nat) (other : Std.HashMap Nat Nat) (front back : Nat) : Selected :=
  let limit := min (roughRoot lines.size) commonLimit
  let middle := ((lines.toList.drop front).take (lines.size - front - back))
  let worth (number : Nat) : Worth :=
    let count := other.getD number 0
    if count = 0 then .absent else if limit ≤ count then .common else .usual
  let marked := (keptFlags [] (middle.map worth)).zip (middle.zipIdx front)
  let kept := (marked.filter Prod.fst).map Prod.snd
  ⟨(kept.map Prod.snd).toArray, (kept.map Prod.fst).toArray,
   (marked.filter fun item => !item.1).map fun item => item.2.2⟩

/-- Selects lines of both files. -/
def LinePair.select (pair : LinePair) : Selected × Selected :=
  let front := commonFront pair.old pair.new
  let oldRest := pair.old.toList.drop front
  let newRest := pair.new.toList.drop front
  let back := commonFront oldRest.reverse.toArray newRest.reverse.toArray
  (Difference.select pair.old (occurrences pair.new) front back,
   Difference.select pair.new (occurrences pair.old) front back)

end ContextPack.Difference
