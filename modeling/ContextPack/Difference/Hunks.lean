import ContextPack.Change
import ContextPack.Difference.Selection
import ContextPack.Difference.Slide
import ContextPack.Difference.Trace
import ContextPack.Text.Utf8

/-!
# Hunks

The unified diff of two files.  Changes with few unchanged lines between them
share a hunk; a hunk shows three lines around its changes, and its header names
the line above that begins a definition.
-/

namespace ContextPack.Difference

/-- Lines of the old file replaced by lines of the new one. -/
structure LineChange where
  oldStart : Nat
  oldCount : Nat
  newStart : Nat
  newCount : Nat
deriving DecidableEq

namespace LineChange

def oldStop (change : LineChange) : Nat := change.oldStart + change.oldCount

def newStop (change : LineChange) : Nat := change.newStart + change.newCount

end LineChange

/-- Flags with the given places set. -/
def flagged (size : Nat) (places : List Nat) : Flags :=
  places.foldl (fun flags place => flags.setIfInBounds place true) (Array.replicate size false)

/-- Which lines of either file have no partner. -/
def unmatched (pair : LinePair) : Flags × Flags :=
  let (old, new) := pair.select
  let limit := max (roughRoot (old.numbers.size + new.numbers.size + 3)) Comparison.patience
  let (oldChanges, newChanges) := Comparison.allChanges ⟨old.numbers, new.numbers, limit⟩
  let located (selected : Selected) (changes : List Nat) : List Nat :=
    selected.discarded ++ changes.filterMap fun index => selected.places[index]?
  (flagged pair.old.size (located old oldChanges), flagged pair.new.size (located new newChanges))

/-- The changes that flags tell of, from a place in either file on. -/
def changesFrom (old new : Flags) : Nat → Nat → Nat → List LineChange
  | 0, _, _ => []
  | fuel + 1, oldPlace, newPlace =>
    if old.size ≤ oldPlace && new.size ≤ newPlace then []
    else
      let oldStop := Group.stopFrom old old.size oldPlace
      let newStop := Group.stopFrom new new.size newPlace
      if oldStop = oldPlace && newStop = newPlace then
        changesFrom old new fuel (oldPlace + 1) (newPlace + 1)
      else
        ⟨oldPlace, oldStop - oldPlace, newPlace, newStop - newPlace⟩ ::
          changesFrom old new fuel oldStop newStop

/-- The changes that lead from one file to the other, from the top. -/
def lineChanges (old new : List Line) : List LineChange :=
  let pair := LinePair.ofLines old new
  let (oldFlags, newFlags) := unmatched pair
  let oldSlid := slide pair.old oldFlags newFlags
  let newSlid := slide pair.new newFlags oldSlid
  changesFrom oldSlid newSlid (old.length + new.length + 1) 0 0

/-! ## Grouping -/

/-- Lines shown around changes. -/
def contextLines : Nat := 3

/-- Changes put together as long as the lines between two of them are few. -/
def grouped : List LineChange → List (List LineChange)
  | [] => []
  | change :: rest =>
    match grouped rest with
    | (next :: more) :: others =>
      if next.oldStart - change.oldStop ≤ 2 * contextLines then
        (change :: next :: more) :: others
      else [change] :: (next :: more) :: others
    | _ => [[change]]

/-! ## Text -/

private def isAsciiLetter (byte : UInt8) : Bool :=
  (65 ≤ byte && byte ≤ 90) || (97 ≤ byte && byte ≤ 122)

/-- Whether a line looks like the head of a definition: it begins with a letter,
an underscore or a dollar sign. -/
def isHeading : Line → Bool
  | first :: _ => isAsciiLetter first || first == 95 || first == 36
  | [] => false

private def isByteBlank (byte : UInt8) : Bool := byte == 32 || (9 ≤ byte && byte ≤ 13)

/-- The most bytes of a heading that are shown. -/
def headingLimit : Nat := 80

/-- A heading as it is shown. -/
def headingText (line : Line) : List UInt8 :=
  ((line.reverse.dropWhile isByteBlank).reverse).take headingLimit

/-- The nearest heading before a place, not looking at the first `floor`
lines. -/
def headingBefore? (lines : Array Line) (floor : Nat) : Nat → Option (List UInt8)
  | 0 => none
  | place + 1 =>
    if place < floor then none
    else
      match lines[place]? with
      | some line => if isHeading line then some (headingText line) else headingBefore? lines floor place
      | none => headingBefore? lines floor place

/-- A range of lines in a header; a count of one is left out. -/
def rangeText (start count : Nat) : String :=
  let first := if count = 0 then start else start + 1
  if count = 1 then toString first else toString first ++ "," ++ toString count

/-- A line with a mark in front, closed by a line end. -/
def markedLine (mark : Char) (line : Line) : List Char :=
  FileChange.closeLine (mark :: Utf8.decodeLossy line)

/-- Lines between two places with a mark in front of each. -/
def markedLines (mark : Char) (lines : Array Line) (start stop : Nat) : List Char :=
  ((lines.toList.drop start).take (stop - start)).flatMap (markedLine mark)

/-- The lines of a hunk from a place in the new file on, up to a place in it. -/
def bodyFrom (old new : Array Line) (stop : Nat) : Nat → List LineChange → List Char
  | place, [] => markedLines ' ' new place stop
  | place, change :: rest =>
    markedLines ' ' new place change.newStart ++
      markedLines '-' old change.oldStart change.oldStop ++
      markedLines '+' new change.newStart change.newStop ++
      bodyFrom old new stop change.newStop rest

/-- The hunk of changes that stand together.  `heading` was shown last, and the
search for a new one ends at line `floor`. -/
def hunkOf (old new : Array Line) (heading : List UInt8) (first : LineChange)
    (changes : List LineChange) : Hunk :=
  let last := changes.getLast?.getD first
  let oldStart := first.oldStart - contextLines
  let newStart := first.newStart - contextLines
  let tail := min contextLines (min (old.size - last.oldStop) (new.size - last.newStop))
  let oldCount := last.oldStop + tail - oldStart
  let newCount := last.newStop + tail - newStart
  let headingPart := if heading.isEmpty then [] else ' ' :: Utf8.decodeLossy heading
  let header := ("@@ -" ++ rangeText oldStart oldCount ++ " +" ++ rangeText newStart newCount ++
    " @@").toList ++ headingPart ++ ['\n']
  let body := bodyFrom old new (last.newStop + tail) newStart changes
  { old := ⟨if oldCount = 0 then oldStart else oldStart + 1, oldCount⟩
    new := ⟨if newCount = 0 then newStart else newStart + 1, newCount⟩
    text := String.ofList (header ++ body) }

/-- The hunks of groups of changes; a heading stays until a new one is found. -/
def hunksOf (old new : Array Line) : Nat → List UInt8 → List (List LineChange) → List Hunk
  | _, _, [] => []
  | floor, heading, [] :: rest => hunksOf old new floor heading rest
  | floor, heading, (first :: more) :: rest =>
    let start := first.oldStart - contextLines
    let shown := (headingBefore? old floor start).getD heading
    hunkOf old new shown first (first :: more) :: hunksOf old new start shown rest

/-- The hunks that lead from one file to another. -/
def hunks (old new : List UInt8) : List Hunk :=
  let oldLines := splitLines old
  let newLines := splitLines new
  hunksOf oldLines.toArray newLines.toArray 0 [] (grouped (lineChanges oldLines newLines))

end ContextPack.Difference
