/-!
# Tracing changes

Finds which elements of two sequences have no partner in the other one.  From
both ends of a box the furthest reaching paths are followed along diagonals,
one more change at a time, until two of them meet; the meeting point divides
the box in two.  A search that grows costly settles for a good path instead of
the best one.
-/

namespace ContextPack.Difference

/-- A part of two sequences: places from `oldFrom` on and before `oldTo`, and
likewise on the other side. -/
structure Box where
  oldFrom : Int
  oldTo : Int
  newFrom : Int
  newTo : Int

/-- Two sequences to compare. -/
structure Comparison where
  old : Array Nat
  new : Array Nat
  /-- How many changes a search may take before it settles. -/
  costLimit : Nat

/-- The furthest places reached on each diagonal, and the diagonals in use. -/
structure Front where
  reach : Array Int
  low : Int
  high : Int

/-- Where a box is divided, and whether either part is to be searched to the
best path. -/
structure Division where
  old : Int
  new : Int
  exactBefore : Bool
  exactAfter : Bool

namespace Comparison

/-- After so many changes a long stretch of equal elements is good enough. -/
def patience : Nat := 256

/-- A stretch of so many equal elements is long. -/
def longStretch : Nat := 20

/-- How far a path must have come for each change. -/
def progress : Int := 4

/-- Past every place. -/
def beyond : Int := 1000000000000

def oldAt (work : Comparison) (place : Int) : Nat := work.old[place.toNat]?.getD 0

def newAt (work : Comparison) (place : Int) : Nat := work.new[place.toNat]?.getD 0

/-- The index of a diagonal. -/
def slot (work : Comparison) (diagonal : Int) : Nat := (diagonal + work.new.size + 1).toNat

def reached (work : Comparison) (front : Front) (diagonal : Int) : Int :=
  front.reach[work.slot diagonal]?.getD 0

def mark (work : Comparison) (front : Front) (diagonal place : Int) : Front :=
  { front with reach := front.reach.setIfInBounds (work.slot diagonal) place }

def start (work : Comparison) (diagonal place : Int) : Front :=
  let size := work.old.size + work.new.size + 3
  work.mark ⟨Array.replicate size 0, diagonal, diagonal⟩ diagonal place

/-- Takes the diagonals next to those in use into use, or gives up the outer
ones where the box ends. -/
def widen (work : Comparison) (box : Box) (outside : Int) (front : Front) : Front :=
  let lower :=
    if box.oldFrom - box.newTo < front.low then
      { work.mark front (front.low - 2) outside with low := front.low - 1 }
    else { front with low := front.low + 1 }
  if lower.high < box.oldTo - box.newFrom then
    { work.mark lower (lower.high + 2) outside with high := lower.high + 1 }
  else { lower with high := lower.high - 1 }

/-- Every second diagonal in use, from the highest down. -/
def diagonals (front : Front) : List Int :=
  (List.range ((front.high - front.low) / 2 + 1).toNat).map fun step : Nat =>
    front.high - 2 * (step : Int)

/-- Follows equal elements forwards. -/
def runForward (work : Comparison) (box : Box) : Nat → Int → Int → Int
  | 0, old, _ => old
  | fuel + 1, old, new =>
    if old < box.oldTo && new < box.newTo && work.oldAt old == work.newAt new then
      runForward work box fuel (old + 1) (new + 1)
    else old

/-- Follows equal elements backwards. -/
def runBackward (work : Comparison) (box : Box) : Nat → Int → Int → Int
  | 0, old, _ => old
  | fuel + 1, old, new =>
    if box.oldFrom < old && box.newFrom < new &&
        work.oldAt (old - 1) == work.newAt (new - 1) then
      runBackward work box fuel (old - 1) (new - 1)
    else old

/-- What one more change on every diagonal has led to. -/
structure Step where
  front : Front
  /-- A long stretch was met. -/
  long : Bool
  /-- Where the paths from both ends met. -/
  meeting : Option (Int × Int)

def holds (front : Front) (diagonal : Int) : Bool :=
  front.low ≤ diagonal && diagonal ≤ front.high

def stretchLimit (box : Box) : Nat := (box.oldTo - box.oldFrom).toNat + 1

/-- One more change forwards; `backward` is asked for a meeting if `meets`. -/
def advance (work : Comparison) (box : Box) (meets : Bool) (backward : Front) :
    List Int → Step → Step
  | [], step => step
  | diagonal :: rest, step =>
    let left := work.reached step.front (diagonal - 1)
    let right := work.reached step.front (diagonal + 1)
    let begun := if right ≤ left then left + 1 else right
    let place := runForward work box (stretchLimit box) begun (begun - diagonal)
    let front := work.mark step.front diagonal place
    let long := step.long || longStretch < place - begun
    if meets && holds backward diagonal && work.reached backward diagonal ≤ place then
      ⟨front, long, some (place, place - diagonal)⟩
    else advance work box meets backward rest ⟨front, long, none⟩

/-- One more change backwards; `forward` is asked for a meeting if `meets`. -/
def retreat (work : Comparison) (box : Box) (meets : Bool) (forward : Front) :
    List Int → Step → Step
  | [], step => step
  | diagonal :: rest, step =>
    let left := work.reached step.front (diagonal - 1)
    let right := work.reached step.front (diagonal + 1)
    let begun := if left < right then left else right - 1
    let place := runBackward work box (stretchLimit box) begun (begun - diagonal)
    let front := work.mark step.front diagonal place
    let long := step.long || longStretch < begun - place
    if meets && holds forward diagonal && place ≤ work.reached forward diagonal then
      ⟨front, long, some (place, place - diagonal)⟩
    else retreat work box meets forward rest ⟨front, long, none⟩

/-! ## Settling -/

/-- Whether so many elements from a place on are equal. -/
def equalRun (work : Comparison) (old new : Int) : Bool :=
  (List.range longStretch).all fun step : Nat =>
    work.oldAt (old + step) == work.newAt (new + step)

/-- The best of several places by a value, the earlier of equals; only values
above `least` count. -/
def best (places : List (Int × Int × Int)) (least : Int) : Option (Int × Int) :=
  (places.foldl
    (fun (held : Int × Option (Int × Int)) (item : Int × Int × Int) =>
      if held.1 < item.1 then (item.1, some item.2) else held)
    (least, none)).2

/-- A place that a path forwards has reached over a long stretch, and far
enough for its cost. -/
def goodForward (work : Comparison) (box : Box) (cost : Nat) (origin : Int) (front : Front) :
    Option (Int × Int) :=
  let stretch : Int := longStretch
  best
    ((diagonals front).filterMap fun diagonal =>
      let old := work.reached front diagonal
      let new := old - diagonal
      let value := (old - box.oldFrom) + (new - box.newFrom) - (diagonal - origin).natAbs
      if progress * cost < value && box.oldFrom + stretch ≤ old && old < box.oldTo &&
          box.newFrom + stretch ≤ new && new < box.newTo &&
          work.equalRun (old - stretch) (new - stretch) then some (value, old, new)
      else none) 0

/-- The same for a path backwards. -/
def goodBackward (work : Comparison) (box : Box) (cost : Nat) (origin : Int) (front : Front) :
    Option (Int × Int) :=
  let stretch : Int := longStretch
  best
    ((diagonals front).filterMap fun diagonal =>
      let old := work.reached front diagonal
      let new := old - diagonal
      let value := (box.oldTo - old) + (box.newTo - new) - (diagonal - origin).natAbs
      if progress * cost < value && box.oldFrom < old && old ≤ box.oldTo - stretch &&
          box.newFrom < new && new ≤ box.newTo - stretch && work.equalRun old new then
        some (value, old, new)
      else none) 0

/-- The furthest place of either front, whichever has come further. -/
def furthest (work : Comparison) (box : Box) (forward backward : Front) : Division :=
  let ahead := (diagonals forward).map fun diagonal =>
    let old := min (work.reached forward diagonal) box.oldTo
    if box.newTo < old - diagonal then (box.newTo + diagonal + box.newTo, box.newTo + diagonal, box.newTo)
    else (old + (old - diagonal), old, old - diagonal)
  let behind := (diagonals backward).map fun diagonal =>
    let old := max box.oldFrom (work.reached backward diagonal)
    if old - diagonal < box.newFrom then
      (-(box.newFrom + diagonal + box.newFrom), box.newFrom + diagonal, box.newFrom)
    else (-(old + (old - diagonal)), old, old - diagonal)
  let (oldAhead, newAhead) := (best ahead (-1)).getD (box.oldFrom, box.newFrom)
  let (oldBehind, newBehind) := (best behind (-beyond)).getD (box.oldTo, box.newTo)
  if (box.oldTo + box.newTo) - (oldBehind + newBehind) <
      (oldAhead + newAhead) - (box.oldFrom + box.newFrom) then
    ⟨oldAhead, newAhead, true, false⟩
  else ⟨oldBehind, newBehind, false, true⟩

/-! ## Dividing -/

/-- Divides a box at a place that a path from one corner to the other goes
through. -/
def divideFrom (work : Comparison) (box : Box) (exact : Bool) : Nat → Nat → Front → Front → Division
  | 0, _, _, _ => ⟨box.oldFrom, box.newFrom, true, true⟩
  | fuel + 1, cost, forward, backward =>
    let forwardOrigin := box.oldFrom - box.newFrom
    let backwardOrigin := box.oldTo - box.newTo
    let odd := (forwardOrigin - backwardOrigin) % 2 != 0
    let wider := work.widen box (-1) forward
    let ahead := work.advance box odd backward (diagonals wider) ⟨wider, false, none⟩
    match ahead.meeting with
    | some (old, new) => ⟨old, new, true, true⟩
    | none =>
      let wider := work.widen box beyond backward
      let behind := work.retreat box (!odd) ahead.front (diagonals wider) ⟨wider, false, none⟩
      match behind.meeting with
      | some (old, new) => ⟨old, new, true, true⟩
      | none =>
        let settled : Option Division :=
          if exact then none
          else
            let good : Option Division :=
              if (ahead.long || behind.long) && patience < cost then
                match work.goodForward box cost forwardOrigin ahead.front with
                | some (old, new) => some ⟨old, new, true, false⟩
                | none =>
                  (work.goodBackward box cost backwardOrigin behind.front).map
                    fun (old, new) => ⟨old, new, false, true⟩
              else none
            match good with
            | some division => some division
            | none =>
              if work.costLimit ≤ cost then some (work.furthest box ahead.front behind.front)
              else none
        match settled with
        | some division => division
        | none => divideFrom work box exact fuel (cost + 1) ahead.front behind.front

def divide (work : Comparison) (box : Box) (exact : Bool) : Division :=
  let fuel := (box.oldTo - box.oldFrom).toNat + (box.newTo - box.newFrom).toNat + 1
  divideFrom work box exact fuel 1
    (work.start (box.oldFrom - box.newFrom) box.oldFrom)
    (work.start (box.oldTo - box.newTo) box.oldTo)

/-- A box without equal elements at its corners. -/
def shrink (work : Comparison) (box : Box) : Box :=
  let old := runForward work box (stretchLimit box) box.oldFrom box.newFrom
  let fronted : Box :=
    { box with oldFrom := old, newFrom := box.newFrom + (old - box.oldFrom) }
  let back := runBackward work fronted (stretchLimit fronted) fronted.oldTo fronted.newTo
  { fronted with oldTo := back, newTo := fronted.newTo - (fronted.oldTo - back) }

def places (first past : Int) : List Nat :=
  (List.range (past - first).toNat).map fun step => first.toNat + step

/-- The places in a box that have no partner, on either side. -/
def changes (work : Comparison) : Nat → Box → Bool → List Nat × List Nat
  | 0, _, _ => ([], [])
  | fuel + 1, box, exact =>
    let box := work.shrink box
    if box.oldFrom = box.oldTo then ([], places box.newFrom box.newTo)
    else if box.newFrom = box.newTo then (places box.oldFrom box.oldTo, [])
    else
      let division := work.divide box exact
      let before := changes work fuel
        ⟨box.oldFrom, division.old, box.newFrom, division.new⟩ division.exactBefore
      let after := changes work fuel
        ⟨division.old, box.oldTo, division.new, box.newTo⟩ division.exactAfter
      (before.1 ++ after.1, before.2 ++ after.2)

/-- The places of both sequences that have no partner. -/
def allChanges (work : Comparison) : List Nat × List Nat :=
  work.changes (work.old.size + work.new.size + 1) ⟨0, work.old.size, 0, work.new.size⟩ false

end Comparison

end ContextPack.Difference
