/-!
# Sliding groups of changed lines

A group of changed lines can be shifted when the line at one of its ends equals
the line beyond its other end.  Groups are shifted down as far as they go, and
merged with groups they meet; but a group that can stand beside changed lines
of the other file is shifted back to do so.
-/

namespace ContextPack.Difference

/-- Consecutive changed lines; the one before and the one at `stop` are not
changed.  The group may be empty. -/
structure Group where
  start : Nat
  stop : Nat

/-- Which lines of a file have changed. -/
abbrev Flags := Array Bool

namespace Group

def isFlagged (flags : Flags) (place : Nat) : Bool := flags[place]?.getD false

/-- The end of the changed lines from a place on. -/
def stopFrom (flags : Flags) : Nat → Nat → Nat
  | 0, place => place
  | fuel + 1, place => if isFlagged flags place then stopFrom flags fuel (place + 1) else place

/-- The start of the changed lines before a place. -/
def startFrom (flags : Flags) : Nat → Nat
  | 0 => 0
  | place + 1 => if isFlagged flags place then startFrom flags place else place + 1

def beginning (flags : Flags) (place : Nat) : Group := ⟨place, stopFrom flags flags.size place⟩

/-- The group behind the line at the end of another one. -/
def next? (flags : Flags) (group : Group) : Option Group :=
  if flags.size ≤ group.stop then none else some (beginning flags (group.stop + 1))

/-- The group in front of the line before another one. -/
def previous? (flags : Flags) (group : Group) : Option Group :=
  match group.start with
  | 0 => none
  | stop + 1 => some ⟨startFrom flags stop, stop⟩

def size (group : Group) : Nat := group.stop - group.start

def isEmpty (group : Group) : Bool := group.stop ≤ group.start

end Group

/-- A group in its file, and the group beside it in the other file. -/
structure Sliding where
  flags : Flags
  group : Group
  beside : Group

namespace Sliding

/-- One line up, if the lines allow it. -/
def up? (lines : Array Nat) (otherFlags : Flags) (state : Sliding) : Option Sliding :=
  match state.group.start, state.group.stop with
  | above + 1, last + 1 =>
    if lines[above]? == lines[last]? then
      let flags := (state.flags.setIfInBounds above true).setIfInBounds last false
      let group : Group := ⟨Group.startFrom flags above, last⟩
      some ⟨flags, group, (state.beside.previous? otherFlags).getD state.beside⟩
    else none
  | _, _ => none

/-- One line down, if the lines allow it. -/
def down? (lines : Array Nat) (otherFlags : Flags) (state : Sliding) : Option Sliding :=
  let group := state.group
  if group.stop < lines.size && lines[group.start]? == lines[group.stop]? then
    let flags := (state.flags.setIfInBounds group.start false).setIfInBounds group.stop true
    let longer : Group := ⟨group.start + 1, Group.stopFrom flags flags.size (group.stop + 1)⟩
    some ⟨flags, longer, (state.beside.next? otherFlags).getD state.beside⟩
  else none

/-- Up as far as it goes. -/
def allUp (lines : Array Nat) (otherFlags : Flags) : Nat → Sliding → Sliding
  | 0, state => state
  | fuel + 1, state =>
    match state.up? lines otherFlags with
    | some higher => allUp lines otherFlags fuel higher
    | none => state

/-- Down as far as it goes, and whether changed lines of the other file were
beside it on the way. -/
def allDown (lines : Array Nat) (otherFlags : Flags) : Nat → Sliding → Bool → Sliding × Bool
  | 0, state, met => (state, met)
  | fuel + 1, state, met =>
    match state.down? lines otherFlags with
    | some lower => allDown lines otherFlags fuel lower (met || !lower.beside.isEmpty)
    | none => (state, met)

/-- What shifting a group up and down has led to. -/
structure Settled where
  state : Sliding
  /-- The end of the group where it stood highest. -/
  highestStop : Nat
  /-- Changed lines of the other file were beside it. -/
  met : Bool

/-- Up and down until the group no longer grows. -/
def settle (lines : Array Nat) (otherFlags : Flags) : Nat → Sliding → Settled
  | 0, state => ⟨state, state.group.stop, false⟩
  | fuel + 1, state =>
    let size := state.group.size
    let limit := lines.size + 1
    let highest := allUp lines otherFlags limit state
    let (lowest, met) := allDown lines otherFlags limit highest (!highest.beside.isEmpty)
    if lowest.group.size = size then ⟨lowest, highest.group.stop, met⟩
    else settle lines otherFlags fuel lowest

/-- Up again until changed lines of the other file are beside the group. -/
def backToMatch (lines : Array Nat) (otherFlags : Flags) : Nat → Sliding → Sliding
  | 0, state => state
  | fuel + 1, state =>
    if state.beside.isEmpty then
      match state.up? lines otherFlags with
      | some higher => backToMatch lines otherFlags fuel higher
      | none => state
    else state

/-- Brings one group to its place. -/
def place (lines : Array Nat) (otherFlags : Flags) (state : Sliding) : Sliding :=
  if state.group.isEmpty then state
  else
    let limit := lines.size + 1
    let settled := settle lines otherFlags limit state
    if settled.state.group.stop = settled.highestStop || !settled.met then settled.state
    else backToMatch lines otherFlags limit settled.state

/-- Brings every group from a first one on to its place. -/
def placeAll (lines : Array Nat) (otherFlags : Flags) : Nat → Sliding → Flags
  | 0, state => state.flags
  | fuel + 1, state =>
    let placed := state.place lines otherFlags
    match placed.group.next? placed.flags with
    | none => placed.flags
    | some group =>
      let beside := (placed.beside.next? otherFlags).getD placed.beside
      placeAll lines otherFlags fuel ⟨placed.flags, group, beside⟩

end Sliding

/-- The changed lines of a file, every group at its place. -/
def slide (lines : Array Nat) (flags otherFlags : Flags) : Flags :=
  Sliding.placeAll lines otherFlags (lines.size + 1)
    ⟨flags, Group.beginning flags 0, Group.beginning otherFlags 0⟩

end ContextPack.Difference
