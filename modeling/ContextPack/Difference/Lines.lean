import Std.Data.HashMap

/-!
# Lines

A file as lines, each with its line end; the last one may lack it.  For
comparing, lines are numbered so that equal lines have equal numbers.
-/

namespace ContextPack.Difference

abbrev Line := List UInt8

def lineEnd : UInt8 := 10

/-- The lines of a file, each with its line end. -/
def splitLines : List UInt8 → List Line
  | [] => []
  | byte :: rest =>
    if byte == lineEnd then [byte] :: splitLines rest
    else
      match splitLines rest with
      | [] => [[byte]]
      | line :: others => (byte :: line) :: others

/-- Numbers given to lines so far. -/
abbrev Numbering := Std.HashMap Line Nat

/-- Numbers lines one after the other; a line met before keeps its number. -/
def number (numbering : Numbering) : List Line → List Nat × Numbering
  | [] => ([], numbering)
  | line :: rest =>
    match numbering[line]? with
    | some known =>
      let (numbers, later) := number numbering rest
      (known :: numbers, later)
    | none =>
      let fresh := numbering.size
      let (numbers, later) := number (numbering.insert line fresh) rest
      (fresh :: numbers, later)

/-- Two files of which only the equality of lines is known. -/
structure LinePair where
  old : Array Nat
  new : Array Nat

def LinePair.ofLines (old new : List Line) : LinePair :=
  let (oldNumbers, numbering) := number {} old
  let (newNumbers, _) := number numbering new
  ⟨oldNumbers.toArray, newNumbers.toArray⟩

def occurrences (numbers : Array Nat) : Std.HashMap Nat Nat :=
  numbers.foldl (fun counts number => counts.insert number (counts.getD number 0 + 1)) {}

/-- The smallest power of two that is not below the square root, roughly. -/
def roughRootFrom : Nat → Nat → Nat
  | 0, _ => 1
  | fuel + 1, n => if n = 0 then 1 else 2 * roughRootFrom fuel (n / 4)

/-- A power of two near the square root. -/
def roughRoot (n : Nat) : Nat := roughRootFrom (n + 1) n

end ContextPack.Difference
