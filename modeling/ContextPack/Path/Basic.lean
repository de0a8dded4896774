import ContextPack.Text.Pieces

/-!
# Repository paths

A repository path names a file from the root by segments with a slash between
every two.  The root itself is the empty text.  Paths come in from the outside
with other habits (backslashes, a leading `./`), which `normalize` removes.
-/

namespace ContextPack.Path

open Text (pieces joinWith)

/-- Takes off every `./` in front. -/
def dropHere : List Char → List Char
  | '.' :: '/' :: rest => dropHere rest
  | text => text

/-- Slashes instead of backslashes, and no `./` in front. -/
def normalizeChars (text : List Char) : List Char :=
  dropHere (text.map fun c => if c = '\\' then '/' else c)

/-- Slashes instead of backslashes, and no `./` in front. -/
def normalize (path : String) : String := String.ofList (normalizeChars path.toList)

/-- The segments of a path, at least one. -/
def segments (path : String) : List (List Char) := pieces '/' path.toList

/-- What stands after the last slash. -/
def nameChars (path : List Char) : List Char :=
  (path.reverse.takeWhile (· != '/')).reverse

/-- The last segment. -/
def fileName (path : String) : String := String.ofList (nameChars path.toList)

/-- What stands before the last slash; empty for a file at the root. -/
def parentChars (path : List Char) : List Char :=
  match Text.splitLast? '/' path with
  | some (before, _) => before
  | none => []

/-- The directory of a path. -/
def parent (path : String) : String := String.ofList (parentChars path.toList)

/-- The part of a file name after its last dot, if something stands on both
sides of that dot. -/
def nameExtension? (name : List Char) : Option (List Char) :=
  match Text.splitLast? '.' name with
  | some (stem, ending) => if stem.isEmpty || ending.isEmpty then none else some ending
  | none => none

/-- The extension of a path without its dot and in small letters. -/
def extension? (path : String) : Option String :=
  (nameExtension? (nameChars path.toList)).map fun ending =>
    String.ofList (Text.lowerAscii ending)

/-! ## Joining -/

/-- Where a step from a directory leads; `none` above the root.  The segments
of the directory come innermost first. -/
def walkSegment (directory : List (List Char)) (segment : List Char) : Option (List (List Char)) :=
  match segment with
  | [] => some directory
  | ['.'] => some directory
  | ['.', '.'] =>
    match directory with
    | [] => none
    | _ :: outer => some outer
  | name => some (name :: directory)

/-- Steps through segments from left to right. -/
def walkSegments : List (List Char) → List (List Char) → Option (List (List Char))
  | directory, [] => some directory
  | directory, segment :: rest =>
    match walkSegment directory segment with
    | some next => walkSegments next rest
    | none => none

/-- The segments of a directory; the root has none. -/
def directorySegments (directory : List Char) : List (List Char) :=
  if directory.isEmpty then [] else pieces '/' directory

/-- The path that a relative text names from a directory; `none` when it
leaves the root. -/
def joinChars (directory relative : List Char) : Option (List Char) :=
  (walkSegments (directorySegments directory).reverse (pieces '/' relative)).map fun result =>
    joinWith ['/'] result.reverse

/-- The path that a relative text names from a directory; `none` when it
leaves the root. -/
def join (directory relative : String) : Option String :=
  (joinChars directory.toList relative.toList).map String.ofList

/-! ## Location under a directory -/

/-- A path of the file system: how it begins, and the pieces after that. -/
structure Located where
  /-- A leading slash. -/
  absolute : Bool
  /-- A leading segment `.`. -/
  here : Bool
  body : List (List Char)

/-- Reads a path of the file system. -/
def Located.ofChars : List Char → Located
  | '/' :: rest => ⟨true, false, pieces '/' rest⟩
  | ['.'] => ⟨false, true, [[]]⟩
  | '.' :: '/' :: rest => ⟨false, true, [] :: pieces '/' rest⟩
  | text => ⟨false, false, pieces '/' text⟩

/-- Pieces that name no step. -/
def isIdle (piece : List Char) : Bool := piece = [] || piece = ['.']

/-- The leading marks and the pieces that name a step. -/
def Located.steps (path : Located) : List (List Char) :=
  (if path.absolute then [['/']] else []) ++ (if path.here then [['.']] else []) ++
    path.body.filter fun piece => !isIdle piece

/-- The pieces left after as many steps. -/
def dropSteps : Nat → List (List Char) → List (List Char)
  | 0, pieces => pieces
  | _, [] => []
  | count + 1, piece :: rest =>
    if isIdle piece then dropSteps (count + 1) rest else dropSteps count rest

/-- The text of a path without the idle pieces at its end. -/
def Located.text (path : Located) : List Char :=
  (if path.absolute then ['/'] else []) ++ (if path.here then ['.'] else []) ++
    joinWith ['/'] (path.body.reverse.dropWhile isIdle).reverse

/-- The text of the directory in which a path's last step is taken, empty if
the path tells none. -/
def enclosing (path : String) : String :=
  let located := Located.ofChars path.toList
  match located.body.reverse.dropWhile isIdle with
  | [] => ""
  | _ :: before => String.ofList (Located.text { located with body := before.reverse })

/-- What is left of a path below a directory, in the spelling it came in. -/
def below? (directory path : Located) : Option (List Char) :=
  if directory.steps.isPrefixOf path.steps then
    let marks := (if path.absolute then 1 else 0) + (if path.here then 1 else 0)
    if directory.steps.isEmpty then some path.text
    else
      let rest := dropSteps (directory.steps.length - marks) path.body
      some (joinWith ['/'] ((rest.dropWhile isIdle).reverse.dropWhile isIdle).reverse)
  else none

/-- The repository path of a file under a root directory. -/
def relative (root path : String) : Option String :=
  (below? (Located.ofChars root.toList) (Located.ofChars path.toList)).map fun rest =>
    String.ofList (normalizeChars rest)

end ContextPack.Path
