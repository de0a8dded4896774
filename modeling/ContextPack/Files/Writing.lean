import ContextPack.Files.Entry

/-!
# Writing into a tree

Directories are made on the way and links are followed, so that what is written
stands where a reader of the same path finds it.
-/

namespace ContextPack

/-- Why a directory cannot be made. -/
inductive DirectoryProblem where
  /-- Something that is no directory stands at its place. -/
  | occupied
  /-- Something that is no directory stands on the way to it. -/
  | blocked
  /-- The system refuses for a reason of its own. -/
  | refused (why : String)
deriving DecidableEq

def DirectoryProblem.message : DirectoryProblem → String
  | occupied => "File exists (os error 17)"
  | blocked => "Not a directory (os error 20)"
  | refused why => why

namespace Entry

/-- Makes the directories on a way that starts at a directory, and tells where
it ends. -/
def makeWay (tree : Entry) (place : List String) :
    List String → Except DirectoryProblem (Entry × List String)
  | [] => .ok (tree, place)
  | "." :: rest => makeWay tree place rest
  | ".." :: rest => makeWay tree place.dropLast rest
  | name :: rest =>
    let here := place ++ [name]
    match tree.at? here with
    | none => makeWay (tree.put here (directory [])) here rest
    | some (directory _) => makeWay tree here rest
    | some (file ..) => .error (if rest.isEmpty then .occupied else .blocked)
    | some (link _) =>
      match tree.resolve? here with
      | some (real, directory _) => makeWay tree real rest
      | some _ => .error (if rest.isEmpty then .occupied else .blocked)
      | none => .error .occupied

/-- The tree with all directories on the way to a place, and its real place. -/
def makeDirectories (tree : Entry) (steps : List String) :
    Except DirectoryProblem (Entry × List String) :=
  makeWay tree [] steps

/-- The place of the file that writing to a path creates or replaces. -/
def target? (tree : Entry) : Nat → List String → List String → Option (List String)
  | 0, _, _ => none
  | _ + 1, _, [] => none
  | fuel + 1, place, "." :: rest => target? tree fuel place rest
  | fuel + 1, place, ".." :: rest => if place.isEmpty then none else target? tree fuel place.dropLast rest
  | fuel + 1, place, name :: rest =>
    let here := place ++ [name]
    match tree.at? here, rest with
    | none, [] => some here
    | some (file ..), [] => some here
    | some (link target), rest =>
      if target.startsWith "/" then none else target? tree fuel place (segments target ++ rest)
    | some (directory _), rest => target? tree fuel here rest
    | _, _ => none

/-- The tree with a file's bytes written; nothing if there can be no file.  A
file that was there stays as executable as it was. -/
def write? (tree : Entry) (steps : List String) (bytes : List UInt8) : Option Entry :=
  (tree.target? stepLimit [] steps).map fun place =>
    let executable := match tree.at? place with
      | some (file _ executable) => executable
      | _ => false
    tree.put place (file bytes executable)

end Entry

end ContextPack
