import ContextPack.Text.Pieces

/-!
# Directory trees

What stands in a directory: files, links and further directories.  A place is
given by segments from the root.  Links are not followed unless a function says
so; then a link that leads out of the tree leads nowhere.
-/

namespace ContextPack

inductive Entry where
  | file (bytes : List UInt8) (executable : Bool)
  | link (target : String)
  | directory (entries : List (String × Entry))
deriving Inhabited

namespace Entry

/-- What a directory holds under a name. -/
def lookup (name : String) : List (String × Entry) → Option Entry
  | [] => none
  | (other, entry) :: rest => if other = name then some entry else lookup name rest

def child? (name : String) : Entry → Option Entry
  | directory entries => lookup name entries
  | _ => none

/-- The entry at a place. -/
def at? : Entry → List String → Option Entry
  | entry, [] => some entry
  | entry, name :: rest =>
    match entry.child? name with
    | some child => child.at? rest
    | none => none

/-- The entries of a directory; nothing else has any. -/
def children : Entry → List (String × Entry)
  | directory entries => entries
  | _ => []

/-- The names of the files directly in a directory. -/
def fileNames (entry : Entry) : List String :=
  entry.children.filterMap fun (name, child) =>
    match child with
    | file .. => some name
    | _ => none

def isDirectory : Entry → Bool
  | directory _ => true
  | _ => false

/-- Entries with one of them put in, in the place of an older one of its name. -/
def putIn (name : String) (entry : Entry) : List (String × Entry) → List (String × Entry)
  | [] => [(name, entry)]
  | (other, old) :: rest =>
    if other = name then (name, entry) :: rest else (other, old) :: putIn name entry rest

/-- The tree with an entry at a place; directories on the way are made, and
what else stands in the way is replaced. -/
def put : Entry → List String → Entry → Entry
  | _, [], entry => entry
  | tree, name :: rest, entry =>
    let child := (tree.child? name).getD (directory [])
    directory (putIn name (child.put rest entry) tree.children)

/-- The tree without the entry at a place. -/
def erase : List String → Entry → Entry
  | [], tree => tree
  | [name], tree => directory (tree.children.filter fun child => child.1 != name)
  | name :: rest, tree =>
    match tree.child? name with
    | some child => directory (putIn name (erase rest child) tree.children)
    | none => tree

mutual

/-- How many entries there are in a tree, itself included. -/
def count : Entry → Nat
  | directory entries => countAll entries + 1
  | _ => 1

def countAll : List (String × Entry) → Nat
  | [] => 0
  | (_, entry) :: rest => entry.count + countAll rest

end

mutual

/-- Everything in a tree that is no directory, with its place. -/
def leaves (place : List String) : Entry → List (List String × Entry)
  | directory entries => leavesOfAll place entries
  | entry => [(place, entry)]

def leavesOfAll (place : List String) : List (String × Entry) → List (List String × Entry)
  | [] => []
  | (name, entry) :: rest => leaves (place ++ [name]) entry ++ leavesOfAll place rest

end

/-- The segments of a path; a doubled slash makes none. -/
def segments (path : String) : List String :=
  ((Text.pieces '/' path.toList).map String.ofList).filter fun segment => segment != ""

def isDirectoryAt (tree : Entry) (place : List String) : Bool :=
  ((tree.at? place).map isDirectory).getD false

/-- How many steps following a path may take. -/
def stepLimit : Nat := 4096

/-- Where steps lead that start at a place, links followed: the place itself
and what stands there. -/
def follow (tree : Entry) : Nat → List String → List String → Option (List String × Entry)
  | 0, _, _ => none
  | _ + 1, place, [] => (tree.at? place).map fun entry => (place, entry)
  | fuel + 1, place, "." :: rest =>
    if isDirectoryAt tree place then follow tree fuel place rest else none
  | fuel + 1, place, ".." :: rest =>
    if place.isEmpty || !isDirectoryAt tree place then none
    else follow tree fuel place.dropLast rest
  | fuel + 1, place, name :: rest =>
    match tree.at? (place ++ [name]) with
    | none => none
    | some (link target) =>
      if target.startsWith "/" then none else follow tree fuel place (segments target ++ rest)
    | some _ => follow tree fuel (place ++ [name]) rest

/-- Where a path leads from the root, links followed. -/
def resolve? (tree : Entry) (path : List String) : Option (List String × Entry) :=
  follow tree stepLimit [] path

end Entry

end ContextPack
