import ContextPack.Storage.Names
import ContextPack.Storage.Pack
import ContextPack.Storage.Staged

/-!
# Opened repositories

A repository from the files in which it is kept.
-/

namespace ContextPack.Storage

/-- The files of a repository, by their paths in its own directory. -/
structure StoredFiles where
  paths : List String
  bytes? : String → Option ByteArray

namespace StoredFiles

/-- The text of a file, empty if there is none. -/
def text (files : StoredFiles) (path : String) : List Char :=
  Utf8.decodeLossy (((files.bytes? path).map ByteArray.toList).getD [])

def isRepository (files : StoredFiles) : Bool :=
  (files.bytes? "HEAD").isSome &&
    files.paths.any fun path => path = "config" || path.startsWith "refs/" || path = "packed-refs"

/-- Whether the settings say that there is no working tree. -/
def saysBare (files : StoredFiles) : Bool :=
  (Text.pieces '\n' (files.text "config")).any fun line =>
    line.filter (fun c => !Text.isBlank c) = "bare=true".toList

/-! ## Objects -/

def packs (files : StoredFiles) : List Pack :=
  files.paths.filterMap fun path =>
    if path.startsWith "objects/pack/" && path.endsWith ".idx" then
      let stem := String.ofList (path.toList.take (path.length - 4))
      match files.bytes? (stem ++ ".pack"), files.bytes? path with
      | some data, some index => some (.ofBytes data index)
      | _, _ => none
    else none

/-- The object that has a file of its own. -/
def looseObject? (files : StoredFiles) (id : String) : Option StoredObject :=
  let path := "objects/" ++ String.ofList (id.toList.take 2) ++ "/" ++ String.ofList (id.toList.drop 2)
  ((files.bytes? path).bind fun data => Inflate.read? data 0).bind StoredObject.ofBytes?

def object? (files : StoredFiles) (packs : List Pack) (id : String) : Option StoredObject :=
  files.looseObject? id <|> packs.findSome? fun pack => pack.object? files.looseObject? id

/-- Ids of objects that have a file of their own. -/
def looseIds (files : StoredFiles) : List String :=
  files.paths.filterMap fun path =>
    match Text.pieces '/' path.toList with
    | [['o', 'b', 'j', 'e', 'c', 't', 's'], [a, b], rest] =>
      if rest.length = 38 then some (String.ofList (a :: b :: rest)) else none
    | _ => none

/-! ## Commits -/

/-- How deep directories may lie in one another. -/
def deepest : Nat := 1024

def filesOf (object? : String → Option StoredObject) : Nat → String → String → List TrackedFile
  | 0, _, _ => []
  | fuel + 1, above, id =>
    match object? id with
    | none => []
    | some object =>
      object.entries.flatMap fun entry =>
        let path := above ++ entry.name
        if entry.mode = listingMode then filesOf object? fuel (path ++ "/") entry.id
        else
          match fileMode? entry.mode with
          | some mode => [⟨path, mode, entry.id⟩]
          | none => []

def commitOf? (object? : String → Option StoredObject) (id : String) : Option Commit :=
  ((object? id).bind StoredObject.commitHeader?).map fun header =>
    { id, parents := header.parents, time := header.time
      files := (filesOf object? deepest "" header.listing).mergeSort fun a b =>
        Text.le a.path b.path }

/-- The commit that an id leads to through tags. -/
def peel (object? : String → Option StoredObject) : Nat → String → String
  | 0, id => id
  | fuel + 1, id =>
    match (object? id).bind StoredObject.tagged? with
    | some target => peel object? fuel target
    | none => id

/-! ## Names -/

/-- Whether a file directly in the repository's directory may hold a name. -/
def isTopName (path : String) : Bool :=
  !path.isEmpty && path.toList.all fun c => ('A' ≤ c && c ≤ 'Z') || c = '_'

/-- All names and what they stand for; a name with a file of its own comes
first. -/
def names (files : StoredFiles) : List (String × NameTarget) :=
  let own := files.paths.filterMap fun path =>
    if path.startsWith "refs/" || isTopName path then some (path, NameTarget.ofText (files.text path))
    else none
  own ++ packedNames (files.text "packed-refs")

def head (files : StoredFiles) : Head :=
  match NameTarget.ofText (files.text "HEAD") with
  | .id id => .commit id
  | .name name => .reference name

def open? (files : StoredFiles) (isBare : Bool) : Option Repository :=
  if !files.isRepository then none
  else
    let packs := files.packs
    let object? := files.object? packs
    let names := files.names
    some
      { isBare := isBare || files.saysBare
        commit? := commitOf? object?
        commitIds := Text.distinctSorted <| (files.looseIds ++ packs.flatMap fun pack =>
          pack.offsets.toList.map Prod.fst)
        bytes? := fun id => (object? id).map fun object => object.data.toList
        references := names.filterMap fun (name, target) =>
          (idOf? names longestNameChain target).map fun id => (name, peel object? longestNameChain id)
        head := files.head
        staged := ((files.bytes? "index").map stagedFiles).getD [] }

end StoredFiles

end ContextPack.Storage
