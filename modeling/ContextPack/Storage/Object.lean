import ContextPack.Repository.Basic
import ContextPack.Storage.Bytes
import ContextPack.Text.Pieces
import ContextPack.Text.Utf8

/-!
# Stored objects

The objects that a repository keeps: contents of files, listings of
directories, commits, and tags with a text of their own.
-/

namespace ContextPack.Storage

inductive ObjectKind where
  | content
  | listing
  | commit
  | tag
deriving DecidableEq

def ObjectKind.ofName? (name : String) : Option ObjectKind :=
  if name = "blob" then some content
  else if name = "tree" then some listing
  else if name = "commit" then some commit
  else if name = "tag" then some tag
  else none

structure StoredObject where
  kind : ObjectKind
  data : ByteArray

/-- Bytes as the characters of the same numbers. -/
def charsOf (bytes : List UInt8) : List Char := bytes.map fun byte => Char.ofNat byte.toNat

/-- An object with its own header: kind, a blank, size, and a zero byte. -/
def StoredObject.ofBytes? (data : ByteArray) : Option StoredObject := do
  let (header, start) ← through? 0 data 0
  let name := (charsOf header).takeWhile fun c => c != ' '
  let kind ← ObjectKind.ofName? (String.ofList name)
  return ⟨kind, data.extract start data.size⟩

/-! ## Listings -/

/-- An entry of a listing, which may be a listing itself. -/
structure ListedEntry where
  mode : String
  name : String
  id : String

/-- The entries from an offset on, at most `fuel` of them. -/
def entriesFrom (data : ByteArray) : Nat → Nat → List ListedEntry
  | 0, _ => []
  | fuel + 1, offset =>
    match through? 32 data offset with
    | none => []
    | some (mode, afterMode) =>
      match through? 0 data afterMode with
      | none => []
      | some (name, afterName) =>
        match idAt? data afterName with
        | none => []
        | some id =>
          let entry : ListedEntry :=
            ⟨String.ofList (charsOf mode), String.ofList (Utf8.decodeLossy name), id⟩
          entry :: entriesFrom data fuel (afterName + idSize)

def StoredObject.entries (object : StoredObject) : List ListedEntry :=
  entriesFrom object.data (object.data.size + 1) 0

/-- Which file a mode of a listing stands for. -/
def fileMode? (mode : String) : Option FileMode :=
  if mode = "100755" then some .executable
  else if mode = "120000" then some .link
  else if mode.startsWith "100" then some .regular
  else none

/-- The mode of a listing in a listing. -/
def listingMode : String := "40000"

/-! ## Commits and tags -/

/-- The lines in front of the first empty line, each as its first word and the
rest. -/
def headerOf (object : StoredObject) : List (List Char × List Char) :=
  let lines := (Text.pieces '\n' (charsOf object.data.toList)).takeWhile fun line => !line.isEmpty
  lines.map fun line => (line.takeWhile (· != ' '), (line.dropWhile (· != ' ')).drop 1)

def valuesOf (name : String) (header : List (List Char × List Char)) : List (List Char) :=
  (header.filter fun line => line.1 = name.toList).map Prod.snd

/-- The number that digits make, with a sign perhaps. -/
def integerOf (text : List Char) : Int :=
  let size (digits : List Char) : Nat :=
    digits.foldl (fun value digit => value * 10 + (digit.toNat - '0'.toNat)) 0
  match text with
  | '-' :: digits => -(size digits : Int)
  | digits => size digits

/-- The time in a line that ends with a time and a time zone. -/
def timeOf (line : List Char) : Int :=
  match (Text.pieces ' ' line).reverse with
  | _ :: time :: _ => integerOf time
  | _ => 0

/-- What a commit's object says of it. -/
structure CommitHeader where
  listing : String
  parents : List String
  time : Int

def StoredObject.commitHeader? (object : StoredObject) : Option CommitHeader :=
  let header := headerOf object
  match object.kind, valuesOf "tree" header with
  | .commit, listing :: _ =>
    some { listing := String.ofList listing
           parents := (valuesOf "parent" header).map String.ofList
           time := ((valuesOf "committer" header).head?.map timeOf).getD 0 }
  | _, _ => none

/-- The object that a tag is for. -/
def StoredObject.tagged? (object : StoredObject) : Option String :=
  match object.kind, valuesOf "object" (headerOf object) with
  | .tag, id :: _ => some (String.ofList id)
  | _, _ => none

end ContextPack.Storage
