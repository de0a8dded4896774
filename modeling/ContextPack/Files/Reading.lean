import ContextPack.Files.Entry
import ContextPack.Text.Decoding

/-!
# Reading files as text

A file is read whole and decoded, unless it is too large or holds no text.
-/

namespace ContextPack

/-- Why a file is not read as text. -/
inductive ReadProblem where
  | binary
  | tooLarge
  /-- There is nothing at the path. -/
  | missing (path : String)
  | unreadable (path : String)
deriving DecidableEq

def ReadProblem.message : ReadProblem → String
  | binary => "binary content"
  | tooLarge => "file exceeds size limit"
  | missing path => "Failed to stat " ++ path
  | unreadable path => "Failed to read file: " ++ path

/-- The text of a file's bytes. -/
def textOfBytes (bytes : List UInt8) : Except ReadProblem String :=
  if Decoding.looksBinary bytes then .error .binary
  else .ok (String.ofList (Decoding.decodeText bytes))

/-- How many bytes a directory is taken to have. -/
def directorySize : Nat := 4096

/-- Reads what stands at a place; `path` is its name in messages.  The size is
looked at first, and only if there is a limit. -/
def Entry.readText (tree : Entry) (place : List String) (path : String) (limit : Option Nat) :
    Except ReadProblem String :=
  let exceeds (size : Nat) : Bool :=
    match limit with
    | some limit => limit < size
    | none => false
  match tree.resolve? place with
  | some (_, .file bytes _) =>
    if exceeds bytes.length then .error .tooLarge else textOfBytes bytes
  | some _ => if exceeds directorySize then .error .tooLarge else .error (.unreadable path)
  | none => if limit.isSome then .error (.missing path) else .error (.unreadable path)

end ContextPack
