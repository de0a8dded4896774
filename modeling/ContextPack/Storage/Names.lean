import ContextPack.Repository.Basic
import ContextPack.Text.Blank
import ContextPack.Text.Pieces
import ContextPack.Text.Utf8

/-!
# Stored names

Where a repository keeps the names of its commits: one name a file, many names
in one file, and the name of what is current.
-/

namespace ContextPack.Storage

/-- What a name stands for: an id or another name. -/
inductive NameTarget where
  | id (id : String)
  | name (name : String)
deriving DecidableEq

/-- The target that a file's text tells. -/
def NameTarget.ofText (text : List Char) : NameTarget :=
  match Text.stripStart? "ref:".toList text with
  | some rest => name (String.ofList (Text.trimChars rest))
  | none => id (String.ofList (text.takeWhile fun c => c.isAlphanum))

/-- The names in a file that holds many: an id, a blank and a name in a line. -/
def packedNames (text : List Char) : List (String × NameTarget) :=
  (Text.pieces '\n' text).filterMap fun line =>
    match line with
    | '#' :: _ => none
    | '^' :: _ => none
    | line =>
      let id := line.takeWhile fun c => c != ' '
      let name := Text.trimChars (line.drop id.length)
      if name.isEmpty then none else some (String.ofList name, .id (String.ofList id))

/-- How often a name may stand for another name. -/
def longestNameChain : Nat := 5

def targetOf? (name : String) : List (String × NameTarget) → Option NameTarget
  | [] => none
  | (other, target) :: rest => if other = name then some target else targetOf? name rest

def idOf? (names : List (String × NameTarget)) : Nat → NameTarget → Option String
  | _, .id id => some id
  | 0, .name _ => none
  | fuel + 1, .name name => (targetOf? name names).bind (idOf? names fuel)

end ContextPack.Storage
