import ContextPack.Change
import ContextPack.Pack.Context
import ContextPack.Settings.Basic

/-!
# Seed drafts

What a changed file contributes before the budget is looked at: its patch, its
text, or a line that says why neither can be shown.
-/

namespace ContextPack

/-- A changed file and its present text, if it could be read. -/
structure Seed where
  change : FileChange
  content : Option String
deriving DecidableEq

/-- A fragment whose price is not known yet. -/
structure Draft where
  path : String
  content : List Char
  kind : FragmentKind
  truncated : Bool
deriving DecidableEq

/-- Why a changed file is not shown. -/
inductive Unavailable where
  | deleted
  | binary
  | oversized
  | unreadable
deriving DecidableEq

def Unavailable.reason : Unavailable → String
  | .deleted => "deleted in this change"
  | .binary => "binary file"
  | .oversized => "exceeds max_file_size"
  | .unreadable => "unreadable"

/-- The line that stands for a file that is not shown. -/
def placeholderLine (path : String) (why : Unavailable) : String :=
  path ++ ": " ++ why.reason ++ ", content unavailable\n"

namespace Draft

def placeholder (path : String) (why : Unavailable) : Draft :=
  ⟨path, (placeholderLine path why).toList, .placeholder, false⟩

/-- Whether a text takes more bytes than a file may have. -/
def isOversized (maxFileSize : Nat) (content : Option String) : Bool :=
  match content with
  | some text => maxFileSize < text.utf8ByteSize
  | none => false

/-- The draft that shows a changed file's text. -/
def ofContent (path : String) (oversized : Bool) (content : Option String) : Draft :=
  if oversized then placeholder path .oversized
  else match content with
    | some text => ⟨path, text.toList, .seedFile, false⟩
    | none => placeholder path .unreadable

/-- The draft of a changed file.  Its patch is shown when patches are asked
for or its text is too large, and there is one. -/
def ofSeed (maxFileSize : Nat) (wanted : SeedContent) (seed : Seed) : Draft :=
  let change := seed.change
  if change.status = .deleted then placeholder change.path .deleted
  else if change.binary then placeholder change.path .binary
  else
    let oversized := isOversized maxFileSize seed.content
    match change.patchText? with
    | some patch =>
      if wanted = .hunks || oversized then ⟨change.path, patch.toList, .seedHunks, false⟩
      else ofContent change.path oversized seed.content
    | none => ofContent change.path oversized seed.content

end Draft

end ContextPack
