import ContextPack.Files.Glob
import ContextPack.Text.Blank
import ContextPack.Text.Pieces

/-!
# Ignore rules

A line of an ignore file is a glob for paths below the directory of the file.
Without a slash inside it fits at any depth, with one only from that directory
on.  A slash at its end restricts it to directories, and an exclamation mark in
front takes back what earlier lines ignored.  Of the lines that fit a path the
last one counts.
-/

namespace ContextPack

/-- A line of an ignore file. -/
structure IgnoreRule where
  glob : Glob
  /-- Takes back what earlier rules ignored. -/
  keeps : Bool
  onlyDirectories : Bool

namespace IgnoreRule

/-- A line without blanks at its end, unless an escaped one stands there. -/
def trimLine (line : List Char) : List Char :=
  if Text.endsWith ['\\', ' '] line then line else Text.dropEndWhile Text.isBlank line

/-- What a line begins with. -/
structure Opening where
  keeps : Bool
  /-- The glob fits only from the directory of the file on. -/
  anchored : Bool
  rest : List Char

def Opening.ofLine : List Char → Opening
  | '\\' :: '!' :: rest => ⟨false, false, '!' :: rest⟩
  | '\\' :: '#' :: rest => ⟨false, false, '#' :: rest⟩
  | '!' :: '/' :: rest => ⟨true, true, rest⟩
  | '!' :: rest => ⟨true, false, rest⟩
  | '/' :: rest => ⟨false, true, rest⟩
  | rest => ⟨false, false, rest⟩

/-- A text without a slash at its end, and whether there was one. -/
def dropSlash (text : List Char) : List Char × Bool :=
  match text.reverse with
  | '/' :: '\\' :: front => (front.reverse, true)
  | '/' :: front => (front.reverse, true)
  | _ => (text, false)

/-- The glob of a line: at any depth unless the line says where, and below a
directory rather than the directory itself if it ends in two stars. -/
def globText (anchored : Bool) (text : List Char) : List Char :=
  let anywhere := ['*', '*', '/']
  let placed :=
    if anchored || text.contains '/' || text == ['*', '*'] then text else anywhere ++ text
  if Text.endsWith ['/', '*', '*'] placed then placed ++ ['/', '*'] else placed

/-- The rule of a line; comments, empty lines and globs that are not well
formed make none. -/
def ofLine? (line : List Char) : Option IgnoreRule :=
  let text := trimLine line
  if text.isEmpty || text.head? == some '#' then none
  else
    let opening := Opening.ofLine text
    let (body, onlyDirectories) := dropSlash opening.rest
    (Glob.read? (globText opening.anchored body)).map fun glob =>
      ⟨glob, opening.keeps, onlyDirectories⟩

def applies (rule : IgnoreRule) (path : List UInt8) (isDirectory : Bool) : Bool :=
  (isDirectory || !rule.onlyDirectories) && rule.glob.fits true path

end IgnoreRule

/-- The rules of an ignore file, the last one first. -/
structure IgnoreFile where
  /-- The directory of the file. -/
  directory : List String
  rules : List IgnoreRule

namespace IgnoreFile

/-- The rules in the text of an ignore file; a byte-order mark is no part of
them. -/
def ofText (directory : List String) (text : List Char) : IgnoreFile :=
  let body := text.dropWhile (· = '\uFEFF')
  let lines := (Text.pieces '\n' body).map fun line => Text.dropEndWhile (· = '\r') line
  ⟨directory, (lines.filterMap IgnoreRule.ofLine?).reverse⟩

/-- Whether a place below the file's directory is ignored, if a rule says
so. -/
def verdict? (file : IgnoreFile) (place : List String) (isDirectory : Bool) : Option Bool :=
  if file.directory.isPrefixOf place then
    let path := (place.drop file.directory.length).map String.toList
    let bytes := Utf8.encode (Text.joinWith ['/'] path)
    (file.rules.find? fun rule => rule.applies bytes isDirectory).map fun rule => !rule.keeps
  else none

end IgnoreFile

def firstVerdict? (files : List IgnoreFile) (place : List String) (isDirectory : Bool) :
    Option Bool :=
  files.findSome? fun file => file.verdict? place isDirectory

end ContextPack
