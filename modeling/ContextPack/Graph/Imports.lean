import ContextPack.Path.Basic

/-!
# Import resolution

Finds the repository file that an import names.  A dotted module name is
looked for from the importer's directory outwards, or, with dots in front,
from one directory only; any other specifier is a path, relative or from the
root.  Specifiers of packages outside the repository resolve to nothing, and
no file resolves to itself.
-/

namespace ContextPack.Imports

open ContextPack.Path (parentChars joinChars)

/-- Whether a path belongs to the repository. -/
abbrev FileSet := List Char → Bool

/-- Endings that are tried after a specifier, in this order. -/
def scriptEndings : List (List Char) :=
  [".js", ".jsx", ".ts", ".tsx", ".mjs", ".cjs", ".py"].map String.toList

/-- Endings that a source may name although the file has another one. -/
def compiledEndings : List (List Char) := ["js", "jsx", "mjs", "cjs"].map String.toList

/-- Files that a path specifier may mean, in this order. -/
def scriptCandidates (base : List Char) : List (List Char) :=
  base :: scriptEndings.map (base ++ ·) ++
    scriptEndings.map (fun ending => base ++ "/index".toList ++ ending) ++
    [base ++ "/__init__.py".toList]

/-- Files that a dotted name may mean once its directory is known. -/
def dottedCandidates (base : List Char) : List (List Char) :=
  if base.isEmpty then ["__init__.py".toList]
  else [base ++ ".py".toList, base ++ ".pyi".toList, base ++ "/__init__.py".toList]

def findScript (files : FileSet) (base : List Char) : Option (List Char) :=
  (scriptCandidates base).find? files

def findDotted (files : FileSet) (base : List Char) : Option (List Char) :=
  (dottedCandidates base).find? files

/-! ## Path specifiers -/

/-- The path that a specifier names before any ending is tried. -/
def scriptBase? (importer specifier : List Char) : Option (List Char) :=
  if Text.startsWith ['.', '/'] specifier || Text.startsWith ['.', '.', '/'] specifier then
    joinChars (parentChars importer) specifier
  else joinChars [] (specifier.dropWhile (· = '/'))

/-- A path without an ending that a compiler would have replaced. -/
def uncompiled? (base : List Char) : Option (List Char) :=
  match Text.splitLast? '.' base with
  | some (stem, ending) =>
    if compiledEndings.contains ending && stem.getLast? != some '/' then some stem else none
  | none => none

def resolveScript (files : FileSet) (importer specifier : List Char) : Option (List Char) :=
  match scriptBase? importer specifier with
  | none => none
  | some base =>
    if base.isEmpty then none
    else match findScript files base with
      | some found => some found
      | none =>
        match uncompiled? base with
        | some stem => findScript files stem
        | none => none

/-! ## Dotted names -/

theorem length_splitLast_lt {separator : Char} :
    ∀ {text before after : List Char},
      Text.splitLast? separator text = some (before, after) → before.length < text.length
  | [], _, _, found => by simp [Text.splitLast?] at found
  | c :: rest, before, after, found => by
    unfold Text.splitLast? at found
    split at found
    · next inner tail inRest =>
      have shorter := length_splitLast_lt inRest
      injection found with found
      injection found with first
      subst first
      simpa using shorter
    · split at found
      · injection found with found
        injection found with first
        subst first
        simp
      · exact absurd found (by simp)

theorem length_parentChars_lt {directory : List Char} (nonempty : directory ≠ []) :
    (parentChars directory).length < directory.length := by
  unfold Path.parentChars
  split
  · next before after found => exact length_splitLast_lt found
  · exact List.length_pos_iff.mpr nonempty

/-- Tries a name in a directory and then in the directories around it. -/
def searchOutwards (files : FileSet) (name directory : List Char) : Option (List Char) :=
  match (joinChars directory name).bind (findDotted files) with
  | some found => some found
  | none =>
    if _atRoot : directory = [] then none
    else searchOutwards files name (parentChars directory)
termination_by directory.length
decreasing_by exact length_parentChars_lt ‹_›

/-- The directory a number of levels up. -/
def levelsUp : Nat → List Char → Option (List Char)
  | 0, directory => some directory
  | levels + 1, directory =>
    match joinChars directory ['.', '.'] with
    | some outer => levelsUp levels outer
    | none => none

def resolveDotted (files : FileSet) (importer specifier : List Char) : Option (List Char) :=
  let dots := (specifier.takeWhile (· = '.')).length
  let name := (specifier.drop dots).map fun c => if c = '.' then '/' else c
  if dots = 0 then searchOutwards files name (parentChars importer)
  else
    match levelsUp (dots - 1) (parentChars importer) with
    | none => none
    | some directory => (joinChars directory name).bind (findDotted files)

/-- Whether a file imports by dotted names. -/
def importsDotted (importer : String) : Bool :=
  match Path.extension? importer with
  | some ending => ending == "py" || ending == "pyi"
  | none => false

/-- The repository file that an import names. -/
def resolve (files : List String) (importer specifier : String) : Option String :=
  let known : FileSet := fun path => files.contains (String.ofList path)
  let found :=
    if importsDotted importer then resolveDotted known importer.toList specifier.toList
    else resolveScript known importer.toList specifier.toList
  match found with
  | some path => if String.ofList path = importer then none else some (String.ofList path)
  | none => none

end ContextPack.Imports
