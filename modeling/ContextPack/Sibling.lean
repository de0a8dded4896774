import ContextPack.Graph.Edge
import ContextPack.Path.Basic
import ContextPack.Settings.Basic

/-!
# Sibling expansion

In some formats the files of one directory belong together by convention
alone.  A changed file of such a format makes its neighbours of such formats
eligible, up to a number for each directory.
-/

namespace ContextPack.Sibling

variable {α : Type} [Scalar α]

/-- Whether convention rather than names ties a file to its neighbours: its
extension is listed, or its name is a listed one, perhaps with something after
a dot. -/
def isConventional (settings : SiblingSettings α) (path : String) : Bool :=
  let byExtension :=
    match Path.extension? path with
    | some ending => settings.extensions.any fun listed =>
        Text.lowerAscii (listed.toList.dropWhile (· = '.')) == ending.toList
    | none => false
  let name := Text.lowerAscii (Path.nameChars path.toList)
  byExtension || settings.fileNames.any fun listed =>
    let known := Text.lowerAscii listed.toList
    name == known || Text.startsWith (known ++ ['.']) name

/-- What sibling expansion yields. -/
structure Outcome (α : Type) where
  edges : EdgeBuffer α
  /-- Every file that became eligible, ascending. -/
  members : List String

/-- The files that a directory contributes. -/
def members (settings : SiblingSettings α) (seeds candidates : List String)
    (listing : List String) : List String :=
  (listing.filter fun path =>
    !seeds.contains path && candidates.contains path && isConventional settings path).take
      settings.maxFilesPerDirectory

/-- What has come together from the seeds that were taken so far. -/
structure Progress (α : Type) where
  /-- What each directory contributes in which a seed was met. -/
  known : List (String × List String)
  edges : EdgeBuffer α
  /-- As they were linked, repeats included. -/
  linked : List String

namespace Progress

def start : Progress α := ⟨[], .empty, []⟩

/-- Links a seed to what its directory contributes, which is listed for the first seed of
the directory only. -/
def link (settings : SiblingSettings α) (contribution : String → List String)
    (progress : Progress α) (seed : String) : Progress α :=
  let directory := Path.parent seed
  let (others, known) :=
    match progress.known.lookup directory with
    | some others => (others, progress.known)
    | none =>
      let others := contribution directory
      (others, (directory, others) :: progress.known)
  { known
    edges := progress.edges.append <| .ofList <|
      others.map fun other => ⟨seed, other, .sibling, settings.edgeWeight⟩
    linked := progress.linked ++ others }

end Progress

/-- Links each seed of such a format to what its directory contributes.  The
seeds are ascending and `listing` gives the files directly in a directory, by
name. -/
def edges (settings : SiblingSettings α) (listing : String → List String)
    (seeds candidates : List String) : Outcome α :=
  let contribution (directory : String) :=
    members settings seeds candidates (listing directory)
  let progress := (seeds.filter (isConventional settings)).foldl
    (Progress.link settings contribution) .start
  { edges := progress.edges
    members := Text.distinctSorted progress.linked }

end ContextPack.Sibling
