import ContextPack.Path.Basic

/-!
# Noise files

Lock files, minified bundles and vendored trees carry no information about a
change.  They are recognised by their names alone.
-/

namespace ContextPack.Path

/-- Names of files that record resolved dependencies. -/
def lockFileNames : List String :=
  ["package-lock.json", "yarn.lock", "pnpm-lock.yaml", "poetry.lock", "pipfile.lock",
   "cargo.lock", "gemfile.lock", "composer.lock", "go.sum"]

/-- Name parts of generated bundles. -/
def bundleMarks : List String := [".min.", ".bundle.", ".packed."]

/-- Names of directories that hold other people's code. -/
def vendorDirectories : List String :=
  ["vendor", "vendors", "third_party", "third-party", "thirdparty", "node_modules"]

def isLockFile (path : String) : Bool :=
  lockFileNames.contains (Text.lowercase (fileName path))

def isMinified (path : String) : Bool :=
  let name := Text.lowerAscii (nameChars path.toList)
  bundleMarks.any fun mark => Text.holds mark.toList name

/-- Whether the path leads through a directory of other people's code: its
lowercased text, with a slash in front, holds the directory's name between two
slashes. -/
def isVendored (path : String) : Bool :=
  let text := '/' :: Text.lowerAscii path.toList
  vendorDirectories.any fun directory => Text.holds ('/' :: directory.toList ++ ['/']) text

def isNoise (path : String) : Bool :=
  isLockFile path || isMinified path || isVendored path

end ContextPack.Path
