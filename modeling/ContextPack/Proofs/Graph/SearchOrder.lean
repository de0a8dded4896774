import ContextPack.Graph.Imports
import ContextPack.Proofs.Path.Joining

namespace ContextPack.Imports

/-!
# Where an import is looked for

The files that an import may mean, written out in the order they are tried.  The first
of them that the repository has is what the import resolves to, unless that is the
importer itself.

A path that ends as compiled scripts do is tried again without its ending.  Only
the ending of a named file is taken off: `a/.js` is not tried as `a/`.
-/

open ContextPack.Path (parentChars joinChars below)

/-! ## Candidates -/

/-- A directory and the directories around it, up to the root. -/
def enclosing (directory : List Char) : List (List Char) :=
  if _atRoot : directory = [] then [[]] else directory :: enclosing (parentChars directory)
termination_by directory.length
decreasing_by exact length_parentChars_lt ‹_›

/-- The files that a dotted name may mean at a path: a module, its stub or a
package; at the root itself only a package. -/
def moduleFiles (path : List Char) : List String :=
  if path = [] then ["__init__.py"]
  else [".py", ".pyi", "/__init__.py"].map (String.ofList path ++ ·)

/-- The files that a path specifier may mean at a path. -/
def scriptFiles (path : List Char) : List String :=
  ["", ".js", ".jsx", ".ts", ".tsx", ".mjs", ".cjs", ".py",
    "/index.js", "/index.jsx", "/index.ts", "/index.tsx", "/index.mjs", "/index.cjs", "/index.py",
    "/__init__.py"].map (String.ofList path ++ ·)

/-- A dotted name as a relative path. -/
def slashed (name : List Char) : List Char := name.map fun c => if c = '.' then '/' else c

/-- The files that a dotted name may mean: below each directory around the importer,
or, with dots in front, below the one that they count to. -/
def dottedOrder (importer specifier : List Char) : List String :=
  let dots := (specifier.takeWhile (· = '.')).length
  let name := specifier.dropWhile (· = '.')
  let around := enclosing (parentChars importer)
  let directories := if dots = 0 then around else around[dots - 1]?.toList
  directories.flatMap fun directory => moduleFiles (below directory (slashed name))

/-- The path that a path specifier names, from the importer's directory or from the
root. -/
def named? (importer specifier : List Char) : Option (List Char) :=
  if ['.', '/'] <+: specifier ∨ ['.', '.', '/'] <+: specifier then
    joinChars (parentChars importer) specifier
  else joinChars [] specifier

/-- A path without the ending of a compiled script, if it has one. -/
def withoutEnding? (path : List Char) : Option (List Char) :=
  [".js", ".jsx", ".mjs", ".cjs"].findSome? fun ending => path.dropSuffix? ending.toList

/-- The files that a path specifier may mean; `shortened` tells which paths are tried
without their ending. -/
def pathOrder (shortened : List Char → Bool) (importer specifier : List Char) : List String :=
  match named? importer specifier with
  | none => []
  | some path =>
    if path = [] then []
    else scriptFiles path ++ ((withoutEnding? path).filter shortened).toList.flatMap scriptFiles

/-- What is left of a path names a file, not a directory. -/
def namesFile (path : List Char) : Bool := path.getLast? ≠ some '/'

/-- A module imports by dotted names, any other file by paths. -/
def IsModule (importer : String) : Prop :=
  Path.extension? importer = some "py" ∨ Path.extension? importer = some "pyi"

instance (importer : String) : Decidable (IsModule importer) :=
  inferInstanceAs (Decidable (_ ∨ _))

/-- The files that an import may mean, in the order they are tried. -/
def searchOrder (shortened : List Char → Bool) (importer specifier : String) : List String :=
  if IsModule importer then dottedOrder importer.toList specifier.toList
  else pathOrder shortened importer.toList specifier.toList

/-! ## Looking among files -/

/-- Membership in a list of paths. -/
def known (paths : List String) : FileSet := fun path => paths.contains (String.ofList path)

variable (paths : List String)

/-- Candidates may be looked for as texts or as lists of characters. -/
theorem find?_map_ofList (candidates : List (List Char)) :
    (candidates.map String.ofList).find? (· ∈ paths) =
      (candidates.find? (known paths)).map String.ofList := by
  have sameTest : (fun path => decide (path ∈ paths)) ∘ String.ofList = known paths := by
    funext path
    exact (List.contains_eq_mem _ _).symm
  rw [List.find?_map, sameTest]

theorem map_dottedCandidates (base : List Char) :
    (dottedCandidates base).map String.ofList = moduleFiles base := by
  by_cases atRoot : base = []
  · simp [dottedCandidates, moduleFiles, atRoot]
  · simp [dottedCandidates, moduleFiles, atRoot]

theorem map_scriptCandidates (base : List Char) :
    (scriptCandidates base).map String.ofList = scriptFiles base := by
  simp [scriptCandidates, scriptFiles, scriptEndings]

theorem find?_moduleFiles (base : List Char) :
    (moduleFiles base).find? (· ∈ paths) = (findDotted (known paths) base).map String.ofList := by
  rw [← map_dottedCandidates, find?_map_ofList, findDotted]

theorem find?_scriptFiles (base : List Char) :
    (scriptFiles base).find? (· ∈ paths) = (findScript (known paths) base).map String.ofList := by
  rw [← map_scriptCandidates, find?_map_ofList, findScript]

/-! ## Dotted names -/

theorem enclosing_of_ne {directory : List Char} (inside : directory ≠ []) :
    enclosing directory = directory :: enclosing (parentChars directory) := by
  rw [enclosing, dif_neg inside]

@[simp] theorem enclosing_root : enclosing [] = [[]] := by
  rw [enclosing, dif_pos rfl]

theorem exists_enclosing_eq_cons (directory : List Char) :
    ∃ farther, enclosing directory = directory :: farther := by
  by_cases atRoot : directory = []
  · exact ⟨[], by rw [atRoot, enclosing_root]⟩
  · exact ⟨_, enclosing_of_ne atRoot⟩

theorem dot_not_mem_slashed (name : List Char) : '.' ∉ slashed name := by
  intro member
  rcases List.mem_map.mp member with ⟨c, -, isDot⟩
  split at isDot
  · revert isDot
    decide
  · next noDot => exact noDot isDot

/-- The search goes through the directories around the importer one by one. -/
theorem find?_enclosing (name directory : List Char) :
    ((enclosing directory).flatMap fun around => moduleFiles (below around (slashed name))).find?
        (· ∈ paths) =
      (searchOutwards (known paths) (slashed name) directory).map String.ofList := by
  have here (directory : List Char) :
      (moduleFiles (below directory (slashed name))).find? (· ∈ paths) =
        ((joinChars directory (slashed name)).bind (findDotted (known paths))).map
          String.ofList := by
    rw [find?_moduleFiles, Path.joinChars_of_not_mem (dot_not_mem_slashed name), Option.bind_some]
  induction directory using searchOutwards.induct (known paths) (slashed name) with
  | case1 directory found isFound =>
      rcases exists_enclosing_eq_cons directory with ⟨farther, order⟩
      rw [order, List.flatMap_cons, List.find?_append, here, isFound, searchOutwards, isFound]
      rfl
  | case2 missing =>
      rw [enclosing_root, List.flatMap_cons, List.find?_append, here, missing, searchOutwards,
        missing]
      rfl
  | case3 directory missing inside inductionHypothesis =>
      rw [enclosing_of_ne inside, List.flatMap_cons, List.find?_append, here, missing,
        searchOutwards, missing, dif_neg inside, inductionHypothesis]
      rfl

/-- Going up by levels is going through the directories around. -/
theorem levelsUp_eq (levels : Nat) (directory : List Char) :
    levelsUp levels directory = (enclosing directory)[levels]? := by
  induction levels generalizing directory with
  | zero =>
      by_cases atRoot : directory = []
      · simp [atRoot, levelsUp]
      · simp [enclosing_of_ne atRoot, levelsUp]
  | succ levels inductionHypothesis =>
      rw [levelsUp, Path.joinChars_up]
      by_cases atRoot : directory = []
      · simp [atRoot]
      · simp [atRoot, enclosing_of_ne atRoot, inductionHypothesis]

theorem find?_dottedOrder (importer specifier : List Char) :
    (dottedOrder importer specifier).find? (· ∈ paths) =
      (resolveDotted (known paths) importer specifier).map String.ofList := by
  have behindDots : specifier.drop (specifier.takeWhile (· = '.')).length =
      specifier.dropWhile (· = '.') := by
    calc specifier.drop (specifier.takeWhile (· = '.')).length
        = (specifier.takeWhile (· = '.') ++ specifier.dropWhile (· = '.')).drop
            (specifier.takeWhile (· = '.')).length := by rw [List.takeWhile_append_dropWhile]
      _ = specifier.dropWhile (· = '.') := List.drop_left
  unfold dottedOrder resolveDotted
  dsimp only
  rw [behindDots, ← slashed]
  split
  · exact find?_enclosing paths _ _
  · rw [levelsUp_eq]
    cases (enclosing (parentChars importer))[_ - 1]? with
    | none => rfl
    | some directory =>
        dsimp only
        rw [Option.toList_some, List.flatMap_singleton, find?_moduleFiles,
          Path.joinChars_of_not_mem (dot_not_mem_slashed _)]
        rfl

/-! ## Path specifiers -/

theorem scriptBase?_eq (importer specifier : List Char) :
    scriptBase? importer specifier = named? importer specifier := by
  unfold scriptBase? named?
  rw [Path.joinChars_dropWhile_slash]
  refine if_congr ?_ rfl rfl
  rw [Bool.or_eq_true, Text.startsWith_iff, Text.startsWith_iff]

/-- An ending without another dot stands behind the last one. -/
theorem dropSuffix?_dot_eq_some_iff {path stem ending : List Char} (noDot : '.' ∉ ending) :
    path.dropSuffix? ('.' :: ending) = some stem ↔
      Text.splitLast? '.' path = some (stem, ending) := by
  rw [List.dropSuffix?_eq_some_iff, Text.splitLast?_eq_some_iff]
  simp [noDot]

theorem withoutEnding?_eq_some_iff {path stem : List Char} :
    withoutEnding? path = some stem ↔
      ∃ ending ∈ compiledEndings, Text.splitLast? '.' path = some (stem, ending) := by
  have noDot : ∀ ending ∈ compiledEndings, '.' ∉ ending := by decide
  have search : withoutEnding? path =
      compiledEndings.findSome? fun ending => path.dropSuffix? ('.' :: ending) := rfl
  have takenOff {front : List Char} (found : withoutEnding? path = some front) :
      ∃ ending ∈ compiledEndings, Text.splitLast? '.' path = some (front, ending) := by
    rw [search] at found
    rcases List.exists_of_findSome?_eq_some found with ⟨ending, member, dropped⟩
    exact ⟨ending, member, (dropSuffix?_dot_eq_some_iff (noDot ending member)).mp dropped⟩
  constructor
  · exact takenOff
  · rintro ⟨ending, member, divided⟩
    cases found : withoutEnding? path with
    | none =>
        rw [search, List.findSome?_eq_none_iff] at found
        have dropped := (dropSuffix?_dot_eq_some_iff (noDot ending member)).mpr divided
        rw [found ending member] at dropped
        cases dropped
    | some front =>
        rcases takenOff found with ⟨_, -, again⟩
        rw [divided] at again
        cases again
        rfl

theorem uncompiled?_eq (path : List Char) :
    uncompiled? path = (withoutEnding? path).filter namesFile := by
  apply Option.ext
  intro stem
  rw [Option.filter_eq_some_iff, withoutEnding?_eq_some_iff, uncompiled?]
  cases Text.splitLast? '.' path with
  | none => simp
  | some division =>
      rcases division with ⟨front, last⟩
      by_cases compiled : last ∈ compiledEndings
      · have sameEnd : front = stem → (front.getLast? = some '/' ↔ stem.getLast? = some '/') := by
          rintro rfl
          rfl
        by_cases slash : front.getLast? = some '/'
        · simpa [compiled, slash, namesFile] using sameEnd
        · simpa [compiled, slash, namesFile] using sameEnd
      · simp [compiled]

theorem find?_pathOrder (importer specifier : List Char) :
    (pathOrder namesFile importer specifier).find? (· ∈ paths) =
      (resolveScript (known paths) importer specifier).map String.ofList := by
  rw [pathOrder, resolveScript, scriptBase?_eq]
  cases named? importer specifier with
  | none => rfl
  | some path =>
      dsimp only
      by_cases atRoot : path = []
      · simp [atRoot]
      · rw [if_neg atRoot, if_neg (by simpa using atRoot), List.find?_append, find?_scriptFiles,
          ← uncompiled?_eq]
        cases findScript (known paths) path with
        | some found => rfl
        | none =>
            cases uncompiled? path with
            | none => rfl
            | some stem =>
                rw [Option.toList_some, List.flatMap_singleton, find?_scriptFiles]
                rfl

/-! ## Imports -/

theorem importsDotted_iff (importer : String) :
    importsDotted importer = true ↔ IsModule importer := by
  unfold importsDotted IsModule
  cases Path.extension? importer with
  | none => simp
  | some ending => simp

/-- An import resolves to the first candidate that the repository has, unless that is
the importer. -/
theorem resolve_eq (importer specifier : String) :
    resolve paths importer specifier =
      ((searchOrder namesFile importer specifier).find? (· ∈ paths)).filter (· ≠ importer) := by
  have found : (searchOrder namesFile importer specifier).find? (· ∈ paths) =
      (if importsDotted importer then
          resolveDotted (known paths) importer.toList specifier.toList
        else resolveScript (known paths) importer.toList specifier.toList).map String.ofList := by
    unfold searchOrder
    by_cases isModule : IsModule importer
    · rw [if_pos isModule, if_pos ((importsDotted_iff importer).mpr isModule)]
      exact find?_dottedOrder paths _ _
    · rw [if_neg isModule, if_neg (mt (importsDotted_iff importer).mp isModule)]
      exact find?_pathOrder paths _ _
  have isKnown : (fun path => paths.contains (String.ofList path)) = known paths := rfl
  rw [found]
  unfold resolve
  dsimp only
  rw [isKnown]
  cases (if importsDotted importer then
          resolveDotted (known paths) importer.toList specifier.toList
        else resolveScript (known paths) importer.toList specifier.toList) with
  | none => rfl
  | some path => simp [Option.filter]

theorem resolve_eq_some_iff (importer specifier target : String) :
    resolve paths importer specifier = some target ↔
      (searchOrder namesFile importer specifier).find? (· ∈ paths) = some target ∧
        target ≠ importer := by
  rw [resolve_eq, Option.filter_eq_some_iff, decide_eq_true_eq]

/-- The ending is not taken off when only a directory would be left: from a file of `a`,
`./.js` does not lead to `a/.ts`. -/
theorem resolve_keeps_bare_ending :
    ¬∀ (paths : List String) (importer specifier target : String),
      resolve paths importer specifier = some target ↔
        (searchOrder (fun _ => true) importer specifier).find? (· ∈ paths) = some target ∧
          target ≠ importer := by
  intro always
  have wanted : (searchOrder (fun _ => true) "a/x.js" "./.js").find? (· ∈ ["a/.ts"]) =
      some "a/.ts" := by decide
  have refused : resolve ["a/.ts"] "a/x.js" "./.js" = none := by decide
  have resolved := (always ["a/.ts"] "a/x.js" "./.js" "a/.ts").mpr ⟨wanted, by decide⟩
  rw [refused] at resolved
  cases resolved

end ContextPack.Imports
