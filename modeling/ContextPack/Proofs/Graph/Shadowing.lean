import ContextPack.Proofs.Graph.SearchOrder

namespace ContextPack.Imports

/-!
# Modules that hide others of their name

The search for a dotted name ends at the first file that the repository has.  If that
is the importer, the import leads nowhere, also when a directory farther out has
another module of the name.  Only then is an import lost.
-/

open ContextPack.Path (parentChars below)

/-- The files that may be meant by a dotted name without dots in front, nearest first. -/
def moduleOrder (importer specifier : String) : List String :=
  (enclosing (parentChars importer.toList)).flatMap fun directory =>
    moduleFiles (below directory (slashed specifier.toList))

/-- A file is the nearest of those that a name may mean, and so hides the others. -/
def Hides (paths : List String) (importer specifier : String) : Prop :=
  importer ∈ paths ∧ ∃ nearer farther,
    moduleOrder importer specifier = nearer ++ importer :: farther ∧ ∀ file ∈ nearer, file ∉ paths

theorem hides_iff (paths : List String) (importer specifier : String) :
    Hides paths importer specifier ↔
      (moduleOrder importer specifier).find? (· ∈ paths) = some importer := by
  rw [List.find?_eq_some_iff_append]
  simp [Hides]

theorem searchOrder_of_isModule {importer specifier : String} (isModule : IsModule importer)
    (noDot : specifier.toList.head? ≠ some '.') (shortened : List Char → Bool) :
    searchOrder shortened importer specifier = moduleOrder importer specifier := by
  have noDots : specifier.toList.takeWhile (· = '.') = [] ∧
      specifier.toList.dropWhile (· = '.') = specifier.toList := by
    cases spelled : specifier.toList with
    | nil => exact ⟨rfl, rfl⟩
    | cons c rest =>
        rw [spelled] at noDot
        have other : c ≠ '.' := by simpa using noDot
        exact ⟨by simp [other], by simp [other]⟩
  rw [searchOrder, if_pos isModule, dottedOrder, moduleOrder, noDots.1, noDots.2]
  rfl

/-- A dotted name leads somewhere exactly if a directory around the importer has another
module of the name and the importer does not hide it. -/
theorem exists_resolve_iff (paths : List String) {importer specifier : String}
    (isModule : IsModule importer) (noDot : specifier.toList.head? ≠ some '.') :
    (∃ target, resolve paths importer specifier = some target) ↔
      (∃ directory ∈ enclosing (parentChars importer.toList),
        ∃ file ∈ moduleFiles (below directory (slashed specifier.toList)),
          file ∈ paths ∧ file ≠ importer) ∧
        ¬Hides paths importer specifier := by
  rw [hides_iff, resolve_eq, searchOrder_of_isModule isModule noDot]
  constructor
  · rintro ⟨target, resolved⟩
    rcases Option.filter_eq_some_iff.mp resolved with ⟨found, other⟩
    have notImporter : target ≠ importer := of_decide_eq_true other
    have inPaths : target ∈ paths := by simpa using List.find?_some found
    rcases List.mem_flatMap.mp (List.mem_of_find?_eq_some found) with ⟨directory, around, isFile⟩
    refine ⟨⟨directory, around, target, isFile, inPaths, notImporter⟩, ?_⟩
    rw [found]
    intro same
    exact notImporter (Option.some.inj same)
  · rintro ⟨⟨directory, around, file, isFile, inPaths, -⟩, notHidden⟩
    have listed : file ∈ moduleOrder importer specifier :=
      List.mem_flatMap.mpr ⟨directory, around, isFile⟩
    cases found : (moduleOrder importer specifier).find? (· ∈ paths) with
    | none => exact absurd inPaths (by simpa using List.find?_eq_none.mp found file listed)
    | some target =>
        rw [found] at notHidden
        have notImporter : target ≠ importer := fun same => notHidden (congrArg some same)
        exact ⟨target, Option.filter_eq_some_iff.mpr ⟨rfl, decide_eq_true notImporter⟩⟩

/-- A file may be among those that a name means without hiding the others: a nearer one is
found before it. -/
theorem exists_resolve_of_nearer :
    ∃ target,
      resolve ["app/app/json.py", "app/json.py"] "app/json.py" "app.json" = some target := by
  have isModule : IsModule "app/json.py" := by decide
  have notHidden : ¬Hides ["app/app/json.py", "app/json.py"] "app/json.py" "app.json" := by
    rw [hides_iff]
    decide +kernel
  rw [exists_resolve_iff _ isModule (by decide)]
  refine ⟨⟨"app".toList, by decide +kernel, "app/app/json.py", by decide +kernel, ?_, ?_⟩,
    notHidden⟩
  · exact List.mem_cons_self
  · decide

/-- The file at the root is lost to a file of its name that imports it. -/
theorem nested_file_hides_module :
    ¬∀ (paths : List String) (importer specifier : String), IsModule importer →
      specifier.toList.head? ≠ some '.' →
      (∃ directory ∈ enclosing (parentChars importer.toList),
        ∃ file ∈ moduleFiles (below directory (slashed specifier.toList)),
          file ∈ paths ∧ file ≠ importer) →
      ∃ target, resolve paths importer specifier = some target := by
  intro always
  have refused : resolve ["app/json.py", "json.py"] "app/json.py" "json" = none := by
    decide +kernel
  have resolves := always ["app/json.py", "json.py"] "app/json.py" "json" (by decide) (by decide)
    ⟨[], by decide +kernel, "json.py", by decide +kernel, by decide, by decide⟩
  rcases resolves with ⟨target, resolved⟩
  rw [refused] at resolved
  cases resolved

end ContextPack.Imports
