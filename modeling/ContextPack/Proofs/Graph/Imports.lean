import ContextPack.Graph.Imports

namespace ContextPack.Imports

/-!
# Resolved imports are files of the repository

Whatever way an import takes, the file that it resolves to was asked for among
the known ones.
-/

variable {files : FileSet}

theorem known_of_findScript {base found : List Char} (isFound : findScript files base = some found) :
    files found = true :=
  List.find?_some isFound

theorem known_of_findDotted {base found : List Char} (isFound : findDotted files base = some found) :
    files found = true :=
  List.find?_some isFound

theorem known_of_resolveScript {importer specifier found : List Char}
    (isFound : resolveScript files importer specifier = some found) : files found = true := by
  unfold resolveScript at isFound
  split at isFound
  · cases isFound
  · next base _ =>
      split at isFound
      · cases isFound
      · split at isFound
        · next first atBase =>
            cases isFound
            exact known_of_findScript atBase
        · split at isFound
          · exact known_of_findScript isFound
          · cases isFound

theorem known_of_searchOutwards {name directory found : List Char}
    (isFound : searchOutwards files name directory = some found) : files found = true := by
  have known_of_here {directory found : List Char}
      (here : (Path.joinChars directory name).bind (findDotted files) = some found) :
      files found = true := by
    rcases Option.bind_eq_some_iff.mp here with ⟨base, -, inBase⟩
    exact known_of_findDotted inBase
  induction directory using searchOutwards.induct files name with
  | case1 directory found' here =>
      rw [searchOutwards, here] at isFound
      cases isFound
      exact known_of_here here
  | case2 missing =>
      rw [searchOutwards, missing] at isFound
      cases isFound
  | case3 directory missing below inductionHypothesis =>
      rw [searchOutwards, missing] at isFound
      simp only [below, dite_false] at isFound
      exact inductionHypothesis isFound

theorem known_of_resolveDotted {importer specifier found : List Char}
    (isFound : resolveDotted files importer specifier = some found) : files found = true := by
  unfold resolveDotted at isFound
  simp only at isFound
  split at isFound
  · exact known_of_searchOutwards isFound
  · split at isFound
    · cases isFound
    · rcases Option.bind_eq_some_iff.mp isFound with ⟨base, -, inBase⟩
      exact known_of_findDotted inBase

/-- An import resolves to a file of the repository and never to the importer. -/
theorem resolve_mem {paths : List String} {importer specifier target : String}
    (resolved : resolve paths importer specifier = some target) :
    target ∈ paths ∧ target ≠ importer := by
  unfold resolve at resolved
  simp only at resolved
  split at resolved
  · next path found =>
      have known : paths.contains (String.ofList path) = true := by
        split at found
        · exact known_of_resolveDotted found
        · exact known_of_resolveScript found
      split at resolved
      · cases resolved
      · next other =>
          cases resolved
          exact ⟨List.contains_iff_mem.mp known, other⟩
  · cases resolved

end ContextPack.Imports
