import ContextPack.Proofs.Text.Order
import ContextPack.Proofs.Text.Pieces
import ContextPack.Workspace

namespace ContextPack

/-!
# Files directly in a directory

A directory is listed by the names of its files, and each file goes by its repository path.
In the path of a file with a plain name the directory and the name can be told apart again.
A backslash in a name is read as a slash, so that such a file may go by the path of another.
-/

namespace Path

/-! ## Normal paths -/

theorem dropHere_of_not_prefix {text : List Char} (front : ¬['.', '/'] <+: text) :
    dropHere text = text := by
  rw [dropHere.eq_def]
  split
  · next rest => exact absurd (List.prefix_append ['.', '/'] rest) front
  · rfl

theorem normalizeChars_of_normal {text : List Char} (noBackslash : '\\' ∉ text)
    (front : ¬['.', '/'] <+: text) : normalizeChars text = text := by
  have same : (text.map fun c => if c = '\\' then '/' else c) = text := by
    conv_rhs => rw [← List.map_id text]
    refine List.map_congr_left fun c isIn => if_neg ?_
    rintro rfl
    exact noBackslash isIn
  rw [normalizeChars, same, dropHere_of_not_prefix front]

theorem parent_append (before : List Char) {name : List Char} (noSlash : '/' ∉ name) :
    parent (String.ofList (before ++ '/' :: name)) = String.ofList before := by
  rw [parent, parentChars, String.toList_ofList, Text.splitLast?_append_cons noSlash]

theorem parent_of_not_mem {name : List Char} (noSlash : '/' ∉ name) :
    parent (String.ofList name) = "" := by
  rw [parent, parentChars, String.toList_ofList, Text.splitLast?_eq_none_iff.mpr noSlash]

end Path

namespace Entry

theorem mem_fileNames (entry : Entry) (name : String) :
    name ∈ entry.fileNames ↔ ∃ bytes executable, (name, file bytes executable) ∈ entry.children := by
  rw [fileNames, List.mem_filterMap]
  constructor
  · rintro ⟨⟨other, child⟩, isChild, isFile⟩
    cases child <;> cases isFile
    exact ⟨_, _, isChild⟩
  · rintro ⟨bytes, executable, isChild⟩
    exact ⟨_, isChild, rfl⟩

theorem fileNames_sublist (entry : Entry) :
    entry.fileNames.Sublist (entry.children.map Prod.fst) := by
  rw [fileNames]
  induction entry.children with
  | nil => exact .slnil
  | cons child others inductionHypothesis =>
      rcases child with ⟨name, child⟩
      cases child with
      | file => exact inductionHypothesis.cons_cons name
      | _ => exact inductionHypothesis.cons name

end Entry

namespace Workspace

variable {workspace : Workspace} {directory name : String}

/-! ## Listings -/

/-- A file stands directly in a directory. -/
def HasFile (workspace : Workspace) (directory name : String) : Prop :=
  ∃ place entry bytes executable,
    workspace.tree.resolve? (Entry.segments directory) = some (place, entry) ∧
      (name, .file bytes executable) ∈ entry.children

/-- In a directory each name is given once. -/
def IsDistinct (workspace : Workspace) (directory : String) : Prop :=
  ∀ place entry, workspace.tree.resolve? (Entry.segments directory) = some (place, entry) →
    (entry.children.map Prod.fst).Nodup

/-- The names of the files directly in a directory, ascending. -/
structure IsListing (workspace : Workspace) (directory : String) (names : List String) : Prop where
  mem_iff : ∀ name, name ∈ names ↔ workspace.HasFile directory name
  ascending : names.Pairwise (· < ·)

theorem isDistinct_of_resolve {place : List String} {entry : Entry}
    (resolved : workspace.tree.resolve? (Entry.segments directory) = some (place, entry))
    (distinct : (entry.children.map Prod.fst).Nodup) : workspace.IsDistinct directory := by
  intro place' entry' resolved'
  cases resolved.symm.trans resolved'
  exact distinct

theorem exists_isListing (distinct : workspace.IsDistinct directory) :
    ∃ names, workspace.IsListing directory names ∧
      workspace.filesIn directory = names.map (pathIn directory) := by
  cases resolved : workspace.tree.resolve? (Entry.segments directory) with
  | none =>
      refine ⟨[], ⟨fun name => ⟨nofun, ?_⟩, .nil⟩, by rw [filesIn, resolved]; rfl⟩
      rintro ⟨place, entry, bytes, executable, found, -⟩
      rw [resolved] at found
      cases found
  | some found =>
      rcases found with ⟨place, entry⟩
      have filesIn_eq : workspace.filesIn directory =
          (entry.fileNames.mergeSort Text.le).map (pathIn directory) := by
        rw [filesIn, resolved]
      refine ⟨_, ⟨fun name => ?_, ?_⟩, filesIn_eq⟩
      · rw [List.mem_mergeSort, Entry.mem_fileNames]
        constructor
        · rintro ⟨bytes, executable, isChild⟩
          exact ⟨place, entry, bytes, executable, resolved, isChild⟩
        · rintro ⟨place', entry', bytes, executable, resolved', isChild⟩
          cases resolved.symm.trans resolved'
          exact ⟨bytes, executable, isChild⟩
      · have nodup := (distinct place entry resolved).sublist entry.fileNames_sublist
        have different := (List.mergeSort_perm entry.fileNames Text.le).nodup_iff.mpr nodup
        exact (Text.pairwise_mergeSort_le entry.fileNames).and different |>.imp
          fun ⟨le, ne⟩ => lt_of_le_of_ne le ne

/-! ## Plain names -/

/-- Paths of the directory are not spelled otherwise in the repository. -/
structure IsPlain (workspace : Workspace) (directory : String) : Prop where
  directory_noBackslash : '\\' ∉ directory.toList
  directory_front : ¬['.', '/'] <+: directory.toList ++ ['/']
  noSlash : ∀ name, workspace.HasFile directory name → '/' ∉ name.toList
  noBackslash : ∀ name, workspace.HasFile directory name → '\\' ∉ name.toList

theorem isPlain_of_resolve {place : List String} {entry : Entry}
    (resolved : workspace.tree.resolve? (Entry.segments directory) = some (place, entry))
    (noBackslash : '\\' ∉ directory.toList) (front : ¬['.', '/'] <+: directory.toList ++ ['/'])
    (plain : ∀ child ∈ entry.children, '/' ∉ child.1.toList ∧ '\\' ∉ child.1.toList) :
    workspace.IsPlain directory := by
  have isPlain (name : String) (hasFile : workspace.HasFile directory name) :
      '/' ∉ name.toList ∧ '\\' ∉ name.toList := by
    rcases hasFile with ⟨place', entry', bytes, executable, resolved', isChild⟩
    cases resolved.symm.trans resolved'
    exact plain _ isChild
  exact ⟨noBackslash, front, fun name hasFile => (isPlain name hasFile).1,
    fun name hasFile => (isPlain name hasFile).2⟩

/-- The path of a file with a plain name is the name below the directory. -/
theorem IsPlain.pathIn_eq (plain : workspace.IsPlain directory)
    (hasFile : workspace.HasFile directory name) :
    pathIn directory name = String.ofList
      (if directory = "" then name.toList else directory.toList ++ '/' :: name.toList) := by
  have noSlash := plain.noSlash name hasFile
  have noBackslash := plain.noBackslash name hasFile
  rw [pathIn, Path.normalize]
  by_cases atRoot : directory = ""
  · have front : ¬['.', '/'] <+: name.toList := fun isFront =>
      noSlash (isFront.subset (by simp))
    subst atRoot
    simp [Path.normalizeChars_of_normal noBackslash front]
  · have nonempty : directory.toList ≠ [] := by simpa using atRoot
    have absent : '\\' ∉ directory.toList ++ '/' :: name.toList := by
      simp [plain.directory_noBackslash, noBackslash]
    have front : ¬['.', '/'] <+: directory.toList ++ '/' :: name.toList := by
      intro isFront
      refine plain.directory_front (List.prefix_of_prefix_length_le isFront ⟨name.toList, ?_⟩ ?_)
      · rw [List.append_assoc, List.singleton_append]
      · have := List.length_pos_iff.mpr nonempty
        simp only [List.length_append, List.length_cons, List.length_nil]
        omega
    simp [atRoot, Path.normalizeChars_of_normal absent front]

theorem IsPlain.parent_pathIn (plain : workspace.IsPlain directory)
    (hasFile : workspace.HasFile directory name) :
    Path.parent (pathIn directory name) = directory := by
  have noSlash := plain.noSlash name hasFile
  rw [plain.pathIn_eq hasFile]
  split
  · next atRoot => rw [Path.parent_of_not_mem noSlash, atRoot]
  · rw [Path.parent_append _ noSlash, String.ofList_toList]

theorem IsPlain.name_eq {other : String} (plain : workspace.IsPlain directory)
    (hasFile : workspace.HasFile directory name) (hasOther : workspace.HasFile directory other)
    (same : pathIn directory name = pathIn directory other) : name = other := by
  rw [plain.pathIn_eq hasFile, plain.pathIn_eq hasOther, String.ofList_inj] at same
  split at same
  · exact String.toList_inj.mp same
  · simpa [String.toList_inj] using same

end Workspace
end ContextPack
