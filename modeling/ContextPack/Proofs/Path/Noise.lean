import ContextPack.Path.Noise
import ContextPack.Proofs.Path.Joining
import ContextPack.Proofs.Text.Case

namespace ContextPack.Path

/-!
# Vendored files by their directories

A path is searched as one text, with a slash in front, for a directory's name between two
slashes.  No such name holds a slash, so what is found is a whole segment, and never the last
one: a file goes by the directories that it lies in and not by its own name.
-/

open Text (pieces lowerAscii)

/-- A segment that names a directory of other people's code, in capitals or not. -/
def IsVendor (segment : List Char) : Prop :=
  String.ofList (lowerAscii segment) ∈ vendorDirectories

instance : DecidablePred IsVendor := fun segment =>
  inferInstanceAs (Decidable (String.ofList (lowerAscii segment) ∈ vendorDirectories))

theorem slash_not_mem_of_mem_vendorDirectories {directory : String}
    (listed : directory ∈ vendorDirectories) : '/' ∉ directory.toList := by
  have none : ∀ listed ∈ vendorDirectories, '/' ∉ listed.toList := by decide
  exact none directory listed

theorem isVendored_iff (path : String) :
    isVendored path = true ↔ ∃ segment ∈ (segments path).dropLast, IsVendor segment := by
  have cut : (pieces '/' (lowerAscii path.toList)).dropLast =
      (segments path).dropLast.map lowerAscii := by
    rw [Text.pieces_lowerAscii (by decide), List.map_dropLast]
    rfl
  have stands {directory : String} (listed : directory ∈ vendorDirectories) :
      Text.holds ('/' :: directory.toList ++ ['/']) ('/' :: lowerAscii path.toList) = true ↔
        ∃ segment ∈ (segments path).dropLast, lowerAscii segment = directory.toList := by
    rw [Text.holds_iff, List.cons_append,
      Text.between_isInfix_iff (slash_not_mem_of_mem_vendorDirectories listed), cut, List.mem_map]
  rw [isVendored, List.any_eq_true]
  constructor
  · rintro ⟨directory, listed, found⟩
    rcases (stands listed).mp found with ⟨segment, inside, small⟩
    refine ⟨segment, inside, ?_⟩
    rwa [IsVendor, small, String.ofList_toList]
  · rintro ⟨segment, inside, isVendor⟩
    refine ⟨_, isVendor, (stands isVendor).mpr ⟨segment, inside, ?_⟩⟩
    rw [String.toList_ofList]

/-! ## Paths below a directory -/

theorem segments_below (directory rest : String) :
    segments (directory ++ "/" ++ rest) = segments directory ++ segments rest := by
  rw [segments, toList_slash, Text.pieces_append_cons]
  rfl

theorem segments_of_not_mem {name : String} (noSlash : '/' ∉ name.toList) :
    segments name = [name.toList] :=
  Text.pieces_of_not_mem noSlash

/-- Whatever a file in a directory is called, only the directory counts. -/
theorem isVendored_file_iff (directory : String) {name : String} (noSlash : '/' ∉ name.toList) :
    isVendored (directory ++ "/" ++ name) = true ↔
      ∃ segment ∈ segments directory, IsVendor segment := by
  rw [isVendored_iff, segments_below, segments_of_not_mem noSlash, List.dropLast_concat]

theorem isVendored_below {directory : String} {segment : List Char}
    (inside : segment ∈ segments directory) (isVendor : IsVendor segment) (rest : String) :
    isVendored (directory ++ "/" ++ rest) = true := by
  have behind : segments rest ≠ [] := Text.pieces_ne_nil '/' rest.toList
  refine (isVendored_iff _).mpr ⟨segment, ?_, isVendor⟩
  rw [segments_below, List.dropLast_append_of_ne_nil behind]
  exact List.mem_append_left _ inside

/-- A path leads through other people's code exactly if a segment before its last one names
such a directory.  So a name that only holds such a word makes no path noise, another name for
the file changes nothing, and neither does what stands behind the directory. -/
theorem vendored_by_directory (path : String) :
    (isVendored path = true ↔ ∃ segment ∈ (segments path).dropLast, IsVendor segment) ∧
    ((∀ segment ∈ (segments path).dropLast, ¬IsVendor segment) →
      isNoise path = (isLockFile path || isMinified path)) ∧
    (∀ name other, '/' ∉ name.toList → '/' ∉ other.toList →
      isVendored name = false ∧
      isVendored (path ++ "/" ++ name) = isVendored (path ++ "/" ++ other)) ∧
    ((∃ segment ∈ segments path, IsVendor segment) →
      ∀ rest, isVendored (path ++ "/" ++ rest) = true) := by
  refine ⟨isVendored_iff path, fun noVendor => ?_, fun name other noSlash alsoNoSlash => ⟨?_, ?_⟩, ?_⟩
  · have notVendored : isVendored path = false := by
      rw [← Bool.not_eq_true, isVendored_iff]
      rintro ⟨segment, inside, isVendor⟩
      exact noVendor segment inside isVendor
    rw [isNoise, notVendored, Bool.or_false]
  · rw [← Bool.not_eq_true, isVendored_iff, segments_of_not_mem noSlash]
    rintro ⟨segment, inside, -⟩
    cases inside
  · rw [Bool.eq_iff_iff, isVendored_file_iff path noSlash, isVendored_file_iff path alsoNoSlash]
  · rintro ⟨segment, inside, isVendor⟩ rest
    exact isVendored_below inside isVendor rest

/-- Words that are only part of a name are of no account, a directory in capitals is, and a
slash at the end makes the last name that of a directory. -/
theorem vendored_by_directory_of_words :
    isNoise "src/vendor_client.py" = false ∧ isVendored "lib/my_vendors/vendor" = false ∧
      isVendored "lib//Vendor/" = true ∧
      isVendored ("lib//Vendor" ++ "/" ++ "vendored/x.go") = true := by
  have client := vendored_by_directory "src/vendor_client.py"
  have files := vendored_by_directory "lib/my_vendors"
  have vendor := vendored_by_directory "lib//Vendor"
  refine ⟨?_, ?_, ?_, ?_⟩
  · rw [client.2.1 (by decide +kernel)]
    decide +kernel
  · have renamed := (files.2.2.1 "vendor" "x" (by decide) (by decide)).2
    exact renamed.trans (by decide +kernel)
  · exact vendor.2.2.2 ⟨"Vendor".toList, by decide +kernel, by decide +kernel⟩ ""
  · exact vendor.2.2.2 ⟨"Vendor".toList, by decide +kernel, by decide +kernel⟩ "vendored/x.go"

end ContextPack.Path
