import ContextPack.Proofs.Text.Pieces
import Mathlib

namespace ContextPack.Text

/-!
# Small letters

Capitals are made small and nothing else is changed, so a character that is no letter stands
where it stood.  A text is therefore cut at the same places before and after.
-/

theorem toLower_of_not_isAlpha {c : Char} (noLetter : ¬c.isAlpha = true) : c.toLower = c :=
  Char.toLower_eq_of_not_isUpper fun upper => noLetter (by rw [Char.isAlpha, upper, Bool.true_or])

/-- No capital becomes a character that is no letter. -/
theorem toLower_eq_iff {c other : Char} (noLetter : ¬other.isAlpha = true) :
    c.toLower = other ↔ c = other := by
  constructor
  · rintro rfl
    rw [Char.isAlpha_toLower_eq_isAlpha] at noLetter
    exact (toLower_of_not_isAlpha noLetter).symm
  · rintro rfl
    exact toLower_of_not_isAlpha noLetter

theorem mem_lowerAscii_iff {c : Char} (noLetter : ¬c.isAlpha = true) {text : List Char} :
    c ∈ lowerAscii text ↔ c ∈ text := by
  rw [lowerAscii, List.mem_map]
  simp only [toLower_eq_iff noLetter, exists_eq_right]

@[simp] theorem lowerAscii_lowerAscii (text : List Char) :
    lowerAscii (lowerAscii text) = lowerAscii text := by
  rw [lowerAscii, lowerAscii, List.map_map]
  exact List.map_congr_left fun c _ => Char.toLower_toLower_eq_toLower c

/-- A text is cut at the same places whether letters are made small before or after, if
the separator is no letter. -/
theorem pieces_lowerAscii {separator : Char} (noLetter : ¬separator.isAlpha = true)
    (text : List Char) :
    pieces separator (lowerAscii text) = (pieces separator text).map lowerAscii := by
  have stays : [separator].map Char.toLower = [separator] :=
    congrArg (fun c => [c]) (toLower_of_not_isAlpha noLetter)
  have foreign : ∀ piece ∈ (pieces separator text).map lowerAscii, separator ∉ piece := by
    intro small member
    rcases List.mem_map.mp member with ⟨piece, isPiece, rfl⟩
    exact (mem_lowerAscii_iff noLetter).not.mpr (not_mem_of_mem_pieces piece isPiece)
  calc
    pieces separator (lowerAscii text)
        = pieces separator (lowerAscii (joinWith [separator] (pieces separator text))) := by
          rw [joinWith_pieces]
    _ = pieces separator (joinWith [separator] ((pieces separator text).map lowerAscii)) := by
          rw [lowerAscii, map_joinWith, stays]
          rfl
    _ = (pieces separator text).map lowerAscii :=
          pieces_joinWith (by simpa using pieces_ne_nil separator text) foreign

end ContextPack.Text
