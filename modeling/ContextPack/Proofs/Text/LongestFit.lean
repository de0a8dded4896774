import ContextPack.Proofs.Text.Truncation

namespace ContextPack
namespace Tokens

/-!
# What truncation keeps

A text that is too expensive is cut to the longest part from its start that
fits, and this part once more after its last line end.  A line end that is the
first character does not count: nothing but an empty line would be left.

Texts are read here as characters.  As bytes, a part from the start ends on a
border between characters, since what follows it is the form of a text again.
-/

variable {counter : TokenCounter} {limit : Nat} {text : List Char}

/-! ## The longest part that fits -/

/-- The longest part of a text, from its start, that costs at most a limit. -/
structure IsLongestFitting (counter : TokenCounter) (limit : Nat) (text longest : List Char) :
    Prop where
  isPrefix : longest <+: text
  fits : counter longest ≤ limit
  longest : ∀ other, other <+: text → counter other ≤ limit → other.length ≤ longest.length

theorem isLongestFitting_fitting (steady : counter.IsSteady) (limit : Nat) (text : List Char) :
    IsLongestFitting counter limit text (fitting counter limit text) where
  isPrefix := fitting_isPrefix counter limit text
  fits := counter_fitting_le counter steady limit text
  longest _ isPrefix fits := (isPrefix_fitting counter steady limit isPrefix fits).length_le

/-! ## The cut after the last line end -/

/-- A text is cut just after its last line end, or not at all if no line end
stands behind its first character. -/
inductive IsCutAfterLine : List Char → List Char → Prop
  | behind (line rest : List Char) (nonempty : line ≠ []) (last : '\n' ∉ rest) :
      IsCutAfterLine (line ++ '\n' :: rest) (line ++ ['\n'])
  | uncut (text : List Char) (none : '\n' ∉ text.tail) : IsCutAfterLine text text

theorem throughLineEnd_eq_nil (none : '\n' ∉ text) : throughLineEnd text = [] := by
  refine List.rdropWhile_eq_nil_iff.mpr fun c member => ?_
  rw [bne_iff_ne]
  exact ne_of_mem_of_not_mem member none

theorem throughLineEnd_of_last (line : List Char) {rest : List Char} (last : '\n' ∉ rest) :
    throughLineEnd (line ++ '\n' :: rest) = line ++ ['\n'] := by
  rw [List.append_cons, throughLineEnd_append, if_pos (throughLineEnd_eq_nil last), throughLineEnd]
  exact List.rdropWhile_concat_neg _ line '\n' (by decide)

/-- A text without a line end, or the parts of one at its last line end. -/
theorem exists_last_lineEnd (text : List Char) :
    '\n' ∉ text ∨ ∃ line rest, text = line ++ '\n' :: rest ∧ '\n' ∉ rest := by
  induction text with
  | nil => exact Or.inl List.not_mem_nil
  | cons first others inductionHypothesis =>
      rcases inductionHypothesis with none | ⟨line, rest, rfl, last⟩
      · by_cases isEnd : first = '\n'
        · exact Or.inr ⟨[], others, by rw [isEnd, List.nil_append], none⟩
        · exact Or.inl (List.not_mem_cons_of_ne_of_not_mem (Ne.symm isEnd) none)
      · exact Or.inr ⟨first :: line, rest, rfl, last⟩

theorem isCutAfterLine_wholeLines (text : List Char) : IsCutAfterLine text (wholeLines text) := by
  rcases exists_last_lineEnd text with none | ⟨line, rest, rfl, last⟩
  · rw [wholeLines_eq, throughLineEnd_eq_nil none, if_neg (by decide)]
    exact .uncut text fun behind => none (List.mem_of_mem_tail behind)
  · rw [wholeLines_eq, throughLineEnd_of_last line last]
    cases line with
    | nil =>
        rw [if_neg (by decide)]
        exact .uncut _ last
    | cons first others =>
        rw [if_pos (by simp)]
        exact .behind _ rest (List.cons_ne_nil first others) last

/-! ## Both together -/

/-- The byte at which a part from the start ends is a border between characters. -/
theorem isValid_rawEndPos {front : List Char} (continued : front <+: text) :
    (String.ofList front).rawEndPos.IsValid (String.ofList text) := by
  rcases continued with ⟨rest, rfl⟩
  exact String.Pos.Raw.isValid_iff_exists_append.mpr
    ⟨String.ofList front, String.ofList rest, String.ofList_append, rfl⟩

/-- Truncation keeps a part from the start of a text that ends between two
characters and fits.  A text that fits is kept whole; of any other one the
longest part that fits is taken and cut after its last line end.  A higher limit
keeps everything that a lower one keeps. -/
theorem truncate_keeps_longest_fit (steady : counter.IsSteady) (text : List Char) :
    (∀ limit,
      truncate counter limit text <+: text ∧
      (String.ofList (truncate counter limit text)).rawEndPos.IsValid (String.ofList text) ∧
      counter (truncate counter limit text) ≤ limit ∧
      (counter text ≤ limit → truncate counter limit text = text) ∧
      (limit < counter text → ∃ longest, IsLongestFitting counter limit text longest ∧
        IsCutAfterLine longest (truncate counter limit text))) ∧
    ∀ small large, small ≤ large →
      truncate counter small text <+: truncate counter large text := by
  refine ⟨fun limit => ?_, fun small large ordered => truncate_mono counter steady ordered text⟩
  have isPrefix := truncate_isPrefix counter limit text
  refine ⟨isPrefix, isValid_rawEndPos isPrefix, counter_truncate_le counter steady limit text,
    truncate_of_le, fun exceeds => ?_⟩
  rw [truncate_of_lt exceeds]
  exact ⟨_, isLongestFitting_fitting steady limit text, isCutAfterLine_wholeLines _⟩

/-- Letters of two bytes: five bytes pay for the first line and one letter of
the second, which is given up again. -/
theorem truncate_keeps_longest_fit_of_accents :
    TokenCounter.IsSteady byteCount ∧ 5 < byteCount "é\nñandú".toList ∧
      truncate byteCount 5 "é\nñandú".toList = "é\n".toList ∧
      ∃ longest, IsLongestFitting byteCount 5 "é\nñandú".toList longest ∧
        IsCutAfterLine longest "é\n".toList := by
  have exceeds : 5 < byteCount "é\nñandú".toList := by decide
  have kept : truncate byteCount 5 "é\nñandú".toList = "é\n".toList := by decide +kernel
  rcases (truncate_keeps_longest_fit byteCount_isSteady "é\nñandú".toList).1 5 with
    ⟨-, -, -, -, cut⟩
  rw [kept] at cut
  exact ⟨byteCount_isSteady, exceeds, kept, cut exceeds⟩

end Tokens
end ContextPack
