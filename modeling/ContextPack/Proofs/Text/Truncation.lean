import ContextPack.Text.Tokens
import Mathlib.Data.List.DropRight

namespace ContextPack

/-!
# Truncation to a price

A text is cut in two movements: the longest part from its start that the limit
pays for, and of that the whole lines.  The first is found by bisection, which
is only right for a counter that never charges more for less.  `IsSteady`
states that requirement once; both counters of the library meet it.

The second movement may give up characters again.  It still never overtakes:
what is kept of a shorter part is always the start of what is kept of a longer
one, so a higher limit keeps everything that a lower one kept.
-/

/-- What budgeting relies on in a counter.  Nothing is said about texts that
do not continue one another. -/
structure TokenCounter.IsSteady (counter : TokenCounter) : Prop where
  empty : counter [] = 0
  monotone : ∀ {front text : List Char}, front <+: text → counter front ≤ counter text

namespace Tokens

theorem estimate_isSteady : TokenCounter.IsSteady estimate where
  empty := rfl
  monotone := by
    intro front text continued
    have shorter := continued.length_le
    exact Nat.div_le_div_right (by omega)

theorem byteCount_append (front rest : List Char) :
    byteCount (front ++ rest) = byteCount front + byteCount rest := by
  have shift : ∀ (text : List Char) (start : Nat),
      text.foldl (fun total c => total + c.utf8Size) start = start + byteCount text := by
    intro text
    induction text with
    | nil => exact fun start => rfl
    | cons c text inductionHypothesis =>
        intro start
        rw [byteCount, List.foldl_cons, List.foldl_cons, inductionHypothesis,
          inductionHypothesis (0 + c.utf8Size)]
        omega
  rw [byteCount, List.foldl_append, shift rest, ← byteCount]

theorem byteCount_isSteady : TokenCounter.IsSteady byteCount where
  empty := rfl
  monotone := by
    rintro front text ⟨rest, rfl⟩
    rw [byteCount_append]
    exact Nat.le_add_right _ _

/-! ## The longest part that fits -/

/-- Bisection keeps its two promises: the length it ends with fits, and no
longer part does.  The premises are the invariant of the search interval. -/
theorem fittingLength_spec (counter : TokenCounter) (steady : counter.IsSteady) (limit : Nat)
    (text : List Char) (low high : Nat) (ordered : low ≤ high)
    (fits : counter (text.take low) ≤ limit)
    (exceeds : ∀ length, high < length → length ≤ text.length →
      limit < counter (text.take length)) :
    counter (text.take (fittingLength counter limit text low high)) ≤ limit ∧
      ∀ length, fittingLength counter limit text low high < length → length ≤ text.length →
        limit < counter (text.take length) := by
  induction low, high using fittingLength.induct counter limit text with
  | case1 low high gap middle middleFits inductionHypothesis =>
      rw [fittingLength, dif_pos gap, if_pos middleFits]
      exact inductionHypothesis (by omega) middleFits exceeds
  | case2 low high gap middle middleExceeds inductionHypothesis =>
      rw [fittingLength, dif_pos gap, if_neg middleExceeds]
      refine inductionHypothesis (by omega) fits fun length longer inside => ?_
      have continued : text.take middle <+: text.take length :=
        List.take_prefix_take_left (by omega)
      exact Nat.lt_of_lt_of_le (Nat.lt_of_not_le middleExceeds) (steady.monotone continued)
  | case3 low high noGap =>
      rw [fittingLength, dif_neg noGap]
      exact ⟨fits, fun length longer => exceeds length (by omega)⟩

/-- Without that requirement bisection still ends where it began or at a length
that fits. -/
theorem fittingLength_eq_or_fits (counter : TokenCounter) (limit : Nat) (text : List Char)
    (low high : Nat) :
    fittingLength counter limit text low high = low ∨
      counter (text.take (fittingLength counter limit text low high)) ≤ limit := by
  induction low, high using fittingLength.induct counter limit text with
  | case1 low high gap middle middleFits inductionHypothesis =>
      rw [fittingLength, dif_pos gap, if_pos middleFits]
      refine Or.inr ?_
      rcases inductionHypothesis with same | fits
      · rw [same]
        exact middleFits
      · exact fits
  | case2 low high gap middle middleExceeds inductionHypothesis =>
      rw [fittingLength, dif_pos gap, if_neg middleExceeds]
      exact inductionHypothesis
  | case3 low high noGap =>
      rw [fittingLength, dif_neg noGap]
      exact Or.inl rfl

/-- The part that truncation starts from. -/
def fitting (counter : TokenCounter) (limit : Nat) (text : List Char) : List Char :=
  text.take (fittingLength counter limit text 0 text.length)

theorem fitting_isPrefix (counter : TokenCounter) (limit : Nat) (text : List Char) :
    fitting counter limit text <+: text :=
  List.take_prefix _ _

theorem fitting_spec (counter : TokenCounter) (steady : counter.IsSteady) (limit : Nat)
    (text : List Char) :
    counter (fitting counter limit text) ≤ limit ∧
      ∀ length, fittingLength counter limit text 0 text.length < length → length ≤ text.length →
        limit < counter (text.take length) := by
  refine fittingLength_spec counter steady limit text 0 text.length (Nat.zero_le _) ?_ ?_
  · rw [List.take_zero, steady.empty]
    exact Nat.zero_le limit
  · exact fun length longer inside => absurd inside (Nat.not_le_of_lt longer)

theorem counter_fitting_le (counter : TokenCounter) (steady : counter.IsSteady) (limit : Nat)
    (text : List Char) : counter (fitting counter limit text) ≤ limit :=
  (fitting_spec counter steady limit text).1

/-- Whatever part from the start the limit pays for lies within `fitting`. -/
theorem isPrefix_fitting (counter : TokenCounter) (steady : counter.IsSteady) (limit : Nat)
    {front text : List Char} (continued : front <+: text) (fits : counter front ≤ limit) :
    front <+: fitting counter limit text := by
  refine List.prefix_of_prefix_length_le continued (fitting_isPrefix counter limit text) ?_
  by_contra longer
  have inside := continued.length_le
  have beyond : fittingLength counter limit text 0 text.length < front.length := by
    rw [fitting, List.length_take] at longer
    omega
  have exceeds := (fitting_spec counter steady limit text).2 front.length beyond inside
  rw [← List.prefix_iff_eq_take.mp continued] at exceeds
  exact absurd fits (Nat.not_le_of_lt exceeds)

/-! ## Whole lines -/

/-- A text up to and with its last line end, empty if there is none. -/
def throughLineEnd (text : List Char) : List Char := text.rdropWhile (· != '\n')

theorem wholeLines_eq (text : List Char) :
    wholeLines text = if 1 < (throughLineEnd text).length then throughLineEnd text else text :=
  rfl

theorem throughLineEnd_isPrefix (text : List Char) : throughLineEnd text <+: text :=
  List.rdropWhile_prefix _ text

theorem throughLineEnd_append (front rest : List Char) :
    throughLineEnd (front ++ rest) =
      if throughLineEnd rest = [] then throughLineEnd front else front ++ throughLineEnd rest := by
  rw [throughLineEnd, List.rdropWhile, List.reverse_append, List.dropWhile_append]
  by_cases dropped : rest.reverse.dropWhile (· != '\n') = []
  · simp [throughLineEnd, List.rdropWhile, dropped]
  · simp [throughLineEnd, List.rdropWhile, dropped]

theorem wholeLines_isPrefix (text : List Char) : wholeLines text <+: text := by
  rw [wholeLines_eq]
  split
  · exact throughLineEnd_isPrefix text
  · exact List.prefix_rfl

/-- Giving up an unfinished line never loses what a shorter part keeps: a line
end in the rest keeps the whole shorter part, and without one the last line
end is the same for both. -/
theorem wholeLines_mono {front text : List Char} (continued : front <+: text) :
    wholeLines front <+: wholeLines text := by
  rcases continued with ⟨rest, rfl⟩
  rw [wholeLines_eq (front ++ rest), throughLineEnd_append]
  by_cases noEnd : throughLineEnd rest = []
  · rw [if_pos noEnd, wholeLines_eq]
    split
    · exact List.prefix_rfl
    · exact List.prefix_append front rest
  · rw [if_neg noEnd]
    split
    · exact (wholeLines_isPrefix front).trans (List.prefix_append front _)
    · exact (wholeLines_isPrefix front).trans (List.prefix_append front rest)

/-! ## Both movements -/

theorem truncate_of_le {counter : TokenCounter} {limit : Nat} {text : List Char}
    (fits : counter text ≤ limit) : truncate counter limit text = text :=
  if_pos fits

theorem truncate_of_lt {counter : TokenCounter} {limit : Nat} {text : List Char}
    (exceeds : limit < counter text) :
    truncate counter limit text = wholeLines (fitting counter limit text) :=
  if_neg (Nat.not_le_of_lt exceeds)

theorem truncate_isPrefix (counter : TokenCounter) (limit : Nat) (text : List Char) :
    truncate counter limit text <+: text := by
  rcases Nat.lt_or_ge limit (counter text) with exceeds | fits
  · rw [truncate_of_lt exceeds]
    exact (wholeLines_isPrefix _).trans (fitting_isPrefix counter limit text)
  · exact ⟨[], by rw [List.append_nil, truncate_of_le fits]⟩

/-- A text that exceeds the limit loses something, whatever the counter, unless
there is nothing to lose. -/
theorem truncate_ne_self {counter : TokenCounter} {limit : Nat} {text : List Char}
    (exceeds : limit < counter text) (nonempty : text ≠ []) :
    truncate counter limit text ≠ text := by
  intro same
  have kept : text <+: fitting counter limit text := by
    have cut := wholeLines_isPrefix (fitting counter limit text)
    rwa [← truncate_of_lt exceeds, same] at cut
  have whole : fitting counter limit text = text :=
    (fitting_isPrefix counter limit text).eq_of_length_le kept.length_le
  rcases fittingLength_eq_or_fits counter limit text 0 text.length with nothing | fits
  · rw [fitting, nothing, List.take_zero] at whole
    exact nonempty whole.symm
  · rw [← fitting, whole] at fits
    exact absurd fits (Nat.not_le_of_lt exceeds)

theorem counter_truncate_le (counter : TokenCounter) (steady : counter.IsSteady) (limit : Nat)
    (text : List Char) : counter (truncate counter limit text) ≤ limit := by
  rcases Nat.lt_or_ge limit (counter text) with exceeds | fits
  · rw [truncate_of_lt exceeds]
    exact Nat.le_trans (steady.monotone (wholeLines_isPrefix _))
      (counter_fitting_le counter steady limit text)
  · rwa [truncate_of_le fits]

/-- A higher limit keeps at least what a lower one keeps. -/
theorem truncate_mono (counter : TokenCounter) (steady : counter.IsSteady) {small large : Nat}
    (ordered : small ≤ large) (text : List Char) :
    truncate counter small text <+: truncate counter large text := by
  rcases Nat.lt_or_ge large (counter text) with exceeds | fits
  · rw [truncate_of_lt exceeds, truncate_of_lt (Nat.lt_of_le_of_lt ordered exceeds)]
    refine wholeLines_mono (isPrefix_fitting counter steady large
      (fitting_isPrefix counter small text) ?_)
    exact Nat.le_trans (counter_fitting_le counter steady small text) ordered
  · rw [truncate_of_le fits]
    exact truncate_isPrefix counter small text

end Tokens

end ContextPack
