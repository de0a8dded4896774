import ContextPack.Pack.Markdown
import ContextPack.Proofs.Data.JsonNumber
import ContextPack.Proofs.Text.Case
import Mathlib.Order.Bounds.Basic
import Mathlib.Order.MinMax

namespace ContextPack.Markdown

/-!
# Contents stay in their blocks

The fence of a content is longer than any run of backticks in it, and the body of the
block ends with a line end, which no fence reaches across.  So the next fence behind the
opening line is the closing one, and the body can be read back, whatever it holds.

The opening line can be found as well: no line above it begins with a backtick.
-/

open FileChange (closeLine)
open Text (DividesFirst)

/-! ## Runs of backticks -/

/-- Backticks in a row stand in a text up to the longest run. -/
theorem replicate_isInfix_iff (count run : Nat) (text : List Char) :
    List.replicate count '`' <:+: List.replicate run '`' ++ text ↔ count ≤ longestRun run text := by
  have withinRun (run : Nat) :
      List.replicate count '`' <:+: List.replicate run '`' ↔ count ≤ run := by
    constructor
    · intro inside
      simpa using inside.length_le
    · intro fits
      refine ⟨[], List.replicate (run - count) '`', ?_⟩
      rw [List.nil_append, List.replicate_append_replicate, Nat.add_sub_cancel' fits]
  induction text generalizing run with
  | nil => rw [List.append_nil, longestRun, withinRun]
  | cons c rest inductionHypothesis =>
      by_cases backtick : c = '`'
      · have longer : List.replicate run '`' ++ c :: rest = List.replicate (run + 1) '`' ++ rest := by
          rw [backtick, List.replicate_succ', List.append_assoc, List.singleton_append]
        rw [longer, longestRun, if_pos backtick]
        exact inductionHypothesis (run + 1)
      · have foreign : c ∉ List.replicate count '`' := fun member =>
          backtick (List.eq_of_mem_replicate member)
        have fresh : List.replicate count '`' <:+: rest ↔ count ≤ longestRun 0 rest :=
          inductionHypothesis 0
        rw [Text.isInfix_append_cons_iff foreign, withinRun, fresh, longestRun, if_neg backtick,
          le_max_iff]

theorem isGreatest_longestRun (content : List Char) :
    IsGreatest {count | List.replicate count '`' <:+: content} (longestRun 0 content) := by
  have within (count : Nat) :
      List.replicate count '`' <:+: content ↔ count ≤ longestRun 0 content :=
    replicate_isInfix_iff count 0 content
  exact ⟨(within _).mpr le_rfl, fun count inside => (within count).mp inside⟩

theorem not_fence_isInfix (content : List Char) : ¬fence content <:+: content := by
  intro inside
  have short : max 3 (longestRun 0 content + 1) ≤ longestRun 0 content :=
    (isGreatest_longestRun content).2 inside
  omega

/-! ## The body of a block -/

/-- Behind the opening line the first fence closes the block. -/
theorem dividesFirst_fence (content rest : List Char) :
    DividesFirst (fence content) (closeLine content ++ (fence content ++ rest))
      (closeLine content) rest := by
  have foreign : '\n' ∉ fence content := by
    intro member
    have same := List.eq_of_mem_replicate member
    revert same
    decide
  by_cases closed : content.getLast? = some '\n'
  · rcases List.getLast?_eq_some_iff.mp closed with ⟨front, parts⟩
    have absent : ¬fence content <:+: front := by
      intro inFront
      refine not_fence_isInfix content (inFront.trans ?_)
      rw [parts]
      exact (List.prefix_append front ['\n']).isInfix
    have isClosed : closeLine content = front ++ ['\n'] := by rw [closeLine, if_pos closed, parts]
    rw [isClosed]
    exact DividesFirst.of_not_isInfix foreign absent rest
  · rw [closeLine, if_neg closed]
    exact DividesFirst.of_not_isInfix foreign (not_fence_isInfix content) rest

/-! ## The opening line -/

/-- A line that does not begin with a backtick. -/
def IsPlain (line : List Char) : Prop := '\n' ∉ line ∧ line.head? ≠ some '`'

instance (line : List Char) : Decidable (IsPlain line) := inferInstanceAs (Decidable (_ ∧ _))

/-- The document is read as lines above a block, its opening line with a fence and a name,
its body and its closing fence: the opening line is the first that begins with a backtick,
and behind it the first fence is the closing one. -/
structure FencedBlock (lines : List (List Char)) (mark name body rest text : List Char) :
    Prop where
  parts : text = lines.flatMap (· ++ ['\n']) ++ (mark ++ name ++ '\n' :: (body ++ (mark ++ rest)))
  above : ∀ line ∈ lines, IsPlain line
  opening : '\n' ∉ name
  closing : DividesFirst mark (body ++ (mark ++ rest)) body rest

/-- An extension is a part of the path in small letters. -/
theorem lineEnd_not_mem_extension? {path extension : String} (noLineEnd : '\n' ∉ path.toList)
    (found : Path.extension? path = some extension) : '\n' ∉ extension.toList := by
  rcases Option.map_eq_some_iff.mp found with ⟨ending, isEnding, rfl⟩
  have inName : ∀ c ∈ ending, c ∈ Path.nameChars path.toList := by
    unfold Path.nameExtension? at isEnding
    split at isEnding
    · next stem last divided =>
        split at isEnding
        · cases isEnding
        · cases isEnding
          intro c member
          rw [(Text.splitLast?_eq_some_iff.mp divided).1]
          simp [member]
    · cases isEnding
  have inPath : ∀ c ∈ Path.nameChars path.toList, c ∈ path.toList := by
    intro c member
    have turned := (List.takeWhile_prefix _).subset (List.mem_reverse.mp member)
    exact List.mem_reverse.mp turned
  rw [String.toList_ofList]
  rw [Text.mem_lowerAscii_iff (by decide)]
  exact fun member => noLineEnd (inPath _ (inName _ member))

theorem lineEnd_not_mem_language {path : String} (noLineEnd : '\n' ∉ path.toList)
    (kind : FragmentKind) : '\n' ∉ (language path kind).toList := by
  have notExtension : '\n' ∉ ((Path.extension? path).getD "").toList := by
    cases found : Path.extension? path with
    | none => decide
    | some extension => exact lineEnd_not_mem_extension? noLineEnd found
  cases kind with
  | seedHunks => exact (by decide : '\n' ∉ "diff".toList)
  | placeholder => exact (by decide : '\n' ∉ "text".toList)
  | seedFile => exact notExtension
  | expansion => exact notExtension

/-! ## Lines above a block -/

/-- A number is spelled without line ends. -/
theorem lineEnd_not_mem_render (places : Nat) (x : Float) :
    '\n' ∉ (Fixed.render places x).toList := by
  have notDigit (n : Nat) : '\n' ∉ (toString n).toList := by
    intro member
    have digits : (toString n).toList = Nat.toDigits 10 n := Nat.toList_repr
    rw [digits] at member
    have isDigit := JsonText.isDigit_of_mem_toDigits _ member
    revert isDigit
    decide
  have notInLayout (units : Nat) : '\n' ∉ Fixed.layout places units := by
    unfold Fixed.layout
    split
    · exact notDigit _
    · rw [List.mem_append, List.mem_cons, Fixed.padZeros, List.mem_append]
      rintro (whole | point | zero | fraction)
      · exact notDigit _ whole
      · revert point
        decide
      · have same := List.eq_of_mem_replicate zero
        revert same
        decide
      · exact notDigit _ fraction
  unfold Fixed.render Fixed.renderClass
  split
  · decide
  · decide
  · decide
  · next value _ =>
      rw [String.toList_ofList, List.mem_append, not_or]
      exact ⟨by cases value.negative <;> decide, notInLayout _⟩

/-- The lines above the block of a fragment. -/
def linesAbove (fragment : Fragment Float) : List (List Char) :=
  [[], ("## `" ++ fragment.path ++ "` (" ++ label fragment.kind ++ ")").toList, []] ++
    (if fragment.kind = .expansion then
      [("Score: " ++ Fixed.render 4 fragment.score).toList, []] else []) ++
    (if fragment.truncated then ["_Truncated to fit the budget._".toList, []] else [])

theorem isPlain_of_mem_linesAbove {fragment : Fragment Float}
    (noLineEnd : '\n' ∉ fragment.path.toList) : ∀ line ∈ linesAbove fragment, IsPlain line := by
  have heading : IsPlain
      ("## `" ++ fragment.path ++ "` (" ++ label fragment.kind ++ ")").toList := by
    have inLabel : '\n' ∉ (label fragment.kind).toList := by
      cases fragment.kind <;> decide
    constructor
    · simp [noLineEnd, inLabel]
    · simp
  have score : IsPlain ("Score: " ++ Fixed.render 4 fragment.score).toList := by
    constructor
    · simp [lineEnd_not_mem_render]
    · simp
  have empty : IsPlain [] := by decide
  simp only [linesAbove, List.forall_mem_append]
  refine ⟨⟨?_, ?_⟩, ?_⟩
  · rw [List.forall_mem_cons, List.forall_mem_cons, List.forall_mem_singleton]
    exact ⟨empty, heading, empty⟩
  · split
    · rw [List.forall_mem_cons, List.forall_mem_singleton]
      exact ⟨score, empty⟩
    · nofun
  · split
    · decide
    · nofun

theorem fragmentSection_eq (fragment : Fragment Float) :
    fragmentSection (Fixed.render 4) fragment =
      (linesAbove fragment).flatMap (· ++ ['\n']) ++
        block (language fragment.path fragment.kind) fragment.content.toList := by
  unfold fragmentSection linesAbove
  by_cases related : fragment.kind = .expansion
  · by_cases cut : fragment.truncated = true
    · simp [related, cut]
    · simp [related, cut]
  · by_cases cut : fragment.truncated = true
    · simp [related, cut]
    · simp [related, cut]

/-! ## Blocks in a document -/

/-- The sections of fragments, one below the other. -/
def sections (fragments : List (Fragment Float)) : List Char :=
  fragments.flatMap (fragmentSection (Fixed.render 4))

/-- Wherever a fragment stands in a context, its content is the body of the block that the
document opens there: the fence has three backticks, or one more than the content's
longest run if these are more, and the body is the content with a line end. -/
theorem content_stays_in_block (timestamp : Option String) (context : Context Float)
    {earlier later : List (Fragment Float)} {fragment : Fragment Float}
    (placed : context.fragments = earlier ++ fragment :: later)
    (noLineEnd : '\n' ∉ fragment.path.toList) :
    let content := fragment.content.toList
    ∃ longest lines name text,
      IsGreatest {count | List.replicate count '`' <:+: content} longest ∧
      (context.renderMarkdown (Fixed.render 4) timestamp).toList =
        (summary timestamp context).toList ++ sections earlier ++ text ∧
      FencedBlock lines (List.replicate (max 3 (longest + 1)) '`') name
        (if content.getLast? = some '\n' then content else content ++ ['\n'])
        ('\n' :: sections later) text := by
  intro content
  refine ⟨longestRun 0 content, linesAbove fragment,
    (language fragment.path fragment.kind).toList, sections (fragment :: later),
    isGreatest_longestRun content, ?_, ?_⟩
  · rw [Context.renderMarkdown, String.toList_ofList, placed, List.flatMap_append,
      List.append_assoc]
    rfl
  · refine ⟨?_, isPlain_of_mem_linesAbove noLineEnd, lineEnd_not_mem_language noLineEnd _,
      dividesFirst_fence content _⟩
    rw [sections, List.flatMap_cons, fragmentSection_eq, block]
    simp [content, fence, closeLine, sections]

/-- A context of one file whose content looks like the end of a block and goes on. -/
def fencesInside : Context Float :=
  Context.ofFragments id [⟨"", "notes.md", "```\n````", .seedFile, 1, 0, false⟩] 0 {}

/-- The content's own fences are shorter than the one around it. -/
theorem content_stays_in_block_of_fences :
    ∃ lines name text,
      (fencesInside.renderMarkdown (Fixed.render 4) none).toList =
        (summary none fencesInside).toList ++ text ∧
      FencedBlock lines "`````".toList name "```\n````\n".toList ['\n'] text := by
  have placed : fencesInside.fragments = [] ++ fencesInside.fragments := rfl
  rcases content_stays_in_block none fencesInside placed (by decide) with
    ⟨longest, lines, name, text, greatest, document, block⟩
  have four : longest = 4 := greatest.unique (isGreatest_longestRun _)
  rw [four] at block
  refine ⟨lines, name, text, ?_, block⟩
  simpa [sections] using document

end ContextPack.Markdown
