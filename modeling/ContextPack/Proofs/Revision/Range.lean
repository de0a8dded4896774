import ContextPack.Revision.Range
import ContextPack.Proofs.Text.Pieces

namespace ContextPack.RevisionRange

/-!
# Operators of revision ranges

Two dots or three divide a range expression.  Neither end of what is read is empty
or holds a blank, and no operator is left in the second end.  The first end is not
searched: two dots in front of the first three dots become a part of its name,
though no revision has such a name.
-/

open Text (DividesFirst isBlank trimChars)

/-! ## Operators -/

/-- Two dots or three. -/
def IsOperator (part : List Char) : Prop := part = ['.', '.'] ∨ part = ['.', '.', '.']

/-- An operator stands in a text; three dots are two dots and one. -/
def HoldsOperator (text : List Char) : Prop := ['.', '.'] <:+: text

/-- Operators stand in a text, one behind the other. -/
def HoldsTwoOperators (text : List Char) : Prop :=
  ∃ first second, IsOperator first ∧ IsOperator second ∧
    ∃ before between after, text = before ++ (first ++ (between ++ (second ++ after)))

instance (text : List Char) : Decidable (HoldsOperator text) :=
  decidable_of_iff _ Text.holds_iff

theorem IsOperator.exists_dots {part : List Char} (isOperator : IsOperator part) :
    ∃ more, part = '.' :: '.' :: more := by
  rcases isOperator with rfl | rfl
  · exact ⟨[], rfl⟩
  · exact ⟨['.'], rfl⟩

/-- Two operators are twice two dots. -/
theorem holdsTwoOperators_iff (text : List Char) :
    HoldsTwoOperators text ↔ ∃ before after,
      text = before ++ (['.', '.'] ++ after) ∧ HoldsOperator after := by
  constructor
  · rintro ⟨first, second, isFirst, isSecond, before, between, after, parts⟩
    rcases isFirst.exists_dots with ⟨more, rfl⟩
    rcases isSecond.exists_dots with ⟨further, rfl⟩
    refine ⟨before, more ++ (between ++ ('.' :: '.' :: further ++ after)), parts, ?_⟩
    exact ⟨more ++ between, further ++ after, by simp⟩
  · rintro ⟨before, _, rfl, between, after, rfl⟩
    refine ⟨_, _, Or.inl rfl, Or.inl rfl, before, between, after, ?_⟩
    simp

/-- Operators may be looked for from the left. -/
theorem holdsTwoOperators_iff_of_first {text before after : List Char}
    (divides : DividesFirst ['.', '.'] text before after) :
    HoldsTwoOperators text ↔ HoldsOperator after := by
  rw [holdsTwoOperators_iff]
  constructor
  · rintro ⟨earlier, rest, parts, holds⟩
    exact holds.trans (divides.isSuffix parts).isInfix
  · intro holds
    exact ⟨before, after, divides.parts, holds⟩

/-- If no operator stands before the first three dots, their first two are the
first operator. -/
theorem dividesFirst_twoDots {text before after : List Char}
    (divides : DividesFirst ['.', '.', '.'] text before after) (noOperator : ¬HoldsOperator before) :
    DividesFirst ['.', '.'] text before ('.' :: after) := by
  refine ⟨divides.parts, ?_⟩
  intro earlier rest parts
  by_contra shorter
  have same := parts.symm.trans divides.parts
  rcases List.append_eq_append_iff.mp same with ⟨more, isBefore, others⟩ | ⟨more, isEarlier, -⟩
  · match more with
    | [] =>
        rw [isBefore, List.append_nil] at shorter
        exact shorter le_rfl
    | [_] =>
        -- The dots began one character earlier, where three dots would stand already.
        cases others
        have three : text = earlier ++ (['.', '.', '.'] ++ ('.' :: after)) := by
          rw [divides.parts, isBefore]
          simp
        exact shorter (divides.first three)
    | _ :: _ :: further =>
        cases others
        exact noOperator ⟨earlier, further, by rw [isBefore]; simp⟩
  · rw [isEarlier, List.length_append] at shorter
    omega

/-! ## Ends -/

/-- The first end. -/
def base : RevisionRange → String
  | between base _ => base
  | mergeBase base _ => base
  | workingTree base => base

/-- The second end, unless it is the working tree. -/
def head? : RevisionRange → Option String
  | between _ head => some head
  | mergeBase _ head => some head
  | workingTree _ => none

/-- The ends that are revisions. -/
def ends (range : RevisionRange) : List String := range.base :: range.head?.toList

theorem side_ne_empty (text : List Char) : side text ≠ "" := by
  unfold side
  split
  · decide
  · next nonempty => simpa using nonempty

/-- What stands in an end stands in the text or in the name of the current commit. -/
theorem toList_side (text : List Char) :
    (side text).toList = if text.isEmpty then "HEAD".toList else text := by
  unfold side
  split
  · rfl
  · exact String.toList_ofList

theorem isBlank_of_mem_side {text : List Char} (noBlank : ∀ c ∈ text, isBlank c = false) :
    ∀ c ∈ (side text).toList, isBlank c = false := by
  rw [toList_side]
  split
  · have named : "HEAD".toList.any isBlank = false := by decide
    intro c member
    simpa using List.any_eq_false.mp named c member
  · exact noBlank

theorem holdsOperator_side_iff (text : List Char) :
    HoldsOperator (side text).toList ↔ HoldsOperator text := by
  rw [toList_side]
  split
  · next nothing =>
      rw [List.isEmpty_iff.mp nothing]
      decide
  · rfl

/-! ## What is read -/

section Reading

variable {expression before after : List Char}

theorem parseTrimmed_of_blank (blank : ∃ c ∈ expression, isBlank c = true) :
    parseTrimmed expression = .error .whitespace := by
  have anyBlank : expression.any isBlank = true := List.any_eq_true.mpr blank
  rcases blank with ⟨c, member, -⟩
  have notEmpty : expression.isEmpty = false := by
    rw [List.isEmpty_eq_false_iff]
    exact List.ne_nil_of_mem member
  simp [parseTrimmed, notEmpty, anyBlank]

variable (nonempty : expression ≠ []) (noBlank : ∀ c ∈ expression, isBlank c = false)

include nonempty noBlank

/-- Nothing but the operators is left to look at. -/
theorem parseTrimmed_eq :
    parseTrimmed expression =
      match Text.splitFirst? ['.', '.', '.'] expression with
      | some (base, head) =>
        if Text.holds ['.', '.'] head then .error .secondOperator
        else .ok (.mergeBase (side base) (side head))
      | none =>
        match Text.splitFirst? ['.', '.'] expression with
        | some (base, head) =>
          if Text.holds ['.', '.'] head then .error .secondOperator
          else if base.isEmpty && head.isEmpty then .error .noEndpoints
          else .ok (.between (side base) (side head))
        | none => .ok (.workingTree (String.ofList expression)) := by
  have notEmpty : expression.isEmpty = false := List.isEmpty_eq_false_iff.mpr nonempty
  have noneBlank : expression.any isBlank = false := by
    rw [List.any_eq_false]
    intro c member
    rw [noBlank c member]
    exact Bool.false_ne_true
  unfold parseTrimmed
  rw [notEmpty, noneBlank]
  rfl

theorem parseTrimmed_of_threeDots (divides : DividesFirst ['.', '.', '.'] expression before after) :
    parseTrimmed expression =
      if HoldsOperator after then .error .secondOperator
      else .ok (.mergeBase (side before) (side after)) := by
  rw [parseTrimmed_eq nonempty noBlank, Text.splitFirst?_eq_some_iff.mpr divides]
  exact if_congr Text.holds_iff rfl rfl

theorem parseTrimmed_of_twoDots (noThree : ¬['.', '.', '.'] <:+: expression)
    (divides : DividesFirst ['.', '.'] expression before after) :
    parseTrimmed expression =
      if HoldsOperator after then .error .secondOperator
      else if before = [] ∧ after = [] then .error .noEndpoints
      else .ok (.between (side before) (side after)) := by
  rw [parseTrimmed_eq nonempty noBlank, Text.splitFirst?_eq_none_iff.mpr noThree,
    Text.splitFirst?_eq_some_iff.mpr divides]
  refine if_congr Text.holds_iff rfl (if_congr ?_ rfl rfl)
  rw [Bool.and_eq_true, List.isEmpty_iff, List.isEmpty_iff]

theorem parseTrimmed_of_noDots (noTwo : ¬['.', '.'] <:+: expression) :
    parseTrimmed expression = .ok (.workingTree (String.ofList expression)) := by
  have noThree : ¬['.', '.', '.'] <:+: expression := by
    intro inside
    have dots : ['.', '.'] <:+: ['.', '.', '.'] := ⟨[], ['.'], rfl⟩
    exact noTwo (dots.trans inside)
  rw [parseTrimmed_eq nonempty noBlank, Text.splitFirst?_eq_none_iff.mpr noThree,
    Text.splitFirst?_eq_none_iff.mpr noTwo]

end Reading

/-- A range is read from an expression without blanks: the first three dots divide
it, or the first two dots if there are no three, and no operator follows. -/
theorem parseTrimmed_eq_ok_iff (expression : List Char) (range : RevisionRange) :
    parseTrimmed expression = .ok range ↔
      expression ≠ [] ∧ (∀ c ∈ expression, isBlank c = false) ∧
      ((∃ base head, DividesFirst ['.', '.', '.'] expression base head ∧ ¬HoldsOperator head ∧
          range = .mergeBase (side base) (side head)) ∨
        (¬['.', '.', '.'] <:+: expression ∧
          ∃ base head, DividesFirst ['.', '.'] expression base head ∧ ¬HoldsOperator head ∧
            ¬(base = [] ∧ head = []) ∧ range = .between (side base) (side head)) ∨
        (¬['.', '.'] <:+: expression ∧ range = .workingTree (String.ofList expression))) := by
  constructor
  · intro accepted
    have nonempty : expression ≠ [] := by
      rintro rfl
      cases accepted
    have noBlank : ∀ c ∈ expression, isBlank c = false := by
      intro c member
      by_contra blank
      rw [parseTrimmed_of_blank ⟨c, member, by simpa using blank⟩] at accepted
      cases accepted
    refine ⟨nonempty, noBlank, ?_⟩
    by_cases three : ['.', '.', '.'] <:+: expression
    · rcases Text.exists_dividesFirst three with ⟨base, head, divides⟩
      rw [parseTrimmed_of_threeDots nonempty noBlank divides] at accepted
      split at accepted
      · cases accepted
      · next noOperator =>
          cases accepted
          exact Or.inl ⟨base, head, divides, noOperator, rfl⟩
    by_cases two : ['.', '.'] <:+: expression
    · rcases Text.exists_dividesFirst two with ⟨base, head, divides⟩
      rw [parseTrimmed_of_twoDots nonempty noBlank three divides] at accepted
      split at accepted
      · cases accepted
      · next noOperator =>
          split at accepted
          · cases accepted
          · next endpoint =>
              cases accepted
              exact Or.inr (Or.inl ⟨three, base, head, divides, noOperator, endpoint, rfl⟩)
    · rw [parseTrimmed_of_noDots nonempty noBlank two] at accepted
      cases accepted
      exact Or.inr (Or.inr ⟨two, rfl⟩)
  · rintro ⟨nonempty, noBlank, ⟨base, head, divides, noOperator, rfl⟩ |
      ⟨three, base, head, divides, noOperator, endpoint, rfl⟩ | ⟨two, rfl⟩⟩
    · rw [parseTrimmed_of_threeDots nonempty noBlank divides, if_neg noOperator]
    · rw [parseTrimmed_of_twoDots nonempty noBlank three divides, if_neg noOperator, if_neg endpoint]
    · exact parseTrimmed_of_noDots nonempty noBlank two

/-! ## Operators in what is read -/

section Operators

variable {expression : List Char} {range : RevisionRange}

/-- Each end has a name without blanks. -/
theorem ends_of_parseTrimmed (accepted : parseTrimmed expression = .ok range) :
    ∀ revision ∈ range.ends, revision ≠ "" ∧ ∀ c ∈ revision.toList, isBlank c = false := by
  rcases (parseTrimmed_eq_ok_iff expression range).mp accepted with ⟨nonempty, noBlank, read⟩
  have named {part : List Char} (inside : ∀ c ∈ part, c ∈ expression) :
      side part ≠ "" ∧ ∀ c ∈ (side part).toList, isBlank c = false :=
    ⟨side_ne_empty part, isBlank_of_mem_side fun c member => noBlank c (inside c member)⟩
  have bothNamed {part before after : List Char} (divides : DividesFirst part expression before after) :
      ∀ revision ∈ [side before, side after],
        revision ≠ "" ∧ ∀ c ∈ revision.toList, isBlank c = false := by
    intro revision isEnd
    rcases List.mem_pair.mp isEnd with rfl | rfl
    · exact named fun c member => by simp [divides.parts, member]
    · exact named fun c member => by simp [divides.parts, member]
  rcases read with ⟨base, head, divides, -, rfl⟩ | ⟨-, base, head, divides, -, -, rfl⟩ | ⟨-, rfl⟩
  · exact bothNamed divides
  · exact bothNamed divides
  · intro revision isEnd
    obtain rfl : revision = String.ofList expression := by simpa [ends, base, head?] using isEnd
    constructor
    · simpa using nonempty
    · simpa using noBlank

theorem not_holdsOperator_head (accepted : parseTrimmed expression = .ok range) :
    ∀ head ∈ range.head?, ¬HoldsOperator head.toList := by
  rcases (parseTrimmed_eq_ok_iff expression range).mp accepted with
    ⟨-, -, ⟨base, head, -, noOperator, rfl⟩ | ⟨-, base, head, -, noOperator, -, rfl⟩ | ⟨-, rfl⟩⟩
  · intro revision isHead
    cases isHead
    rwa [holdsOperator_side_iff]
  · intro revision isHead
    cases isHead
    rwa [holdsOperator_side_iff]
  · nofun

/-- Dots are left in the first end exactly if they stand before the first three
dots. -/
theorem holdsOperator_base_iff (accepted : parseTrimmed expression = .ok range) :
    HoldsOperator range.base.toList ↔
      ∃ base head, DividesFirst ['.', '.', '.'] expression base head ∧ HoldsOperator base := by
  rcases (parseTrimmed_eq_ok_iff expression range).mp accepted with
    ⟨-, -, ⟨base, head, divides, -, rfl⟩ | ⟨three, base, head, divides, -, -, rfl⟩ | ⟨two, rfl⟩⟩
  · rw [RevisionRange.base, holdsOperator_side_iff]
    constructor
    · intro holds
      exact ⟨base, head, divides, holds⟩
    · rintro ⟨other, behind, again, holds⟩
      rwa [(divides.unique again).1] at holds
  · rw [RevisionRange.base, holdsOperator_side_iff]
    apply iff_of_false
    · exact divides.not_isInfix_before (List.cons_ne_nil _ _)
    · rintro ⟨_, _, again, -⟩
      exact three again.isInfix
  · rw [RevisionRange.base, String.toList_ofList]
    apply iff_of_false two
    rintro ⟨other, behind, again, holds⟩
    exact two (holds.trans ⟨[], ['.', '.', '.'] ++ behind, again.parts.symm⟩)

/-- An expression with two operators is accepted exactly if one of them stands
before the first three dots or shares them as the fourth dot. -/
theorem exists_ok_iff_of_holdsTwoOperators (two : HoldsTwoOperators expression) :
    (∃ range, parseTrimmed expression = .ok range) ↔
      (∀ c ∈ expression, isBlank c = false) ∧
        ∃ base head, DividesFirst ['.', '.', '.'] expression base head ∧ ¬HoldsOperator head ∧
          (HoldsOperator base ∨ ['.'] <+: head) := by
  constructor
  · rintro ⟨range, accepted⟩
    rcases (parseTrimmed_eq_ok_iff expression range).mp accepted with
      ⟨-, noBlank, ⟨base, head, divides, noOperator, -⟩ |
        ⟨-, base, head, divides, noOperator, -, -⟩ | ⟨noDots, -⟩⟩
    · refine ⟨noBlank, base, head, divides, noOperator, ?_⟩
      by_cases holds : HoldsOperator base
      · exact Or.inl holds
      · rw [holdsTwoOperators_iff_of_first (dividesFirst_twoDots divides holds), HoldsOperator,
          List.infix_cons_iff] at two
        rcases two with front | later
        · exact Or.inr (List.cons_prefix_cons.mp front).2
        · exact absurd later noOperator
    · exact absurd ((holdsTwoOperators_iff_of_first divides).mp two) noOperator
    · rcases (holdsTwoOperators_iff expression).mp two with ⟨before, after, parts, -⟩
      exact absurd ⟨before, after, by rw [parts, List.append_assoc]⟩ noDots
  · rintro ⟨noBlank, base, head, divides, noOperator, -⟩
    have nonempty : expression ≠ [] := by
      rintro rfl
      simpa using divides.parts
    refine ⟨.mergeBase (side base) (side head), ?_⟩
    rw [parseTrimmed_of_threeDots nonempty noBlank divides, if_neg noOperator]

end Operators

/-- Trimming takes no operator away. -/
theorem HoldsTwoOperators.trimChars {text : List Char} (two : HoldsTwoOperators text) :
    HoldsTwoOperators (trimChars text) := by
  rcases (holdsTwoOperators_iff text).mp two with ⟨before, _, rfl, between, after, rfl⟩
  have noBlank : isBlank '.' = false := by decide
  have parts : before ++ (['.', '.'] ++ (between ++ ['.', '.'] ++ after)) =
      before ++ '.' :: (('.' :: between ++ ['.']) ++ '.' :: after) := by
    simp
  rw [parts, Text.trimChars_append_of_not noBlank noBlank, holdsTwoOperators_iff]
  refine ⟨before.dropWhile isBlank,
    between ++ ['.', '.'] ++ Text.dropEndWhile isBlank after, by simp, ?_⟩
  exact List.infix_append _ _ _

/-- What is read from an expression has ends with names, without blanks, and no
operator in the second one; one is left in the first exactly if it stands before the
first three dots.  An expression with two operators is refused unless one of them
stands there or shares the three dots as the fourth, with no operator behind. -/
theorem parse_finds_later_operators (text : String) :
    let expression := trimChars text.toList
    (∀ range, parse text = .ok range →
      (∀ revision ∈ range.ends, revision ≠ "" ∧ ∀ c ∈ revision.toList, isBlank c = false) ∧
      (∀ head ∈ range.head?, ¬HoldsOperator head.toList) ∧
      (HoldsOperator range.base.toList ↔
        ∃ base head, DividesFirst ['.', '.', '.'] expression base head ∧ HoldsOperator base)) ∧
    (HoldsTwoOperators text.toList →
      ((∃ range, parse text = .ok range) ↔
        (∀ c ∈ expression, isBlank c = false) ∧
          ∃ base head, DividesFirst ['.', '.', '.'] expression base head ∧ ¬HoldsOperator head ∧
            (HoldsOperator base ∨ ['.'] <+: head))) := by
  intro expression
  constructor
  · intro range accepted
    exact ⟨ends_of_parseTrimmed accepted, not_holdsOperator_head accepted,
      holdsOperator_base_iff accepted⟩
  · intro two
    exact exists_ok_iff_of_holdsTwoOperators two.trimChars

/-- Two dots twice are refused: no three dots are there to hide behind. -/
theorem parse_finds_later_operators_of_chain :
    HoldsTwoOperators "a..b..c".toList ∧ ¬∃ range, parse "a..b..c" = .ok range := by
  have two : HoldsTwoOperators "a..b..c".toList :=
    ⟨_, _, Or.inl rfl, Or.inl rfl, ['a'], ['b'], ['c'], rfl⟩
  refine ⟨two, ?_⟩
  rw [(parse_finds_later_operators "a..b..c").2 two]
  rintro ⟨-, base, head, divides, -⟩
  have inside := Text.holds_iff.mpr divides.isInfix
  revert inside
  decide

/-- Two dots before three dots pass into the first end. -/
theorem parse_keeps_earlier_operator :
    HoldsTwoOperators "A..B...C".toList ∧ parse "A..B...C" = .ok (.mergeBase "A..B" "C") ∧
      HoldsOperator "A..B".toList := by
  refine ⟨⟨_, _, Or.inl rfl, Or.inr rfl, ['A'], ['B'], ['C'], rfl⟩, ?_, ?_⟩
  · decide
  · decide

end ContextPack.RevisionRange
