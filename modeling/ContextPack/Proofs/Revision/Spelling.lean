import ContextPack.Proofs.Revision.Range

namespace ContextPack.RevisionRange

/-!
# Written ranges

A range expression with its parts kept apart, the text that it is written as and
the range that it stands for.  Reading the text gives that range back, whatever
blanks are around it.

A revision may begin or end in a dot, but not where an operator stands: `a.` and
`b` with two dots between them are read as `a...b`.
-/

open Text (DividesFirst isBlank)

/-- A text that may name a revision: dots in it stand alone. -/
structure RevisionName where
  text : String
  nonempty : text ≠ ""
  noBlank : ∀ c ∈ text.toList, isBlank c = false
  noOperator : ¬HoldsOperator text.toList

/-- A range as it is written; an end may be left out on either side of an
operator. -/
inductive Written where
  | twoDots (base head : Option RevisionName)
  | threeDots (base head : Option RevisionName)
  | alone (base : RevisionName)

namespace Written

/-- How an end is written. -/
def spelled : Option RevisionName → String
  | some name => name.text
  | none => ""

/-- What an end stands for. -/
def meant : Option RevisionName → String
  | some name => name.text
  | none => "HEAD"

def text : Written → String
  | twoDots base head => spelled base ++ ".." ++ spelled head
  | threeDots base head => spelled base ++ "..." ++ spelled head
  | alone base => base.text

def range : Written → RevisionRange
  | twoDots base head => .between (meant base) (meant head)
  | threeDots base head => .mergeBase (meant base) (meant head)
  | alone base => .workingTree base.text

/-- No dot of an end stands next to the dots of an operator. -/
def KeepsApart (base head : Option RevisionName) : Prop :=
  (∀ name ∈ base, name.text.toList.getLast? ≠ some '.') ∧
    ∀ name ∈ head, name.text.toList.head? ≠ some '.'

/-- The operator can be told from the ends, and two dots have an end. -/
def IsClear : Written → Prop
  | twoDots base head => KeepsApart base head ∧ (base.isSome ∨ head.isSome)
  | threeDots base head => KeepsApart base head
  | alone _ => True

end Written

/-! ## The first operator -/

/-- Dots are the first ones if the text before them neither holds two dots nor ends
in one. -/
theorem dividesFirst_dots {before more after : List Char} (noOperator : ¬HoldsOperator before)
    (noDot : before.getLast? ≠ some '.') :
    DividesFirst ('.' :: '.' :: more) (before ++ ('.' :: '.' :: more ++ after)) before after := by
  refine ⟨rfl, ?_⟩
  intro earlier rest parts
  by_contra shorter
  rcases List.append_eq_append_iff.mp parts with ⟨_, isEarlier, -⟩ | ⟨between, isBefore, others⟩
  · rw [isEarlier, List.length_append] at shorter
    omega
  · match between with
    | [] =>
        rw [isBefore, List.append_nil] at shorter
        exact shorter le_rfl
    | [_] =>
        simp only [List.cons_append, List.cons.injEq] at others
        rcases others with ⟨rfl, -⟩
        exact noDot (by rw [isBefore, List.getLast?_concat])
    | _ :: _ :: further =>
        simp only [List.cons_append, List.cons.injEq] at others
        rcases others with ⟨rfl, rfl, -⟩
        exact noOperator ⟨earlier, further, by rw [isBefore]; simp⟩

/-- Two dots do not become three if no dot stands next to them. -/
theorem not_threeDots_isInfix {before after : List Char} (noOperatorBefore : ¬HoldsOperator before)
    (noDotBefore : before.getLast? ≠ some '.') (noOperatorAfter : ¬HoldsOperator after)
    (noDotAfter : after.head? ≠ some '.') :
    ¬['.', '.', '.'] <:+: before ++ (['.', '.'] ++ after) := by
  rintro ⟨earlier, rest, parts⟩
  have divides : DividesFirst ['.', '.'] (before ++ (['.', '.'] ++ after)) before after :=
    dividesFirst_dots noOperatorBefore noDotBefore
  have twoOfThree : before ++ (['.', '.'] ++ after) = earlier ++ (['.', '.'] ++ '.' :: rest) := by
    rw [← parts]
    simp
  have notEarlier : before.length ≤ earlier.length := divides.first twoOfThree
  rw [List.append_assoc] at parts
  -- The three dots begin with the operator, one dot further or behind it.
  rcases List.append_eq_append_iff.mp parts with ⟨between, isBefore, others⟩ | ⟨between, -, others⟩
  · have nothing : between = [] := by
      rw [isBefore, List.length_append] at notEarlier
      exact List.length_eq_zero_iff.mp (by omega)
    rw [nothing] at others
    cases others
    exact noDotAfter rfl
  · match between with
    | [] =>
        cases others
        exact noDotAfter rfl
    | [_] =>
        cases others
        exact noDotAfter rfl
    | _ :: _ :: further =>
        cases others
        exact noOperatorAfter ⟨further, '.' :: rest, by simp⟩

/-! ## Ends -/

namespace Written

theorem side_spelled (written : Option RevisionName) :
    side (spelled written).toList = meant written := by
  cases written with
  | none => rfl
  | some name =>
      have nonempty : name.text.toList.isEmpty = false := by simpa using name.nonempty
      rw [spelled, side, nonempty, meant]
      exact String.ofList_toList

theorem spelled_eq_nil_iff {written : Option RevisionName} :
    (spelled written).toList = [] ↔ written = none := by
  cases written with
  | none => simp [spelled]
  | some name => simpa [spelled] using name.nonempty

theorem noBlank_spelled (written : Option RevisionName) :
    ∀ c ∈ (spelled written).toList, isBlank c = false := by
  cases written with
  | none => nofun
  | some name => exact name.noBlank

theorem not_holdsOperator_spelled (written : Option RevisionName) :
    ¬HoldsOperator (spelled written).toList := by
  cases written with
  | none =>
      rw [spelled]
      decide
  | some name => exact name.noOperator

theorem getLast?_spelled {written : Option RevisionName}
    (noDot : ∀ name ∈ written, name.text.toList.getLast? ≠ some '.') :
    (spelled written).toList.getLast? ≠ some '.' := by
  cases written with
  | none => simp [spelled]
  | some name => exact noDot name rfl

theorem head?_spelled {written : Option RevisionName}
    (noDot : ∀ name ∈ written, name.text.toList.head? ≠ some '.') :
    (spelled written).toList.head? ≠ some '.' := by
  cases written with
  | none => simp [spelled]
  | some name => exact noDot name rfl

end Written

/-! ## Reading what is written -/

theorem isBlank_of_any {text : List Char} (noBlank : text.any isBlank = false) :
    ∀ c ∈ text, isBlank c = false := by
  intro c member
  exact Bool.eq_false_iff.mpr (List.any_eq_false.mp noBlank c member)

theorem Written.noBlank_around {operator : String}
    (noBlank : operator.toList.any isBlank = false) (base head : Option RevisionName) :
    ∀ c ∈ (spelled base ++ operator ++ spelled head).toList, isBlank c = false := by
  intro c member
  simp only [String.toList_append, List.mem_append] at member
  rcases member with (inBase | inOperator) | inHead
  · exact noBlank_spelled _ c inBase
  · exact isBlank_of_any noBlank c inOperator
  · exact noBlank_spelled _ c inHead

theorem Written.noBlank_text (written : Written) :
    ∀ c ∈ written.text.toList, isBlank c = false := by
  cases written with
  | twoDots base head => exact noBlank_around (by decide) base head
  | threeDots base head => exact noBlank_around (by decide) base head
  | alone base => exact base.noBlank

theorem Written.parseTrimmed_text {written : Written} (clear : written.IsClear) :
    parseTrimmed written.text.toList = .ok written.range := by
  have noBlank := written.noBlank_text
  cases written with
  | twoDots base head =>
      rcases clear with ⟨⟨noDotBase, noDotHead⟩, endpoint⟩
      have divides : DividesFirst ['.', '.']
          ((spelled base).toList ++ (['.', '.'] ++ (spelled head).toList)) _ _ :=
        dividesFirst_dots (not_holdsOperator_spelled base) (getLast?_spelled noDotBase)
      have noThree := not_threeDots_isInfix (not_holdsOperator_spelled base)
        (getLast?_spelled noDotBase) (not_holdsOperator_spelled head) (head?_spelled noDotHead)
      have parts : (twoDots base head).text.toList =
          (spelled base).toList ++ (['.', '.'] ++ (spelled head).toList) := by
        simp [text]
      have someEnd : ¬((spelled base).toList = [] ∧ (spelled head).toList = []) := by
        rw [spelled_eq_nil_iff, spelled_eq_nil_iff]
        rintro ⟨rfl, rfl⟩
        simp at endpoint
      rw [parts] at noBlank ⊢
      rw [parseTrimmed_of_twoDots (by simp) noBlank noThree divides,
        if_neg (not_holdsOperator_spelled head), if_neg someEnd, side_spelled, side_spelled, range]
  | threeDots base head =>
      rcases clear with ⟨noDotBase, noDotHead⟩
      have divides : DividesFirst ['.', '.', '.']
          ((spelled base).toList ++ (['.', '.', '.'] ++ (spelled head).toList)) _ _ :=
        dividesFirst_dots (not_holdsOperator_spelled base) (getLast?_spelled noDotBase)
      have parts : (threeDots base head).text.toList =
          (spelled base).toList ++ (['.', '.', '.'] ++ (spelled head).toList) := by
        simp [text]
      rw [parts] at noBlank ⊢
      rw [parseTrimmed_of_threeDots (by simp) noBlank divides,
        if_neg (not_holdsOperator_spelled head), side_spelled, side_spelled, range]
  | alone base =>
      have nonempty : base.text.toList ≠ [] := by simpa using base.nonempty
      rw [text, parseTrimmed_of_noDots nonempty base.noBlank base.noOperator, String.ofList_toList,
        range]

/-- Reading gives back the range that was written, whatever blanks stand around it. -/
theorem parse_written {written : Written} (clear : written.IsClear) {front back : String}
    (blankFront : ∀ c ∈ front.toList, isBlank c = true)
    (blankBack : ∀ c ∈ back.toList, isBlank c = true) :
    parse (front ++ written.text ++ back) = .ok written.range := by
  have trimmed : Text.trimChars (front ++ written.text ++ back).toList = written.text.toList := by
    rw [String.toList_append, String.toList_append, List.append_assoc]
    exact Text.trimChars_between_blanks blankFront written.noBlank_text blankBack
  rw [parse, trimmed, written.parseTrimmed_text clear]

/-- From a version up to the current commit, which is not spelled. -/
def fromVersion : Written :=
  let version : RevisionName :=
    { text := "v1.2"
      nonempty := by decide
      noBlank := isBlank_of_any (by decide)
      noOperator := by decide }
  .twoDots (some version) none

/-- A dot inside a revision is no operator, and an end that is left out is the current
commit. -/
theorem parse_written_of_version : parse " v1.2..\n" = .ok (.between "v1.2" "HEAD") := by
  have clear : fromVersion.IsClear := ⟨⟨by simp, by simp⟩, Or.inl rfl⟩
  have blankFront : ∀ c ∈ " ".toList, isBlank c = true := List.all_eq_true.mp (by decide)
  have blankBack : ∀ c ∈ "\n".toList, isBlank c = true := List.all_eq_true.mp (by decide)
  have expression : " " ++ fromVersion.text ++ "\n" = " v1.2..\n" := by decide
  rw [← expression, parse_written clear blankFront blankBack]
  rfl

end ContextPack.RevisionRange
