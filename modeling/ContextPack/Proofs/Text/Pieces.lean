import ContextPack.Text.Blank
import ContextPack.Text.Pieces
import Mathlib.Data.List.Infix
import Mathlib.Data.List.TakeWhile

namespace ContextPack.Text

/-!
# Parts of texts

What the searches find, said without how they search: a text in front is a
prefix, a text inside another is an infix, and a text is divided at the first
place where a part stands.  No place is found exactly if the part is not inside.
A part without some character does not lie across it, and the pieces between separators
are the text again once the separators are put back.
-/

/-- A part stands in a text behind `before`, and nowhere earlier. -/
structure DividesFirst (part text before after : List Char) : Prop where
  parts : text = before ++ (part ++ after)
  first : ∀ {earlier rest}, text = earlier ++ (part ++ rest) → before.length ≤ earlier.length

theorem stripStart?_eq_some_iff {front text after : List Char} :
    stripStart? front text = some after ↔ text = front ++ after := by
  induction front generalizing text with
  | nil => simp [stripStart?]
  | cons c front inductionHypothesis =>
      cases text with
      | nil => simp [stripStart?]
      | cons d text =>
          by_cases same : c = d
          · simp [stripStart?, same, inductionHypothesis]
          · simp [stripStart?, same, Ne.symm same]

theorem startsWith_iff {front text : List Char} : startsWith front text = true ↔ front <+: text := by
  rw [startsWith, Option.isSome_iff_exists]
  simp only [stripStart?_eq_some_iff]
  exact exists_congr fun after => eq_comm

theorem holds_iff {part text : List Char} : holds part text = true ↔ part <:+: text := by
  induction text with
  | nil => simp [holds]
  | cons c rest inductionHypothesis =>
      rw [holds, Bool.or_eq_true, startsWith_iff, inductionHypothesis, List.infix_cons_iff]

namespace DividesFirst

variable {part text before after : List Char}

theorem isInfix (divides : DividesFirst part text before after) : part <:+: text :=
  ⟨before, after, by rw [divides.parts, List.append_assoc]⟩

/-- There is one first place at most. -/
theorem unique {another behind : List Char} (divides : DividesFirst part text before after)
    (again : DividesFirst part text another behind) : another = before ∧ behind = after := by
  have sameLength : another.length = before.length :=
    Nat.le_antisymm (again.first divides.parts) (divides.first again.parts)
  have same := List.append_inj (again.parts.symm.trans divides.parts) sameLength
  exact ⟨same.1, List.append_cancel_left same.2⟩

/-- No part stands in front of the first one. -/
theorem not_isInfix_before (divides : DividesFirst part text before after) (nonempty : part ≠ []) :
    ¬part <:+: before := by
  rintro ⟨earlier, rest, parts⟩
  have placed : text = earlier ++ (part ++ (rest ++ (part ++ after))) := by
    rw [divides.parts, ← parts]
    simp
  have notLater := divides.first placed
  have long := List.length_pos_iff.mpr nonempty
  rw [← parts, List.length_append, List.length_append] at notLater
  omega

/-- What follows another place of the part is the end of what follows the first
one. -/
theorem isSuffix (divides : DividesFirst part text before after) {earlier rest : List Char}
    (parts : text = earlier ++ (part ++ rest)) : rest <:+ after := by
  have notLater := divides.first parts
  have lengths := congrArg List.length (divides.parts.symm.trans parts)
  simp only [List.length_append] at lengths
  have endsWithAfter : after <:+ text := ⟨before ++ part, by rw [divides.parts, List.append_assoc]⟩
  have endsWithRest : rest <:+ text := ⟨earlier ++ part, by rw [parts, List.append_assoc]⟩
  exact List.suffix_of_suffix_length_le endsWithRest endsWithAfter (by omega)

/-- If no part is in front, the first one is that of what follows the first
character. -/
theorem cons_iff {c : Char} {rest : List Char} (noFront : ¬part <+: c :: rest) :
    DividesFirst part (c :: rest) before after ↔
      ∃ others, before = c :: others ∧ DividesFirst part rest others after := by
  have notHere {earlier behind : List Char} (parts : c :: rest = earlier ++ (part ++ behind)) :
      ∃ others, earlier = c :: others ∧ rest = others ++ (part ++ behind) := by
    cases earlier with
    | nil => exact absurd ⟨behind, parts.symm⟩ noFront
    | cons d others =>
        rw [List.cons_append, List.cons.injEq] at parts
        exact ⟨others, by rw [parts.1], parts.2⟩
  constructor
  · intro divides
    rcases notHere divides.parts with ⟨others, rfl, parts⟩
    refine ⟨others, rfl, parts, ?_⟩
    intro earlier behind again
    have further : c :: rest = (c :: earlier) ++ (part ++ behind) := congrArg (c :: ·) again
    simpa using divides.first further
  · rintro ⟨others, rfl, divides⟩
    refine ⟨congrArg (c :: ·) divides.parts, ?_⟩
    intro earlier behind again
    rcases notHere again with ⟨less, rfl, parts⟩
    simpa using divides.first parts

end DividesFirst

theorem splitFirst?_eq_some_iff {part text before after : List Char} :
    splitFirst? part text = some (before, after) ↔ DividesFirst part text before after := by
  induction text generalizing before with
  | nil =>
      constructor
      · intro found
        cases part with
        | nil =>
            cases found
            exact ⟨rfl, fun _ => Nat.zero_le _⟩
        | cons c part => cases found
      · intro divides
        have nothing := divides.parts.symm
        simp only [List.append_eq_nil_iff] at nothing
        rcases nothing with ⟨rfl, rfl, rfl⟩
        rfl
  | cons c rest inductionHypothesis =>
      rw [splitFirst?]
      cases front : stripStart? part (c :: rest) with
      | some found =>
          have parts : c :: rest = part ++ found := stripStart?_eq_some_iff.mp front
          have here : DividesFirst part (c :: rest) [] found := ⟨parts, fun _ => Nat.zero_le _⟩
          constructor
          · intro same
            cases same
            exact here
          · intro divides
            rcases here.unique divides with ⟨rfl, rfl⟩
            rfl
      | none =>
          have noFront : ¬part <+: c :: rest := by
            rw [← startsWith_iff, startsWith, front]
            exact Bool.false_ne_true
          rw [DividesFirst.cons_iff noFront, Option.map_eq_some_iff]
          constructor
          · rintro ⟨⟨others, behind⟩, found, same⟩
            cases same
            exact ⟨others, rfl, inductionHypothesis.mp found⟩
          · rintro ⟨others, rfl, divides⟩
            exact ⟨(others, after), inductionHypothesis.mpr divides, rfl⟩

theorem splitFirst?_eq_none_iff {part text : List Char} :
    splitFirst? part text = none ↔ ¬part <:+: text := by
  induction text with
  | nil => cases part <;> simp [splitFirst?]
  | cons c rest inductionHypothesis =>
      rw [splitFirst?, List.infix_cons_iff, ← startsWith_iff, startsWith]
      cases stripStart? part (c :: rest) with
      | some found => simp
      | none => simp [inductionHypothesis]

/-- A part inside a text has a first place. -/
theorem exists_dividesFirst {part text : List Char} (inside : part <:+: text) :
    ∃ before after, DividesFirst part text before after := by
  cases found : splitFirst? part text with
  | none => exact absurd inside (splitFirst?_eq_none_iff.mp found)
  | some division => exact ⟨division.1, division.2, splitFirst?_eq_some_iff.mp found⟩

/-! ## Parts without a character -/

section Foreign

variable {c : Char} {part : List Char} (foreign : c ∉ part)

include foreign

/-- A part without a character does not lie across that character. -/
theorem part_before_or_behind {front back earlier rest : List Char}
    (parts : earlier ++ (part ++ rest) = front ++ c :: back) :
    (∃ between, front = earlier ++ (part ++ between)) ∨
      ∃ between, earlier = front ++ c :: between ∧ back = between ++ (part ++ rest) := by
  rcases List.append_eq_append_iff.mp parts with
    ⟨between, isFront, others⟩ | ⟨between, isEarlier, others⟩
  · rcases List.append_eq_append_iff.mp others with
      ⟨further, isBetween, -⟩ | ⟨further, isPart, tail⟩
    · exact Or.inl ⟨further, by rw [isFront, isBetween]⟩
    · cases further with
      | nil => exact Or.inl ⟨[], by rw [isFront, isPart, List.append_nil, List.append_nil]⟩
      | cons d further =>
          cases tail
          exact absurd (by rw [isPart]; simp) foreign
  · cases between with
    | nil =>
        cases part with
        | nil => exact Or.inl ⟨[], by rw [isEarlier]; simp⟩
        | cons d part =>
            cases others
            exact absurd List.mem_cons_self foreign
    | cons d between =>
        cases others
        exact Or.inr ⟨between, isEarlier, rfl⟩

theorem isInfix_append_cons_iff {front back : List Char} :
    part <:+: front ++ c :: back ↔ part <:+: front ∨ part <:+: back := by
  constructor
  · rintro ⟨earlier, rest, parts⟩
    rw [List.append_assoc] at parts
    rcases part_before_or_behind foreign parts with ⟨between, isFront⟩ | ⟨between, -, isBack⟩
    · exact Or.inl ⟨earlier, between, by rw [isFront, List.append_assoc]⟩
    · exact Or.inr ⟨between, rest, by rw [isBack, List.append_assoc]⟩
  · rintro (inFront | inBack)
    · exact inFront.trans (List.prefix_append _ _).isInfix
    · exact inBack.trans ((List.suffix_cons c back).trans (List.suffix_append front _)).isInfix

/-- The first part stands behind the character if none is before it. -/
theorem DividesFirst.of_not_isInfix {front : List Char} (absent : ¬part <:+: front)
    (rest : List Char) :
    DividesFirst part (front ++ [c] ++ (part ++ rest)) (front ++ [c]) rest := by
  refine ⟨rfl, ?_⟩
  intro earlier behind parts
  have sameText : earlier ++ (part ++ behind) = front ++ c :: (part ++ rest) := by
    rw [← parts, List.append_assoc, List.singleton_append]
  rcases part_before_or_behind foreign sameText with ⟨between, isFront⟩ | ⟨between, isEarlier, -⟩
  · exact absurd ⟨earlier, between, by rw [isFront, List.append_assoc]⟩ absent
  · rw [isEarlier]
    simp

end Foreign

/-! ## Separators -/

section Separators

variable {separator : Char} {text before after : List Char}

theorem pieces_ne_nil (separator : Char) (text : List Char) : pieces separator text ≠ [] := by
  cases text with
  | nil => exact List.cons_ne_nil _ _
  | cons c rest =>
      unfold pieces
      split
      · exact List.cons_ne_nil _ _
      · split <;> exact List.cons_ne_nil _ _

@[simp] theorem pieces_cons_self (separator : Char) (rest : List Char) :
    pieces separator (separator :: rest) = [] :: pieces separator rest := by
  simp [pieces]

/-- A character that is no separator belongs to the first piece. -/
theorem pieces_cons_of_ne {c : Char} (other : c ≠ separator) (rest : List Char) :
    ∃ piece others, pieces separator rest = piece :: others ∧
      pieces separator (c :: rest) = (c :: piece) :: others := by
  cases found : pieces separator rest with
  | nil => exact absurd found (pieces_ne_nil separator rest)
  | cons piece others => exact ⟨piece, others, rfl, by simp [pieces, other, found]⟩

theorem mem_of_mem_pieces : ∀ piece ∈ pieces separator text, ∀ c ∈ piece, c ∈ text := by
  induction text with
  | nil => simp [pieces]
  | cons d rest inductionHypothesis =>
      by_cases same : d = separator
      · rw [same, pieces_cons_self]
        intro piece member c inPiece
        rcases List.mem_cons.mp member with rfl | later
        · cases inPiece
        · exact List.mem_cons_of_mem _ (inductionHypothesis piece later c inPiece)
      · rcases pieces_cons_of_ne same rest with ⟨first, others, isRest, isText⟩
        rw [isRest] at inductionHypothesis
        rw [isText]
        intro piece member c inPiece
        rcases List.mem_cons.mp member with rfl | later
        · rcases List.mem_cons.mp inPiece with rfl | inFirst
          · exact List.mem_cons_self
          · exact List.mem_cons_of_mem _ (inductionHypothesis _ List.mem_cons_self c inFirst)
        · exact List.mem_cons_of_mem _
            (inductionHypothesis piece (List.mem_cons_of_mem _ later) c inPiece)

/-- Pieces hold no separator. -/
theorem not_mem_of_mem_pieces : ∀ piece ∈ pieces separator text, separator ∉ piece := by
  induction text with
  | nil => simp [pieces]
  | cons c rest inductionHypothesis =>
      by_cases same : c = separator
      · rw [same, pieces_cons_self]
        exact List.forall_mem_cons.mpr ⟨List.not_mem_nil, inductionHypothesis⟩
      · rcases pieces_cons_of_ne same rest with ⟨first, others, isRest, isText⟩
        rw [isRest, List.forall_mem_cons] at inductionHypothesis
        rw [isText]
        refine List.forall_mem_cons.mpr ⟨?_, inductionHypothesis.2⟩
        exact List.not_mem_cons_of_ne_of_not_mem (Ne.symm same) inductionHypothesis.1

theorem pieces_of_not_mem (noSeparator : separator ∉ text) : pieces separator text = [text] := by
  induction text with
  | nil => rfl
  | cons c rest inductionHypothesis =>
      rw [List.mem_cons, not_or] at noSeparator
      simp [pieces, Ne.symm noSeparator.1, inductionHypothesis noSeparator.2]

/-- A separator ends a piece and begins the next one. -/
theorem pieces_append_cons (before after : List Char) :
    pieces separator (before ++ separator :: after) =
      pieces separator before ++ pieces separator after := by
  induction before with
  | nil => simp [pieces]
  | cons c before inductionHypothesis =>
      by_cases same : c = separator
      · rw [same, List.cons_append, pieces_cons_self, pieces_cons_self, inductionHypothesis,
          List.cons_append]
      · rcases pieces_cons_of_ne same before with ⟨piece, others, isBefore, isText⟩
        rw [isBefore, List.cons_append] at inductionHypothesis
        rw [isText, List.cons_append, pieces, if_neg same, inductionHypothesis, List.cons_append]

theorem joinWith_cons (between part : List Char) {others : List (List Char)} (more : others ≠ []) :
    joinWith between (part :: others) = part ++ (between ++ joinWith between others) := by
  cases others with
  | nil => exact absurd rfl more
  | cons next others =>
      rw [joinWith, List.append_assoc]
      exact more

/-- Between two runs of pieces there is a separator again. -/
theorem joinWith_append (separator : Char) {front back : List (List Char)} (atFront : front ≠ [])
    (atBack : back ≠ []) :
    joinWith [separator] (front ++ back) =
      joinWith [separator] front ++ separator :: joinWith [separator] back := by
  induction front with
  | nil => exact absurd rfl atFront
  | cons piece others inductionHypothesis =>
      rw [List.cons_append, joinWith_cons _ _ (List.append_ne_nil_of_right_ne_nil others atBack)]
      by_cases single : others = []
      · subst single
        rfl
      · rw [inductionHypothesis single, joinWith_cons _ _ single, List.append_assoc,
          List.append_assoc]

theorem map_joinWith (f : Char → Char) (between : List Char) (parts : List (List Char)) :
    (joinWith between parts).map f = joinWith (between.map f) (parts.map (List.map f)) := by
  induction parts with
  | nil => rfl
  | cons part others inductionHypothesis =>
      by_cases single : others = []
      · subst single
        rfl
      · rw [joinWith_cons _ _ single, List.map_cons, joinWith_cons _ _ (by simpa using single),
          List.map_append, List.map_append, inductionHypothesis]

/-- The pieces with the separators between them are the text again. -/
theorem joinWith_pieces (separator : Char) (text : List Char) :
    joinWith [separator] (pieces separator text) = text := by
  induction text with
  | nil => rfl
  | cons c rest inductionHypothesis =>
      by_cases same : c = separator
      · rw [same, pieces_cons_self]
        rcases List.exists_cons_of_ne_nil (pieces_ne_nil separator rest) with ⟨piece, others, parts⟩
        rw [parts] at inductionHypothesis ⊢
        rw [joinWith, inductionHypothesis]
        · rfl
        · exact List.cons_ne_nil _ _
      · rcases pieces_cons_of_ne same rest with ⟨piece, others, isRest, isText⟩
        rw [isText]
        rw [isRest] at inductionHypothesis
        cases others with
        | nil => simpa [joinWith] using inductionHypothesis
        | cons second others => simpa [joinWith] using inductionHypothesis

/-- Texts without the separator are the pieces of the text that they are joined to. -/
theorem pieces_joinWith {parts : List (List Char)} (nonempty : parts ≠ [])
    (foreign : ∀ part ∈ parts, separator ∉ part) :
    pieces separator (joinWith [separator] parts) = parts := by
  induction parts with
  | nil => exact absurd rfl nonempty
  | cons part others inductionHypothesis =>
      rw [List.forall_mem_cons] at foreign
      by_cases single : others = []
      · subst single
        exact pieces_of_not_mem foreign.1
      · rw [joinWith_cons _ _ single, List.singleton_append, pieces_append_cons,
          pieces_of_not_mem foreign.1, inductionHypothesis single foreign.2, List.singleton_append]

/-- With a separator in front of a text, what stands in it between two separators are
its pieces up to the last. -/
theorem between_isInfix_iff {name : List Char} (foreign : separator ∉ name) :
    separator :: (name ++ [separator]) <:+: separator :: text ↔
      name ∈ (pieces separator text).dropLast := by
  constructor
  · rintro ⟨earlier, rest, parts⟩
    have cut : [] :: pieces separator text =
        pieces separator earlier ++ name :: pieces separator rest := by
      rw [← pieces_cons_self, ← parts]
      simp only [List.append_assoc, List.cons_append, List.nil_append, pieces_append_cons,
        pieces_of_not_mem foreign]
    rcases List.exists_cons_of_ne_nil (pieces_ne_nil separator earlier) with ⟨first, others, found⟩
    rw [found, List.cons_append, List.cons.injEq] at cut
    rw [cut.2, List.dropLast_append_of_ne_nil (List.cons_ne_nil _ _),
      List.dropLast_cons_of_ne_nil (pieces_ne_nil separator rest)]
    exact List.mem_append_right _ List.mem_cons_self
  · intro member
    rcases List.append_of_mem member with ⟨earlier, later, divided⟩
    have whole : pieces separator text = earlier ++ name ::
        (later ++ [(pieces separator text).getLast (pieces_ne_nil separator text)]) := by
      rw [← List.cons_append, ← List.append_assoc, ← divided, List.dropLast_concat_getLast]
    generalize (pieces separator text).getLast (pieces_ne_nil separator text) = last at whole
    have later_ne_nil : later ++ [last] ≠ [] := List.append_ne_nil_of_right_ne_nil later (by simp)
    have joined : separator :: text = joinWith [separator] ([] :: earlier) ++
        separator :: (name ++ separator :: joinWith [separator] (later ++ [last])) :=
      calc
        separator :: text = joinWith [separator] ([] :: pieces separator text) := by
          rw [joinWith_cons _ _ (pieces_ne_nil separator text), joinWith_pieces]
          rfl
        _ = joinWith [separator] (([] :: earlier) ++ name :: (later ++ [last])) := by
          rw [whole, List.cons_append]
        _ = _ := by
          rw [joinWith_append separator (List.cons_ne_nil _ _) (List.cons_ne_nil _ _),
            joinWith_cons _ _ later_ne_nil, List.singleton_append]
    refine ⟨joinWith [separator] ([] :: earlier), joinWith [separator] (later ++ [last]), ?_⟩
    rw [joined]
    simp only [List.append_assoc, List.cons_append, List.nil_append]

theorem splitLast?_eq_none_iff : splitLast? separator text = none ↔ separator ∉ text := by
  induction text with
  | nil => simp [splitLast?]
  | cons c rest inductionHypothesis =>
      rw [splitLast?, List.mem_cons, not_or]
      cases inRest : splitLast? separator rest with
      | some division =>
          rw [inRest] at inductionHypothesis
          simpa using fun _ => inductionHypothesis
      | none =>
          rw [inRest] at inductionHypothesis
          simpa [eq_comm] using fun _ => inductionHypothesis.mp rfl

theorem splitLast?_append_cons (noSeparator : separator ∉ after) (before : List Char) :
    splitLast? separator (before ++ separator :: after) = some (before, after) := by
  induction before with
  | nil => simp [splitLast?, splitLast?_eq_none_iff.mpr noSeparator]
  | cons c before inductionHypothesis => simp [splitLast?, inductionHypothesis]

/-- A text is cut at its last separator. -/
theorem splitLast?_eq_some_iff :
    splitLast? separator text = some (before, after) ↔
      text = before ++ separator :: after ∧ separator ∉ after := by
  constructor
  · intro found
    induction text generalizing before with
    | nil => cases found
    | cons c rest inductionHypothesis =>
        unfold splitLast? at found
        split at found
        · next front back inRest =>
            cases found
            rcases inductionHypothesis inRest with ⟨rfl, noSeparator⟩
            exact ⟨rfl, noSeparator⟩
        · next noneInRest =>
            split at found
            · next same =>
                cases found
                exact ⟨by rw [same, List.nil_append], splitLast?_eq_none_iff.mp noneInRest⟩
            · cases found
  · rintro ⟨rfl, noSeparator⟩
    exact splitLast?_append_cons noSeparator before

end Separators

/-! ## Trimming -/

theorem dropWhile_append_of_not {α : Type} {test : α → Bool} {x : α} (fails : test x = false)
    (front rest : List α) :
    (front ++ x :: rest).dropWhile test = front.dropWhile test ++ x :: rest := by
  induction front with
  | nil => simp [fails]
  | cons y front inductionHypothesis =>
      cases passes : test y with
      | true => simpa [passes] using inductionHypothesis
      | false => simp [passes]

/-- Trimming takes the blanks around a text without blanks, and nothing else. -/
theorem trimChars_between_blanks {front text back : List Char}
    (blankFront : ∀ c ∈ front, isBlank c = true) (noBlank : ∀ c ∈ text, isBlank c = false)
    (blankBack : ∀ c ∈ back, isBlank c = true) : trimChars (front ++ (text ++ back)) = text := by
  have keepsStart : (text ++ back).dropWhile isBlank = text ++ back ∨ text = [] := by
    cases text with
    | nil => exact Or.inr rfl
    | cons c rest => exact Or.inl (List.dropWhile_cons_of_neg (by simp [noBlank c]))
  have noBlankTurned : text.reverse.dropWhile isBlank = text.reverse := by
    rw [List.dropWhile_eq_self_iff]
    intro nonempty
    simp [noBlank]
  rw [trimChars, List.dropWhile_append_of_pos blankFront]
  rcases keepsStart with keeps | rfl
  · have blankTurned : ∀ c ∈ back.reverse, isBlank c = true := by simpa using blankBack
    rw [keeps, dropEndWhile, List.reverse_append, List.dropWhile_append_of_pos blankTurned,
      noBlankTurned, List.reverse_reverse]
  · rw [List.nil_append, List.dropWhile_eq_nil_iff.mpr blankBack]
    rfl

/-- Trimming goes no further than to a character that is no blank. -/
theorem trimChars_append_of_not {c d : Char} (first : isBlank c = false) (last : isBlank d = false)
    (front middle back : List Char) :
    trimChars (front ++ c :: (middle ++ d :: back)) =
      front.dropWhile isBlank ++ c :: (middle ++ d :: dropEndWhile isBlank back) := by
  rw [trimChars, dropWhile_append_of_not first, dropEndWhile, dropEndWhile]
  have turned : (front.dropWhile isBlank ++ c :: (middle ++ d :: back)).reverse =
      back.reverse ++ d :: (middle.reverse ++ c :: (front.dropWhile isBlank).reverse) := by
    simp
  rw [turned, dropWhile_append_of_not last]
  simp

end ContextPack.Text
