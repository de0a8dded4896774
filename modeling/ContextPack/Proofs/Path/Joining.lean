import ContextPack.Path.Basic
import ContextPack.Proofs.Text.Pieces

namespace ContextPack.Path

/-!
# Paths named from a directory

Two kinds of relative texts lead where it is easy to say: `..` to the directory
around, and a text without dots to a path below, its empty segments left out.

Any other text is a list of steps.  A walk keeps the directory that it has
reached as a stack of names, so two walks in a row are one walk over both lists
of steps, and it ends above the root exactly if the steps outwards outnumber the
names at some point.  Between two joins the directory is a text.  Names are not
empty and hold no slash, so cutting that text gives the stack back.
-/

open Text (pieces joinWith)

/-- A path below a directory, empty segments left out. -/
def below (directory relative : List Char) : List Char :=
  joinWith ['/'] (directorySegments directory ++ (pieces '/' relative).filter (· ≠ []))

theorem joinWith_dropLast_pieces (directory : List Char) :
    joinWith ['/'] (pieces '/' directory).dropLast = parentChars directory := by
  unfold parentChars
  cases found : Text.splitLast? '/' directory with
  | none =>
      rw [Text.pieces_of_not_mem (Text.splitLast?_eq_none_iff.mp found)]
      rfl
  | some division =>
      rcases division with ⟨before, after⟩
      rcases Text.splitLast?_eq_some_iff.mp found with ⟨rfl, noSlash⟩
      rw [Text.pieces_append_cons, Text.pieces_of_not_mem noSlash, List.dropLast_concat,
        Text.joinWith_pieces]

/-- Two dots lead to the directory around; from the root they lead nowhere. -/
theorem joinChars_up (directory : List Char) :
    joinChars directory ['.', '.'] =
      if directory = [] then none else some (parentChars directory) := by
  have segment : pieces '/' ['.', '.'] = [['.', '.']] := by decide
  rw [joinChars, segment]
  by_cases atRoot : directory = []
  · rw [if_pos atRoot, atRoot]
    rfl
  · have listed : directorySegments directory = pieces '/' directory := by
      simp [directorySegments, atRoot]
    have last := List.dropLast_concat_getLast (Text.pieces_ne_nil '/' directory)
    have turned : (directorySegments directory).reverse =
        (pieces '/' directory).getLast (Text.pieces_ne_nil '/' directory) ::
          (pieces '/' directory).dropLast.reverse := by
      rw [listed, ← List.reverse_concat, last]
    rw [if_neg atRoot, turned]
    simp only [walkSegments, walkSegment, Option.map_some, List.reverse_reverse,
      joinWith_dropLast_pieces]

/-! ## Below a directory -/

/-- A segment that does not begin with a dot is taken, unless it is empty. -/
theorem walkSegment_of_head? {segment : List Char} (noDot : segment.head? ≠ some '.')
    (directory : List (List Char)) :
    walkSegment directory segment = some ([segment].filter (· ≠ []) ++ directory) := by
  unfold walkSegment
  split <;> simp_all

theorem walkSegments_of_head? {segments : List (List Char)}
    (noDot : ∀ segment ∈ segments, segment.head? ≠ some '.') (directory : List (List Char)) :
    walkSegments directory segments = some ((segments.filter (· ≠ [])).reverse ++ directory) := by
  induction segments generalizing directory with
  | nil => rfl
  | cons segment rest inductionHypothesis =>
      rw [walkSegments, walkSegment_of_head? (noDot segment List.mem_cons_self)]
      simp only
      rw [inductionHypothesis fun other member => noDot other (List.mem_cons_of_mem _ member)]
      by_cases empty : segment = []
      · simp [empty]
      · simp [empty]

/-- A text without dots never leaves its directory. -/
theorem joinChars_of_not_mem {relative : List Char} (noDot : '.' ∉ relative)
    (directory : List Char) : joinChars directory relative = some (below directory relative) := by
  have noDots : ∀ segment ∈ pieces '/' relative, segment.head? ≠ some '.' := by
    intro segment member first
    exact noDot (Text.mem_of_mem_pieces segment member '.' (List.mem_of_mem_head? first))
  rw [joinChars, walkSegments_of_head? noDots]
  simp [below]

/-! ## From the root -/

/-- A slash in front names no step. -/
theorem joinChars_slash (directory relative : List Char) :
    joinChars directory ('/' :: relative) = joinChars directory relative := by
  rw [joinChars, Text.pieces_cons_self]
  rfl

theorem joinChars_dropWhile_slash (directory relative : List Char) :
    joinChars directory (relative.dropWhile (· = '/')) = joinChars directory relative := by
  induction relative with
  | nil => rfl
  | cons c rest inductionHypothesis =>
      by_cases slash : c = '/'
      · rw [List.dropWhile_cons_of_pos (by simpa using slash), inductionHypothesis, slash,
          joinChars_slash]
      · rw [List.dropWhile_cons_of_neg (by simpa using slash)]

/-! ## Names and other steps -/

/-- The step to the directory around. -/
def outwards : List Char := ['.', '.']

/-- A segment that names a file or a directory, and is no other step. -/
def IsName (segment : List Char) : Prop :=
  segment ≠ [] ∧ segment ≠ ['.'] ∧ segment ≠ outwards

instance : DecidablePred IsName := fun segment =>
  inferInstanceAs (Decidable (segment ≠ [] ∧ segment ≠ ['.'] ∧ segment ≠ outwards))

/-- A directory that is spelled with names only; the root is one. -/
def IsNormal (directory : String) : Prop :=
  ∀ segment ∈ directorySegments directory.toList, IsName segment

/-- What a step can do: nothing, enter a directory, leave one, or fail to leave the root. -/
theorem walkSegment_cases (directory : List (List Char)) (segment : List Char) :
    ((segment = [] ∨ segment = ['.']) ∧ walkSegment directory segment = some directory) ∨
    (IsName segment ∧ walkSegment directory segment = some (segment :: directory)) ∨
    (segment = outwards ∧ ∃ name outer, directory = name :: outer ∧
      walkSegment directory segment = some outer) ∨
    (segment = outwards ∧ directory = [] ∧ walkSegment directory segment = none) := by
  by_cases empty : segment = []
  · subst empty
    exact Or.inl ⟨Or.inl rfl, rfl⟩
  by_cases here : segment = ['.']
  · subst here
    exact Or.inl ⟨Or.inr rfl, rfl⟩
  by_cases up : segment = outwards
  · subst up
    cases directory with
    | nil => exact Or.inr (Or.inr (Or.inr ⟨rfl, rfl, rfl⟩))
    | cons name outer => exact Or.inr (Or.inr (Or.inl ⟨rfl, name, outer, rfl, rfl⟩))
  · refine Or.inr (Or.inl ⟨⟨empty, here, up⟩, ?_⟩)
    unfold walkSegment
    split
    · exact absurd rfl empty
    · exact absurd rfl here
    · exact absurd rfl up
    · rfl

theorem walkSegments_append (directory first second : List (List Char)) :
    walkSegments directory (first ++ second) =
      (walkSegments directory first).bind fun reached => walkSegments reached second := by
  induction first generalizing directory with
  | nil => rfl
  | cons segment rest inductionHypothesis =>
      rw [List.cons_append, walkSegments, walkSegments]
      cases walkSegment directory segment with
      | none => rfl
      | some next => exact inductionHypothesis next

/-- A walk ends below directories that were around its start or that it has entered. -/
theorem mem_of_walkSegments {directory steps reached : List (List Char)}
    (walked : walkSegments directory steps = some reached) :
    ∀ segment ∈ reached, segment ∈ directory ∨ segment ∈ steps ∧ IsName segment := by
  induction steps generalizing directory with
  | nil =>
      cases walked
      exact fun segment member => Or.inl member
  | cons step rest inductionHypothesis =>
      have later {next : List (List Char)} (stepped : walkSegment directory step = some next)
          (segment : List Char) (member : segment ∈ reached) :
          segment ∈ next ∨ segment ∈ step :: rest ∧ IsName segment := by
        rw [walkSegments, stepped] at walked
        exact (inductionHypothesis walked segment member).imp_right fun entered =>
          ⟨List.mem_cons_of_mem step entered.1, entered.2⟩
      intro segment member
      rcases walkSegment_cases directory step with ⟨-, stays⟩ | ⟨isName, enters⟩ |
        ⟨-, name, outer, rfl, leaves⟩ | ⟨-, -, fails⟩
      · exact later stays segment member
      · rcases later enters segment member with inNext | entered
        · rcases List.mem_cons.mp inNext with rfl | around
          · exact Or.inr ⟨List.mem_cons_self, isName⟩
          · exact Or.inl around
        · exact Or.inr entered
      · exact (later leaves segment member).imp_left (List.mem_cons_of_mem name)
      · rw [walkSegments, fails] at walked
        cases walked

/-! ## Leaving the root -/

/-- How many of the steps enter a directory. -/
def nameCount (steps : List (List Char)) : Nat := steps.countP fun step => decide (IsName step)

theorem nameCount_cons (step : List Char) (rest : List (List Char)) :
    nameCount (step :: rest) = nameCount rest + if IsName step then 1 else 0 := by
  simp only [nameCount, List.countP_cons, decide_eq_true_eq]

/-- The steps read so far lead outwards more often than there are names to leave. -/
def IsAbove (depth : Nat) (read : List (List Char)) : Prop :=
  depth + nameCount read < read.count outwards

theorem isAbove_cons_iff_of_idle {depth : Nat} {step : List Char} {read : List (List Char)}
    (idle : step = [] ∨ step = ['.']) : IsAbove depth (step :: read) ↔ IsAbove depth read := by
  have noName : ¬IsName step := by
    rcases idle with rfl | rfl <;> decide
  have noStepOut : step ≠ outwards := by
    rcases idle with rfl | rfl <;> decide
  rw [IsAbove, IsAbove, nameCount_cons, if_neg noName, List.count_cons_of_ne noStepOut,
    Nat.add_zero]

theorem isAbove_cons_iff_of_isName {depth : Nat} {step : List Char} {read : List (List Char)}
    (isName : IsName step) : IsAbove depth (step :: read) ↔ IsAbove (depth + 1) read := by
  rw [IsAbove, IsAbove, nameCount_cons, if_pos isName, List.count_cons_of_ne isName.2.2]
  omega

theorem isAbove_succ_outwards_iff {depth : Nat} {read : List (List Char)} :
    IsAbove (depth + 1) (outwards :: read) ↔ IsAbove depth read := by
  have noName : ¬IsName outwards := by decide
  rw [IsAbove, IsAbove, nameCount_cons, if_neg noName, List.count_cons_self]
  omega

/-- A walk leaves the root exactly if it is above it at some point. -/
theorem walkSegments_eq_none_iff (directory steps : List (List Char)) :
    walkSegments directory steps = none ↔
      ∃ read, read <+: steps ∧ IsAbove directory.length read := by
  have notAtStart (depth : Nat) : ¬IsAbove depth [] := Nat.not_lt_zero _
  induction steps generalizing directory with
  | nil =>
      refine iff_of_false (Option.some_ne_none directory) ?_
      rintro ⟨read, isPrefix, above⟩
      rw [List.prefix_nil.mp isPrefix] at above
      exact notAtStart _ above
  | cons step rest inductionHypothesis =>
      -- The point at which a walk is above the root lies behind its first step.
      have behindFirst (depth : Nat) : (∃ read, read <+: step :: rest ∧ IsAbove depth read) ↔
          ∃ read, read <+: rest ∧ IsAbove depth (step :: read) := by
        constructor
        · rintro ⟨read, isPrefix, above⟩
          rcases List.prefix_cons_iff.mp isPrefix with rfl | ⟨later, rfl, inRest⟩
          · exact absurd above (notAtStart depth)
          · exact ⟨later, inRest, above⟩
        · rintro ⟨read, inRest, above⟩
          exact ⟨step :: read, (List.prefix_cons_inj step).mpr inRest, above⟩
      rw [walkSegments, behindFirst]
      rcases walkSegment_cases directory step with ⟨idle, stays⟩ | ⟨isName, enters⟩ |
        ⟨rfl, name, outer, rfl, leaves⟩ | ⟨rfl, rfl, fails⟩
      · simp only [stays, inductionHypothesis, isAbove_cons_iff_of_idle idle]
      · simp only [enters, inductionHypothesis, isAbove_cons_iff_of_isName isName, List.length_cons]
      · simp only [leaves, inductionHypothesis, List.length_cons, isAbove_succ_outwards_iff]
      · simp only [fails, true_iff]
        exact ⟨[], List.nil_prefix, Nat.lt_add_one 0⟩

/-! ## Directories as texts -/

/-- A directory that is put together from names is cut into them again. -/
theorem directorySegments_joinWith {names : List (List Char)}
    (areNames : ∀ name ∈ names, IsName name ∧ '/' ∉ name) :
    directorySegments (joinWith ['/'] names) = names := by
  by_cases atRoot : names = []
  · subst atRoot
    rfl
  · have cut := Text.pieces_joinWith atRoot fun name member => (areNames name member).2
    have nonempty : joinWith ['/'] names ≠ [] := by
      intro nothing
      rw [nothing] at cut
      exact (areNames [] (by rw [← cut]; exact List.mem_cons_self)).1.1 rfl
    rw [directorySegments, List.isEmpty_eq_false_iff.mpr nonempty]
    exact cut

theorem not_mem_of_mem_directorySegments {directory : List Char} :
    ∀ segment ∈ directorySegments directory, '/' ∉ segment := by
  unfold directorySegments
  split
  · exact fun segment member => absurd member List.not_mem_nil
  · exact Text.not_mem_of_mem_pieces

/-- Where a join of a directory that is spelled with names ends, as names. -/
theorem exists_of_joinChars {directory relative result : List Char}
    (areNames : ∀ segment ∈ directorySegments directory, IsName segment)
    (joined : joinChars directory relative = some result) :
    ∃ reached, walkSegments (directorySegments directory).reverse (pieces '/' relative) =
        some reached ∧
      directorySegments result = reached.reverse ∧ ∀ segment ∈ reached, IsName segment := by
  rcases Option.map_eq_some_iff.mp joined with ⟨reached, walked, rfl⟩
  have named : ∀ segment ∈ reached, IsName segment ∧ '/' ∉ segment := by
    intro segment member
    rcases mem_of_walkSegments walked segment member with around | ⟨entered, isName⟩
    · have inDirectory := List.mem_reverse.mp around
      exact ⟨areNames segment inDirectory, not_mem_of_mem_directorySegments segment inDirectory⟩
    · exact ⟨isName, Text.not_mem_of_mem_pieces segment entered⟩
  refine ⟨reached, walked, directorySegments_joinWith ?_, fun segment member => (named segment member).1⟩
  simpa using named

theorem joinChars_eq_none_iff (directory relative : List Char) :
    joinChars directory relative = none ↔
      ∃ read, read <+: pieces '/' relative ∧
        IsAbove (directorySegments directory).length read := by
  rw [joinChars, Option.map_eq_none_iff, walkSegments_eq_none_iff, List.length_reverse]

theorem bind_joinChars {directory : List Char}
    (areNames : ∀ segment ∈ directorySegments directory, IsName segment)
    (first second : List Char) :
    ((joinChars directory first).bind fun reached => joinChars reached second) =
      joinChars directory (first ++ '/' :: second) := by
  have asOne : joinChars directory (first ++ '/' :: second) =
      ((walkSegments (directorySegments directory).reverse (pieces '/' first)).bind fun reached =>
        walkSegments reached (pieces '/' second)).map fun result => joinWith ['/'] result.reverse := by
    rw [joinChars, Text.pieces_append_cons, walkSegments_append]
  rw [asOne]
  cases joined : joinChars directory first with
  | none =>
      rw [joinChars, Option.map_eq_none_iff] at joined
      rw [joined]
      rfl
  | some result =>
      rcases exists_of_joinChars areNames joined with ⟨reached, walked, cut, -⟩
      rw [walked, Option.bind_some, Option.bind_some, joinChars, cut, List.reverse_reverse]

/-- Joining nothing stays where one is. -/
theorem joinChars_nil (directory : List Char) : joinChars directory [] = some directory := by
  have idle : walkSegments (directorySegments directory).reverse (pieces '/' []) =
      some (directorySegments directory).reverse := rfl
  rw [joinChars, idle, Option.map_some, List.reverse_reverse, directorySegments]
  split
  · next atRoot => rw [List.isEmpty_iff.mp atRoot]; rfl
  · rw [Text.joinWith_pieces]

/-! ## Joins -/

theorem toList_slash (first second : String) :
    (first ++ "/" ++ second).toList = first.toList ++ '/' :: second.toList := by
  simp [String.toList_append]

/-- Two joins in a row are one join of both texts with a slash between them.  What they reach
is spelled with names again, and they fail exactly if the steps outwards outnumber the names of
the directory and those read so far. -/
theorem join_composes {directory : String} (isNormal : IsNormal directory) :
    (∀ first second, ((join directory first).bind fun reached => join reached second) =
      join directory (first ++ "/" ++ second)) ∧
    (∀ relative result, join directory relative = some result → IsNormal result) ∧
    (∀ relative, join directory relative = none ↔ ∃ read, read <+: segments relative ∧
      (directorySegments directory.toList).length +
        nameCount read < read.count outwards) ∧
    join directory "" = some directory := by
  refine ⟨fun first second => ?_, fun relative result joined => ?_, fun relative => ?_, ?_⟩
  · rw [join, join, toList_slash, ← bind_joinChars isNormal]
    cases joinChars directory.toList first.toList with
    | none => rfl
    | some reached =>
        rw [Option.map_some, Option.bind_some, Option.bind_some, join, String.toList_ofList]
  · rcases Option.map_eq_some_iff.mp joined with ⟨reached, joinedChars, rfl⟩
    rcases exists_of_joinChars isNormal joinedChars with ⟨names, -, cut, areNames⟩
    rw [IsNormal, String.toList_ofList, cut]
    simpa using areNames
  · rw [join, Option.map_eq_none_iff]
    exact joinChars_eq_none_iff directory.toList relative.toList
  · rw [join, String.toList_empty, joinChars_nil, Option.map_some, String.ofList_toList]

/-- From a package two directories deep, two steps outwards reach the root and a third one
leaves it, in one join or in two. -/
theorem join_composes_of_package :
    IsNormal "app/core" ∧
      (join "app/core" "..").bind (fun reached => join reached "./.././/lib") =
        join "app/core" ".././.././/lib" ∧
      join "app/core" "../x/../../../lib" = none := by
  have isNormal : IsNormal "app/core" := by
    unfold IsNormal
    decide +kernel
  rcases join_composes isNormal with ⟨composes, -, leaves, -⟩
  refine ⟨isNormal, composes ".." "./.././/lib", (leaves _).mpr ⟨segments "../x/../../..", ?_, ?_⟩⟩
  · decide +kernel
  · decide +kernel

end ContextPack.Path
