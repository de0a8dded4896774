import ContextPack.Lexical.Terms
import ContextPack.Proofs.Data.Tally
import ContextPack.Proofs.Lexical.Holders
import ContextPack.Proofs.Text.Case
import ContextPack.Symbols.Patterns
import Mathlib

namespace ContextPack.Lexical

/-!
# Terms are word runs

Words are read from left to right, each from its first letter or underscore on.
Splitting a text at everything that is no word character, and only then dropping
the digits in front, gives the same words.  A term is therefore counted once for
each run of word characters that is written as it, whatever its letters' case.

The words are also what the search for the pattern of an identifier captures.  It
repeats the class of word characters as often as it can, and what comes after that
is free, so it never has to go back.
-/

/-! ## What the words are to be -/

def isSeparator (c : Char) : Bool := !isWordChar c

/-- The maximal runs of word characters, in their order. -/
def runs (text : List Char) : List (List Char) :=
  (text.splitOnP isSeparator).filter fun run => !run.isEmpty

/-- What a run of word characters stands for: the run in small letters, without
the digits that it begins with. -/
def termOf (run : List Char) : String :=
  String.ofList (Text.lowerAscii (run.dropWhile Char.isDigit))

/-- How many runs of a text stand for a term. -/
def runCount (text term : String) : Nat :=
  (runs text.toList).countP fun run => termOf run = term

/-- Neither too short nor without meaning. -/
def IsTerm (minLength : Nat) (term : String) : Prop :=
  term ≠ "" ∧ minLength ≤ term.length ∧ term ∉ stopWords

instance (minLength : Nat) (term : String) : Decidable (IsTerm minLength term) :=
  inferInstanceAs (Decidable (_ ∧ _ ∧ _))

/-- What a table of frequencies says of a term, zero if it says nothing. -/
def frequencyIn (table : List (String × Nat)) (term : String) : Nat := (table.lookup term).getD 0

/-! ## Scanning and splitting -/

/-- Pieces of a text without the digits in front of them, empty ones left out. -/
def withoutDigits (pieces : List (List Char)) : List (List Char) :=
  (pieces.map (List.dropWhile Char.isDigit)).filter fun word => !word.isEmpty

theorem withoutDigits_cons (piece : List Char) (others : List (List Char)) :
    withoutDigits (piece :: others) =
      if (piece.dropWhile Char.isDigit).isEmpty then withoutDigits others
      else piece.dropWhile Char.isDigit :: withoutDigits others := by
  rw [withoutDigits, List.map_cons, List.filter_cons, withoutDigits]
  cases (piece.dropWhile Char.isDigit).isEmpty <;> rfl

theorem rdropWhile_cons (p : Char → Bool) (c : Char) (run : List Char) :
    (c :: run).rdropWhile p =
      if (run.rdropWhile p).isEmpty then if p c then [] else [c] else c :: run.rdropWhile p := by
  rw [List.rdropWhile, List.reverse_cons, List.dropWhile_append, List.rdropWhile,
    List.isEmpty_reverse]
  split
  · cases isDropped : p c with
    | true => rw [List.dropWhile_cons_of_pos isDropped]; rfl
    | false => rw [List.dropWhile_cons_of_neg (by simp [isDropped])]; rfl
  · rw [List.reverse_append, List.reverse_singleton, List.singleton_append]

/-- A word that is being read is the run that is being read, without the digits
in front.  Both are kept with their last character first. -/
theorem scanWords_eq (run text : List Char) :
    scanWords (run.rdropWhile Char.isDigit) text =
      withoutDigits (List.splitOnPPrepend isSeparator text run) := by
  induction text generalizing run with
  | nil =>
      rw [List.splitOnPPrepend_nil, withoutDigits_cons, scanWords, List.rdropWhile,
        List.isEmpty_reverse, List.reverse_reverse]
      rfl
  | cons c rest inductionHypothesis =>
      cases isWord : isWordChar c with
      | true =>
          have inRun : isSeparator c = false := by rw [isSeparator, isWord, Bool.not_true]
          rw [List.splitOnPPrepend_cons_neg inRun, ← inductionHypothesis, rdropWhile_cons, scanWords,
            isWord, Bool.true_and]
          cases (run.rdropWhile Char.isDigit).isEmpty <;> cases c.isDigit <;> rfl
      | false =>
          have behind : isSeparator c = true := by rw [isSeparator, isWord, Bool.not_false]
          have later := inductionHypothesis []
          rw [List.rdropWhile_nil, List.splitOnPPrepend_nil_right] at later
          rw [List.splitOnPPrepend_cons_pos behind, withoutDigits_cons, ← later, scanWords, isWord,
            Bool.false_and, List.rdropWhile, List.isEmpty_reverse, List.reverse_reverse]
          rfl

theorem words_eq (text : List Char) : words text = withoutDigits (runs text) := by
  have scanned := scanWords_eq [] text
  rw [List.rdropWhile_nil, List.splitOnPPrepend_nil_right] at scanned
  rw [words, scanned, withoutDigits, withoutDigits, runs, List.filter_map, List.filter_map,
    List.filter_filter]
  congr 2
  funext piece
  cases piece with
  | nil => rfl
  | cons c rest => exact (Bool.and_true _).symm

/-- A run stands for a term if a word is left of it that is one. -/
theorem isTerm_termOf_iff (minLength : Nat) (run : List Char) :
    IsTerm minLength (termOf run) ↔ run.dropWhile Char.isDigit ≠ [] ∧
      minLength ≤ (run.dropWhile Char.isDigit).length ∧ termOf run ∉ stopWords := by
  rw [IsTerm, termOf, String.length_ofList, Text.lowerAscii, List.length_map, ne_eq,
    String.ofList_eq_empty_iff, List.map_eq_nil_iff]

/-- The terms of a text are what its runs stand for, as far as these are terms. -/
theorem terms_eq (minLength : Nat) (text : List Char) :
    terms minLength text = ((runs text).map termOf).filter (IsTerm minLength ·) := by
  rw [terms, words_eq, withoutDigits, List.filterMap_filter, List.filterMap_map,
    ← List.filterMap_eq_filter, List.filterMap_map]
  congr 1
  funext run
  simp only [Function.comp_apply, Option.guard, decide_eq_true_eq, isTerm_termOf_iff]
  rw [ite_and]
  refine if_congr (by simp) ?_ rfl
  rw [← termOf, ← ite_not]
  exact if_congr (by simp) rfl rfl

/-! ## Searching for identifiers -/

section Search

open Pattern Symbols

/-- A word that has begun goes on as long as there are word characters. -/
theorem scanWords_of_ne_nil {inside : List Char} (begun : inside ≠ []) (text : List Char) :
    scanWords inside text =
      (inside.reverse ++ text.takeWhile isWordChar) :: words (text.dropWhile isWordChar) := by
  induction text generalizing inside with
  | nil => simp [scanWords, words, begun]
  | cons c rest inductionHypothesis =>
      rw [scanWords, if_neg (by simpa using begun)]
      cases isWord : isWordChar c with
      | true =>
          rw [if_pos rfl, inductionHypothesis (List.cons_ne_nil c inside),
            List.takeWhile_cons_of_pos isWord, List.dropWhile_cons_of_pos isWord]
          simp
      | false =>
          have noWord : ¬isWordChar c = true := by simp [isWord]
          rw [if_neg (by simp), List.takeWhile_cons_of_neg noWord, List.dropWhile_cons_of_neg noWord,
            List.append_nil]
          simp [words, scanWords, isWord]

theorem words_cons_of_start {c : Char} (starts : (isWordChar c && !c.isDigit) = true)
    (text : List Char) :
    words (c :: text) = (c :: text.takeWhile isWordChar) :: words (text.dropWhile isWordChar) := by
  rw [words, scanWords, List.isEmpty_nil, if_pos rfl, if_pos starts,
    scanWords_of_ne_nil (List.cons_ne_nil c []), List.reverse_singleton, List.singleton_append]

theorem words_cons_of_not_start {c : Char} (noStart : (isWordChar c && !c.isDigit) = false)
    (text : List Char) : words (c :: text) = words text := by
  rw [words, scanWords, List.isEmpty_nil, if_pos rfl, noStart, words]
  rfl

/-- The place in a text of which so much is left. -/
def placeOf (previous : Option Char) (text : List Char) : Place := ⟨previous, text, text.length⟩

variable (isWord : Char → Bool)

theorem fit_char (test : Char → Bool) (rest : Rest) (previous : Option Char) (text : List Char)
    (captured : Option (List Char)) :
    fit isWord (.char test) rest ⟨placeOf previous text, captured⟩ =
      match text with
      | [] => none
      | c :: others =>
        if test c then rest ⟨placeOf (some c) others, captured⟩ else none := by
  cases text <;> rfl

/-- If what comes after cannot fail, a repeated class takes all characters that it can. -/
theorem greedy_char (test : Char → Bool) (keep : Match → Match) (text : List Char)
    (previous : Option Char) (captured : Option (List Char)) :
    ∃ last, greedy (fit isWord (.char test)) (fun found => some (keep found)) text.length
        ⟨placeOf previous text, captured⟩ =
      some (keep ⟨placeOf last (text.dropWhile test), captured⟩) := by
  induction text generalizing previous with
  | nil => exact ⟨previous, rfl⟩
  | cons c others inductionHypothesis =>
      rw [List.length_cons, greedy, fit_char]
      by_cases passes : test c = true
      · rcases inductionHypothesis (some c) with ⟨last, taken⟩
        have behind : (⟨placeOf (some c) others, captured⟩ : Match).isBehind
            ⟨placeOf previous (c :: others), captured⟩ = true :=
          decide_eq_true (Nat.lt_succ_self others.length)
        refine ⟨last, ?_⟩
        simp only [passes, if_true, behind, taken, List.dropWhile_cons_of_pos passes]
      · refine ⟨previous, ?_⟩
        simp only [passes, List.dropWhile_cons_of_neg passes]
        rfl

theorem asciiWord_eq : asciiWord = isWordChar := rfl

theorem isDigit_of_isAlpha {c : Char} (isLetter : c.isAlpha = true) : c.isDigit = false := by
  grind [Char.isAlpha, Char.isUpper, Char.isLower, Char.isDigit]

/-- Words begin with the characters that begin an identifier. -/
theorem asciiLetter_eq (c : Char) : asciiLetter c = (isWordChar c && !c.isDigit) := by
  cases isLetter : c.isAlpha with
  | true => simp [asciiLetter, isWordChar, Char.isAlphanum, isLetter, isDigit_of_isAlpha isLetter]
  | false =>
      cases isDigit : c.isDigit with
      | true =>
          have noUnderscore : c ≠ '_' := by
            rintro rfl
            cases isDigit
          simp [asciiLetter, isLetter, noUnderscore]
      | false => simp [asciiLetter, isWordChar, Char.isAlphanum, isLetter, isDigit, beq_eq_decide]

/-- No identifier begins at the end of a text, nor where neither a letter nor an underscore
stands. -/
theorem matchAt_identifier_eq_none {previous : Option Char} {text : List Char}
    (noStart : ∀ c, text.head? = some c → asciiLetter c = false) :
    matchAt isWord (.capture identifierPattern) (placeOf previous text) = none := by
  rw [matchAt, fit, identifierPattern, fit, fit_char]
  split
  · rfl
  · next c others => rw [if_neg (by simp [noStart c rfl])]

/-- One that begins ends with the word characters. -/
theorem exists_matchAt_identifier {c : Char} (starts : asciiLetter c = true)
    (previous : Option Char) (others : List Char) :
    ∃ last, matchAt isWord (.capture identifierPattern) (placeOf previous (c :: others)) =
      some ⟨placeOf last (others.dropWhile isWordChar), some (c :: others.takeWhile isWordChar)⟩ := by
  let keep (later : Match) : Match :=
    ⟨later.place, some ((c :: others).take ((c :: others).length - later.place.left))⟩
  rcases greedy_char isWord isWordChar keep others (some c) none with ⟨last, taken⟩
  refine ⟨last, ?_⟩
  have whole := congrArg List.length (@List.takeWhile_append_dropWhile _ isWordChar others)
  rw [List.length_append] at whole
  have group : (c :: others).take ((c :: others).length - (others.dropWhile isWordChar).length) =
      c :: others.takeWhile isWordChar := by
    have long : (c :: others).length - (others.dropWhile isWordChar).length =
        (others.takeWhile isWordChar).length + 1 := by
      rw [List.length_cons]
      omega
    rw [long, List.take_succ_cons, ← List.prefix_iff_eq_take.mp (List.takeWhile_prefix isWordChar)]
  rw [matchAt, fit, identifierPattern, fit, fit_char]
  simp only [starts, if_true]
  rw [fit, asciiWord_eq]
  exact taken.trans (congrArg (fun group => some (⟨_, some group⟩ : Match)) group)

/-- A search with fuel for every character goes from one word to the next one. -/
theorem search_identifier (fuel : Nat) (previous : Option Char) (text : List Char)
    (enough : text.length < fuel) :
    (search isWord (.capture identifierPattern) fuel (placeOf previous text)).map
      (fun found => found.captured.getD []) = words text := by
  induction fuel generalizing previous text with
  | zero => exact absurd enough (Nat.not_lt_zero _)
  | succ fuel inductionHypothesis =>
      rw [search]
      cases text with
      | nil =>
          rw [matchAt_identifier_eq_none isWord (by simp)]
          rfl
      | cons c others =>
          have shorter : others.length < fuel := Nat.lt_of_succ_lt_succ enough
          cases starts : asciiLetter c with
          | false =>
              have noStart : ∀ first, (c :: others).head? = some first →
                  asciiLetter first = false := by
                rintro first same
                cases same
                exact starts
              rw [matchAt_identifier_eq_none isWord noStart]
              have later := inductionHypothesis (some c) others shorter
              rw [asciiLetter_eq] at starts
              rw [words_cons_of_not_start starts, ← later]
              rfl
          | true =>
              rcases exists_matchAt_identifier isWord starts previous others with ⟨last, found⟩
              have left := (List.dropWhile_suffix isWordChar (l := others)).length_le
              have later := inductionHypothesis last (others.dropWhile isWordChar)
                (left.trans_lt shorter)
              have onwards : (placeOf previous (c :: others)).after?
                  (some ⟨placeOf last (others.dropWhile isWordChar),
                    some (c :: others.takeWhile isWordChar)⟩) =
                  some (placeOf last (others.dropWhile isWordChar)) :=
                if_pos (left.trans_lt (Nat.lt_succ_self _))
              rw [asciiLetter_eq] at starts
              rw [found, onwards, words_cons_of_start starts, ← later]
              rfl

/-- The search for identifiers captures the words of a text. -/
theorem captures_identifier (text : List Char) :
    captures isWord (.capture identifierPattern) text = words text :=
  search_identifier isWord (text.length + 1) none text (Nat.lt_succ_self _)

end Search

/-! ## Counting -/

theorem isSortingTest_le : IsSortingTest Text.le where
  trans := Text.le_trans_bool
  total := Text.le_total_bool
  antisymm a b first second := le_antisymm ((Text.le_iff a b).mp first) ((Text.le_iff b a).mp second)

theorem count_terms (minLength : Nat) (text term : String) :
    (terms minLength text.toList).count term =
      if IsTerm minLength term then runCount text term else 0 := by
  rw [terms_eq]
  split
  · next isTerm =>
      rw [List.count_filter (by simpa using isTerm), List.count_eq_countP, List.countP_map, runCount]
      exact List.countP_congr fun run _ => by simp
  · next noTerm =>
      refine List.count_eq_zero_of_not_mem fun member => noTerm ?_
      exact of_decide_eq_true (List.mem_filter.mp member).2

theorem frequencyIn_frequencies (minLength : Nat) (text term : String) :
    frequencyIn (frequencies minLength text) term =
      if IsTerm minLength term then runCount text term else 0 := by
  rw [frequencyIn, frequencies, getD_lookup_tally isSortingTest_le, count_terms]

theorem mem_frequencies (minLength : Nat) (text term : String) (count : Nat) :
    (term, count) ∈ frequencies minLength text ↔
      IsTerm minLength term ∧ 0 < count ∧ count = runCount text term := by
  rw [frequencies, mem_tally isSortingTest_le, count_terms]
  by_cases isTerm : IsTerm minLength term
  · rw [if_pos isTerm, and_iff_right isTerm]
  · rw [if_neg isTerm]
    exact iff_of_false (fun claimed => absurd claimed.2 claimed.1.ne') fun claimed => isTerm claimed.1

/-- An index of texts is built from documents that list no term twice. -/
theorem distinctTerms_frequencies (minLength : Nat) (texts : List String) :
    DistinctTerms (texts.map (frequencies minLength)) := by
  intro document member
  rcases List.mem_map.mp member with ⟨text, -, rfl⟩
  exact (tally_spec isSortingTest_le _).1

/-! ## Texts put together -/

theorem runs_append_cons {separator : Char} (isSep : isSeparator separator = true)
    (text other : List Char) : runs (text ++ separator :: other) = runs text ++ runs other := by
  rw [runs, List.splitOnP_append_cons text other isSep, List.filter_append, runs, runs]

theorem runCount_append {separator : Char} (isSep : isSeparator separator = true)
    (text other term : String) :
    runCount (text ++ separator.toString ++ other) term =
      runCount text term + runCount other term := by
  have parts : (text ++ separator.toString ++ other).toList =
      text.toList ++ separator :: other.toList := by
    rw [String.toList_append, String.toList_append, Char.toString_eq_singleton,
      String.toList_singleton, List.append_assoc, List.singleton_append]
  rw [runCount, parts, runs_append_cons isSep, List.countP_append, runCount, runCount]

/-! ## Letters' case -/

theorem isDigit_toLower (c : Char) : c.toLower.isDigit = c.isDigit := by
  by_cases isLetter : c.isAlpha = true
  · have stays : c.toLower.isAlpha = true := by rw [Char.isAlpha_toLower_eq_isAlpha, isLetter]
    rw [isDigit_of_isAlpha isLetter, isDigit_of_isAlpha stays]
  · rw [Text.toLower_of_not_isAlpha isLetter]

theorem isWordChar_toLower (c : Char) : isWordChar c.toLower = isWordChar c := by
  by_cases isLetter : c.isAlpha = true
  · rw [isWordChar, isWordChar, Char.isAlphanum, Char.isAlphanum, Char.isAlpha_toLower_eq_isAlpha,
      isLetter]
    rfl
  · rw [Text.toLower_of_not_isAlpha isLetter]

theorem splitOnPPrepend_map (f : Char → Char) (p : Char → Bool) (text run : List Char) :
    List.splitOnPPrepend p (text.map f) (run.map f) =
      (List.splitOnPPrepend (p ∘ f) text run).map (List.map f) := by
  induction text generalizing run with
  | nil =>
      rw [List.map_nil, List.splitOnPPrepend_nil, List.splitOnPPrepend_nil, List.map_singleton,
        List.map_reverse]
  | cons c rest inductionHypothesis =>
      have ofNil := inductionHypothesis []
      rw [List.map_nil, List.splitOnPPrepend_nil_right, List.splitOnPPrepend_nil_right] at ofNil
      rw [List.map_cons, List.splitOnPPrepend_cons_eq_if, List.splitOnPPrepend_cons_eq_if, ofNil,
        ← List.map_cons, inductionHypothesis, Function.comp_apply]
      split
      · rw [List.map_cons, List.map_reverse]
      · rfl

theorem runs_lowerAscii (text : List Char) :
    runs (Text.lowerAscii text) = (runs text).map Text.lowerAscii := by
  have same : isSeparator ∘ Char.toLower = isSeparator :=
    funext fun c => congrArg (! ·) (isWordChar_toLower c)
  have pieces := splitOnPPrepend_map Char.toLower isSeparator text []
  rw [List.map_nil, List.splitOnPPrepend_nil_right, List.splitOnPPrepend_nil_right, same] at pieces
  rw [runs, runs, Text.lowerAscii, pieces, List.filter_map]
  congr 2
  funext run
  rw [Function.comp_apply, List.isEmpty_map]

theorem termOf_lowerAscii (run : List Char) : termOf (Text.lowerAscii run) = termOf run := by
  have same : Char.isDigit ∘ Char.toLower = Char.isDigit := funext isDigit_toLower
  rw [termOf, termOf, Text.lowerAscii, Text.lowerAscii, Text.lowerAscii, List.dropWhile_map, same,
    List.map_map]
  congr 2
  funext c
  exact Char.toLower_toLower_eq_toLower c

theorem frequencies_congr (minLength : Nat) {text other : String}
    (same : Text.lowerAscii text.toList = Text.lowerAscii other.toList) :
    frequencies minLength text = frequencies minLength other := by
  have small (text : String) : (runs text.toList).map termOf =
      (runs (Text.lowerAscii text.toList)).map termOf := by
    rw [runs_lowerAscii, List.map_map]
    exact List.map_congr_left fun run _ => (termOf_lowerAscii run).symm
  rw [frequencies, frequencies, terms_eq, terms_eq, small text, small other, same]

/-- A text's terms are what its runs of word characters stand for, each with the
number of these runs.  What stands on either side of a separator counts apart, and
the case of letters is of no account. -/
theorem frequencies_count_runs (minLength : Nat) (text : String) :
    ((frequencies minLength text).map Prod.fst).Nodup ∧
    (∀ term count, (term, count) ∈ frequencies minLength text ↔
      IsTerm minLength term ∧ 0 < count ∧ count = runCount text term) ∧
    (∀ (separator : Char) (other term : String), isWordChar separator = false →
      frequencyIn (frequencies minLength (text ++ separator.toString ++ other)) term =
        frequencyIn (frequencies minLength text) term +
          frequencyIn (frequencies minLength other) term) ∧
    ∀ other, Text.lowerAscii other.toList = Text.lowerAscii text.toList →
      frequencies minLength other = frequencies minLength text := by
  refine ⟨(tally_spec isSortingTest_le _).1, mem_frequencies minLength text, ?_,
    fun other same => frequencies_congr minLength same⟩
  intro separator other term noWordChar
  have isSep : isSeparator separator = true := by rw [isSeparator, noWordChar, Bool.not_false]
  rw [frequencyIn_frequencies, frequencyIn_frequencies, frequencyIn_frequencies,
    runCount_append isSep]
  split <;> rfl

/-- The digits in front are dropped, the stop word counts nothing and capitals
count as small letters. -/
theorem frequencies_count_runs_of_digits :
    isWordChar '-' = false ∧
      Text.lowerAscii "123ABC".toList = Text.lowerAscii "123abc".toList ∧
      frequencyIn (frequencies 3 ("123ABC" ++ '-'.toString ++ "for Abc9_abc abc")) "abc" = 2 ∧
      frequencies 3 "123ABC" = frequencies 3 "123abc" := by
  have noWordChar : isWordChar '-' = false := by decide
  have sameLetters : Text.lowerAscii "123ABC".toList = Text.lowerAscii "123abc".toList := by decide
  refine ⟨noWordChar, sameLetters, ?_, (frequencies_count_runs 3 "123abc").2.2.2 "123ABC" sameLetters⟩
  rw [(frequencies_count_runs 3 "123ABC").2.2.1 '-' "for Abc9_abc abc" "abc" noWordChar,
    frequencyIn_frequencies, frequencyIn_frequencies]
  decide +kernel

end ContextPack.Lexical
