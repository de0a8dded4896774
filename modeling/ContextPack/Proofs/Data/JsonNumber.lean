import ContextPack.Data.JsonText
import Mathlib.Data.List.Basic
import Mathlib.Data.List.TakeDrop

namespace ContextPack
namespace JsonText

/-!
# Numbers in JSON text

A number is digits, perhaps a point with more digits, and perhaps an exponent.
Each part ends where a character stands that cannot continue it, so the parts
are found again in the text.  What they are worth is left to `RealText`, unless
there are nothing but digits: these are a whole number.
-/

/-! ## Parts of a number -/

/-- Digits that may stand before the point: a zero only by itself. -/
structure IsWhole (digits : List Char) : Prop where
  all_digits : ∀ c ∈ digits, c.isDigit = true
  nonempty : digits ≠ []
  leading : digits.head? = some '0' → digits = ['0']

/-- Digits that may stand behind the point. -/
structure IsFraction (digits : List Char) : Prop where
  all_digits : ∀ c ∈ digits, c.isDigit = true
  nonempty : digits ≠ []

/-- A point with digits behind it. -/
def fractionPart : Option (List Char) → List Char
  | none => []
  | some digits => '.' :: digits

/-- An exponent with its sign. -/
def exponentPart : Option Int → List Char
  | none => []
  | some exponent => 'e' :: (if exponent < 0 then '-' else '+') :: Nat.toDigits 10 exponent.natAbs

/-- The text goes on with something that does not belong to a number. -/
def StopsNumber (rest : List Char) : Prop :=
  ∀ c, rest.head? = some c → c.isDigit = false ∧ c ≠ '.' ∧ c ≠ 'e' ∧ c ≠ 'E'

/-! ## Digits -/

theorem digitsValue_toDigits (n : Nat) : digitsValue (Nat.toDigits 10 n) = n :=
  Nat.ofDigitChars_toDigits (by decide) (by decide)

theorem isDigit_of_mem_toDigits {n : Nat} : ∀ c ∈ Nat.toDigits 10 n, c.isDigit = true :=
  fun _ => Nat.isDigit_of_mem_toDigits (by decide) (by decide)

theorem head?_toDigits (n : Nat) : (Nat.toDigits 10 n).head? = some '0' ↔ n = 0 := by
  induction n using Nat.strongRecOn with
  | ind n inductionHypothesis =>
      rw [Nat.toDigits_eq_if (by decide)]
      split
      · rw [List.head?_singleton, Option.some_inj, Nat.digitChar_eq_zero]
      · next large =>
          have smaller : n / 10 < n := by omega
          rw [List.head?_append_of_ne_nil _ Nat.toDigits_ne_nil, inductionHypothesis _ smaller]
          omega

theorem isWhole_toDigits (n : Nat) : IsWhole (Nat.toDigits 10 n) where
  all_digits := isDigit_of_mem_toDigits
  nonempty := Nat.toDigits_ne_nil
  leading zero := by
    rw [(head?_toDigits n).mp zero]
    rfl

theorem writeInteger_eq (value : Int) :
    writeInteger value =
      if value < 0 then '-' :: Nat.toDigits 10 value.natAbs else Nat.toDigits 10 value.natAbs := by
  cases value with
  | ofNat n =>
      have digits : writeInteger (Int.ofNat n) = n.repr.toList := rfl
      rw [digits, Nat.toList_repr]
      exact (if_neg (Int.not_lt.mpr (Int.natCast_nonneg n))).symm
  | negSucc n =>
      have digits : writeInteger (Int.negSucc n) = ("-" ++ (n + 1).repr).toList := rfl
      rw [digits, String.toList_append, Nat.toList_repr]
      exact (if_pos (Int.negSucc_lt_zero n)).symm

/-- Digits are read up to the first character that is none. -/
theorem spanDigits_append {digits rest : List Char} (all_digits : ∀ c ∈ digits, c.isDigit = true)
    (stops : ∀ c, rest.head? = some c → c.isDigit = false) :
    spanDigits (digits ++ rest) = (digits, rest) := by
  have stopped : rest.takeWhile Char.isDigit = [] ∧ rest.dropWhile Char.isDigit = rest := by
    cases rest with
    | nil => exact ⟨rfl, rfl⟩
    | cons c rest =>
        have noDigit : ¬c.isDigit = true := Bool.eq_false_iff.mp (stops c rfl)
        exact ⟨List.takeWhile_cons_of_neg noDigit, List.dropWhile_cons_of_neg noDigit⟩
  rw [spanDigits, List.span_eq_takeWhile_dropWhile, List.takeWhile_append_of_pos all_digits,
    List.dropWhile_append_of_pos all_digits, stopped.1, stopped.2, List.append_nil]

/-! ## Reading the parts -/

section Reading

variable {rest : List Char}

theorem readExponent_exponentPart (exponent : Option Int) (stops : StopsNumber rest) :
    readExponent (exponentPart exponent ++ rest) = some (exponent, rest) := by
  have noDigit (c : Char) (first : rest.head? = some c) : c.isDigit = false := (stops c first).1
  cases exponent with
  | none =>
      cases rest with
      | nil => rfl
      | cons c rest =>
          have noMark : ¬(c = 'e' ∨ c = 'E') := not_or.mpr (stops c rfl).2.2
          rw [exponentPart, List.nil_append, readExponent.eq_def]
          simp only [noMark, if_false]
  | some exponent =>
      have digits := spanDigits_append (isDigit_of_mem_toDigits (n := exponent.natAbs)) noDigit
      have nonempty : (Nat.toDigits 10 exponent.natAbs).isEmpty = false :=
        List.isEmpty_eq_false_iff.mpr Nat.toDigits_ne_nil
      rw [exponentPart]
      split
      · next negative =>
          have value : -(exponent.natAbs : Int) = exponent := by omega
          simp only [List.cons_append, readExponent, digits, nonempty, digitsValue_toDigits, value,
            true_or, if_true, Bool.false_eq_true, if_false]
      · next nonneg =>
          have value : (exponent.natAbs : Int) = exponent := by omega
          simp only [List.cons_append, readExponent, digits, nonempty, digitsValue_toDigits, value,
            true_or, if_true, Bool.false_eq_true, if_false]

theorem stopsDigits_exponentPart (exponent : Option Int) (stops : StopsNumber rest) (c : Char)
    (first : (exponentPart exponent ++ rest).head? = some c) : c.isDigit = false ∧ c ≠ '.' := by
  cases exponent with
  | none => exact ⟨(stops c first).1, (stops c first).2.1⟩
  | some exponent =>
      cases Option.some.inj first
      decide

theorem stopsDigits_fractionPart (fraction : Option (List Char)) (exponent : Option Int)
    (stops : StopsNumber rest) (c : Char)
    (first : (fractionPart fraction ++ (exponentPart exponent ++ rest)).head? = some c) :
    c.isDigit = false := by
  cases fraction with
  | none => exact (stopsDigits_exponentPart exponent stops c first).1
  | some digits =>
      cases Option.some.inj first
      decide

theorem readFraction_fractionPart {fraction : Option (List Char)}
    (isFraction : ∀ digits, fraction = some digits → IsFraction digits) (exponent : Option Int)
    (stops : StopsNumber rest) :
    readFraction (fractionPart fraction ++ (exponentPart exponent ++ rest)) =
      some (fraction, exponentPart exponent ++ rest) := by
  have noPoint := stopsDigits_exponentPart exponent stops
  cases fraction with
  | none =>
      rw [fractionPart, List.nil_append, readFraction]
      rintro rest starts
      exact (noPoint '.' (congrArg List.head? starts)).2 rfl
  | some digits =>
      have nonempty : digits.isEmpty = false :=
        List.isEmpty_eq_false_iff.mpr (isFraction digits rfl).nonempty
      have digitsEnd := spanDigits_append (isFraction digits rfl).all_digits fun c first =>
        (noPoint c first).1
      rw [fractionPart, List.cons_append, readFraction]
      simp only [digitsEnd, nonempty, Bool.false_eq_true, if_false]

variable {φ : Type} [RealText φ]

/-- A number is read from its parts. -/
theorem readNumber_parts (negative : Bool) {whole : List Char} (isWhole : IsWhole whole)
    {fraction : Option (List Char)} (isFraction : ∀ digits, fraction = some digits → IsFraction digits)
    (exponent : Option Int) (stops : StopsNumber rest) :
    readNumber negative (whole ++ (fractionPart fraction ++ (exponentPart exponent ++ rest))) =
      let value : Int := if negative then -(digitsValue whole : Int) else digitsValue whole
      if fraction.isNone ∧ exponent.isNone ∧ fitsWord value ∧ ¬(negative ∧ value = 0) then
        some (Datum.integer value, rest)
      else
        (RealText.read? negative whole (fraction.getD []) (exponent.getD 0) : Option φ).map
          fun real => (.real real, rest) := by
  have wholeDigits := spanDigits_append isWhole.all_digits
    (stopsDigits_fractionPart fraction exponent stops)
  have acceptable : ¬(whole.isEmpty = true ∨ whole.head? = some '0' ∧ whole ≠ ['0']) := by
    rintro (isEmpty | ⟨leading, other⟩)
    · exact isWhole.nonempty (List.isEmpty_iff.mp isEmpty)
    · exact other (isWhole.leading leading)
  rw [readNumber, wholeDigits]
  simp only [acceptable, if_false, readFraction_fractionPart isFraction exponent stops,
    readExponent_exponentPart exponent stops]

end Reading

/-! ## Whole numbers -/

section Numbers

variable {φ : Type} [RealText φ] {rest : List Char}

/-- Digits by themselves are a whole number, as far as a word holds it. -/
theorem readNumber_toDigits {negative : Bool} {n : Nat} {value : Int}
    (isValue : (if negative then -(n : Int) else n) = value) (fits : fitsWord value = true)
    (noNegativeZero : ¬(negative = true ∧ value = 0)) (stops : StopsNumber rest) :
    readNumber negative (Nat.toDigits 10 n ++ rest) = some (Datum.integer (φ := φ) value, rest) := by
  have noFraction (digits : List Char) : none = some digits → IsFraction digits := nofun
  have parts := readNumber_parts (φ := φ) negative (isWhole_toDigits n) noFraction none stops
  rw [fractionPart, exponentPart, List.nil_append, List.nil_append, digitsValue_toDigits] at parts
  rw [parts]
  simp only [isValue]
  exact if_pos ⟨rfl, rfl, fits, noNegativeZero⟩

/-! ## Reals -/

/-- How a real is spelled: with a point, an exponent or both. -/
structure RealSpelling where
  negative : Bool
  whole : List Char
  fraction : Option (List Char)
  exponent : Option Int
  isWhole : IsWhole whole
  isFraction : ∀ digits, fraction = some digits → IsFraction digits
  isReal : ¬(fraction.isNone = true ∧ exponent.isNone = true)

namespace RealSpelling

/-- The text without its sign. -/
def body (spelling : RealSpelling) : List Char :=
  spelling.whole ++ (fractionPart spelling.fraction ++ exponentPart spelling.exponent)

def text (spelling : RealSpelling) : List Char :=
  if spelling.negative then '-' :: spelling.body else spelling.body

/-- The real that the spelling stands for. -/
def read? (spelling : RealSpelling) : Option φ :=
  RealText.read? spelling.negative spelling.whole (spelling.fraction.getD [])
    (spelling.exponent.getD 0)

end RealSpelling

/-- A spelled real is read as what it stands for. -/
theorem readNumber_body (spelling : RealSpelling) (stops : StopsNumber rest) :
    readNumber spelling.negative (spelling.body ++ rest) =
      (spelling.read? : Option φ).map fun x => (.real x, rest) := by
  have parts := readNumber_parts (φ := φ) spelling.negative spelling.isWhole spelling.isFraction
    spelling.exponent stops
  rw [RealSpelling.read?, RealSpelling.body, List.append_assoc, List.append_assoc, parts]
  exact if_neg fun whole => spelling.isReal ⟨whole.1, whole.2.1⟩

end Numbers

end JsonText

/-- The text of a real spells it so that reading it gives the same real again. -/
def RealText.ReadsBack {φ : Type} [RealText φ] (x : φ) : Prop :=
  ∃ spelling : JsonText.RealSpelling, spelling.text = RealText.write x ∧ spelling.read? = some x

end ContextPack
