import ContextPack.Proofs.Decimal.Shortest
import ContextPack.Proofs.Data.JsonNumber

namespace ContextPack
namespace Shortest

open JsonText (IsWhole IsFraction RealSpelling fractionPart exponentPart isDigit_of_mem_toDigits
  head?_toDigits writeInteger writeInteger_eq)
open Float.Model (Format)
open Float.Model.UnpackedFloat (unpack unpackExponent unpackMantissa unpackSign)

/-!
# Finite numbers are spelled as reals

Whichever layout a shortest decimal takes, its text has a point, an exponent or
both, and nothing that the notation of JSON does not know.
-/

/-- The text is that of a real without its sign. -/
def Spells (negative : Bool) (text : List Char) : Prop :=
  ∃ spelling : RealSpelling, spelling.negative = negative ∧ spelling.body = text

/-! ## Parts of a layout -/

section Parts

variable {whole fraction : List Char}

theorem isWhole_of_head? (all_digits : ∀ c ∈ whole, c.isDigit = true) (nonempty : whole ≠ [])
    (leading : whole.head? ≠ some '0') : IsWhole whole where
  all_digits := all_digits
  nonempty := nonempty
  leading zero := absurd zero leading

theorem isDigit_of_mem_zeros {count : Nat} : ∀ c ∈ zeros count, c.isDigit = true := by
  intro c member
  rw [(List.mem_replicate.mp member).2]
  rfl

theorem isWhole_zero : IsWhole ['0'] where
  all_digits := @isDigit_of_mem_zeros 1
  nonempty := List.cons_ne_nil _ _
  leading _ := rfl

theorem isFraction_zero : IsFraction ['0'] where
  all_digits := @isDigit_of_mem_zeros 1
  nonempty := List.cons_ne_nil _ _

theorem spells_point (negative : Bool) (isWhole : IsWhole whole) (isFraction : IsFraction fraction) :
    Spells negative (whole ++ '.' :: fraction) := by
  refine ⟨⟨negative, whole, some fraction, none, isWhole, ?_, ?_⟩, rfl, ?_⟩
  · intro digits isDigits
    exact Option.some.inj isDigits ▸ isFraction
  · exact fun neither => Bool.false_ne_true neither.1
  · simp only [RealSpelling.body, fractionPart, exponentPart, List.append_nil]

theorem spells_exponent (negative : Bool) (isWhole : IsWhole whole) {fraction : Option (List Char)}
    (isFraction : ∀ digits, fraction = some digits → IsFraction digits) (exponent : Int) :
    Spells negative (whole ++ (fractionPart fraction ++ exponentPart (some exponent))) :=
  ⟨⟨negative, whole, fraction, some exponent, isWhole, isFraction,
    fun neither => Bool.false_ne_true neither.2⟩, rfl, rfl⟩

/-- An exponent is one less than the place of the point. -/
theorem exponentPart_pred (point : Int) :
    exponentPart (some (point - 1)) =
      'e' :: ((if 0 < point then ['+'] else []) ++ (toString (point - 1)).toList) := by
  have digits : (toString (point - 1)).toList = _ := writeInteger_eq (point - 1)
  rw [digits, exponentPart]
  by_cases above : 0 < point
  · have nonneg : ¬point - 1 < 0 := by omega
    rw [if_pos above, if_neg nonneg, if_neg nonneg]
    rfl
  · have below : point - 1 < 0 := by omega
    rw [if_neg above, if_pos below, if_pos below]
    rfl

end Parts

/-! ## Layouts -/

section Layouts

variable {decimal : Scientific}

theorem toList_toString (n : Nat) : (toString n).toList = Nat.toDigits 10 n := Nat.toList_repr

/-- The leading digit of a decimal is not a zero. -/
theorem head?_digits_ne (notZero : decimal.digits ≠ 0) :
    (Nat.toDigits 10 decimal.digits).head? ≠ some '0' :=
  fun zero => notZero ((head?_toDigits decimal.digits).mp zero)

theorem isWhole_take (notZero : decimal.digits ≠ 0) {count : Nat} (pos : 0 < count) :
    IsWhole ((Nat.toDigits 10 decimal.digits).take count) := by
  have all_digits : ∀ c ∈ (Nat.toDigits 10 decimal.digits).take count, c.isDigit = true :=
    fun c member => isDigit_of_mem_toDigits c (List.mem_of_mem_take member)
  refine isWhole_of_head? all_digits ?_ ?_
  · rw [Ne, List.take_eq_nil_iff]
    exact not_or.mpr ⟨Nat.ne_of_gt pos, Nat.toDigits_ne_nil⟩
  · rw [List.head?_take, if_neg (Nat.ne_of_gt pos)]
    exact head?_digits_ne notZero

theorem isFraction_drop {count : Nat} (few : count < (Nat.toDigits 10 decimal.digits).length) :
    IsFraction ((Nat.toDigits 10 decimal.digits).drop count) where
  all_digits c member := isDigit_of_mem_toDigits c (List.mem_of_mem_drop member)
  nonempty := fun none => Nat.not_le.mpr few (List.drop_eq_nil_iff.mp none)

/-- A number with places behind the point. -/
theorem spells_positional (negative : Bool) (notZero : decimal.digits ≠ 0)
    (below : decimal.exponent < 0) : Spells negative (positional decimal) := by
  rw [positional, toList_toString]
  split
  · next up isUp =>
      rw [isUp] at below
      exact absurd below (Int.not_lt.mpr (Int.natCast_nonneg up))
  · next isDown =>
      split
      · exact spells_point negative (isWhole_take notZero (by omega)) (isFraction_drop (by omega))
      · change Spells negative (['0'] ++ '.' :: (_ ++ _))
        refine spells_point negative isWhole_zero ⟨?_, ?_⟩
        · intro c member
          rcases List.mem_append.mp member with isZero | isDigit
          · exact isDigit_of_mem_zeros c isZero
          · exact isDigit_of_mem_toDigits c isDigit
        · exact List.append_ne_nil_of_right_ne_nil _ Nat.toDigits_ne_nil

/-- A whole number, with a point behind it all the same. -/
theorem spells_positional_zero (negative : Bool) (notZero : decimal.digits ≠ 0)
    (whole : 0 ≤ decimal.exponent) : Spells negative (positional decimal ++ ['.', '0']) := by
  rw [positional, toList_toString]
  split
  · refine spells_point negative (isWhole_of_head? ?_ ?_ ?_) isFraction_zero
    · intro c member
      rcases List.mem_append.mp member with isDigit | isZero
      · exact isDigit_of_mem_toDigits c isDigit
      · exact isDigit_of_mem_zeros c isZero
    · exact List.append_ne_nil_of_left_ne_nil Nat.toDigits_ne_nil _
    · rw [List.head?_append_of_ne_nil _ Nat.toDigits_ne_nil]
      exact head?_digits_ne notZero
  · next isDown =>
      rw [isDown] at whole
      exact absurd whole (Int.not_le.mpr (Int.negSucc_lt_zero _))

theorem spells_jsonLayout (negative : Bool) (notZero : decimal.digits ≠ 0) :
    Spells negative (jsonLayout decimal) := by
  rw [jsonLayout, toList_toString]
  split
  · split
    · next whole => exact spells_positional_zero negative notZero whole
    · next below =>
        rw [List.append_nil]
        exact spells_positional negative notZero (Int.not_le.mp below)
  · dsimp only
    rw [← exponentPart_pred]
    have isWhole := isWhole_take notZero Nat.one_pos
    split
    · next single =>
        rw [List.take_of_length_le (Nat.le_of_eq single)] at isWhole
        have noFraction (digits : List Char) : none = some digits → IsFraction digits := nofun
        exact spells_exponent negative isWhole noFraction _
    · next several =>
        have length : 0 < (Nat.toDigits 10 decimal.digits).length := Nat.length_toDigits_pos
        have few : 1 < (Nat.toDigits 10 decimal.digits).length := by omega
        have isFraction (digits : List Char)
            (others : some ((Nat.toDigits 10 decimal.digits).drop 1) = some digits) :
            IsFraction digits := Option.some.inj others ▸ isFraction_drop few
        rw [List.append_assoc]
        exact spells_exponent negative isWhole isFraction _

end Layouts

/-! ## Finite numbers -/

/-- The exponent field of a finite number is not the last one. -/
theorem biased_ne_of_isFinite {x : Float} (finite : x.isFinite = true) :
    (x.toBits.toNat >>> 52) % 2048 ≠ 2047 := by
  intro last
  have field : (@unpackExponent Format.binary64 x.toBits.toBitVec).toNat = 2047 :=
    (BitVec.extractLsb_toNat 62 52 x.toBits.toBitVec).trans last
  have allOnes : @unpackExponent Format.binary64 x.toBits.toBitVec = -1#_ :=
    BitVec.eq_of_toNat_eq field
  have unpacked : unpack Format.binary64 x.toBits.toBitVec =
      if @unpackMantissa Format.binary64 x.toBits.toBitVec = 0#_ then
        .infinity (.ofBitVec (@unpackSign Format.binary64 x.toBits.toBitVec))
      else .notANumber := if_pos allOnes
  have isFinite : (unpack Format.binary64 x.toBits.toBitVec).isFinite = true := finite
  rw [unpacked] at isFinite
  split at isFinite
  · cases isFinite
  · cases isFinite

/-- A finite number is a dyadic value, its digits and its exponent in the range
of the format. -/
theorem ofFloat_of_isFinite {x : Float} (finite : x.isFinite = true) :
    ∃ value, FloatClass.ofFloat x = .finite value ∧ value.mantissa < 2 ^ 53 ∧
      -1074 ≤ value.exponent ∧ value.exponent ≤ 971 := by
  have notLast := biased_ne_of_isFinite finite
  have fraction : x.toBits.toNat % fractionUnits < 2 ^ 52 := Nat.mod_lt _ (by decide)
  rw [FloatClass.ofFloat, FloatClass.ofBits, if_neg notLast]
  split
  · refine ⟨_, rfl, ?_, ?_, ?_⟩
    · exact Nat.lt_trans fraction (by decide)
    · exact Int.le_refl _
    · dsimp only
      decide
  · next notFirst =>
      refine ⟨_, rfl, ?_, ?_, ?_⟩
      · exact Nat.add_lt_add_left fraction (2 ^ 52)
      · dsimp only
        omega
      · dsimp only
        omega

/-- The text of a finite number spells a real. -/
theorem exists_spelling_of_isFinite {x : Float} (finite : x.isFinite = true) :
    ∃ spelling : RealSpelling, spelling.text = (json x).toList := by
  rcases ofFloat_of_isFinite finite with ⟨value, isValue, most, least, greatest⟩
  rw [json, isValue]
  have spelled : Spells value.negative (if value.mantissa = 0 then ['0', '.', '0']
      else jsonLayout (ofPositive value.mantissa value.exponent)) := by
    split
    · change Spells value.negative (['0'] ++ '.' :: ['0'])
      exact spells_point value.negative isWhole_zero isFraction_zero
    · next pos =>
        exact spells_jsonLayout value.negative (digits_ofPositive_ne_zero pos most least greatest)
  rcases spelled with ⟨spelling, isNegative, body⟩
  refine ⟨spelling, ?_⟩
  rw [RealSpelling.text, isNegative, body]
  dsimp only
  rw [signed, String.toList_ofList]

end Shortest
end ContextPack
