import ContextPack.Text.Utf8
import ContextPack.Proofs.Data.Sorting

namespace ContextPack.Utf8

/-!
# UTF-8 bytes and texts

Decoding the bytes of a text gives the text again, and the well-formed byte
sequences are just the bytes of texts.  So a well-formed sequence may be cut at
each place where no value is under way, which is where the next byte is no
continuation byte.
-/

/-! ## Reading one byte -/

/-- A byte that continues a scalar value. -/
def IsContinuation (byte : UInt8) : Prop := 0x80 ≤ byte.toNat ∧ byte.toNat ≤ 0xBF

instance (byte : UInt8) : Decidable (IsContinuation byte) :=
  inferInstanceAs (Decidable (_ ∧ _))

section StartByte

variable {byte : Nat}

theorem startByte_single (below : byte < 0x80) :
    startByte byte = ([some (Char.ofNat byte)], .rest) :=
  if_pos below

theorem startByte_two (lead : 0xC2 ≤ byte ∧ byte ≤ 0xDF) :
    startByte byte = ([], .inside 1 (byte - 0xC0) 0x80 0xBF) := by
  unfold startByte
  rw [if_neg (by omega), if_pos lead]

theorem startByte_three (lead : 0xE0 ≤ byte ∧ byte ≤ 0xEF) :
    startByte byte = ([], .inside 2 (byte - 0xE0) (if byte = 0xE0 then 0xA0 else 0x80)
      (if byte = 0xED then 0x9F else 0xBF)) := by
  unfold startByte
  grind

theorem startByte_four (lead : 0xF0 ≤ byte ∧ byte ≤ 0xF4) :
    startByte byte = ([], .inside 3 (byte - 0xF0) (if byte = 0xF0 then 0x90 else 0x80)
      (if byte = 0xF4 then 0x8F else 0xBF)) := by
  unfold startByte
  grind

/-- No value starts with a byte that is no lead. -/
theorem startByte_of_noLead (noLead : (0x80 ≤ byte ∧ byte < 0xC2) ∨ 0xF4 < byte) :
    startByte byte = ([none], .rest) := by
  unfold startByte
  grind

end StartByte

/-! ## Reading on -/

section Reading

variable {missing bits low high : Nat} {byte : UInt8} {bytes : List UInt8}

theorem run_cons (state : State) (byte : UInt8) (bytes : List UInt8) :
    run state (byte :: bytes) = (step state byte).1 ++ run (step state byte).2 bytes := by
  cases state <;> rfl

theorem step_more (inRange : low ≤ byte.toNat ∧ byte.toNat ≤ high) :
    step (.inside (missing + 2) bits low high) byte =
      ([], .inside (missing + 1) (bits * 64 + (byte.toNat - 0x80)) 0x80 0xBF) := by
  simp [step, inRange]

theorem step_last (inRange : low ≤ byte.toNat ∧ byte.toNat ≤ high) :
    step (.inside 1 bits low high) byte =
      ([some (Char.ofNat (bits * 64 + (byte.toNat - 0x80)))], .rest) := by
  simp [step, inRange]

/-- Within a value only a byte in range is well-formed. -/
theorem inRange_of_step (valid : (step (.inside missing bits low high) byte).1.all Option.isSome) :
    low ≤ byte.toNat ∧ byte.toNat ≤ high := by
  by_contra outOfRange
  simp [step, outOfRange] at valid

theorem exists_of_run_inside (valid : (run (.inside missing bits low high) bytes).all Option.isSome) :
    ∃ byte rest, bytes = byte :: rest ∧ low ≤ byte.toNat ∧ byte.toNat ≤ high := by
  cases bytes with
  | nil => cases valid
  | cons byte rest =>
      rw [run_cons, List.all_append, Bool.and_eq_true] at valid
      exact ⟨byte, rest, rfl, inRange_of_step valid.1⟩

end Reading

/-! ## Reading a value -/

section Values

variable {first second third fourth : UInt8} (rest : List UInt8)

theorem run_single (below : first.toNat < 0x80) :
    run .rest (first :: rest) = some (Char.ofNat first.toNat) :: run .rest rest := by
  rw [run_cons, step, startByte_single below]
  rfl

theorem run_two (lead : 0xC2 ≤ first.toNat ∧ first.toNat ≤ 0xDF) (last : IsContinuation second) :
    run .rest (first :: second :: rest) =
      some (Char.ofNat ((first.toNat - 0xC0) * 64 + (second.toNat - 0x80))) :: run .rest rest := by
  rw [run_cons, step, startByte_two lead, run_cons, step_last last]
  rfl

theorem run_three (lead : 0xE0 ≤ first.toNat ∧ first.toNat ≤ 0xEF)
    (inRange : (if first.toNat = 0xE0 then 0xA0 else 0x80) ≤ second.toNat ∧
      second.toNat ≤ (if first.toNat = 0xED then 0x9F else 0xBF))
    (last : IsContinuation third) :
    run .rest (first :: second :: third :: rest) =
      some (Char.ofNat (((first.toNat - 0xE0) * 64 + (second.toNat - 0x80)) * 64 +
        (third.toNat - 0x80))) :: run .rest rest := by
  rw [run_cons, step, startByte_three lead, run_cons, step_more inRange, run_cons,
    step_last last]
  rfl

theorem run_four (lead : 0xF0 ≤ first.toNat ∧ first.toNat ≤ 0xF4)
    (inRange : (if first.toNat = 0xF0 then 0x90 else 0x80) ≤ second.toNat ∧
      second.toNat ≤ (if first.toNat = 0xF4 then 0x8F else 0xBF))
    (middle : IsContinuation third) (last : IsContinuation fourth) :
    run .rest (first :: second :: third :: fourth :: rest) =
      some (Char.ofNat ((((first.toNat - 0xF0) * 64 + (second.toNat - 0x80)) * 64 +
        (third.toNat - 0x80)) * 64 + (fourth.toNat - 0x80))) :: run .rest rest := by
  rw [run_cons, step, startByte_four lead, run_cons, step_more inRange, run_cons,
    step_more middle, run_cons, step_last last]
  rfl

end Values

/-! ## The bytes of a character -/

theorem isScalar (c : Char) : c.toNat < 0xD800 ∨ (0xDFFF < c.toNat ∧ c.toNat < 0x110000) :=
  c.valid

section EncodeChar

variable {c : Char}

theorem encodeChar_single (size : c.toNat < 0x80) :
    String.utf8EncodeChar c = [UInt8.ofNat c.toNat] :=
  if_pos (show c.toNat ≤ 0x7F by omega)

theorem encodeChar_two (size : 0x80 ≤ c.toNat ∧ c.toNat < 0x800) :
    String.utf8EncodeChar c =
      [UInt8.ofNat (c.toNat / 64 + 0xC0), UInt8.ofNat (c.toNat % 64 + 0x80)] := by
  have lead : c.toNat / 64 % 32 = c.toNat / 64 := Nat.mod_eq_of_lt (by omega)
  rw [← lead]
  exact (if_neg (show ¬c.toNat ≤ 0x7F by omega)).trans (if_pos (show c.toNat ≤ 0x7FF by omega))

theorem encodeChar_three (size : 0x800 ≤ c.toNat ∧ c.toNat < 0x10000) :
    String.utf8EncodeChar c =
      [UInt8.ofNat (c.toNat / 4096 + 0xE0), UInt8.ofNat (c.toNat / 64 % 64 + 0x80),
        UInt8.ofNat (c.toNat % 64 + 0x80)] := by
  have lead : c.toNat / 4096 % 16 = c.toNat / 4096 := Nat.mod_eq_of_lt (by omega)
  rw [← lead]
  exact (if_neg (show ¬c.toNat ≤ 0x7F by omega)).trans
    ((if_neg (show ¬c.toNat ≤ 0x7FF by omega)).trans (if_pos (show c.toNat ≤ 0xFFFF by omega)))

theorem encodeChar_four (size : 0x10000 ≤ c.toNat) :
    String.utf8EncodeChar c =
      [UInt8.ofNat (c.toNat / 262144 + 0xF0), UInt8.ofNat (c.toNat / 4096 % 64 + 0x80),
        UInt8.ofNat (c.toNat / 64 % 64 + 0x80), UInt8.ofNat (c.toNat % 64 + 0x80)] := by
  have scalar := isScalar c
  have lead : c.toNat / 262144 % 8 = c.toNat / 262144 := Nat.mod_eq_of_lt (by omega)
  rw [← lead]
  exact (if_neg (show ¬c.toNat ≤ 0x7F by omega)).trans
    ((if_neg (show ¬c.toNat ≤ 0x7FF by omega)).trans (if_neg (show ¬c.toNat ≤ 0xFFFF by omega)))

end EncodeChar

theorem toNat_ofNat {n : Nat} (isByte : n < 256) : (UInt8.ofNat n).toNat = n :=
  UInt8.toNat_ofNat_of_lt' isByte

/-- Reading the bytes of a character gives the character. -/
theorem run_encodeChar (c : Char) (rest : List UInt8) :
    run .rest (String.utf8EncodeChar c ++ rest) = some c :: run .rest rest := by
  have scalar := isScalar c
  have isChar {n : Nat} (same : n = c.toNat) : Char.ofNat n = c := by
    rw [same]
    exact Char.ofNat_toNat c
  have last := toNat_ofNat (n := c.toNat % 64 + 0x80) (by omega)
  have middle := toNat_ofNat (n := c.toNat / 64 % 64 + 0x80) (by omega)
  have isContinuation {byte : UInt8} (inRange : 0x80 ≤ byte.toNat ∧ byte.toNat ≤ 0xBF) :
      IsContinuation byte := inRange
  by_cases single : c.toNat < 0x80
  · have first := toNat_ofNat (n := c.toNat) (by omega)
    rw [encodeChar_single single, List.cons_append, List.nil_append, run_single rest (by omega),
      isChar first]
  by_cases two : c.toNat < 0x800
  · have first := toNat_ofNat (n := c.toNat / 64 + 0xC0) (by omega)
    simp only [encodeChar_two ⟨Nat.le_of_not_lt single, two⟩, List.cons_append, List.nil_append]
    rw [run_two rest (by omega) (isContinuation (by omega)), isChar (by omega)]
  by_cases three : c.toNat < 0x10000
  · have first := toNat_ofNat (n := c.toNat / 4096 + 0xE0) (by omega)
    simp only [encodeChar_three ⟨Nat.le_of_not_lt two, three⟩, List.cons_append, List.nil_append]
    rw [run_three rest (by omega) (by split <;> split <;> omega) (isContinuation (by omega)),
      isChar (by omega)]
  · have first := toNat_ofNat (n := c.toNat / 262144 + 0xF0) (by omega)
    have second := toNat_ofNat (n := c.toNat / 4096 % 64 + 0x80) (by omega)
    simp only [encodeChar_four (Nat.le_of_not_lt three), List.cons_append, List.nil_append]
    rw [run_four rest (by omega) (by split <;> split <;> omega) (isContinuation (by omega))
      (isContinuation (by omega)), isChar (by omega)]

theorem units_encode (text : List Char) : units (encode text) = text.map some := by
  induction text with
  | nil => rfl
  | cons c rest inductionHypothesis =>
      have front : encode (c :: rest) = String.utf8EncodeChar c ++ encode rest := rfl
      rw [units, front, run_encodeChar, List.map_cons, ← inductionHypothesis, units]

@[simp] theorem isValid_encode (text : List Char) : isValid (encode text) = true := by
  simp [isValid, units_encode]

@[simp] theorem decodeLossy_encode (text : List Char) : decodeLossy (encode text) = text := by
  simp [decodeLossy, units_encode, Function.comp_def]

@[simp] theorem decode?_encode (text : List Char) : decode? (encode text) = some text := by
  rw [decode?, units_encode, mapM_eq_some_map (fun unit => unit.getD '\uFFFD') (by simp)]
  simp [Function.comp_def]

/-! ## Well-formed bytes are the bytes of a text -/

theorem toNat_ofNat_char {n : Nat} (scalar : n < 0xD800 ∨ (0xDFFF < n ∧ n < 0x110000)) :
    (Char.ofNat n).toNat = n := by
  rw [Char.ofNat, dif_pos scalar]
  rfl

theorem ofNat_eq (byte : UInt8) {n : Nat} (same : n = byte.toNat) : UInt8.ofNat n = byte := by
  rw [same]
  exact UInt8.ofNat_toNat

section Values

variable {first second third fourth : UInt8}

theorem encodeChar_ofNat_single (below : first.toNat < 0x80) :
    String.utf8EncodeChar (Char.ofNat first.toNat) = [first] := by
  have value := toNat_ofNat_char (n := first.toNat) (by omega)
  rw [encodeChar_single (by omega), value, ofNat_eq first rfl]

theorem encodeChar_ofNat_two {n : Nat}
    (value : n = (first.toNat - 0xC0) * 64 + (second.toNat - 0x80))
    (lead : 0xC2 ≤ first.toNat ∧ first.toNat ≤ 0xDF) (last : IsContinuation second) :
    String.utf8EncodeChar (Char.ofNat n) = [first, second] := by
  unfold IsContinuation at last
  have isChar := toNat_ofNat_char (n := n) (by omega)
  rw [encodeChar_two (by omega), isChar, ofNat_eq first (by omega),
    ofNat_eq second (by omega)]

theorem encodeChar_ofNat_three {n : Nat}
    (value : n = ((first.toNat - 0xE0) * 64 + (second.toNat - 0x80)) * 64 + (third.toNat - 0x80))
    (lead : 0xE0 ≤ first.toNat ∧ first.toNat ≤ 0xEF)
    (inRange : (if first.toNat = 0xE0 then 0xA0 else 0x80) ≤ second.toNat ∧
      second.toNat ≤ (if first.toNat = 0xED then 0x9F else 0xBF))
    (last : IsContinuation third) :
    String.utf8EncodeChar (Char.ofNat n) = [first, second, third] := by
  unfold IsContinuation at last
  -- The narrower ranges keep out short values and surrogates.
  have bounds : 0x80 ≤ second.toNat ∧ second.toNat ≤ 0xBF ∧
      (first.toNat = 0xE0 → 0xA0 ≤ second.toNat) ∧
        (first.toNat = 0xED → second.toNat ≤ 0x9F) := by
    grind
  have isChar := toNat_ofNat_char (n := n) (by omega)
  rw [encodeChar_three (by omega), isChar, ofNat_eq first (by omega),
    ofNat_eq second (by omega), ofNat_eq third (by omega)]

theorem encodeChar_ofNat_four {n : Nat}
    (value : n = (((first.toNat - 0xF0) * 64 + (second.toNat - 0x80)) * 64 +
      (third.toNat - 0x80)) * 64 + (fourth.toNat - 0x80))
    (lead : 0xF0 ≤ first.toNat ∧ first.toNat ≤ 0xF4)
    (inRange : (if first.toNat = 0xF0 then 0x90 else 0x80) ≤ second.toNat ∧
      second.toNat ≤ (if first.toNat = 0xF4 then 0x8F else 0xBF))
    (middle : IsContinuation third) (last : IsContinuation fourth) :
    String.utf8EncodeChar (Char.ofNat n) = [first, second, third, fourth] := by
  unfold IsContinuation at middle last
  -- The narrower ranges keep out short values and those past the last plane.
  have bounds : 0x80 ≤ second.toNat ∧ second.toNat ≤ 0xBF ∧
      (first.toNat = 0xF0 → 0x90 ≤ second.toNat) ∧
        (first.toNat = 0xF4 → second.toNat ≤ 0x8F) := by
    grind
  have isChar := toNat_ofNat_char (n := n) (by omega)
  rw [encodeChar_four (by omega), isChar, ofNat_eq first (by omega),
    ofNat_eq second (by omega), ofNat_eq third (by omega),
    ofNat_eq fourth (by omega)]

end Values

/-- A well-formed sequence begins with the bytes of a character. -/
theorem exists_char_of_valid {first : UInt8} {bytes : List UInt8}
    (valid : (run .rest (first :: bytes)).all Option.isSome) :
    ∃ c rest, first :: bytes = String.utf8EncodeChar c ++ rest := by
  have begins {c : Char} {front : List UInt8} (rest : List UInt8)
      (isChar : String.utf8EncodeChar c = front) :
      ∃ c more, front ++ rest = String.utf8EncodeChar c ++ more :=
    ⟨c, rest, congrArg (· ++ rest) isChar.symm⟩
  by_cases single : first.toNat < 0x80
  · exact begins bytes (encodeChar_ofNat_single single)
  by_cases two : 0xC2 ≤ first.toNat ∧ first.toNat ≤ 0xDF
  · rw [run_cons, step, startByte_two two] at valid
    rcases exists_of_run_inside valid with ⟨second, rest, rfl, isSecond⟩
    exact begins rest (encodeChar_ofNat_two rfl two isSecond)
  by_cases three : 0xE0 ≤ first.toNat ∧ first.toNat ≤ 0xEF
  · rw [run_cons, step, startByte_three three] at valid
    rcases exists_of_run_inside valid with ⟨second, rest, rfl, isSecond⟩
    rw [run_cons, step_more isSecond] at valid
    rcases exists_of_run_inside valid with ⟨third, rest, rfl, isThird⟩
    exact begins rest (encodeChar_ofNat_three rfl three isSecond isThird)
  by_cases four : 0xF0 ≤ first.toNat ∧ first.toNat ≤ 0xF4
  · rw [run_cons, step, startByte_four four] at valid
    rcases exists_of_run_inside valid with ⟨second, rest, rfl, isSecond⟩
    rw [run_cons, step_more isSecond] at valid
    rcases exists_of_run_inside valid with ⟨third, rest, rfl, isThird⟩
    rw [run_cons, step_more isThird] at valid
    rcases exists_of_run_inside valid with ⟨fourth, rest, rfl, isFourth⟩
    exact begins rest (encodeChar_ofNat_four rfl four isSecond isThird isFourth)
  · have isByte := first.toNat_lt
    rw [run_cons, step, startByte_of_noLead (by omega)] at valid
    cases valid

/-- The well-formed byte sequences are the bytes of texts. -/
theorem isValid_iff (bytes : List UInt8) : isValid bytes = true ↔ ∃ text, encode text = bytes := by
  constructor
  · intro valid
    induction size : bytes.length using Nat.strongRecOn generalizing bytes with
    | ind length inductionHypothesis =>
        cases bytes with
        | nil => exact ⟨[], rfl⟩
        | cons first others =>
            rcases exists_char_of_valid valid with ⟨c, rest, parts⟩
            rw [parts] at valid size
            rw [isValid, units, run_encodeChar] at valid
            have notEmpty := List.length_pos_iff.mpr (String.utf8EncodeChar_ne_nil (c := c))
            have shorter : rest.length < length := by
              rw [← size, List.length_append]
              omega
            rcases inductionHypothesis rest.length shorter rest valid rfl with ⟨text, isText⟩
            refine ⟨c :: text, ?_⟩
            rw [parts, ← isText]
            rfl
  · rintro ⟨text, rfl⟩
    exact isValid_encode text

theorem le_of_isValid {first : UInt8} {rest : List UInt8} (valid : isValid (first :: rest) = true) :
    first.toNat ≤ 0xF4 := by
  by_contra above
  rw [isValid, units, run_cons, step, startByte_of_noLead (by omega)] at valid
  cases valid

/-! ## Cutting -/

/-- Within a value no byte but a continuation byte comes next. -/
def State.IsProper : State → Prop
  | .rest => True
  | .inside _ _ low high => 0x80 ≤ low ∧ high ≤ 0xBF

theorem isProper_startByte (byte : Nat) : (startByte byte).2.IsProper := by
  unfold startByte
  repeat' split
  all_goals simp [State.IsProper]

theorem isProper_step {state : State} (proper : state.IsProper) (byte : UInt8) :
    (step state byte).2.IsProper := by
  cases state with
  | rest => exact isProper_startByte byte.toNat
  | inside missing bits low high =>
      by_cases inRange : low ≤ byte.toNat ∧ byte.toNat ≤ high
      · by_cases last : missing ≤ 1
        · simp [step, inRange, last, State.IsProper]
        · simp [step, inRange, last, State.IsProper]
      · simp only [step, if_neg inRange]
        exact isProper_startByte byte.toNat

/-- No value starts with a continuation byte. -/
theorem not_isContinuation_of_startByte {byte : UInt8}
    (starts : (startByte byte.toNat).1.all Option.isSome) : ¬IsContinuation byte := by
  rintro ⟨least, greatest⟩
  rw [startByte_of_noLead (by omega)] at starts
  cases starts

/-- A well-formed sequence may be cut exactly where no continuation byte comes
next. -/
theorem valid_take_iff {state : State} (proper : state.IsProper) {bytes : List UInt8}
    (valid : (run state bytes).all Option.isSome) (n : Nat) :
    (run state (bytes.take n)).all Option.isSome ↔
      ∀ byte, bytes[n]? = some byte → ¬IsContinuation byte := by
  induction bytes generalizing state n with
  | nil => simpa using valid
  | cons byte rest inductionHypothesis =>
      rw [run_cons, List.all_append, Bool.and_eq_true] at valid
      cases n with
      | zero =>
          cases state with
          | rest => simp [run, not_isContinuation_of_startByte valid.1]
          | inside missing bits low high =>
              have inRange := inRange_of_step valid.1
              have continues : IsContinuation byte :=
                ⟨Nat.le_trans proper.1 inRange.1, Nat.le_trans inRange.2 proper.2⟩
              simp [run, continues]
      | succ n =>
          rw [List.take_succ_cons, run_cons, List.all_append, Bool.and_eq_true,
            and_iff_right valid.1, inductionHypothesis (isProper_step proper byte) valid.2,
            List.getElem?_cons_succ]

theorem isValid_take_iff {bytes : List UInt8} (valid : isValid bytes = true) (n : Nat) :
    isValid (bytes.take n) = true ↔ ∀ byte, bytes[n]? = some byte → ¬IsContinuation byte := by
  have proper : State.rest.IsProper := trivial
  exact valid_take_iff proper valid n

end ContextPack.Utf8
