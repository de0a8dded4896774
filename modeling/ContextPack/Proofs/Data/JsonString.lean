import ContextPack.Data.JsonText

namespace ContextPack
namespace JsonText

/-!
# Strings in JSON text

A character is spelled in one of two ways, by itself or by an escape behind a
backslash, and the reader can tell which.  So a string between quotes is read
character by character, up to the quote that closes it.
-/

theorem hexValue?_hexDigit : ∀ n < 16, hexValue? (hexDigit n) = some n := by
  decide

/-- The code of a character below the blank has two digits. -/
theorem unescape?_code {c : Char} (control : c.toNat < 0x20) (rest : List Char) :
    unescape? ('u' :: '0' :: '0' :: hexDigit (c.toNat / 16) :: hexDigit (c.toNat % 16) :: rest) =
      some (c, rest) := by
  have zero : hexValue? '0' = some 0 := by decide
  have code : hexCode? ('0' :: '0' :: hexDigit (c.toNat / 16) :: hexDigit (c.toNat % 16) :: rest) =
      some (c.toNat, rest) := by
    have value : ((0 * 16 + 0) * 16 + c.toNat / 16) * 16 + c.toNat % 16 = c.toNat := by omega
    rw [hexCode?, zero, hexValue?_hexDigit _ (by omega), hexValue?_hexDigit _ (by omega)]
    simp only [Option.bind_eq_bind, Option.bind_some, value]
  have plane : c.toNat < 0xD800 ∨ 0xE000 ≤ c.toNat := by omega
  rw [unescape?, code]
  simp only [plane, if_true, Char.ofNat_toNat]

/-- A character stands for itself or is escaped. -/
theorem escape_cases (c : Char) :
    (∃ code, escape c = '\\' :: code ∧ ∀ rest, unescape? (code ++ rest) = some (c, rest)) ∨
      (escape c = [c] ∧ c ≠ '"' ∧ c ≠ '\\' ∧ ¬c.toNat < 0x20) := by
  rw [escape.eq_def]
  split
  · exact Or.inl ⟨['"'], rfl, fun rest => rfl⟩
  · exact Or.inl ⟨['\\'], rfl, fun rest => rfl⟩
  · exact Or.inl ⟨['n'], rfl, fun rest => rfl⟩
  · exact Or.inl ⟨['r'], rfl, fun rest => rfl⟩
  · exact Or.inl ⟨['t'], rfl, fun rest => rfl⟩
  · next noQuote noBackslash _ _ _ =>
      split
      · next backspace =>
          refine Or.inl ⟨['b'], rfl, fun rest => ?_⟩
          rw [← Char.ofNat_toNat c, backspace]
          rfl
      · split
        · next formFeed =>
            refine Or.inl ⟨['f'], rfl, fun rest => ?_⟩
            rw [← Char.ofNat_toNat c, formFeed]
            rfl
        · split
          · next control => exact Or.inl ⟨_, rfl, fun rest => unescape?_code control rest⟩
          · next printed => exact Or.inr ⟨rfl, noQuote, noBackslash, printed⟩

/-- A spelled character is read as that character. -/
theorem readString_escape (c : Char) (fuel : Nat) (rest : List Char) :
    readString (fuel + 1) (escape c ++ rest) =
      (readString fuel rest).map fun (text, rest) => (c :: text, rest) := by
  rcases escape_cases c with ⟨code, spelled, undone⟩ | ⟨spelled, noQuote, noBackslash, printed⟩
  · rw [spelled, List.cons_append, readString, undone]
  · rw [spelled, List.singleton_append, readString, if_neg printed]
    · exact noQuote
    · exact noBackslash

/-- A string is read up to its closing quote, however the text goes on. -/
theorem readString_flatMap_escape (text : List Char) {fuel : Nat} (enough : text.length < fuel)
    (rest : List Char) :
    readString fuel (text.flatMap escape ++ '"' :: rest) = some (text, rest) := by
  induction text generalizing fuel with
  | nil =>
      cases fuel with
      | zero => exact absurd enough (Nat.not_lt_zero _)
      | succ fuel => rfl
  | cons c text inductionHypothesis =>
      cases fuel with
      | zero => exact absurd enough (Nat.not_lt_zero _)
      | succ fuel =>
          rw [List.flatMap_cons, List.append_assoc, readString_escape,
            inductionHypothesis (Nat.lt_of_succ_lt_succ enough), Option.map_some]

theorem length_le_flatMap_escape (text : List Char) :
    text.length ≤ (text.flatMap escape).length := by
  induction text with
  | nil => exact Nat.le_refl 0
  | cons c text inductionHypothesis =>
      have spelled : 1 ≤ (escape c).length := by
        rcases escape_cases c with ⟨code, spelled, -⟩ | ⟨spelled, -⟩
        · rw [spelled, List.length_cons]
          exact Nat.le_add_left 1 _
        · rw [spelled]
          exact Nat.le_refl 1
      rw [List.flatMap_cons, List.length_append, List.length_cons]
      omega

/-- What is written of a text behind its opening quote is read as the text. -/
theorem readString_writeString (text : String) (rest : List Char) :
    let body := text.toList.flatMap escape ++ '"' :: rest
    readString (body.length + 1) body = some (text.toList, rest) := by
  refine readString_flatMap_escape text.toList ?_ rest
  have shorter := length_le_flatMap_escape text.toList
  rw [List.length_append]
  omega

end JsonText
end ContextPack
