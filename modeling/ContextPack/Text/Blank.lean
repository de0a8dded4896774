/-!
# Blank characters

The Unicode property `White_Space`, and trimming by it.
-/

namespace ContextPack.Text

/-- Whether a character has the property `White_Space`. -/
def isBlank (c : Char) : Bool :=
  let n := c.toNat
  (9 ≤ n && n ≤ 13) || n == 0x20 || n == 0x85 || n == 0xA0 || n == 0x1680 ||
    (0x2000 ≤ n && n ≤ 0x200A) || n == 0x2028 || n == 0x2029 || n == 0x202F || n == 0x205F ||
    n == 0x3000

def dropEndWhile {α : Type} (test : α → Bool) (xs : List α) : List α :=
  (xs.reverse.dropWhile test).reverse

/-- The text without the blanks at both ends. -/
def trimChars (text : List Char) : List Char :=
  dropEndWhile isBlank (text.dropWhile isBlank)

/-- The text without the blanks at both ends. -/
def trim (text : String) : String :=
  String.ofList (trimChars text.toList)

theorem isBlank_of_isWhitespace {c : Char} (h : c.isWhitespace = true) : isBlank c = true := by
  simp only [Char.isWhitespace, Bool.or_eq_true, decide_eq_true_eq] at h
  rcases h with ((h | h) | h) | h <;> subst h <;> decide

end ContextPack.Text
