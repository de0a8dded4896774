/-!
# Token counts

A token counter gives a text its price.  Cutting a text to a price keeps the
longest part from its start that fits, and then gives up the last, unfinished
line if a whole line stands before it.
-/

namespace ContextPack

/-- The price of a text. -/
abbrev TokenCounter := List Char → Nat

namespace Tokens

/-- One token for every four characters begun. -/
def estimate (text : List Char) : Nat := (text.length + 3) / 4

/-- One token for every byte of the text's UTF-8 form. -/
def byteCount (text : List Char) : Nat := text.foldl (fun total c => total + c.utf8Size) 0

/-- Bisection for the longest part from the start that fits.  Up to `low`
characters are known to fit and more than `high` are known not to, for a
counter that never gives a longer part a lower price. -/
def fittingLength (counter : TokenCounter) (limit : Nat) (text : List Char) (low high : Nat) : Nat :=
  if _gap : low < high then
    let middle := (low + high + 1) / 2
    if counter (text.take middle) ≤ limit then fittingLength counter limit text middle high
    else fittingLength counter limit text low (middle - 1)
  else low
termination_by high - low
decreasing_by all_goals omega

/-- The text up to and with its last line end, unless that is its first
character or there is none. -/
def wholeLines (text : List Char) : List Char :=
  let kept := (text.reverse.dropWhile (· != '\n')).reverse
  if 1 < kept.length then kept else text

/-- The part of a text, from its start, that costs at most `limit`. -/
def truncate (counter : TokenCounter) (limit : Nat) (text : List Char) : List Char :=
  if counter text ≤ limit then text
  else wholeLines (text.take (fittingLength counter limit text 0 text.length))

end Tokens

end ContextPack
