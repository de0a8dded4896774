import ContextPack.Text.Blank
import ContextPack.Text.Pieces

/-!
# Revision ranges

The expression that names the two ends of a change: two revisions, the merge
base of two revisions, or one revision against the working tree.
-/

namespace ContextPack

/-- The ends of a change. -/
inductive RevisionRange where
  /-- `base..head` -/
  | between (base head : String)
  /-- `base...head`: from the merge base of both. -/
  | mergeBase (base head : String)
  /-- `base`: up to the working tree. -/
  | workingTree (base : String)
deriving DecidableEq

/-- Why a range is refused. -/
inductive RangeProblem where
  | empty
  | whitespace
  | secondOperator
  | noEndpoints
  | unresolved (revision why : String)
  | noMergeBase (why : String)
deriving DecidableEq

def RangeProblem.reason : RangeProblem → String
  | empty => "range is empty"
  | whitespace => "range must not contain whitespace"
  | secondOperator => "more than one range operator"
  | noEndpoints => "range has no endpoints"
  | unresolved revision why => "cannot resolve '" ++ revision ++ "': " ++ why
  | noMergeBase why => "no merge base: " ++ why

namespace RevisionRange

/-- An end that is left out is the current commit. -/
def side (text : List Char) : String :=
  if text.isEmpty then "HEAD" else String.ofList text

private def twoDots : List Char := ['.', '.']

private def threeDots : List Char := ['.', '.', '.']

/-- Reads an expression without blanks around it.  The first `...` divides it,
and only without one the first `..`; what follows may not divide again. -/
def parseTrimmed (text : List Char) : Except RangeProblem RevisionRange :=
  if text.isEmpty then .error .empty
  else if text.any Text.isBlank then .error .whitespace
  else
    match Text.splitFirst? threeDots text with
    | some (base, head) =>
      if Text.holds twoDots head then .error .secondOperator
      else .ok (.mergeBase (side base) (side head))
    | none =>
      match Text.splitFirst? twoDots text with
      | some (base, head) =>
        if Text.holds twoDots head then .error .secondOperator
        else if base.isEmpty && head.isEmpty then .error .noEndpoints
        else .ok (.between (side base) (side head))
      | none => .ok (.workingTree (String.ofList text))

/-- Reads a range expression. -/
def parse (text : String) : Except RangeProblem RevisionRange :=
  parseTrimmed (Text.trimChars text.toList)

end RevisionRange

end ContextPack
