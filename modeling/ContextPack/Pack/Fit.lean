import ContextPack.Pack.Draft
import ContextPack.Text.Tokens

/-!
# Fitting seeds into a budget

Changed files are always in the context.  When they do not fit, they share
what the budget leaves after overhead: the cheapest ones keep their content, and
the others share equally what is left.

Sums are brought into range by `wrap`: the identity for natural numbers, the
remainder for machine words.
-/

namespace ContextPack

/-- How counts are kept in range. -/
abbrev Wrap := Nat → Nat

/-- Counts as 64-bit words. -/
def Wrap.word : Wrap := fun n => n % wordModulus

namespace Fit

/-- The costs with their places, cheap ones first and equal ones as they stand. -/
def order (costs : List Nat) : List (Nat × Nat) :=
  costs.zipIdx.mergeSort fun first second =>
    first.1 < second.1 || (first.1 == second.1 && first.2 ≤ second.2)

/-- Goes on with what is left of the order.  Each file is offered an equal share of what is
available, and one that costs less leaves the rest to the others.  The first one that
costs more, and all behind it, get the share as their cap. -/
def capFrom (caps : List (Option Nat)) : List (Nat × Nat) → Nat → List (Option Nat)
  | [], _ => caps
  | (cost, place) :: rest, available =>
    let share := available / (rest.length + 1)
    if cost ≤ share then capFrom caps rest (available - cost)
    else ((cost, place) :: rest).foldl (fun caps (_, place) => caps.set place (some share)) caps

/-- How much of each file may stay, by place; none where nothing is taken away. -/
def caps (costs : List Nat) (available : Nat) : List (Option Nat) :=
  capFrom (List.replicate costs.length none) (order costs) available

def cut (counter : TokenCounter) (level : Nat) (draft : Draft) : Draft :=
  let kept := Tokens.truncate counter level draft.content
  if kept.length < draft.content.length then { draft with content := kept, truncated := true }
  else draft

/-- Drafts brought into a budget. -/
structure Fitted where
  drafts : List Draft
  /-- Contents were cut, so that nothing is left for other files. -/
  shrunk : Bool
  /-- The overhead alone exceeds the budget. -/
  overBudget : Bool

/-- Brings drafts into a budget. -/
def fit (wrap : Wrap) (counter : TokenCounter) (overhead : Nat) (drafts : List Draft)
    (budget : Nat) : Fitted :=
  let overheadTotal := wrap (drafts.length * overhead)
  let costs := drafts.map fun draft => counter draft.content
  if wrap (Context.addUp wrap costs + overheadTotal) ≤ budget then ⟨drafts, false, false⟩
  else
    let caps := caps costs (budget - overheadTotal)
    let fitting (draft : Draft) (cap : Option Nat) : Draft :=
      match cap with
      | some level => cut counter level draft
      | none => draft
    ⟨drafts.zipWith fitting caps, true, budget < overheadTotal⟩

end Fit

end ContextPack
