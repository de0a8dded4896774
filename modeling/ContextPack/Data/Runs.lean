/-!
# Counting by runs

In a sorted list equal elements stand together, so the lengths of its runs
count them.
-/

namespace ContextPack

/-- Each run of equal neighbours as the element and its length. -/
def runLengths {β : Type} [DecidableEq β] : List β → List (β × Nat)
  | [] => []
  | first :: rest =>
    match runLengths rest with
    | [] => [(first, 1)]
    | (next, count) :: others =>
      if next = first then (first, count + 1) :: others
      else (first, 1) :: (next, count) :: others

/-- How often each element occurs, in the order that `le` gives. -/
def tally {β : Type} [DecidableEq β] (le : β → β → Bool) (elements : List β) : List (β × Nat) :=
  runLengths (elements.mergeSort le)

end ContextPack
