import ContextPack.Settings.Basic

/-!
# Signals

The evidence that a file belongs into the context, and how three pieces of
evidence become one score.
-/

namespace ContextPack

/-- The evidence for one file. -/
structure Signals (α : Type) where
  /-- Rank in the reference graph. -/
  walk : α
  /-- Strongest lexical edge between the file and a changed one. -/
  lexical : α
  /-- Strongest co-change edge between the file and a changed one. -/
  cochange : α

namespace Fusion

variable {α : Type} [Scalar α]

def name : Fusion α → String
  | sum => "sum"
  | weighted .. => "weighted"
  | maximum => "max"

/-- The score of a file. -/
def fuse (fusion : Fusion α) (signals : Signals α) : α :=
  match fusion with
  | sum => signals.walk + signals.lexical + signals.cochange
  | weighted walk lexical cochange =>
    walk * signals.walk + lexical * signals.lexical + cochange * signals.cochange
  | maximum =>
    Scalar.maximum (Scalar.maximum signals.walk signals.lexical) signals.cochange

end Fusion

end ContextPack
