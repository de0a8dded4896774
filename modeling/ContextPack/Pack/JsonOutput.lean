import ContextPack.Data.JsonText
import ContextPack.Pack.Record

/-!
# JSON output

A context as JSON text with a line end after it, and reading it back.
-/

namespace ContextPack

variable {α : Type}

/-- A context with the time of its making if given, the names of the fields
still ascending. -/
def Context.stampedFields (timestamp : Option String) (context : Context α) :
    List (String × Datum α) :=
  match timestamp with
  | none => context.fields
  | some time => context.fields.take 3 ++ ("generated_at", .text time) :: context.fields.drop 3

variable [RealText α]

/-- A context as indented JSON, with the time of its making if given. -/
def Context.renderJson (timestamp : Option String) (context : Context α) : String :=
  String.ofList (JsonText.pretty 0 (.record (context.stampedFields timestamp)) ++ ['\n'])

def Context.readJson? [Scalar α] (text : String) : Option (Context α) :=
  (JsonText.read? text.toList).bind Context.ofDatum?

end ContextPack
