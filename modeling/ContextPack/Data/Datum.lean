import ContextPack.Text.Pieces

/-!
# Data

The value that a settings file, an environment variable or a JSON text
denotes.  Whole numbers and reals are told apart, because the settings do: a
limit takes `5` and refuses `5.0`.  A record keeps its fields in the order they
were written; of two fields with one name the later one counts.
-/

namespace ContextPack

/-- A value of a data format, its reals of type `φ`. -/
inductive Datum (φ : Type) where
  | null
  | boolean (value : Bool)
  | integer (value : Int)
  | real (value : φ)
  | text (value : String)
  | list (items : List (Datum φ))
  | record (fields : List (String × Datum φ))
deriving Inhabited

namespace Datum

variable {φ : Type}

/-- The value of a field, the last one of that name. -/
def lookup (name : String) : List (String × Datum φ) → Option (Datum φ)
  | [] => none
  | (key, value) :: rest =>
    match lookup name rest with
    | some later => some later
    | none => if key = name then some value else none

/-- The value of a record's field. -/
def field? (name : String) : Datum φ → Option (Datum φ)
  | record fields => lookup name fields
  | _ => none

def text? : Datum φ → Option String
  | text value => some value
  | _ => none

def boolean? : Datum φ → Option Bool
  | boolean value => some value
  | _ => none

def items? : Datum φ → Option (List (Datum φ))
  | list items => some items
  | _ => none

def fields? : Datum φ → Option (List (String × Datum φ))
  | record fields => some fields
  | _ => none

/-- A natural number, not written as a real. -/
def natural? : Datum φ → Option Nat
  | integer (.ofNat n) => some n
  | _ => none

def texts? (value : Datum φ) : Option (List String) :=
  match value.items? with
  | some items => items.mapM text?
  | none => none

end Datum

end ContextPack
