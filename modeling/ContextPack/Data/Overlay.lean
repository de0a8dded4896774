import ContextPack.Data.Datum

/-!
# Overlaying data

Puts one record over another: a field of the upper one takes the place of the
lower one's field, and records inside are put over one another in turn.
-/

namespace ContextPack.Datum

variable {φ : Type}

/-- Fields with a value under a name, in the place of an older one. -/
def setField (name : String) (value : Datum φ) : List (String × Datum φ) → List (String × Datum φ)
  | [] => [(name, value)]
  | (key, old) :: rest =>
    if key = name then (name, value) :: rest else (key, old) :: setField name value rest

mutual

/-- A value with another one put over it. -/
def overlay (lower : Datum φ) : Datum φ → Datum φ
  | .record fields =>
    match lower with
    | .record below => .record (overlayFields below fields)
    | _ => .record fields
  | upper => upper

def overlayFields (below : List (String × Datum φ)) :
    List (String × Datum φ) → List (String × Datum φ)
  | [] => below
  | (name, value) :: rest =>
    let merged :=
      match lookup name below with
      | some old => overlay old value
      | none => value
    overlayFields (setField name merged below) rest

end

/-- A value inside records of one field each. -/
def nested (names : List String) (value : Datum φ) : Datum φ :=
  names.foldr (fun name inner => .record [(name, inner)]) value

end ContextPack.Datum
