import Std.Data.HashMap
import ContextPack.Storage.Inflate
import ContextPack.Storage.Object

/-!
# Packs

Many objects in one file.  An object may be kept as what differs from another
one, its base.  A second file tells where each object starts.
-/

namespace ContextPack.Storage

/-- A pack and where its objects start. -/
structure Pack where
  data : ByteArray
  offsets : Std.HashMap String Nat

/-! ## Where objects start -/

/-- What an index of the known version begins with. -/
def indexMark : Nat := 0xff744f63

/-- The offset of the object of some rank among `count` in an index. -/
def offsetAt? (index : ByteArray) (count rank : Nat) : Option Nat := do
  let start := 8 + 1024 + count * (idSize + 4)
  let short ← numberAt? index (start + 4 * rank) 4
  if short < 0x80000000 then return short
  else numberAt? index (start + 4 * count + 8 * (short - 0x80000000)) 8

def offsetsOf (index : ByteArray) : List (String × Nat) :=
  match numberAt? index 0 4, numberAt? index 4 4, numberAt? index (8 + 4 * 255) 4 with
  | some mark, some 2, some count =>
    if mark = indexMark then
      (List.range count).filterMap fun rank =>
        match idAt? index (8 + 1024 + idSize * rank), offsetAt? index count rank with
        | some id, some offset => some (id, offset)
        | _, _ => none
    else []
  | _, _, _ => []

def Pack.ofBytes (data index : ByteArray) : Pack := ⟨data, .ofList (offsetsOf index)⟩

/-! ## Objects -/

/-- How an object is kept. -/
inductive Kept where
  | whole (kind : ObjectKind)
  /-- As the difference to the object so many bytes before it. -/
  | onOffset (distance : Nat)
  | onId (id : String)

/-- A number in groups of seven bits, the lowest first, and the offset behind
it. -/
def grouped? (data : ByteArray) : Nat → Nat → Option (Nat × Nat)
  | 0, _ => none
  | fuel + 1, offset =>
    match byteAt? data offset with
    | none => none
    | some byte =>
      if byte < 128 then some (byte, offset + 1)
      else (grouped? data fuel (offset + 1)).map fun (high, rest) =>
        (byte % 128 + 128 * high, rest)

/-- How many groups a number has at most. -/
def mostGroups : Nat := 10

/-- A distance in groups of seven bits, the highest first; each group but the
last counts one more. -/
def distance? (data : ByteArray) : Nat → Nat → Nat → Option (Nat × Nat)
  | 0, _, _ => none
  | fuel + 1, high, offset =>
    match byteAt? data offset with
    | none => none
    | some byte =>
      if byte < 128 then some (high * 128 + byte, offset + 1)
      else distance? data fuel (high * 128 + byte % 128 + 1) (offset + 1)

/-- The number of a kept object's form. -/
def wholeKind? (form : Nat) : Option ObjectKind :=
  match form with
  | 1 => some .commit
  | 2 => some .listing
  | 3 => some .content
  | 4 => some .tag
  | _ => none

/-- How the object at an offset is kept, and where its data starts. -/
def keptAt? (data : ByteArray) (offset : Nat) : Option (Kept × Nat) := do
  let first ← byteAt? data offset
  let (_, start) ← grouped? data mostGroups offset
  match (first / 16) % 8 with
  | 6 =>
    let (distance, start) ← distance? data mostGroups 0 start
    return (.onOffset distance, start)
  | 7 => return (.onId (← idAt? data start), start + idSize)
  | form => return (.whole (← wholeKind? form), start)

/-! ## Differences -/

/-- The number whose bytes are present where the low bits of a mask are set. -/
def masked? (data : ByteArray) : Nat → Nat → Nat → Option (Nat × Nat)
  | 0, _, offset => some (0, offset)
  | count + 1, mask, offset =>
    if mask % 2 = 0 then
      (masked? data count (mask / 2) offset).map fun (high, rest) => (256 * high, rest)
    else
      match byteAt? data offset with
      | none => none
      | some low => (masked? data count (mask / 2) (offset + 1)).map fun (high, rest) =>
        (low + 256 * high, rest)

/-- What a copy takes when it tells no length. -/
def plainCopyLength : Nat := 65536

/-- Carries out the steps of a difference: each copies a part of the base or
brings bytes of its own. -/
def patch? (base data : ByteArray) : Nat → Nat → ByteArray → Option ByteArray
  | 0, _, _ => none
  | fuel + 1, offset, written =>
    match byteAt? data offset with
    | none => some written
    | some 0 => none
    | some step =>
      if step < 128 then
        let first := offset + 1
        patch? base data fuel (first + step) (written ++ data.extract first (first + step))
      else
        match masked? data 4 step (offset + 1) with
        | none => none
        | some (start, rest) =>
          match masked? data 3 (step / 16 % 8) rest with
          | none => none
          | some (length, rest) =>
            let length := if length = 0 then plainCopyLength else length
            patch? base data fuel rest (written ++ base.extract start (start + length))

def patched? (base : StoredObject) (difference : ByteArray) : Option StoredObject := do
  let (_, afterOld) ← grouped? difference mostGroups 0
  let (_, start) ← grouped? difference mostGroups afterOld
  let data ← patch? base.data difference (difference.size + 1) start .empty
  return ⟨base.kind, data⟩

/-- How long a chain of bases may be. -/
def longestChain : Nat := 4096

/-- The object at an offset; `other?` finds a base by its id. -/
def Pack.objectAt? (pack : Pack) (other? : String → Option StoredObject) :
    Nat → Nat → Option StoredObject
  | 0, _ => none
  | fuel + 1, offset =>
    match keptAt? pack.data offset with
    | none => none
    | some (kept, start) =>
      match Inflate.read? pack.data start with
      | none => none
      | some data =>
        match kept with
        | .whole kind => some ⟨kind, data⟩
        | .onOffset distance =>
          if offset < distance then none
          else (objectAt? pack other? fuel (offset - distance)).bind fun base => patched? base data
        | .onId id =>
          let base : Option StoredObject :=
            match pack.offsets[id]? with
            | some place => objectAt? pack other? fuel place
            | none => other? id
          base.bind fun base => patched? base data

def Pack.object? (pack : Pack) (other? : String → Option StoredObject) (id : String) :
    Option StoredObject :=
  pack.offsets[id]?.bind (pack.objectAt? other? longestChain)

end ContextPack.Storage
