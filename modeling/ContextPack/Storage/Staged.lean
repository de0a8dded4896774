import ContextPack.Repository.Basic
import ContextPack.Storage.Bytes
import ContextPack.Text.Utf8

/-!
# The staging file

The files staged for the next commit, as a repository keeps them.
-/

namespace ContextPack.Storage

/-- What the staging file begins with. -/
def stagedMark : Nat := 0x44495243

/-- Where the fields of an entry lie behind its start. -/
structure StagedLayout where
  mode : Nat
  id : Nat
  flags : Nat
  /-- The first byte behind the fields that every entry has. -/
  name : Nat

def stagedLayout : StagedLayout := ⟨24, 40, 60, 62⟩

def stagedMode? (mode : Nat) : Option FileMode :=
  if mode = 0o120000 then some .link
  else if mode / 0o10000 = 8 then some (if mode / 64 % 2 = 1 then .executable else .regular)
  else none

/-- A number whose every further group counts one more, and the offset behind
it. -/
def dropCount? (data : ByteArray) : Nat → Nat → Nat → Option (Nat × Nat)
  | 0, _, _ => none
  | fuel + 1, high, offset =>
    match byteAt? data offset with
    | none => none
    | some byte =>
      if byte < 128 then some (high * 128 + byte, offset + 1)
      else dropCount? data fuel (high * 128 + byte % 128 + 1) (offset + 1)

/-- The name of an entry, which in version 4 tells only what is new after the
name before it, and where the next entry starts. -/
def stagedName? (version : Nat) (data : ByteArray) (before : List UInt8) (start name : Nat) :
    Option (List UInt8 × Nat) :=
  if version = 4 then do
    let (dropped, rest) ← dropCount? data 10 0 name
    let (added, after) ← through? 0 data rest
    return (before.take (before.length - dropped) ++ added, after)
  else do
    let (bytes, after) ← through? 0 data name
    return (bytes, start + ((after - start) + 7) / 8 * 8)

/-- So many entries from an offset on. -/
def stagedFrom (version : Nat) (data : ByteArray) : Nat → List UInt8 → Nat → List TrackedFile
  | 0, _, _ => []
  | count + 1, before, start =>
    match numberAt? data (start + stagedLayout.mode) 4, idAt? data (start + stagedLayout.id),
        numberAt? data (start + stagedLayout.flags) 2 with
    | some mode, some id, some flags =>
      let extended := if flags / 0x4000 % 2 = 1 then 2 else 0
      match stagedName? version data before start (start + stagedLayout.name + extended) with
      | none => []
      | some (name, next) =>
        let others := stagedFrom version data count name next
        match stagedMode? mode, flags / 0x1000 % 4 with
        | some mode, 0 => ⟨String.ofList (Utf8.decodeLossy name), mode, id⟩ :: others
        | _, _ => others
    | _, _, _ => []

def stagedFiles (data : ByteArray) : List TrackedFile :=
  match numberAt? data 0 4, numberAt? data 4 4, numberAt? data 8 4 with
  | some mark, some version, some count =>
    if mark = stagedMark then stagedFrom version data count [] 12 else []
  | _, _, _ => []

end ContextPack.Storage
