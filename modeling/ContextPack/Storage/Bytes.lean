/-!
# Bytes at an offset

Reading numbers and ids out of stored bytes.  What lies past the end is not
there.
-/

namespace ContextPack.Storage

def byteAt? (data : ByteArray) (offset : Nat) : Option Nat :=
  if h : offset < data.size then some data[offset].toNat else none

/-- The number in so many bytes, the highest first. -/
def numberAt? (data : ByteArray) (offset : Nat) : Nat → Option Nat
  | 0 => some 0
  | count + 1 =>
    match numberAt? data offset count, byteAt? data (offset + count) with
    | some high, some low => some (high * 256 + low)
    | _, _ => none

/-- The bytes up to a byte, and the offset behind it. -/
def upTo? (stop : Nat) (data : ByteArray) : Nat → Nat → Option (List UInt8 × Nat)
  | 0, _ => none
  | fuel + 1, offset =>
    match byteAt? data offset with
    | none => none
    | some byte =>
      if byte = stop then some ([], offset + 1)
      else (upTo? stop data fuel (offset + 1)).map fun (bytes, rest) =>
        (UInt8.ofNat byte :: bytes, rest)

/-- The bytes up to a byte, starting at an offset, and the offset behind it. -/
def through? (stop : Nat) (data : ByteArray) (offset : Nat) : Option (List UInt8 × Nat) :=
  upTo? stop data (data.size + 1 - offset) offset

/-- How many bytes an id has. -/
def idSize : Nat := 20

/-- The id whose bytes lie at an offset, in hexadecimal digits. -/
def idAt? (data : ByteArray) (offset : Nat) : Option String :=
  ((List.range idSize).mapM fun step => byteAt? data (offset + step)).map fun bytes =>
    String.ofList (bytes.flatMap fun byte => [Nat.digitChar (byte / 16), Nat.digitChar (byte % 16)])

end ContextPack.Storage
