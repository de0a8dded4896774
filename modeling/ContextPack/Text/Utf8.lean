/-!
# UTF-8

A decoder that reads one byte at a time.  Between two scalar values it is at
rest; inside one it knows how many continuation bytes are missing and in which
range the next one has to lie.  The narrower first ranges keep out overlong
forms, surrogates and values past the last plane.

A byte that cannot continue ends the value begun before it, which counts as
one ill-formed stretch, and is then read afresh.
-/

namespace ContextPack.Utf8

/-- Where the decoder stands. -/
inductive State where
  | rest
  /-- Inside a value: continuation bytes missing, bits so far, and the range
  of the next byte. -/
  | inside (missing : Nat) (bits : Nat) (low high : Nat)
deriving DecidableEq

/-- What decoding yields: a scalar value, or `none` for an ill-formed
stretch. -/
abbrev Reading := Option Char

def startByte (byte : Nat) : List Reading × State :=
  if byte < 0x80 then ([some (Char.ofNat byte)], .rest)
  else if 0xC2 ≤ byte ∧ byte ≤ 0xDF then ([], .inside 1 (byte - 0xC0) 0x80 0xBF)
  else if byte = 0xE0 then ([], .inside 2 0 0xA0 0xBF)
  else if byte = 0xED then ([], .inside 2 0xD 0x80 0x9F)
  else if 0xE1 ≤ byte ∧ byte ≤ 0xEF then ([], .inside 2 (byte - 0xE0) 0x80 0xBF)
  else if byte = 0xF0 then ([], .inside 3 0 0x90 0xBF)
  else if 0xF1 ≤ byte ∧ byte ≤ 0xF3 then ([], .inside 3 (byte - 0xF0) 0x80 0xBF)
  else if byte = 0xF4 then ([], .inside 3 4 0x80 0x8F)
  else ([none], .rest)

def step (state : State) (byte : UInt8) : List Reading × State :=
  match state with
  | .rest => startByte byte.toNat
  | .inside missing bits low high =>
    if low ≤ byte.toNat ∧ byte.toNat ≤ high then
      let bits := bits * 64 + (byte.toNat - 0x80)
      if missing ≤ 1 then ([some (Char.ofNat bits)], .rest)
      else ([], .inside (missing - 1) bits 0x80 0xBF)
    else
      let (units, next) := startByte byte.toNat
      (none :: units, next)

/-- Decodes from a state; an unfinished value at the end is ill-formed. -/
def run : State → List UInt8 → List Reading
  | .rest, [] => []
  | .inside .., [] => [none]
  | state, byte :: bytes =>
    let (units, next) := step state byte
    units ++ run next bytes

/-- The scalar values and ill-formed stretches of a byte sequence. -/
def units (bytes : List UInt8) : List Reading := run .rest bytes

/-- Whether every byte belongs to a scalar value. -/
def isValid (bytes : List UInt8) : Bool := (units bytes).all Option.isSome

/-- The text with U+FFFD for every ill-formed stretch. -/
def decodeLossy (bytes : List UInt8) : List Char :=
  (units bytes).map fun unit => unit.getD '\uFFFD'

/-- The text of a well-formed byte sequence. -/
def decode? (bytes : List UInt8) : Option (List Char) :=
  (units bytes).mapM id

/-- The bytes of a text. -/
def encode (text : List Char) : List UInt8 := text.flatMap String.utf8EncodeChar

/-- The bytes of a text. -/
def ofString (text : String) : List UInt8 := encode text.toList

end ContextPack.Utf8
