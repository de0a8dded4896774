/-!
# Windows-1252

The single-byte encoding of western European texts: Latin-1 but for the range
from 0x80 to 0x9F, whose five unused places stand for themselves.
-/

namespace ContextPack.Windows1252

/-- Code points of the bytes 0x80 to 0x9F. -/
def upperControls : List Nat :=
  [0x20AC, 0x81, 0x201A, 0x0192, 0x201E, 0x2026, 0x2020, 0x2021,
   0x02C6, 0x2030, 0x0160, 0x2039, 0x0152, 0x8D, 0x017D, 0x8F,
   0x90, 0x2018, 0x2019, 0x201C, 0x201D, 0x2022, 0x2013, 0x2014,
   0x02DC, 0x2122, 0x0161, 0x203A, 0x0153, 0x9D, 0x017E, 0x0178]

def decodeByte (byte : UInt8) : Char :=
  let n := byte.toNat
  if 0x80 ≤ n ∧ n < 0xA0 then Char.ofNat ((upperControls[n - 0x80]?).getD n) else Char.ofNat n

def decode (bytes : List UInt8) : List Char := bytes.map decodeByte

end ContextPack.Windows1252
