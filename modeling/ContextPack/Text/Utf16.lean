/-!
# UTF-16

Two bytes make a unit, a pair of surrogate units makes a scalar value past the
first plane, and whatever does not fit is read as U+FFFD.
-/

namespace ContextPack.Utf16

inductive ByteOrder where
  | little
  | big
deriving DecidableEq

/-- The two bytes of a unit. -/
def ByteOrder.bytes (order : ByteOrder) (code : Nat) : List UInt8 :=
  let high := UInt8.ofNat (code / 256)
  let low := UInt8.ofNat (code % 256)
  match order with
  | .little => [low, high]
  | .big => [high, low]

/-- The unit of two bytes. -/
def ByteOrder.code (order : ByteOrder) (first second : UInt8) : Nat :=
  match order with
  | .little => second.toNat * 256 + first.toNat
  | .big => first.toNat * 256 + second.toNat

/-- The units of a byte sequence, and whether a lone byte is left. -/
def codes (order : ByteOrder) : List UInt8 → List Nat × Bool
  | [] => ([], false)
  | [_] => ([], true)
  | first :: second :: rest =>
    let (units, odd) := codes order rest
    (order.code first second :: units, odd)

def isLead (code : Nat) : Bool := 0xD800 ≤ code && code < 0xDC00

def isTrail (code : Nat) : Bool := 0xDC00 ≤ code && code < 0xE000

/-- The scalar value of a surrogate pair. -/
def pair (lead trail : Nat) : Char :=
  Char.ofNat (0x10000 + (lead - 0xD800) * 0x400 + (trail - 0xDC00))

/-- Reads units with the lead surrogate that waits for its partner.  At the
end a waiting surrogate and a lone byte are one fault together. -/
def read (odd : Bool) : Option Nat → List Nat → List Char
  | none, [] => if odd then ['\uFFFD'] else []
  | some _, [] => ['\uFFFD']
  | some lead, code :: rest =>
    if isTrail code then pair lead code :: read odd none rest
    else if isLead code then '\uFFFD' :: read odd (some code) rest
    else '\uFFFD' :: Char.ofNat code :: read odd none rest
  | none, code :: rest =>
    if isLead code then read odd (some code) rest
    else if isTrail code then '\uFFFD' :: read odd none rest
    else Char.ofNat code :: read odd none rest

/-- The text of a byte sequence that has no byte-order mark. -/
def decode (order : ByteOrder) (bytes : List UInt8) : List Char :=
  let (units, odd) := codes order bytes
  read odd none units

/-- The units of a scalar value. -/
def charCodes (c : Char) : List Nat :=
  let n := c.toNat
  if n < 0x10000 then [n]
  else [0xD800 + (n - 0x10000) / 0x400, 0xDC00 + (n - 0x10000) % 0x400]

/-- The bytes of a text, without a byte-order mark. -/
def encode (order : ByteOrder) (text : List Char) : List UInt8 :=
  (text.flatMap charCodes).flatMap order.bytes

end ContextPack.Utf16
