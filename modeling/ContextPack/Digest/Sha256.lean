/-!
# SHA-256

The digest of FIPS 180-4 over byte lists, and the short identifiers cut from
it.
-/

namespace ContextPack.Sha256

/-- The eight words carried from block to block. -/
structure Words where
  a : UInt32
  b : UInt32
  c : UInt32
  d : UInt32
  e : UInt32
  f : UInt32
  g : UInt32
  h : UInt32
deriving DecidableEq

/-- Fractional parts of the square roots of the first eight primes. -/
def initialWords : Words :=
  ⟨0x6a09e667, 0xbb67ae85, 0x3c6ef372, 0xa54ff53a, 0x510e527f, 0x9b05688c, 0x1f83d9ab, 0x5be0cd19⟩

/-- Fractional parts of the cube roots of the first sixty-four primes. -/
def roundConstants : List UInt32 :=
  [0x428a2f98, 0x71374491, 0xb5c0fbcf, 0xe9b5dba5, 0x3956c25b, 0x59f111f1, 0x923f82a4, 0xab1c5ed5,
   0xd807aa98, 0x12835b01, 0x243185be, 0x550c7dc3, 0x72be5d74, 0x80deb1fe, 0x9bdc06a7, 0xc19bf174,
   0xe49b69c1, 0xefbe4786, 0x0fc19dc6, 0x240ca1cc, 0x2de92c6f, 0x4a7484aa, 0x5cb0a9dc, 0x76f988da,
   0x983e5152, 0xa831c66d, 0xb00327c8, 0xbf597fc7, 0xc6e00bf3, 0xd5a79147, 0x06ca6351, 0x14292967,
   0x27b70a85, 0x2e1b2138, 0x4d2c6dfc, 0x53380d13, 0x650a7354, 0x766a0abb, 0x81c2c92e, 0x92722c85,
   0xa2bfe8a1, 0xa81a664b, 0xc24b8b70, 0xc76c51a3, 0xd192e819, 0xd6990624, 0xf40e3585, 0x106aa070,
   0x19a4c116, 0x1e376c08, 0x2748774c, 0x34b0bcb5, 0x391c0cb3, 0x4ed8aa4a, 0x5b9cca4f, 0x682e6ff3,
   0x748f82ee, 0x78a5636f, 0x84c87814, 0x8cc70208, 0x90befffa, 0xa4506ceb, 0xbef9a3f7, 0xc67178f2]

def rotateRight (x : UInt32) (n : UInt32) : UInt32 := (x >>> n) ||| (x <<< (32 - n))

def round (s : Words) (constant message : UInt32) : Words :=
  let sum1 := rotateRight s.e 6 ^^^ rotateRight s.e 11 ^^^ rotateRight s.e 25
  let choice := (s.e &&& s.f) ^^^ ((~~~ s.e) &&& s.g)
  let first := s.h + sum1 + choice + constant + message
  let sum0 := rotateRight s.a 2 ^^^ rotateRight s.a 13 ^^^ rotateRight s.a 22
  let majority := (s.a &&& s.b) ^^^ (s.a &&& s.c) ^^^ (s.b &&& s.c)
  ⟨first + (sum0 + majority), s.a, s.b, s.c, s.d + first, s.e, s.f, s.g⟩

/-- The next message word, from the sixteen before it, latest first. -/
def nextWord (latest : List UInt32) : UInt32 :=
  let word (back : Nat) : UInt32 := (latest[back - 1]?).getD 0
  let small0 := rotateRight (word 15) 7 ^^^ rotateRight (word 15) 18 ^^^ (word 15 >>> 3)
  let small1 := rotateRight (word 2) 17 ^^^ rotateRight (word 2) 19 ^^^ (word 2 >>> 10)
  small1 + word 7 + small0 + word 16

/-- Message words, latest first, with `count` more computed. -/
def schedule : Nat → List UInt32 → List UInt32
  | 0, latest => latest
  | count + 1, latest => schedule count (nextWord latest :: latest)

def Words.add (s t : Words) : Words :=
  ⟨s.a + t.a, s.b + t.b, s.c + t.c, s.d + t.d, s.e + t.e, s.f + t.f, s.g + t.g, s.h + t.h⟩

/-- Takes in a block of sixteen words. -/
def compress (s : Words) (block : List UInt32) : Words :=
  let messages := (schedule 48 block.reverse).reverse
  s.add ((roundConstants.zip messages).foldl (fun t (constant, message) => round t constant message) s)

/-- Big-endian words of a byte list whose length is a multiple of four. -/
def toWords : List UInt8 → List UInt32
  | a :: b :: c :: d :: rest =>
    ((a.toUInt32 <<< 24) ||| (b.toUInt32 <<< 16) ||| (c.toUInt32 <<< 8) ||| d.toUInt32) :: toWords rest
  | _ => []

/-- The big-endian bytes of a number, `count` of them. -/
def bigEndian (count : Nat) (n : Nat) : List UInt8 :=
  ((List.range count).map fun place => UInt8.ofNat (n >>> (8 * place))).reverse

/-- A message followed by a one bit, zeros and its length in bits, a multiple
of sixty-four bytes in all. -/
def padded (message : List UInt8) : List UInt8 :=
  let zeros := (119 - message.length % 64) % 64
  message ++ 0x80 :: List.replicate zeros 0 ++ bigEndian 8 (8 * message.length)

/-- Takes in sixteen words at a time. -/
def absorb : Nat → Words → List UInt32 → Words
  | 0, s, _ => s
  | blocks + 1, s, words => absorb blocks (compress s (words.take 16)) (words.drop 16)

/-- The digest as thirty-two bytes. -/
def digest (message : List UInt8) : List UInt8 :=
  let words := toWords (padded message)
  let s := absorb (words.length / 16) initialWords words
  [s.a, s.b, s.c, s.d, s.e, s.f, s.g, s.h].flatMap fun word => bigEndian 4 word.toNat

/-- Two hexadecimal digits for each byte. -/
def hexadecimal (bytes : List UInt8) : List Char :=
  let digit (n : Nat) : Char := Nat.digitChar n
  bytes.flatMap fun byte => [digit (byte.toNat / 16), digit (byte.toNat % 16)]

end ContextPack.Sha256
