import ContextPack.Text.Utf8
import ContextPack.Text.Utf16
import ContextPack.Text.Windows1252

/-!
# Reading file contents as text

A byte-order mark decides the encoding; without one well-formed UTF-8 is
UTF-8, and of everything else the encoding is guessed from the first bytes.  The
guess goes by statistics that are not part of this library, so it is a parameter.
Whether a file is text at all is judged from its first bytes, too.
-/

namespace ContextPack.Decoding

/-- How many bytes at the front of a file are looked at. -/
def sampleSize : Nat := 8192

/-- Bytes that a person would call text: printable ASCII, tab and line ends. -/
def isPrintable (byte : UInt8) : Bool :=
  (32 ≤ byte && byte ≤ 126) || byte == 9 || byte == 10 || byte == 13

/-- A mark that names UTF-16. -/
def utf16Mark? : List UInt8 → Option Utf16.ByteOrder
  | 0xFF :: 0xFE :: _ => some .little
  | 0xFE :: 0xFF :: _ => some .big
  | _ => none

/-- Whether a sample is taken for binary data.  A NUL byte decides; other
bytes that are not well-formed UTF-8 are text when seven in ten are
printable. -/
def sampleIsBinary (sample : List UInt8) : Bool :=
  if sample.isEmpty then false
  else if (utf16Mark? sample).isSome then false
  else if sample.contains 0 then true
  else if Utf8.isValid sample then false
  else decide (10 * (sample.filter isPrintable).length < 7 * sample.length)

/-- Whether a file's bytes are taken for binary data. -/
def looksBinary (bytes : List UInt8) : Bool := sampleIsBinary (bytes.take sampleSize)

/-- A guess at an encoding: from a sample, how to read all the bytes. -/
abbrev Guess := List UInt8 → List UInt8 → List Char

/-- The text of bytes without a byte-order mark.  A guess that reads nothing at all
out of some bytes is not followed. -/
def decodeUnmarked (guess : Guess) (bytes : List UInt8) : List Char :=
  match Utf8.decode? bytes with
  | some text => text
  | none =>
    let text := guess (bytes.take sampleSize) bytes
    if text.isEmpty && !bytes.isEmpty then Utf8.decodeLossy bytes else text

/-- The text of a file's bytes; one byte-order mark is taken off. -/
def decodeBytes (guess : Guess) : List UInt8 → List Char
  | 0xEF :: 0xBB :: 0xBF :: rest => Utf8.decodeLossy rest
  | 0xFF :: 0xFE :: rest => Utf16.decode .little rest
  | 0xFE :: 0xFF :: rest => Utf16.decode .big rest
  | bytes => decodeUnmarked guess bytes

/-- A guess without statistics: what begins as UTF-8 is UTF-8 with faults, and anything
else is western European. -/
def Guess.western : Guess := fun sample bytes =>
  if Utf8.isValid sample then Utf8.decodeLossy bytes else Windows1252.decode bytes

/-- The text of a file's bytes, with a guess that does for western European texts. -/
def decodeText : List UInt8 → List Char := decodeBytes .western

end ContextPack.Decoding
