import ContextPack.Data.Datum
import ContextPack.Decimal.Shortest

/-!
# JSON text

Reading and writing JSON.  How a real is spelled is left to `RealText`: the
writer puts down what `write` gives and the reader hands a literal with a point
or an exponent to `read?`.  A whole number outside the 64-bit ranges, and a
negative zero, are reals too.
-/

namespace ContextPack

/-- The spelling of reals in JSON text. -/
class RealText (φ : Type) where
  write : φ → List Char
  /-- Reads a sign, the digits before the point, those after it and an
  exponent. -/
  read? : (negative : Bool) → (whole fraction : List Char) → (exponent : Int) → Option φ

namespace JsonText

variable {φ : Type}

/-! ## Writing -/

def hexDigit (n : Nat) : Char := Nat.digitChar n

/-- The spelling of a character inside a string. -/
def escape (c : Char) : List Char :=
  match c with
  | '"' => ['\\', '"']
  | '\\' => ['\\', '\\']
  | '\n' => ['\\', 'n']
  | '\r' => ['\\', 'r']
  | '\t' => ['\\', 't']
  | _ =>
    if c.toNat = 8 then ['\\', 'b']
    else if c.toNat = 12 then ['\\', 'f']
    else if c.toNat < 0x20 then
      ['\\', 'u', '0', '0', hexDigit (c.toNat / 16), hexDigit (c.toNat % 16)]
    else [c]

/-- A string between its quotes. -/
def writeString (text : String) : List Char :=
  '"' :: text.toList.flatMap escape ++ ['"']

def writeInteger (value : Int) : List Char := (toString value).toList

mutual

/-- JSON text on one line. -/
def compact [RealText φ] : Datum φ → List Char
  | .null => ['n', 'u', 'l', 'l']
  | .boolean true => ['t', 'r', 'u', 'e']
  | .boolean false => ['f', 'a', 'l', 's', 'e']
  | .integer value => writeInteger value
  | .real value => RealText.write value
  | .text value => writeString value
  | .list items => '[' :: Text.joinWith [','] (compactItems items) ++ [']']
  | .record fields => '\x7b' :: Text.joinWith [','] (compactFields fields) ++ ['\x7d']

def compactItems [RealText φ] : List (Datum φ) → List (List Char)
  | [] => []
  | item :: rest => compact item :: compactItems rest

def compactFields [RealText φ] : List (String × Datum φ) → List (List Char)
  | [] => []
  | (name, value) :: rest =>
    (writeString name ++ ':' :: compact value) :: compactFields rest

end

def indentation (depth : Nat) : List Char := List.replicate (2 * depth) ' '

/-- Parts on lines of their own between two brackets. -/
def block (depth : Nat) (opening closing : Char) (parts : List (List Char)) : List Char :=
  if parts.isEmpty then [opening, closing]
  else
    let lineStart := '\n' :: indentation (depth + 1)
    opening :: lineStart ++ Text.joinWith (',' :: lineStart) parts ++
      '\n' :: indentation depth ++ [closing]

mutual

/-- JSON text with every part on a line of its own, two blanks deeper than
its surroundings. -/
def pretty [RealText φ] (depth : Nat) : Datum φ → List Char
  | .null => ['n', 'u', 'l', 'l']
  | .boolean true => ['t', 'r', 'u', 'e']
  | .boolean false => ['f', 'a', 'l', 's', 'e']
  | .integer value => writeInteger value
  | .real value => RealText.write value
  | .text value => writeString value
  | .list items => block depth '[' ']' (prettyItems (depth + 1) items)
  | .record fields => block depth '\x7b' '\x7d' (prettyFields (depth + 1) fields)

def prettyItems [RealText φ] (depth : Nat) : List (Datum φ) → List (List Char)
  | [] => []
  | item :: rest => pretty depth item :: prettyItems depth rest

def prettyFields [RealText φ] (depth : Nat) : List (String × Datum φ) → List (List Char)
  | [] => []
  | (name, value) :: rest =>
    (writeString name ++ ':' :: ' ' :: pretty depth value) :: prettyFields depth rest

end

/-! ## Reading -/

def isSpace (c : Char) : Bool := c == ' ' || c == '\n' || c == '\r' || c == '\t'

def hexValue? (c : Char) : Option Nat :=
  if '0' ≤ c ∧ c ≤ '9' then some (c.toNat - 48)
  else if 'a' ≤ c ∧ c ≤ 'f' then some (c.toNat - 87)
  else if 'A' ≤ c ∧ c ≤ 'F' then some (c.toNat - 55)
  else none

/-- The number of four hexadecimal digits. -/
def hexCode? : List Char → Option (Nat × List Char)
  | a :: b :: c :: d :: rest => do
    let a ← hexValue? a
    let b ← hexValue? b
    let c ← hexValue? c
    let d ← hexValue? d
    some (((a * 16 + b) * 16 + c) * 16 + d, rest)
  | _ => none

/-- The character that an escape stands for, after its backslash. -/
def unescape? : List Char → Option (Char × List Char)
  | '"' :: rest => some ('"', rest)
  | '\\' :: rest => some ('\\', rest)
  | '/' :: rest => some ('/', rest)
  | 'b' :: rest => some (Char.ofNat 8, rest)
  | 'f' :: rest => some (Char.ofNat 12, rest)
  | 'n' :: rest => some ('\n', rest)
  | 'r' :: rest => some ('\r', rest)
  | 't' :: rest => some ('\t', rest)
  | 'u' :: rest =>
    match hexCode? rest with
    | none => none
    | some (code, rest) =>
      if code < 0xD800 ∨ 0xE000 ≤ code then some (Char.ofNat code, rest)
      else if 0xDC00 ≤ code then none
      else match rest with
        | '\\' :: 'u' :: rest =>
          match hexCode? rest with
          | some (trail, rest) =>
            if 0xDC00 ≤ trail ∧ trail < 0xE000 then
              some (Char.ofNat (0x10000 + (code - 0xD800) * 0x400 + (trail - 0xDC00)), rest)
            else none
          | none => none
        | _ => none
  | _ => none

/-- The rest of a string, after its opening quote. -/
def readString : Nat → List Char → Option (List Char × List Char)
  | 0, _ => none
  | _ + 1, [] => none
  | _ + 1, '"' :: rest => some ([], rest)
  | fuel + 1, '\\' :: rest =>
    match unescape? rest with
    | none => none
    | some (c, rest) => (readString fuel rest).map fun (text, rest) => (c :: text, rest)
  | fuel + 1, c :: rest =>
    if c.toNat < 0x20 then none
    else (readString fuel rest).map fun (text, rest) => (c :: text, rest)

/-- Digits in front. -/
def spanDigits (text : List Char) : List Char × List Char := text.span Char.isDigit

/-- The number of a digit string. -/
def digitsValue (digits : List Char) : Nat :=
  digits.foldl (fun n c => 10 * n + (c.toNat - 48)) 0

/-- A point with digits behind it, if one stands here. -/
def readFraction : List Char → Option (Option (List Char) × List Char)
  | '.' :: rest =>
    let (digits, rest) := spanDigits rest
    if digits.isEmpty then none else some (some digits, rest)
  | rest => some (none, rest)

/-- An exponent part, if one stands here. -/
def readExponent : List Char → Option (Option Int × List Char)
  | c :: rest =>
    if c = 'e' ∨ c = 'E' then
      let (negative, rest) := match rest with
        | '-' :: rest => (true, rest)
        | '+' :: rest => (false, rest)
        | _ => (false, rest)
      let (digits, rest) := spanDigits rest
      if digits.isEmpty then none
      else
        let size : Int := digitsValue digits
        some (some (if negative then -size else size), rest)
    else some (none, c :: rest)
  | [] => some (none, [])

/-- Least and largest numbers that are read as whole numbers. -/
def fitsWord (value : Int) : Bool :=
  -9223372036854775808 ≤ value && value ≤ 18446744073709551615

/-- A number after its sign. -/
def readNumber [RealText φ] (negative : Bool) (text : List Char) : Option (Datum φ × List Char) :=
  let (whole, rest) := spanDigits text
  if whole.isEmpty ∨ (whole.head? = some '0' ∧ whole ≠ ['0']) then none
  else
    match readFraction rest with
    | none => none
    | some (fraction, rest) =>
      match readExponent rest with
      | none => none
      | some (exponent, rest) =>
        let value : Int := if negative then -(digitsValue whole : Int) else digitsValue whole
        if fraction.isNone ∧ exponent.isNone ∧ fitsWord value ∧ ¬ (negative ∧ value = 0) then
          some (.integer value, rest)
        else
          (RealText.read? negative whole (fraction.getD []) (exponent.getD 0)).map fun real =>
            (.real real, rest)

mutual

/-- A value.  The first argument bounds the steps, the second the nesting. -/
def readValue [RealText φ] : Nat → Nat → List Char → Option (Datum φ × List Char)
  | 0, _, _ => none
  | fuel + 1, depth, text =>
    match text.dropWhile isSpace with
    | 'n' :: 'u' :: 'l' :: 'l' :: rest => some (.null, rest)
    | 't' :: 'r' :: 'u' :: 'e' :: rest => some (.boolean true, rest)
    | 'f' :: 'a' :: 'l' :: 's' :: 'e' :: rest => some (.boolean false, rest)
    | '"' :: rest => (readString (rest.length + 1) rest).map fun (value, rest) =>
        (.text (String.ofList value), rest)
    | '-' :: rest => readNumber true rest
    | '[' :: rest =>
      match depth with
      | 0 => none
      | depth + 1 =>
        match rest.dropWhile isSpace with
        | ']' :: rest => some (.list [], rest)
        | _ => (readItems fuel depth rest).map fun (items, rest) => (.list items, rest)
    | '\x7b' :: rest =>
      match depth with
      | 0 => none
      | depth + 1 =>
        match rest.dropWhile isSpace with
        | '\x7d' :: rest => some (.record [], rest)
        | _ => (readFields fuel depth rest).map fun (fields, rest) => (.record fields, rest)
    | text => readNumber false text

/-- The items of a list, its closing bracket included. -/
def readItems [RealText φ] : Nat → Nat → List Char → Option (List (Datum φ) × List Char)
  | 0, _, _ => none
  | fuel + 1, depth, text =>
    match readValue fuel depth text with
    | none => none
    | some (item, rest) =>
      match rest.dropWhile isSpace with
      | ',' :: rest => (readItems fuel depth rest).map fun (items, rest) => (item :: items, rest)
      | ']' :: rest => some ([item], rest)
      | _ => none

/-- The fields of a record, its closing brace included. -/
def readFields [RealText φ] :
    Nat → Nat → List Char → Option (List (String × Datum φ) × List Char)
  | 0, _, _ => none
  | fuel + 1, depth, text =>
    match text.dropWhile isSpace with
    | '"' :: rest =>
      match readString (rest.length + 1) rest with
      | none => none
      | some (name, rest) =>
        match rest.dropWhile isSpace with
        | ':' :: rest =>
          match readValue fuel depth rest with
          | none => none
          | some (value, rest) =>
            let field := (String.ofList name, value)
            match rest.dropWhile isSpace with
            | ',' :: rest =>
              (readFields fuel depth rest).map fun (fields, rest) => (field :: fields, rest)
            | '\x7d' :: rest => some ([field], rest)
            | _ => none
        | _ => none
    | _ => none

end

/-- How deep lists and records may be nested. -/
def nestingLimit : Nat := 127

/-- The value that a whole text denotes.  Every step but the last two of a
nesting level takes a character, so twice the length bounds them. -/
def read? [RealText φ] (text : List Char) : Option (Datum φ) :=
  match readValue (2 * text.length + 2) nestingLimit text with
  | some (value, rest) => if rest.all isSpace then some value else none
  | none => none

end JsonText

/-! ## Binary floating point -/

namespace BinaryFloat

/-- Largest significand that is kept. -/
def significandLimit : Nat := 18446744073709551615

/-- Appends digits to a significand until the next one would exceed the
limit; also gives the number of digits left. -/
def takeDigits : Nat → List Char → Nat × Nat
  | significand, [] => (significand, 0)
  | significand, c :: rest =>
    let next := 10 * significand + (c.toNat - 48)
    if next ≤ significandLimit then takeDigits next rest else (significand, rest.length + 1)

/-- `x · 10 ^ exponent` by at most three divisions or one multiplication. -/
def scale (x : Float) (exponent : Int) : Option Float :=
  let power (n : Nat) : Float := Float.ofScientific 1 false n
  match exponent with
  | .ofNat up =>
    if up ≤ 308 then
      let y := x * power up
      if y.isFinite then some y else none
    else if x == 0.0 then some x else none
  | .negSucc down =>
    let down := down + 1
    if x == 0.0 then some x
    else if down ≤ 308 then some (x / power down)
    else if down ≤ 616 then some (x / power 308 / power (down - 308))
    else if down ≤ 924 then some (x / power 308 / power 308 / power (down - 616))
    else some 0.0

/-- Reads a literal: its leading digits as a 64-bit word, scaled by a power of
ten in floating point. -/
def readLiteral? (negative : Bool) (whole fraction : List Char) (exponent : Int) : Option Float :=
  let (significand, wholeLeft) := takeDigits 0 whole
  let (significand, fractionLeft) := takeDigits significand fraction
  let taken : Int := (fraction.length : Int) - fractionLeft
  let x := significand.toUInt64.toFloat
  (scale x (exponent + wholeLeft - taken)).map fun x => if negative then -x else x

end BinaryFloat

instance : RealText Float where
  write x := (Shortest.json x).toList
  read? := BinaryFloat.readLiteral?

end ContextPack
