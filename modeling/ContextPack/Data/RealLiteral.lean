/-!
# Real literals

Reals as settings files spell them: digits with a point and an exponent, read
as the nearest real, and words for the values that no digits denote.
-/

namespace ContextPack

class RealLiteral (φ : Type) where
  /-- The real nearest to `digits · 10 ^ exponent`, with a sign. -/
  nearest : (negative : Bool) → (digits : Nat) → (exponent : Int) → φ
  infinity : (negative : Bool) → φ
  notANumber : φ
  isInfinite : φ → Bool

namespace RealLiteral

variable {φ : Type} [RealLiteral φ]

/-- The number of a digit string. -/
def natural (digits : List Char) : Nat :=
  digits.foldl (fun value digit => 10 * value + (digit.toNat - '0'.toNat)) 0

/-- The real of digits before and after a point and an exponent. -/
def ofParts (negative : Bool) (whole fraction : List Char) (exponent : Int) : φ :=
  nearest negative (natural (whole ++ fraction)) (exponent - (fraction.length : Int))

/-- A sign in front, if there is one. -/
def takeSign : List Char → Bool × List Char
  | '-' :: rest => (true, rest)
  | '+' :: rest => (false, rest)
  | text => (false, text)

/-- The exponent that a whole text spells, the mark in front included; nothing
stands for zero. -/
def exponent? : List Char → Option Int
  | [] => some 0
  | mark :: rest =>
    if mark == 'e' || mark == 'E' then
      let (negative, digits) := takeSign rest
      if digits.isEmpty || !digits.all Char.isDigit then none
      else some (if negative then -(natural digits : Int) else natural digits)
    else none

/-- The digits after a point, and what follows them. -/
def takeFraction : List Char → List Char × List Char
  | '.' :: rest => rest.span Char.isDigit
  | text => ([], text)

/-- The real that a text of digits denotes, with a sign, a point and an
exponent if need be.  Digits may be missing on one side of the point. -/
def ofDigits? (text : List Char) : Option φ :=
  let (negative, body) := takeSign text
  let (whole, rest) := body.span Char.isDigit
  let (fraction, tail) := takeFraction rest
  if whole.isEmpty && fraction.isEmpty then none
  else (exponent? tail).map fun exponent => ofParts negative whole fraction exponent

/-- The real that a text denotes, digits or one of the words for infinity and
not-a-number. -/
def read? (text : List Char) : Option φ :=
  let (negative, body) := takeSign text
  let word := String.ofList (body.map Char.toLower)
  if word == "inf" || word == "infinity" then some (infinity negative)
  else if word == "nan" then some notANumber
  else ofDigits? text

end RealLiteral

/-! ## Binary floating point -/

/-- Past this power of ten everything is infinite, or zero on the other side. -/
def decimalRange : Int := 400

/-- The floating-point number nearest to a decimal. -/
def nearestFloat (negative : Bool) (digits : Nat) (exponent : Int) : Float :=
  let size : Int := (toString digits).length
  let magnitude : Float :=
    if digits = 0 || size + exponent < -decimalRange then 0.0
    else if decimalRange < size + exponent then 1.0 / 0.0
    else Float.ofScientific digits (exponent < 0) exponent.natAbs
  if negative then -magnitude else magnitude

instance : RealLiteral Float where
  nearest := nearestFloat
  infinity negative := if negative then -(1.0 / 0.0) else 1.0 / 0.0
  notANumber := 0.0 / 0.0
  isInfinite x := x.isInf

end ContextPack
