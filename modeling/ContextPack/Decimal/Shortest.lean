import ContextPack.Decimal.Dyadic

/-!
# Shortest decimal notation

The decimal with the fewest digits among those that a reader rounds back to
the given binary number, and of these the nearest one.  A coarse decimal grid
is tried first; on each grid only the two neighbours of the value can lie in
the interval of reals that round to it.

Two layouts are used: `json`, where every number shows that it is a real and
very large or small ones take an exponent, and `plain`, always positional.
-/

namespace ContextPack.Shortest

/-- A decimal `digits · 10 ^ exponent`. -/
structure Scientific where
  digits : Nat
  exponent : Int
deriving DecidableEq, Repr

/-- The reals that round to a positive dyadic value, in quarters of its last
binary place.  The ends belong to it when the mantissa is even. -/
structure Interval where
  /-- Four times the mantissa. -/
  centre : Nat
  low : Nat
  high : Nat
  closed : Bool
  /-- Exponent of two of a quarter place. -/
  exponent : Int

/-- The rounding interval; below a power of two the gap is halved. -/
def Interval.of (mantissa : Nat) (exponent : Int) : Interval where
  centre := 4 * mantissa
  low := if mantissa = fractionUnits ∧ exponent > -1074 then 4 * mantissa - 1 else 4 * mantissa - 2
  high := 4 * mantissa + 2
  closed := mantissa % 2 = 0
  exponent := exponent - 2

def powerUp (base : Nat) : Int → Nat
  | .ofNat n => Nat.pow base n
  | .negSucc _ => 1

def powerDown (base : Nat) : Int → Nat
  | .ofNat _ => 1
  | .negSucc n => Nat.pow base (n + 1)

/-- Compares the decimal `digits · 10 ^ grid` with `quarters · 2 ^ exponent`. -/
def compareOnGrid (grid : Int) (exponent : Int) (digits quarters : Nat) : Ordering :=
  compare (digits * powerUp 10 grid * powerDown 2 exponent)
    (quarters * powerUp 2 exponent * powerDown 10 grid)

/-- Whether a decimal rounds to the interval's number. -/
def Interval.holds (range : Interval) (grid : Int) (digits : Nat) : Bool :=
  let fromLow := compareOnGrid grid range.exponent digits range.low
  let fromHigh := compareOnGrid grid range.exponent digits range.high
  (fromLow == .gt || (range.closed && fromLow == .eq)) &&
    (fromHigh == .lt || (range.closed && fromHigh == .eq))

/-- The decimal of a grid nearest to the value among its two neighbours that
read back, if one does. -/
def onGrid? (range : Interval) (grid : Int) : Option Nat :=
  let top := range.centre * powerUp 2 range.exponent * powerDown 10 grid
  let bottom := powerUp 10 grid * powerDown 2 range.exponent
  let below := top / bottom
  let nearer := if 2 * (top % bottom) < bottom then below
    else if bottom < 2 * (top % bottom) then below + 1
    else if below % 2 = 0 then below else below + 1
  let other := if nearer = below then below + 1 else below
  if nearer ≠ 0 ∧ range.holds grid nearer then some nearer
  else if other ≠ 0 ∧ range.holds grid other then some other
  else none

/-- Tries ever finer grids. -/
def search (range : Interval) : Nat → Int → Scientific
  | 0, grid => ⟨0, grid⟩
  | steps + 1, grid =>
    match onGrid? range grid with
    | some digits => ⟨digits, grid⟩
    | none => search range steps (grid - 1)

/-- Drops the zeros at the end of the digits. -/
def trimZeros : Nat → Scientific → Scientific
  | 0, decimal => decimal
  | steps + 1, decimal =>
    if decimal.digits ≠ 0 ∧ decimal.digits % 10 = 0 then
      trimZeros steps ⟨decimal.digits / 10, decimal.exponent + 1⟩
    else decimal

/-- The shortest decimal of a positive value.  The first grid is no finer
than the value's leading digit, and a grid of seventeen digits always has a
hit, so twenty-four grids suffice. -/
def ofPositive (mantissa : Nat) (exponent : Int) : Scientific :=
  let bits : Int := (mantissa.log2 : Int) + 1 + exponent
  let leading : Int := bits * 30103 / 100000 + 2
  trimZeros 24 (search (Interval.of mantissa exponent) 24 leading)

def zeros (count : Nat) : List Char := List.replicate count '0'

/-- Positional notation without an exponent, whole numbers without a point. -/
def positional (decimal : Scientific) : List Char :=
  let digits := (toString decimal.digits).toList
  let point : Int := digits.length + decimal.exponent
  match decimal.exponent with
  | .ofNat up => digits ++ zeros up
  | .negSucc _ =>
    if 0 < point then digits.take point.toNat ++ '.' :: digits.drop point.toNat
    else '0' :: '.' :: (zeros (-point).toNat ++ digits)

/-- Notation of a real in JSON text: positional from `1e-5` up to below
`1e16`, and one digit, the others and a signed exponent outside of that. -/
def jsonLayout (decimal : Scientific) : List Char :=
  let digits := (toString decimal.digits).toList
  let point : Int := digits.length + decimal.exponent
  if -5 < point ∧ point ≤ 16 then
    positional decimal ++ (if 0 ≤ decimal.exponent then ['.', '0'] else [])
  else
    let mantissa := if digits.length = 1 then digits else digits.take 1 ++ '.' :: digits.drop 1
    let sign := if 0 < point then ['+'] else []
    mantissa ++ 'e' :: (sign ++ (toString (point - 1)).toList)

def signed (negative : Bool) (text : List Char) : String :=
  String.ofList (if negative then '-' :: text else text)

/-- A finite number in JSON text; a number that is not finite is `null`. -/
def json (x : Float) : String :=
  match FloatClass.ofFloat x with
  | .notANumber | .infinite _ => "null"
  | .finite value =>
    signed value.negative <|
      if value.mantissa = 0 then ['0', '.', '0']
      else jsonLayout (ofPositive value.mantissa value.exponent)

/-- A number in positional notation. -/
def plain (x : Float) : String :=
  match FloatClass.ofFloat x with
  | .notANumber => "NaN"
  | .infinite negative => signed negative "inf".toList
  | .finite value =>
    signed value.negative <|
      if value.mantissa = 0 then ['0']
      else positional (ofPositive value.mantissa value.exponent)

end ContextPack.Shortest
