import ContextPack.Decimal.Dyadic

/-!
# Fixed-point notation

A number with a set count of decimal places, its exact value rounded to the
nearest such decimal and a tie going to the even neighbour.
-/

namespace ContextPack.Fixed

/-- `numerator / denominator` to the nearest natural number, ties to even. -/
def roundHalfEven (numerator denominator : Nat) : Nat :=
  let quotient := numerator / denominator
  let rest := numerator % denominator
  if 2 * rest < denominator then quotient
  else if denominator < 2 * rest then quotient + 1
  else if quotient % 2 = 0 then quotient else quotient + 1

def padZeros (width : Nat) (digits : List Char) : List Char :=
  List.replicate (width - digits.length) '0' ++ digits

/-- The value in units of the last place. -/
def scaled (places : Nat) (value : Dyadic) : Nat :=
  let shifted := value.mantissa * Nat.pow 10 places
  match value.exponent with
  | .ofNat up => shifted * Nat.pow 2 up
  | .negSucc down => roundHalfEven shifted (Nat.pow 2 (down + 1))

/-- Digits of a count of last places, with the point put in. -/
def layout (places : Nat) (units : Nat) : List Char :=
  let whole := (toString (units / Nat.pow 10 places)).toList
  if places = 0 then whole
  else whole ++ '.' :: padZeros places (toString (units % Nat.pow 10 places)).toList

/-- A number of any class with `places` decimal places; the sign of a
negative zero is kept. -/
def renderClass (places : Nat) : FloatClass → String
  | .notANumber => "NaN"
  | .infinite true => "-inf"
  | .infinite false => "inf"
  | .finite value =>
    String.ofList ((if value.negative then ['-'] else []) ++ layout places (scaled places value))

/-- A floating-point number with `places` decimal places. -/
def render (places : Nat) (x : Float) : String :=
  renderClass places (FloatClass.ofFloat x)

end ContextPack.Fixed
