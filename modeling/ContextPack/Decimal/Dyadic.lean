/-!
# Dyadic values

The finite binary floating-point numbers are the signed products of a
natural number and a power of two.  Both decimal notations of this library
start from that exact value and use natural-number arithmetic only.
-/

namespace ContextPack

/-- The value `± mantissa · 2 ^ exponent`. -/
structure Dyadic where
  negative : Bool
  mantissa : Nat
  exponent : Int
deriving DecidableEq, Repr

/-- What a floating-point word stands for. -/
inductive FloatClass where
  | notANumber
  | infinite (negative : Bool)
  | finite (value : Dyadic)
deriving DecidableEq, Repr

/-- How many steps lie between two neighbouring powers of two. -/
def fractionUnits : Nat := Nat.pow 2 52

/-- Reads a 64-bit floating-point word: one sign bit, eleven exponent bits,
fifty-two fraction bits. -/
def FloatClass.ofBits (word : Nat) : FloatClass :=
  let negative := decide ((word >>> 63) % 2 = 1)
  let biased := (word >>> 52) % 2048
  let fraction := word % fractionUnits
  if biased = 2047 then
    if fraction = 0 then .infinite negative else .notANumber
  else if biased = 0 then
    .finite ⟨negative, fraction, -1074⟩
  else
    .finite ⟨negative, fractionUnits + fraction, (biased : Int) - 1075⟩

/-- The class of a floating-point number. -/
def FloatClass.ofFloat (x : Float) : FloatClass :=
  FloatClass.ofBits x.toBits.toNat

end ContextPack
