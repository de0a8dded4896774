/-!
# Scalars

Scores, weights and tunables are computed in binary floating point when the
program runs and in exact fields when its laws are studied.  `Scalar` names
the operations both readings share, so each ranking rule is written once.

Comparisons are Boolean because a floating-point comparison with
not-a-number is simply false.  `order` is the total order used for sorting.
Logarithm and square root live in `Analytic`: only lexical weighting needs
them.
-/

namespace ContextPack

/-- The arithmetic that ranking and weighting need of a number type. -/
class Scalar (α : Type) extends Add α, Sub α, Mul α, Div α, Neg α where
  /-- The number of a count. -/
  ofNat : Nat → α
  /-- `decimal digits places` is `digits / 10 ^ places`. -/
  decimal : Nat → Nat → α
  /-- The value every sum starts from. -/
  emptySum : α
  /-- Neither infinite nor not-a-number. -/
  isFinite : α → Bool
  lt : α → α → Bool
  le : α → α → Bool
  /-- Sorting order, total also on values that no comparison relates. -/
  order : α → α → Ordering
  absolute : α → α
  /-- The larger of two numbers; a value that is no number loses. -/
  maximum : α → α → α
  /-- The smaller of two numbers; a value that is no number loses. -/
  minimum : α → α → α
  /-- The least natural number that is not below the argument, zero at least. -/
  ceilNat : α → Nat

/-- Scalars with the two functions that lexical weighting needs besides. -/
class Analytic (α : Type) extends Scalar α where
  ln : α → α
  sqrt : α → α

namespace Scalar

variable {α : Type} [Scalar α]

def zero : α := ofNat 0

def one : α := ofNat 1

/-- Sum from left to right; the order matters once rounding does. -/
def sum (terms : List α) : α :=
  terms.foldl (· + ·) emptySum

def clamp (x low high : α) : α :=
  if lt x low then low else if lt high x then high else x

/-- Whether `x` is zero of either sign. -/
def isZero (x : α) : Bool := le x zero && le zero x

def isPositive (x : α) : Bool := lt zero x

/-- Whether `x` lies in the closed interval from `low` to `high`. -/
def within (x low high : α) : Bool := le low x && le x high

end Scalar

/-! ## Binary floating point -/

namespace BinaryFloat

/-- The sign bit of a 64-bit word. -/
def signUnit : Nat := Nat.pow 2 63

/-- Key of the total order on bit patterns: negative numbers descend, and
each not-a-number stands outside the infinity of its sign. -/
def orderKey (x : Float) : Int :=
  let bits := x.toBits.toNat
  if bits < signUnit then (bits : Int) else -((bits - signUnit : Nat) : Int) - 1

/-- Least natural number not below `x`. -/
def ceilNat (x : Float) : Nat :=
  if x > 0.0 then x.ceil.toUInt64.toNat else 0

/-- A maximum that prefers a number to not-a-number. -/
def maximum (x y : Float) : Float :=
  if x.isNaN then y else if y.isNaN then x else if x < y then y else x

/-- A minimum that prefers a number to not-a-number. -/
def minimum (x y : Float) : Float :=
  if x.isNaN then y else if y.isNaN then x else if y < x then y else x

end BinaryFloat

instance : Analytic Float where
  ofNat n := Float.ofNat n
  decimal digits places := Float.ofScientific digits true places
  emptySum := -0.0
  isFinite := Float.isFinite
  lt x y := x < y
  le x y := x ≤ y
  order x y := compare (BinaryFloat.orderKey x) (BinaryFloat.orderKey y)
  absolute := Float.abs
  maximum := BinaryFloat.maximum
  minimum := BinaryFloat.minimum
  ceilNat := BinaryFloat.ceilNat
  ln := Float.log
  sqrt := Float.sqrt

end ContextPack
