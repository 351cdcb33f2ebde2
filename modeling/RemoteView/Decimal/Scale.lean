/-! # Doubles from decimals

How a written decimal becomes a double. Its digits are gathered in a significand of 64 bits for as
long as they fit there; of those before the point that do not fit only the count matters, and those
after the point are dropped. The significand is then rounded to a double, and this double is
multiplied or divided by a power of ten. The result can therefore differ by a unit in the last place
from the double nearest to the decimal.
-/

namespace RemoteView.Decimal

/-- The number `significand · 10^exponent`. -/
structure Scaled where
  significand : Nat
  exponent : Int
  deriving DecidableEq, Repr

namespace Scaled

/-- The significand followed by one more digit, when it still has 64 bits. -/
def append? (significand : Nat) (digit : Char) : Option Nat :=
  let next := significand * 10 + (digit.toNat - '0'.toNat)
  if next < UInt64.size then some next else none

/-- Gather digits before the point. -/
def ofWhole (significand : Nat) : List Char → Scaled
  | [] => ⟨significand, 0⟩
  | digit :: rest =>
      match append? significand digit with
      | some next => ofWhole next rest
      | none => ⟨significand, (digit :: rest).length⟩

/-- Gather digits after the point. -/
def gatherFraction (number : Scaled) : List Char → Scaled
  | [] => number
  | digit :: rest =>
      match append? number.significand digit with
      | some next => gatherFraction ⟨next, number.exponent - 1⟩ rest
      | none => number

/-- The greatest power of ten that is a double. -/
def greatestPower : Nat := 308

/-- A power of ten as a double. -/
def power (exponent : Nat) : Float := Float.ofScientific 1 false exponent

/-- Scale a double by a power of ten, in steps of the greatest power when it becomes smaller. What
    would be infinite has no value. -/
def scale? (x : Float) (exponent : Int) : Option Float :=
  if exponent.natAbs ≤ greatestPower then
    if 0 ≤ exponent then
      let scaled := x * power exponent.natAbs
      if scaled.isInf then none else some scaled
    else some (x / power exponent.natAbs)
  else if x == 0.0 then some x
  else if 0 ≤ exponent then none
  else scale? (x / power greatestPower) (exponent + greatestPower)
termination_by exponent.natAbs
decreasing_by
  simp only [greatestPower] at *
  omega

/-- The double that stands for a decimal. -/
def toFloat? (number : Scaled) : Option Float :=
  scale? (UInt64.ofNat number.significand).toFloat number.exponent

end Scaled

end RemoteView.Decimal
