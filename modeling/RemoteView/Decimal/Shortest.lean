/-! # Shortest decimals

The shortest decimal that reads back as a given binary floating-point number. A finite positive
double is `mantissa · 2^exponent`; the reals that round to it form an interval whose ends belong to
it exactly when the mantissa is even. On the decimal grids with one, two, … seventeen significant
digits only the two neighbours of the value can be the answer: the first grid with a neighbour
inside the interval wins, of two such neighbours the nearer one, and the even one of an exact tie.
-/

namespace RemoteView.Decimal

/-- The positive number `mantissa · 2^exponent`. -/
structure Binary where
  mantissa : Nat
  exponent : Int
  deriving DecidableEq, Repr

/-- What the bits of a double stand for, up to sign. -/
inductive Magnitude where
  | zero
  | finite (value : Binary)
  | infinite
  | notANumber
  deriving DecidableEq, Repr

/-- The decimal `0.digits · 10^point`; the digits neither start nor end with a zero. -/
structure Digits where
  digits : List Char
  point : Int
  deriving DecidableEq, Repr

/-- How many fractions there are: two to the fifty-second. A normal mantissa is that much more than
    its fraction. -/
def fractionCount : Nat := 4503599627370496

/-- How many exponent fields there are: two to the eleventh. -/
def exponentCount : Nat := 2048

/-- Is the sign bit set? -/
def isNegative (x : Float) : Bool :=
  fractionCount * exponentCount ≤ x.toBits.toNat

/-- Split the bits into exponent and fraction fields. -/
def magnitude (x : Float) : Magnitude :=
  let bits := x.toBits.toNat
  let biased := bits / fractionCount % exponentCount
  let fraction := bits % fractionCount
  if biased + 1 = exponentCount then
    if fraction = 0 then .infinite else .notANumber
  else if biased = 0 then
    if fraction = 0 then .zero else .finite ⟨fraction, -1074⟩
  else
    .finite ⟨fractionCount + fraction, Int.ofNat biased - 1075⟩

namespace Binary

/-- The value as a quotient of natural numbers. -/
def numerator (b : Binary) : Nat := b.mantissa * Nat.pow 2 b.exponent.toNat

/-- The denominator belonging to `numerator`. -/
def denominator (b : Binary) : Nat := Nat.pow 2 (-b.exponent).toNat

/-- The least `d` with `value < 10^d`. -/
def decimalPoint (b : Binary) : Int :=
  let n := b.numerator
  let d := b.denominator
  if d ≤ n then
    (Nat.toDigits 10 (n / d)).length
  else
    1 - (Nat.toDigits 10 ((d + n - 1) / n - 1)).length

/-- Does `candidate · 10^power` round to the value? Both sides are compared in quarters of the unit
    in the last place; the gap below a power of two is half as wide as the gap above it. -/
def roundsFrom (b : Binary) (candidate : Nat) (power : Int) : Bool :=
  let unit := b.exponent - 2
  let narrow := b.mantissa = fractionCount ∧ b.exponent > -1074
  let lower := if narrow then 4 * b.mantissa - 1 else 4 * b.mantissa - 2
  let upper := 4 * b.mantissa + 2
  let scaled := candidate * Nat.pow 10 power.toNat * Nat.pow 2 (-unit).toNat
  let scale := Nat.pow 2 unit.toNat * Nat.pow 10 (-power).toNat
  if b.mantissa % 2 = 0 then
    lower * scale ≤ scaled ∧ scaled ≤ upper * scale
  else
    lower * scale < scaled ∧ scaled < upper * scale

/-- The value in units of `10^power`, as a numerator and a denominator. -/
def inUnits (b : Binary) (power : Int) : Nat × Nat :=
  (b.numerator * Nat.pow 10 (-power).toNat, b.denominator * Nat.pow 10 power.toNat)

/-- The neighbour of the value on the grid of multiples of `10^power` that reads back as the value.
-/
def neighbour? (b : Binary) (power : Int) : Option Nat :=
  let (n, d) := b.inUnits power
  let below := n / d
  let twice := 2 * (n % d)
  match b.roundsFrom below power, b.roundsFrom (below + 1) power with
  | true, false => some below
  | false, true => some (below + 1)
  | true, true =>
      if twice < d then some below
      else if d < twice then some (below + 1)
      else if below % 2 = 0 then some below
      else some (below + 1)
  | false, false => none

/-- The first grid, from `count` digits on and with `steps` grids left to try, that has an answer.
-/
def shortestFrom (b : Binary) (point : Int) : (count steps : Nat) → Nat × Int
  | count, 0 =>
      let (n, d) := b.inUnits (point - count)
      (n / d, point - count)
  | count, steps + 1 =>
      match b.neighbour? (point - count) with
      | some candidate => (candidate, point - count)
      | none => b.shortestFrom point (count + 1) steps

/-- The digits of the shortest decimal that reads back as the value. Seventeen digits always do. -/
def shortest (b : Binary) : Digits :=
  let (candidate, power) := b.shortestFrom b.decimalPoint 1 17
  let written := Nat.toDigits 10 candidate
  ⟨(written.reverse.dropWhile (· = '0')).reverse, power + written.length⟩

end Binary

end RemoteView.Decimal
