/-
Courier.Decimal.Shortest — the fewest digits that read back.

A double stands for every real number that rounds to it. Of the decimals in that
interval, `shortest` chooses one with the fewest digits, and of those the one
nearest to the double. The search is the definition turned into a loop: for one,
two, … seventeen digits it tests the two neighbours of the value on the grid of
decimals with so many digits.

* `Interval` is the set of reals that round to a double, as three naturals over one
  denominator: the lower end, the value, the upper end. The ends belong to it if the
  mantissa is even.
* `onGrid` gives the nearest decimal of a grid that lies in the interval, if any.
* `shortest` is the result: `digits * 10 ^ scale`.
-/
import Courier.Decimal.Binary64

namespace Courier.Decimal

/-- The reals that round to a double: `low / den` to `high / den`, around `value / den`. -/
structure Interval where
  /-- The lower end. -/
  low : Nat
  /-- The double itself. -/
  value : Nat
  /-- The upper end. -/
  high : Nat
  /-- What the other three are divided by. -/
  den : Nat
  /-- Whether the ends round to the double. -/
  closed : Bool
  deriving DecidableEq, Repr

/-- The interval of the double `mantissa * 2 ^ exponent`. -/
def Interval.of (mantissa : Nat) (exponent : Int) : Interval :=
  let up := powerOfTwo (exponent - 2).toNat
  let narrow := mantissa = powerOfTwo 52 && exponent > minExponent
  { low := (if narrow then 4 * mantissa - 1 else 4 * mantissa - 2) * up
    value := 4 * mantissa * up
    high := (4 * mantissa + 2) * up
    den := powerOfTwo (2 - exponent).toNat
    closed := mantissa % 2 = 0 }

/-- Whether `num / den` lies in the interval. -/
def Interval.contains (i : Interval) (num den : Nat) : Bool :=
  if i.closed then i.low * den ≤ num * i.den && num * i.den ≤ i.high * den
  else i.low * den < num * i.den && num * i.den < i.high * den

/--
The multiple of `10 ^ scale` in the interval that is nearest to its value, among the
two next to it; of two equally near ones the even.
-/
def onGrid (i : Interval) (scale : Int) : Option Nat :=
  let up := powerOfTen scale.toNat
  let down := powerOfTen (-scale).toNat
  let below := i.value * down / (i.den * up)
  let lowFits := i.contains (below * up) down
  let highFits := i.contains ((below + 1) * up) down
  if lowFits && highFits then
    let twice := 2 * i.value * down
    let middle := (2 * below + 1) * up * i.den
    if twice < middle || (twice == middle && below % 2 == 0) then some below else some (below + 1)
  else if lowFits then some below
  else if highFits then some (below + 1)
  else none

/-- The least `k` from `guess` upwards, within `steps` steps, with the value below `10 ^ k`. -/
def magnitudeFrom (i : Interval) (guess : Int) : Nat → Int
  | 0 => guess
  | steps + 1 =>
    if i.value * powerOfTen (-guess).toNat < powerOfTen guess.toNat * i.den then guess
    else magnitudeFrom i (guess + 1) steps

/-- The decimal magnitude of the value: the least `k` with the value below `10 ^ k`. -/
def magnitude (i : Interval) : Int :=
  let bits := (i.value.log2 : Int) - i.den.log2
  magnitudeFrom i (bits * 30103 / 100000 - 1) 4

/-- The first grid with a decimal in the interval, from `count` digits on, within `steps` grids. -/
def firstGrid (i : Interval) (top : Int) (count : Nat) : Nat → Option (Nat × Int)
  | 0 => none
  | steps + 1 =>
    match onGrid i (top - count) with
    | some digits => some (digits, top - count)
    | none => firstGrid i top (count + 1) steps

/-- Moves the zeros at the end of `digits` into the scale; `fuel` bounds their number. -/
def dropZeros (digits : Nat) (scale : Int) : Nat → Nat × Int
  | 0 => (digits, scale)
  | fuel + 1 =>
    if digits != 0 && digits % 10 == 0 then dropZeros (digits / 10) (scale + 1) fuel
    else (digits, scale)

/-- The decimal `digits * 10 ^ scale` with the fewest digits that reads back as the double. -/
def shortest (mantissa : Nat) (exponent : Int) : Nat × Int :=
  if mantissa = 0 then (0, 0)
  else
    let i := Interval.of mantissa exponent
    match firstGrid i (magnitude i) 1 17 with
    | some (digits, scale) => dropZeros digits scale 20
    | none => (mantissa, exponent)

end Courier.Decimal
