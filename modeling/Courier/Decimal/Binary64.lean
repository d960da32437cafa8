/-
Courier.Decimal.Binary64 — the double that a decimal stands for.

A number with a fraction or an exponent in a JSON document is held as a double:
53 bits of precision, exponents from -1074 to 971. Here a double is its value, a
mantissa times a power of two, and not its bits, so that everything below is
arithmetic on `Nat` and `Int`.

* `Binary64` is a double: finite with its sign, infinite, or not a number.
* `roundRatio num den` is the finite double nearest to `num / den`; a tie goes to
  the even mantissa.
* `Binary64.ofDecimal` reads `coefficient * 10 ^ exponent`. Decimals beyond the
  range in either direction are recognised by their order of magnitude, so that no
  power of ten is ever computed that the result does not need.
-/

namespace Courier.Decimal

/-- A double. -/
inductive Binary64 where
  /-- The value `mantissa * 2 ^ exponent`, with its sign. -/
  | finite (negative : Bool) (mantissa : Nat) (exponent : Int)
  /-- A value beyond the range. -/
  | infinite (negative : Bool)
  /-- No number at all. -/
  | notANumber
  deriving DecidableEq, Repr

/-- The least exponent of a double. -/
def minExponent : Int := -1074

/-- The greatest exponent of a double. -/
def maxExponent : Int := 971

/-- The power `2 ^ n`. -/
def powerOfTwo (n : Nat) : Nat := Nat.pow 2 n

/-- The power `10 ^ n`. -/
def powerOfTen (n : Nat) : Nat := Nat.pow 10 n

/-- The quotient rounded to the nearest integer, a tie to the even one. -/
def roundQuotient (num den : Nat) : Nat :=
  let q := num / den
  let r := num % den
  if 2 * r > den || (2 * r == den && q % 2 == 1) then q + 1 else q

/-- The nearest multiple of `2 ^ exponent` to `num / den`, as a multiple. -/
def scaleRatio (num den : Nat) (exponent : Int) : Nat :=
  roundQuotient (num * powerOfTwo (-exponent).toNat) (den * powerOfTwo exponent.toNat)

/-- The exponent that gives `num / den` a mantissa of 53 bits, or the least exponent. -/
def fitExponent (num den : Nat) : Int :=
  let guess := (num.log2 : Int) - den.log2 - 52
  let small := num * powerOfTwo (-guess).toNat < powerOfTwo 52 * (den * powerOfTwo guess.toNat)
  max minExponent (if small then guess - 1 else guess)

/-- The double nearest to the positive ratio `num / den`. -/
def roundRatio (negative : Bool) (num den : Nat) : Binary64 :=
  let exponent := fitExponent num den
  let mantissa := scaleRatio num den exponent
  let (mantissa, exponent) :=
    if mantissa = powerOfTwo 53 then (powerOfTwo 52, exponent + 1) else (mantissa, exponent)
  if exponent > maxExponent then .infinite negative else .finite negative mantissa exponent

/-- The number of decimal digits of a natural number; zero has none. -/
def digitCount (n : Nat) : Nat :=
  if n = 0 then 0 else (Nat.toDigits 10 n).length

/-- The double nearest to `coefficient * 10 ^ exponent`. -/
def Binary64.ofDecimal (negative : Bool) (coefficient : Nat) (exponent : Int) : Binary64 :=
  let magnitude := (digitCount coefficient : Int) + exponent
  if coefficient = 0 || magnitude < -330 then .finite negative 0 minExponent
  else if magnitude > 310 then .infinite negative
  else roundRatio negative (coefficient * powerOfTen exponent.toNat) (powerOfTen (-exponent).toNat)

end Courier.Decimal
