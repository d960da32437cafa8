/-
Courier.Text.Hex — hexadecimal digits.

Escapes name a character by hexadecimal digits: in JSON documents, in quoted
literals and in the names of databases. `hexDigit` and `hexDigits` write them, in
lower case; `hexDigit?` reads one, in either case.
-/

namespace Courier.Text

/-- A digit of a lower case hexadecimal number. -/
def hexDigit (n : Nat) : Char :=
  if n < 10 then Char.ofNat ('0'.toNat + n) else Char.ofNat ('a'.toNat + n - 10)

/-- The last digits of a number, as many as asked for. -/
def hexDigits (width n : Nat) : List Char :=
  match width with
  | 0 => []
  | width + 1 => hexDigits width (n / 16) ++ [hexDigit (n % 16)]

/-- The value of a hexadecimal digit. -/
def hexDigit? (c : Char) : Option Nat :=
  if '0' ≤ c && c ≤ '9' then some (c.toNat - '0'.toNat)
  else if 'a' ≤ c && c ≤ 'f' then some (c.toNat - 'a'.toNat + 10)
  else if 'A' ≤ c && c ≤ 'F' then some (c.toNat - 'A'.toNat + 10)
  else none

end Courier.Text
