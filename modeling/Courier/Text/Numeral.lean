/-
Courier.Text.Numeral — integers written in any script.

Variables may be deleted by number and arrays are indexed by number, so that a
text typed by the user is read as an integer. Two questions are asked about such
a text, and they are different questions:

* `isNumeric s`: does it consist of digit characters only? Superscripts and
  circled digits count.
* `readInteger s`: which integer does it write? Only decimal digits count, of any
  script; one minus sign may stand in front. A text with more than
  `maxDigits` digits is refused whatever its value.

A text that is numeric and still not an integer, such as `²`, is what
`NumeralError.malformed` reports.
-/
import Courier.Text.Literal

namespace Courier.Text

/-- The zeros of the scripts whose ten decimal digits follow each other. -/
def decimalZeros : List Nat := [
  0x30, 0x660, 0x6F0, 0x7C0, 0x966, 0x9E6, 0xA66, 0xAE6, 0xB66, 0xBE6, 0xC66, 0xCE6, 0xD66, 0xDE6,
  0xE50, 0xED0, 0xF20, 0x1040, 0x1090, 0x17E0, 0x1810, 0x1946, 0x19D0, 0x1A80, 0x1A90, 0x1B50,
  0x1BB0, 0x1C40, 0x1C50, 0xA620, 0xA8D0, 0xA900, 0xA9D0, 0xA9F0, 0xAA50, 0xABF0, 0xFF10, 0x104A0,
  0x10D30, 0x11066, 0x110F0, 0x11136, 0x111D0, 0x112F0, 0x11450, 0x114D0, 0x11650, 0x116C0,
  0x11730, 0x118E0, 0x11950, 0x11C50, 0x11D50, 0x11DA0, 0x16A60, 0x16AC0, 0x16B50, 0x1D7CE,
  0x1D7D8, 0x1D7E2, 0x1D7EC, 0x1D7F6, 0x1E140, 0x1E2F0, 0x1E950, 0x1FBF0]

/-- First and last of the digit characters that stand for a digit without being decimal. -/
def otherDigits : List (Nat × Nat) := [
  (0xB2, 0xB3), (0xB9, 0xB9), (0x1369, 0x1371), (0x19DA, 0x19DA), (0x2070, 0x2070),
  (0x2074, 0x2079), (0x2080, 0x2089), (0x2460, 0x2468), (0x2474, 0x247C), (0x2488, 0x2490),
  (0x24EA, 0x24EA), (0x24F5, 0x24FD), (0x24FF, 0x24FF), (0x2776, 0x277E), (0x2780, 0x2788),
  (0x278A, 0x2792), (0x10A40, 0x10A43), (0x10E60, 0x10E68), (0x11052, 0x1105A), (0x1F100, 0x1F10A)]

/-- The value of a decimal digit. -/
def decimalDigit? (c : Char) : Option Nat :=
  (decimalZeros.find? (fun z => z ≤ c.toNat && c.toNat ≤ z + 9)).map (c.toNat - ·)

/-- Whether a character is a digit, decimal or not. -/
def isDigitChar (c : Char) : Bool :=
  (decimalDigit? c).isSome || inRanges otherDigits c

/-- Whether a list of characters is not empty and holds digits only. -/
def isNumericChars (cs : List Char) : Bool :=
  !cs.isEmpty && cs.all isDigitChar

/-- Whether a text is not empty and holds digits only. -/
def isNumeric (s : String) : Bool :=
  isNumericChars s.toList

/-! ## Reading an integer -/

/-- Why a text is not read as an integer. -/
inductive NumeralError where
  /-- The text is no integer in any script. -/
  | malformed (text : String)
  /-- The text has more digits than are read. -/
  | tooLong (digits : Nat)
  deriving DecidableEq, Repr

/-- The greatest number of digits that an integer may be written with. -/
def maxDigits : Nat := 4300

/-- The wording of a refused integer; of a long literal the first 200 characters are shown. -/
def NumeralError.message : NumeralError → String
  | .malformed text =>
    "invalid literal for int() with base 10: " ++
      String.ofList ((literal text).toList.take 200)
  | .tooLong digits =>
    "Exceeds the limit (" ++ toString maxDigits
      ++ " digits) for integer string conversion: value has "
      ++ toString digits
      ++ " digits; use sys.set_int_max_str_digits() to increase the limit"

/-- The number written by decimal digits, read from the left after `acc`. -/
def digitsValue (acc : Nat) : List Nat → Nat
  | [] => acc
  | d :: ds => digitsValue (10 * acc + d) ds

/-- The natural number that a list of characters writes; `text` is what an error quotes. -/
def readNaturalChars (text : String) (cs : List Char) : Except NumeralError Nat :=
  let leading := (cs.takeWhile (fun c => (decimalDigit? c).isSome)).filterMap decimalDigit?
  if leading.length > maxDigits then .error (.tooLong leading.length)
  else if leading.length = cs.length && !cs.isEmpty then .ok (digitsValue 0 leading)
  else .error (.malformed text)

/-- The integer that a text writes: decimal digits after at most one minus sign. -/
def readInteger (text : String) : Except NumeralError Int :=
  match text.toList with
  | '-' :: cs => (readNaturalChars text cs).map (fun n => -(n : Int))
  | cs => (readNaturalChars text cs).map (fun n => (n : Int))

end Courier.Text
