/-
Courier.Json.Writer — from a JSON document to text.

`Value.compact` writes a document in one line, with a space after each comma and
colon: values taken out of a response are stored like this. `Value.indented`
writes it over several lines, two spaces for each level: responses are shown like
this. Both are `write` with another `Layout`.

Every character outside printable ASCII is written by escapes of its 16-bit units,
so that the result is plain ASCII. Doubles are written with the fewest digits that
read back (`Courier.Decimal.Shortest`): positionally while the point is at most
sixteen digits to the right and three zeros to the left of the first digit, with a
signed exponent of at least two digits elsewhere.
-/
import Courier.Json.Value
import Courier.Decimal.Shortest
import Courier.Text.Hex

namespace Courier.Json

open Courier.Decimal Courier.Text

/-! ## Strings -/

/-- The escape that names a unit by four hexadecimal digits. -/
def unitEscape (n : Nat) : List Char := '\\' :: 'u' :: hexDigits 4 n

/-- A unit as it is written inside a string. -/
def writeUnit (u : UInt16) : List Char :=
  let n := u.toNat
  if n = 0x22 then ['\\', '"']
  else if n = 0x5C then ['\\', '\\']
  else if 0x20 ≤ n && n ≤ 0x7E then [Char.ofNat n]
  else if n = 0x0A then ['\\', 'n']
  else if n = 0x0D then ['\\', 'r']
  else if n = 0x09 then ['\\', 't']
  else if n = 0x08 then ['\\', 'b']
  else if n = 0x0C then ['\\', 'f']
  else unitEscape n

/-- A string with its quotes. -/
def writeString (us : Units) : String :=
  String.ofList ('"' :: us.flatMap writeUnit ++ ['"'])

/-! ## Numbers -/

/-- The greatest distance of the point to the right of the first digit in positional notation. -/
def positionalMax : Int := 16

/-- The least such distance; it is negative if zeros stand between the point and the first digit. -/
def positionalMin : Int := -3

/-- An exponent with its sign and at least two digits. -/
def writeExponent (e : Int) : String :=
  let digits := toString e.natAbs
  (if e < 0 then "e-" else "e+") ++ (if digits.length < 2 then "0" else "") ++ digits

/-- The decimal `digits * 10 ^ scale`. -/
def writeDecimal (digits : Nat) (scale : Int) : String :=
  let ds := Nat.toDigits 10 digits
  let point := (ds.length : Int) + scale
  if point < positionalMin || point > positionalMax then
    let fraction := match ds.drop 1 with
      | [] => ""
      | rest => "." ++ String.ofList rest
    String.ofList (ds.take 1) ++ fraction ++ writeExponent (point - 1)
  else if point ≤ 0 then
    "0." ++ String.ofList (List.replicate (-point).toNat '0' ++ ds)
  else if scale ≥ 0 then
    String.ofList (ds ++ List.replicate scale.toNat '0') ++ ".0"
  else
    String.ofList (ds.take point.toNat) ++ "." ++ String.ofList (ds.drop point.toNat)

/-- A double. -/
def writeDouble : Binary64 → String
  | .notANumber => "NaN"
  | .infinite negative => if negative then "-Infinity" else "Infinity"
  | .finite negative mantissa exponent =>
    let (digits, scale) := shortest mantissa exponent
    (if negative then "-" else "") ++ (if digits = 0 then "0.0" else writeDecimal digits scale)

/-! ## Documents -/

/-- How a document is laid out. -/
inductive Layout where
  /-- In one line. -/
  | compact
  /-- Over several lines, two spaces for each level. -/
  | indented
  deriving DecidableEq, Repr

/-- What stands between a bracket and what it holds, at a level. -/
def Layout.break : Layout → Nat → String
  | .compact, _ => ""
  | .indented, level => "\n" ++ String.ofList (List.replicate (2 * level) ' ')

/-- What stands between two items, at a level. -/
def Layout.separator : Layout → Nat → String
  | .compact, _ => ", "
  | .indented, level => "," ++ Layout.indented.break level

/-- What the brackets of an array or object hold: nothing, or its parts at the next level. -/
def enclose (layout : Layout) (level : Nat) (opening closing : String) : List String → String
  | [] => opening ++ closing
  | parts =>
    opening ++ layout.break (level + 1) ++ (layout.separator (level + 1)).intercalate parts
      ++ layout.break level ++ closing

mutual

/-- A document at a level. -/
def write (layout : Layout) (level : Nat) : Value → String
  | .null => "null"
  | .bool b => if b then "true" else "false"
  | .integer i => toString i
  | .double x => writeDouble x
  | .string us => writeString us
  | .array items => enclose layout level "[" "]" (writeItems layout (level + 1) items)
  | .object members =>
    enclose layout level "\x7b" "\x7d" (writeMembers layout (level + 1) members)

/-- The items of an array. -/
def writeItems (layout : Layout) (level : Nat) : List Value → List String
  | [] => []
  | v :: vs => write layout level v :: writeItems layout level vs

/-- The members of an object. -/
def writeMembers (layout : Layout) (level : Nat) : List (Units × Value) → List String
  | [] => []
  | (n, v) :: ms =>
    (writeString n ++ ": " ++ write layout level v) :: writeMembers layout level ms

end

/-- A document in one line. -/
def Value.compact (v : Value) : String := write .compact 0 v

/-- A document over several lines. -/
def Value.indented (v : Value) : String := write .indented 0 v

end Courier.Json
