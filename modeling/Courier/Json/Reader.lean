/-
Courier.Json.Reader — from text to a JSON document.

`parse depth s` reads a whole text as one JSON document, or fails. The grammar is that
of JSON with three more numbers: `NaN`, `Infinity` and `-Infinity` are read as
such. White space is space, tab, line feed and carriage return. A control
character in a string, a comma before a closing bracket and anything after the
document are refused, and so is a whole number with more digits than the shell
reads (`Courier.Text.maxDigits`). A document in which more than `depth` containers lie
in each other is a fault of its own: the reader gives up at the container that is one
too many, whatever comes behind it.

Every reading function takes the characters from the front of a list and returns
what is left. The three that call each other go down a fuel; `parse` gives them
two units for each character, which is more than they can use, because a document
and the first item in it are the only two readers that start at one character.
-/
import Courier.Json.Value
import Courier.Text.Hex
import Courier.Text.Numeral

namespace Courier.Json

open Courier.Decimal Courier.Text

/-- White space between the parts of a document. -/
def isSpace (c : Char) : Bool :=
  c == ' ' || c == '\t' || c == '\n' || c == '\r'

/-- The characters without the white space in front. -/
def skipSpace (cs : List Char) : List Char :=
  cs.dropWhile isSpace

/-! ## Strings -/

/-- The unit that four hexadecimal digits name. -/
def hexUnit? (a b c d : Char) : Option UInt16 := do
  let a ← hexDigit? a
  let b ← hexDigit? b
  let c ← hexDigit? c
  let d ← hexDigit? d
  pure (((a * 16 + b) * 16 + c) * 16 + d).toUInt16

/-- The character that a backslash and a letter stand for. -/
def shortEscape? (c : Char) : Option Char :=
  match c with
  | '"' => some '"'
  | '\\' => some '\\'
  | '/' => some '/'
  | 'b' => some '\x08'
  | 'f' => some '\x0c'
  | 'n' => some '\n'
  | 'r' => some '\r'
  | 't' => some '\t'
  | _ => none

/-- Reads a string after its opening quote, up to and including the closing one. -/
def readString : List Char → Option (Units × List Char)
  | [] => none
  | '"' :: cs => some ([], cs)
  | '\\' :: 'u' :: a :: b :: c :: d :: cs => do
    let u ← hexUnit? a b c d
    let (us, rest) ← readString cs
    pure (u :: us, rest)
  | '\\' :: c :: cs => do
    let c ← shortEscape? c
    let (us, rest) ← readString cs
    pure (charUnits c ++ us, rest)
  | c :: cs =>
    if c.toNat < 0x20 || c = '\\' then none
    else do
      let (us, rest) ← readString cs
      pure (charUnits c ++ us, rest)

/-! ## Numbers -/

/-- Whether a character is an ASCII digit. -/
def isDigit (c : Char) : Bool := '0' ≤ c && c ≤ '9'

/-- The value of ASCII digits. -/
def digits (cs : List Char) : Nat :=
  digitsValue 0 (cs.map (fun c => c.toNat - '0'.toNat))

/-- The digits of a fraction behind its point; no digits if there is no fraction. -/
def readFraction : List Char → List Char × List Char
  | '.' :: cs =>
    match cs.takeWhile isDigit with
    | [] => ([], '.' :: cs)
    | ds => (ds, cs.dropWhile isDigit)
  | cs => ([], cs)

/-- The digits behind an exponent mark, and whether the exponent is negative. -/
def exponentSign : List Char → Bool × List Char
  | '-' :: cs => (true, cs)
  | '+' :: cs => (false, cs)
  | cs => (false, cs)

/-- The exponent behind its mark, if there is one. -/
def readExponent (cs : List Char) : Option Int × List Char :=
  match cs with
  | c :: cs' =>
    if c = 'e' || c = 'E' then
      let (negative, ds) := exponentSign cs'
      match ds.takeWhile isDigit with
      | [] => (none, cs)
      | taken =>
        let n := (digits taken : Int)
        (some (if negative then -n else n), ds.dropWhile isDigit)
    else (none, cs)
  | [] => (none, [])

/-- The digits of the whole part: a zero alone, or digits that begin with another one. -/
def readWhole : List Char → Option (List Char × List Char)
  | '0' :: cs => some (['0'], cs)
  | cs =>
    match cs.takeWhile isDigit with
    | [] => none
    | ds => some (ds, cs.dropWhile isDigit)

/-- Reads a number without its minus sign. -/
def readUnsigned (negative : Bool) (cs : List Char) : Option (Value × List Char) := do
  let (whole, rest) ← readWhole cs
  let (fraction, rest) := readFraction rest
  let (exponent, rest) := readExponent rest
  if fraction.isEmpty && exponent.isNone then
    if whole.length > maxDigits then none
    else
      let n := (digits whole : Int)
      pure (.integer (if negative then -n else n), rest)
  else
    let scale := exponent.getD 0 - fraction.length
    pure (.double (Binary64.ofDecimal negative (digits (whole ++ fraction)) scale), rest)

/-- Reads a number, a constant or a string: whatever holds no other value. -/
def readScalar : List Char → Option (Value × List Char)
  | '"' :: cs => (readString cs).map (fun (us, rest) => (.string us, rest))
  | 'n' :: 'u' :: 'l' :: 'l' :: cs => some (.null, cs)
  | 't' :: 'r' :: 'u' :: 'e' :: cs => some (.bool true, cs)
  | 'f' :: 'a' :: 'l' :: 's' :: 'e' :: cs => some (.bool false, cs)
  | 'N' :: 'a' :: 'N' :: cs => some (.double .notANumber, cs)
  | 'I' :: 'n' :: 'f' :: 'i' :: 'n' :: 'i' :: 't' :: 'y' :: cs =>
    some (.double (.infinite false), cs)
  | '-' :: 'I' :: 'n' :: 'f' :: 'i' :: 'n' :: 'i' :: 't' :: 'y' :: cs =>
    some (.double (.infinite true), cs)
  | '-' :: cs => readUnsigned true cs
  | cs => readUnsigned false cs

/-! ## Documents -/

/-- What holds other values. -/
inductive Container where
  /-- An array. -/
  | array
  /-- An object. -/
  | object
  deriving DecidableEq, Repr

/-- Why a text is not read as a document. -/
inductive ReadFault where
  /-- It writes none. -/
  | malformed
  /-- Too many containers lie in each other; the innermost is of this kind. -/
  | tooDeep (kind : Container)
  deriving DecidableEq, Repr

/-- What was read, or the fault that nothing was. -/
def orMalformed {α : Type} : Option α → Except ReadFault α
  | some a => .ok a
  | none => .error .malformed

mutual

/-- Reads one value, in which at most `depth` containers lie in each other. -/
def readValue : Nat → Nat → List Char → Except ReadFault (Value × List Char)
  | 0, _, _ => .error .malformed
  | _ + 1, 0, '[' :: _ => .error (.tooDeep .array)
  | fuel + 1, depth + 1, '[' :: cs =>
    match skipSpace cs with
    | ']' :: rest => .ok (.array [], rest)
    | rest => do
      let (items, rest) ← readItems fuel depth rest
      return (.array items, rest)
  | _ + 1, 0, '\x7b' :: _ => .error (.tooDeep .object)
  | fuel + 1, depth + 1, '\x7b' :: cs =>
    match skipSpace cs with
    | '\x7d' :: rest => .ok (.object [], rest)
    | rest => do
      let (members, rest) ← readMembers fuel depth rest
      return (.object (mergeMembers members), rest)
  | _ + 1, _, cs => orMalformed (readScalar cs)

/-- Reads the items of an array, up to the closing bracket. -/
def readItems : Nat → Nat → List Char → Except ReadFault (List Value × List Char)
  | 0, _, _ => .error .malformed
  | fuel + 1, depth, cs => do
    let (item, rest) ← readValue fuel depth cs
    match skipSpace rest with
    | ',' :: rest =>
      let (items, rest) ← readItems fuel depth (skipSpace rest)
      return (item :: items, rest)
    | ']' :: rest => return ([item], rest)
    | _ => throw .malformed

/-- Reads the members of an object as they are written, up to the closing brace. -/
def readMembers : Nat → Nat → List Char → Except ReadFault (List (Units × Value) × List Char)
  | 0, _, _ => .error .malformed
  | fuel + 1, depth, '"' :: cs => do
    let (name, rest) ← orMalformed (readString cs)
    match skipSpace rest with
    | ':' :: rest =>
      let (value, rest) ← readValue fuel depth (skipSpace rest)
      match skipSpace rest with
      | ',' :: rest =>
        let (members, rest) ← readMembers fuel depth (skipSpace rest)
        return ((name, value) :: members, rest)
      | '\x7d' :: rest => return ([(name, value)], rest)
      | _ => throw .malformed
    | _ => throw .malformed
  | _ + 1, _, _ => .error .malformed

end

/-- The document that a text writes, if it writes one; `depth` containers may lie in each other. -/
def parse (depth : Nat) (s : String) : Except ReadFault Value := do
  let cs := s.toList
  let (v, rest) ← readValue (2 * cs.length + 2) depth (skipSpace cs)
  if (skipSpace rest).isEmpty then return v else throw .malformed

end Courier.Json
