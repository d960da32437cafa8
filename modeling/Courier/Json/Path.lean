/-
Courier.Json.Path — values inside a document.

A path names a value by the steps from the root, separated by dots. `step` is one
of them: in an array a number selects an item, counted from the end if negative; in
an object the name of a member selects its value; every other step leads nowhere.

The question whether a step is a number (`looksLikeIndex`) is put by its digits
alone, so that a step such as `--1` or `²` is taken for a number and then cannot be
read as one. That is an error and not a missing value.
-/
import Courier.Json.Reader
import Courier.Json.Writer
import Courier.Text.Basic

namespace Courier.Json

open Courier.Text

/-- Whether a step is digits behind any number of minus signs. -/
def looksLikeIndex (part : String) : Bool :=
  isNumericChars (part.toList.dropWhile (· = '-'))

/-- The item at an index, counted from the end if the index is negative. -/
def itemAt? (items : List Value) (index : Int) : Option Value :=
  if 0 ≤ index then items[index.toNat]?
  else if -(items.length : Int) ≤ index then items[(items.length + index).toNat]?
  else none

/-- The value one step further, if there is one. -/
def step (v : Value) (part : String) : Except NumeralError (Option Value) :=
  match v with
  | .array items =>
    if looksLikeIndex part then (readInteger part).map (itemAt? items) else .ok none
  | .object members => .ok (member? (units part) members)
  | _ => .ok none

/-- The value that the steps lead to, if none of them fails. -/
def follow (v : Value) : List String → Except NumeralError (Option Value)
  | [] => .ok (some v)
  | part :: parts => do
    match ← step v part with
    | none => pure none
    | some next => follow next parts

/-- What is saved of a value: the content of a string, the compact form of everything else. -/
def Value.saved : Value → Units
  | .string us => us
  | v => units v.compact

/-- Why it cannot be said what a path selects. -/
inductive SelectFault where
  /-- A step is taken for a number and is none. -/
  | numeral (cause : NumeralError)
  /-- The containers of the document lie too deep in each other. -/
  | tooDeep (kind : Container)
  deriving DecidableEq, Repr

/--
What a dotted path selects from a text; nothing if the text is no JSON. In the text `depth`
containers may lie in each other.
-/
def select (depth : Nat) (path text : String) : Except SelectFault (Option Units) :=
  match parse depth text with
  | .error .malformed => .ok none
  | .error (.tooDeep kind) => .error (.tooDeep kind)
  | .ok v =>
    match follow v (splitOn '.' path) with
    | .ok found => .ok (found.map Value.saved)
    | .error cause => .error (.numeral cause)

end Courier.Json
