/-
Courier.Json.Value — JSON documents.

A response body that is JSON is read into a `Value`, to be shown indented and to
have values taken out of it. Objects keep the order of their members: a name that
occurs twice has one member, at the place of its first occurrence and with the
value of its last (`putMember`).

A whole number without fraction or exponent is an integer of any size; every other
number is a double. Strings are held as 16-bit units, because an escape may name
half of a pair; see `Courier.Text.Utf16`.
-/
import Courier.Decimal.Binary64
import Courier.Text.Utf16

namespace Courier.Json

open Courier.Decimal Courier.Text

/-- A JSON document. -/
inductive Value where
  /-- The value `null`. -/
  | null
  /-- A truth value. -/
  | bool (b : Bool)
  /-- A whole number. -/
  | integer (i : Int)
  /-- A number with a fraction or an exponent, infinite, or not a number. -/
  | double (x : Binary64)
  /-- A string. -/
  | string (s : Units)
  /-- An array. -/
  | array (items : List Value)
  /-- An object, its members in order, each name once. -/
  | object (members : List (Units × Value))

/-- Gives a member its value: in place if the name is there, else at the end. -/
def putMember (name : Units) (value : Value) :
    List (Units × Value) → List (Units × Value)
  | [] => [(name, value)]
  | (n, v) :: rest =>
    if n = name then (n, value) :: rest else (n, v) :: putMember name value rest

/-- The members of an object that is written with these, each name once. -/
def mergeMembers (members : List (Units × Value)) : List (Units × Value) :=
  members.foldl (fun merged (name, value) => putMember name value merged) []

/-- The member of a name. -/
def member? (name : Units) : List (Units × Value) → Option Value
  | [] => none
  | (n, v) :: rest => if n = name then some v else member? name rest

end Courier.Json
