/-
Courier.Http.Template — text with placeholders.

URLs, headers and bodies may hold placeholders: a name between braces, made of
ASCII letters, digits, `_` and `-`, that does not begin with a digit or a dash.

`parts` cuts a text into its placeholders and the characters between them, from the
left; every other brace is an ordinary character. Both uses of a template are read
off its parts, so that they cannot disagree about what a placeholder is:

* `placeholders s` are the names that occur,
* `substitute s values` puts a value in the place of each name that has one. What is
  put in is not looked at again.
-/
import Courier.Text.Basic

namespace Courier.Http

open Courier.Text

/-- Whether a placeholder name may begin with this character. -/
def isNameStart (c : Char) : Bool :=
  ('A' ≤ c && c ≤ 'Z') || ('a' ≤ c && c ≤ 'z') || c == '_'

/-- Whether a placeholder name may go on with this character. -/
def isNameChar (c : Char) : Bool :=
  isNameStart c || ('0' ≤ c && c ≤ '9') || c == '-'

/-- The name of the placeholder at the front of the characters, and what follows it. -/
def hole? : List Char → Option (List Char × List Char)
  | '\x7b' :: c :: cs =>
    if isNameStart c then
      match cs.dropWhile isNameChar with
      | '\x7d' :: rest => some (c :: cs.takeWhile isNameChar, rest)
      | _ => none
    else none
  | _ => none

/-- What follows a placeholder is shorter than what it was read from. -/
theorem length_hole? {cs name rest : List Char} (h : hole? cs = some (name, rest)) :
    rest.length < cs.length := by
  unfold hole? at h
  split at h
  · rename_i c cs
    split at h
    · split at h
      · rename_i r hr
        have key := congrArg List.length
          (List.takeWhile_append_dropWhile (p := isNameChar) (l := cs))
        simp only [Option.some.injEq, Prod.mk.injEq] at h
        rw [hr, h.2] at key
        simp only [List.length_append, List.length_cons] at key ⊢
        omega
      · simp at h
    · simp at h
  · simp at h

/-- A piece of a template. -/
inductive Part where
  /-- An ordinary character. -/
  | char (c : Char)
  /-- A placeholder. -/
  | hole (name : List Char)
  deriving DecidableEq, Repr

/-- The pieces of a list of characters. -/
def parts (cs : List Char) : List Part :=
  match cs with
  | [] => []
  | c :: cs' =>
    match h : hole? (c :: cs') with
    | some (name, rest) =>
      have := length_hole? h
      .hole name :: parts rest
    | none => .char c :: parts cs'
termination_by cs.length
decreasing_by all_goals simp_all

/-- A piece as it is written. -/
def Part.source : Part → List Char
  | .char c => [c]
  | .hole name => '\x7b' :: name ++ ['\x7d']

/-- The name of a piece that is a placeholder. -/
def Part.name? : Part → Option String
  | .char _ => none
  | .hole name => some (String.ofList name)

/-- The names of the placeholders of a text, in the order in which they stand. -/
def placeholderNames (s : String) : List String :=
  (parts s.toList).filterMap Part.name?

/-- The names of the placeholders of a text, in ascending order, each once. -/
def placeholders (s : String) : List String :=
  ascending (placeholderNames s)

/-- A piece with the value of its name in its place, if it has one. -/
def Part.fill (values : List (String × String)) : Part → List Char
  | .char c => [c]
  | .hole name =>
    match values.lookup (String.ofList name) with
    | some value => value.toList
    | none => (Part.hole name).source

/-- A text with values in the place of its placeholders. -/
def substitute (s : String) (values : List (String × String)) : String :=
  String.ofList ((parts s.toList).flatMap (Part.fill values))

end Courier.Http
