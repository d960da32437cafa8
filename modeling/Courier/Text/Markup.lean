/-
Courier.Text.Markup — text that is shown as it is.

What the shell prints is styled by tags in square brackets, and its prompt by
tags in angle brackets. User text must not be taken for a tag.

* `escape s` puts a backslash before every part of `s` that the screen would take
  for a tag: a `[`, a small letter or one of `#`, `/`, `@`, and everything up to
  the first `]`, with no further `[` between. Backslashes in front of a tag are
  doubled, and a single backslash at the end of the text gets a second one, so
  that it does not escape the tag that follows.
* `escapeHtml s` writes the five characters that have a meaning in a prompt as
  entities.
* `markupFault? s` is the place of the first character of `s` that a prompt cannot
  hold, in whatever form.
-/
import Courier.Text.Basic

namespace Courier.Text

/-! ## Tags in square brackets -/

/-- Whether a tag may begin with this character after its bracket. -/
def opensTag (c : Char) : Bool :=
  ('a' ≤ c && c ≤ 'z') || c == '#' || c == '/' || c == '@'

/-- The characters up to and including the first `]`, if no `[` comes before it; and the rest. -/
def closeTag : List Char → Option (List Char × List Char)
  | [] => none
  | c :: cs =>
    if c = ']' then some ([c], cs)
    else if c = '[' then none
    else (closeTag cs).map (fun (tag, rest) => (c :: tag, rest))

/-- The tag at the front of the characters, and the rest. -/
def tag? : List Char → Option (List Char × List Char)
  | '[' :: c :: cs =>
    if opensTag c then (closeTag cs).map (fun (tag, rest) => ('[' :: c :: tag, rest)) else none
  | _ => none

/-- What closes a tag is taken from the front of the characters. -/
theorem length_closeTag {cs tag rest : List Char} (h : closeTag cs = some (tag, rest)) :
    rest.length < cs.length := by
  induction cs generalizing tag with
  | nil => simp [closeTag] at h
  | cons c cs ih =>
    simp only [closeTag] at h
    split at h
    · simp_all
    · split at h
      · simp at h
      · simp only [Option.map_eq_some_iff, Prod.exists, Prod.mk.injEq] at h
        obtain ⟨tag', rest', h', -, rfl⟩ := h
        exact Nat.lt_succ_of_lt (ih h')

/-- A tag is taken from the front of the characters. -/
theorem length_tag? {cs tag rest : List Char} (h : tag? cs = some (tag, rest)) :
    rest.length < cs.length := by
  unfold tag? at h
  split at h
  · split at h
    · simp only [Option.map_eq_some_iff, Prod.exists, Prod.mk.injEq] at h
      obtain ⟨tag', rest', h', -, rfl⟩ := h
      have := length_closeTag h'
      simp only [List.length_cons]
      omega
    · simp at h
  · simp at h

/--
Escapes the tags of a list of characters. `slashes` is the number of backslashes
just read and not yet written.
-/
def escapeTags (slashes : Nat) (cs : List Char) : List Char :=
  match cs with
  | [] => List.replicate slashes '\\'
  | c :: cs' =>
    if c = '\\' then escapeTags (slashes + 1) cs'
    else
      match h : tag? (c :: cs') with
      | some (tag, rest) =>
        have := length_tag? h
        List.replicate (2 * slashes + 1) '\\' ++ tag ++ escapeTags 0 rest
      | none => List.replicate slashes '\\' ++ c :: escapeTags 0 cs'
termination_by cs.length
decreasing_by all_goals simp_all

/-- Doubles the last character if it is a backslash that stands alone. -/
def closeEscape (cs : List Char) : List Char :=
  match cs.reverse with
  | '\\' :: '\\' :: _ => cs
  | '\\' :: _ => cs ++ ['\\']
  | _ => cs

/-- A text as it has to be printed to be shown as it is. -/
def escape (s : String) : String :=
  String.ofList (closeEscape (escapeTags 0 s.toList))

/-! ## Entities -/

/-- A character as it has to be written in a prompt. -/
def htmlEntity (c : Char) : List Char :=
  if c = '&' then "&amp;".toList
  else if c = '<' then "&lt;".toList
  else if c = '>' then "&gt;".toList
  else if c = '"' then "&quot;".toList
  else if c = '\'' then "&#x27;".toList
  else [c]

/-- A text as it has to be written in a prompt. -/
def escapeHtml (s : String) : String :=
  String.ofList (s.toList.flatMap htmlEntity)

/-! ## Characters that have no place in a prompt -/

/-- Whether a prompt can hold a character: control characters are tab and line ends only. -/
def isMarkupChar (c : Char) : Bool :=
  let n := c.toNat
  if n < 0x20 then n == 0x09 || n == 0x0A || n == 0x0D else n != 0xFFFE && n != 0xFFFF

/-- The line and column of the first character that a prompt cannot hold, from such a place on. -/
def markupFaultFrom (line column : Nat) : List Char → Option (Nat × Nat)
  | [] => none
  | '\r' :: '\n' :: cs => markupFaultFrom (line + 1) 0 cs
  | c :: cs =>
    if !isMarkupChar c then some (line, column)
    else if c = '\n' || c = '\r' then markupFaultFrom (line + 1) 0 cs
    else markupFaultFrom line (column + 1) cs

/-- The line, counted from one, and the column of the first character that a prompt cannot hold. -/
def markupFault? (s : String) : Option (Nat × Nat) := markupFaultFrom 1 0 s.toList

end Courier.Text
