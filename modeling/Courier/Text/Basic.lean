/-
Courier.Text.Basic — cutting, splitting and joining text.

Every text of the shell (names, URLs, headers, lines) is a `String`; every
rule about text is a function on its list of characters, so that a proof is an
induction on a list. Each function comes twice: on `List Char`, where the
recursion is, and on `String`, where it is used.

Characters are those of Unicode. A half of a pair that stands alone, as it can come of
bytes in an argument or on the input that are no text, is none, so that such input is
not a line here. Where a half can come up inside (`Courier.Text.Utf16`) the text is kept
in units instead.

* `cut c s` is the text before the first `c` and, if there is a `c`, the text
  after it. Headers are cut at `:`, environment pairs and inline option values
  at `=`, request names at `-`.
* `splitOn c s` cuts at every `c`, so that `n` separators give `n + 1` parts.
  Option values hold one value per line, paths one step per dot.
* `lines s` drops the empty parts: this is how stored header lists are read.
* `startsWith`, `contains`: the tests behind completion and filters.
* `inRanges` is the test behind the classes of characters that tables hold.
-/

namespace Courier.Text

/-! ## Cutting at the first occurrence -/

/-- The characters before the first `c`, and those after it if `c` occurs. -/
def cutChars (c : Char) : List Char → List Char × Option (List Char)
  | [] => ([], none)
  | x :: xs =>
    if x = c then ([], some xs)
    else
      let (before, after) := cutChars c xs
      (x :: before, after)

/-- The text before the first `c`, and the text after it if `c` occurs. -/
def cut (c : Char) (s : String) : String × Option String :=
  let (before, after) := cutChars c s.toList
  (String.ofList before, after.map String.ofList)

/-! ## Splitting at every occurrence -/

/-- The parts of a text between the occurrences of `c`. -/
def splitOn (c : Char) (s : String) : List String :=
  (s.toList.splitOn c).map String.ofList

/-- The non-empty lines of a text. -/
def lines (s : String) : List String :=
  (splitOn '\n' s).filter (fun line => !line.isEmpty)

/-- Texts written below each other. -/
def joinLines (parts : List String) : String :=
  "\n".intercalate parts

/-- Texts written one after the other, separated by a comma and a space. -/
def commaList (parts : List String) : String :=
  ", ".intercalate parts

/-! ## Finding text in text -/

/-- Whether `s` begins with `p`. -/
def startsWith (p s : String) : Bool :=
  p.toList.isPrefixOf s.toList

/-- Whether `s` ends with `p`. -/
def endsWith (p s : String) : Bool :=
  p.toList.isSuffixOf s.toList

/-- Whether `needle` stands somewhere in the list of characters. -/
def containsChars (needle : List Char) : List Char → Bool
  | [] => needle.isEmpty
  | c :: cs => needle.isPrefixOf (c :: cs) || containsChars needle cs

/-- Whether `needle` stands somewhere in `s`. -/
def contains (needle s : String) : Bool :=
  containsChars needle.toList s.toList

/-- Whether one of the filters stands in the name; no filter accepts every name. -/
def passes (filters : List String) (name : String) : Bool :=
  filters.isEmpty || filters.any (fun f => contains f name)

/-! ## Classes of characters -/

/-- Whether a character lies in one of the ranges. -/
def inRanges (ranges : List (Nat × Nat)) (c : Char) : Bool :=
  ranges.any (fun (first, last) => first ≤ c.toNat && c.toNat ≤ last)

/-! ## Lists of names -/

/-- Puts a name at its place in an ascending list of names, unless it is there. -/
def insertName (name : String) : List String → List String
  | [] => [name]
  | n :: ns =>
    if name < n then name :: n :: ns
    else if name = n then n :: ns
    else n :: insertName name ns

/-- The names of a list in ascending order of code points, each once. -/
def ascending (names : List String) : List String :=
  names.foldr insertName []

/-! ## First facts -/

/-- Cutting loses nothing: the two parts and the separator give the text back. -/
theorem cutChars_append (c : Char) (s : List Char) :
    match cutChars c s with
    | (before, none) => s = before
    | (before, some after) => s = before ++ c :: after := by
  induction s with
  | nil => simp [cutChars]
  | cons x xs ih =>
    by_cases hx : x = c
    · simp [cutChars, hx]
    · rcases h : cutChars c xs with ⟨before, _ | after⟩ <;> simp_all [cutChars]

/-- The separator does not stand in front of the place where the text is cut. -/
theorem not_mem_cutChars_fst (c : Char) (s : List Char) : c ∉ (cutChars c s).1 := by
  induction s with
  | nil => simp [cutChars]
  | cons x xs ih =>
    by_cases hx : x = c
    · simp [cutChars, hx]
    · simp [cutChars, hx, ih, Ne.symm hx]

end Courier.Text
