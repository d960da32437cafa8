/-
Courier.Text.Case — upper and lower case of whole texts.

The names of methods are compared in upper case, header keys and titles in
lower case, for every script and not only for Latin letters:

* `upper s` replaces each character by its full upper case, which may be longer
  than one character (`ß` becomes `SS`).
* `lower s` replaces each character by its lower case. A capital sigma becomes
  the final form `ς` where it ends a word (`endsWord`) and `σ` elsewhere.

The mappings themselves are data and live in `Courier.Text.CaseTable`.
-/
import Courier.Text.Basic
import Courier.Text.CaseTable

namespace Courier.Text

/-- The character that the rows of a case table give for `c`; `c` itself if none does. -/
def shiftCase (rows : List (Nat × Nat × Nat × Int)) (c : Char) : Char :=
  let n := c.toNat
  match rows.find? (fun (first, last, step, _) =>
      first ≤ n && n ≤ last && (n - first) % step == 0) with
  | some (_, _, _, shift) => Char.ofNat ((n : Int) + shift).toNat
  | none => c

/-! ## Upper case -/

/-- The full upper case of one character. -/
def upperChar (c : Char) : List Char :=
  match upperSpecials.lookup c.toNat with
  | some cs => cs.map Char.ofNat
  | none => [shiftCase upperRows c]

/-- A text in upper case. -/
def upper (s : String) : String :=
  String.ofList (s.toList.flatMap upperChar)

/-! ## Lower case -/

/-- Whether the next letter, skipping ignorable characters, is a cased one. -/
def meetsCased : List Char → Bool
  | [] => false
  | c :: cs => if inRanges ignorableRanges c then meetsCased cs else inRanges casedRanges c

/-- A capital sigma ends its word if a letter stands before it and none after it. -/
def endsWord (before after : List Char) : Bool :=
  meetsCased before && !meetsCased after

/-- The lower case of a character between the characters `before` (last one first) and `after`. -/
def lowerChar (before : List Char) (c : Char) (after : List Char) : List Char :=
  if c = 'Σ' then [if endsWord before after then 'ς' else 'σ']
  else if c = 'İ' then ['i', '\u0307']
  else [shiftCase lowerRows c]

/-- The lower case of the characters that follow `before` (last one first). -/
def lowerChars (before : List Char) : List Char → List Char
  | [] => []
  | c :: cs => lowerChar before c cs ++ lowerChars (c :: before) cs

/-- A text in lower case. -/
def lower (s : String) : String :=
  String.ofList (lowerChars [] s.toList)

end Courier.Text
