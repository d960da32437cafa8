/-
Courier.Line.Scanner — a line cut into its words.

`pieces` cuts any list of characters into pieces, whatever is in it: a piece is a
bare word or a quoted one, with the place where it stands. The two readers of the
shell say what they make of the pieces.

* `tokenize` reads a line that is complete. It refuses a quote that is never closed
  and a quoted word that something follows without a space.
* `tokenizeUnfinished` reads a line that is being typed, and refuses nothing: a piece
  that reaches the end of the line is the tail, all others are tokens.

Backslashes have two rules. Between quotes a backslash holds on to the character
after it, whichever it is, so that an escaped quote does not close the word. In a
bare word it holds on to a space, a tab or another backslash. In both cases the
backslash stays in the word.
-/
import Courier.Line.Token

namespace Courier.Line

/-- The white space between words. -/
def isSpace (c : Char) : Bool := c == ' ' || c == '\t'

/-- Whether a backslash in a bare word holds on to this character. -/
def isHeld (c : Char) : Bool := isSpace c || c == '\\'

/-! ## Words -/

/--
Reads a quoted word after its opening quote `q`: the word, and what follows the
closing quote, or nothing if the quote is not closed.
-/
def scanQuoted (q : Char) : List Char → List Char × Option (List Char)
  | [] => ([], none)
  | [c] => if c = q then ([], some []) else ([c], none)
  | c :: d :: cs =>
    if c = '\\' then
      let r := scanQuoted q cs
      (c :: d :: r.1, r.2)
    else if c = q then ([], some (d :: cs))
    else
      let r := scanQuoted q (d :: cs)
      (c :: r.1, r.2)

/-- Reads a bare word up to the white space after it: the word, and what follows. -/
def scanBare : List Char → List Char × List Char
  | [] => ([], [])
  | [c] => if isSpace c then ([], [c]) else ([c], [])
  | c :: d :: cs =>
    if isSpace c then ([], c :: d :: cs)
    else if c = '\\' && isHeld d then
      let r := scanBare cs
      (c :: d :: r.1, r.2)
    else
      let r := scanBare (d :: cs)
      (c :: r.1, r.2)

/-- What follows a closed quote is shorter than what the word was read from. -/
theorem length_scanQuoted {q : Char} {cs rest : List Char}
    (h : (scanQuoted q cs).2 = some rest) : rest.length < cs.length := by
  fun_induction scanQuoted q cs with
  | case1 => simp at h
  | case2 => simp_all
  | case3 => simp_all
  | case4 d cs r ih => have := ih h; simp only [List.length_cons]; omega
  | case5 => simp_all
  | case6 c d cs hc hq r ih => have := ih h; simp only [List.length_cons] at *; omega

/-- Reading a bare word loses nothing. -/
theorem scanBare_append (cs : List Char) : (scanBare cs).1 ++ (scanBare cs).2 = cs := by
  fun_induction scanBare cs <;> simp_all +zetaDelta

/-- A bare word that begins with another character than white space takes that character. -/
theorem length_scanBare {c : Char} {cs : List Char} (h : isSpace c = false) :
    (scanBare (c :: cs)).2.length < (c :: cs).length := by
  have key := congrArg List.length (scanBare_append (c :: cs))
  have : (scanBare (c :: cs)).1 ≠ [] := by
    cases cs with
    | nil => simp [scanBare, h]
    | cons d ds =>
      simp only [scanBare, h, Bool.false_eq_true, ↓reduceIte]
      split <;> simp
  have := List.length_pos_iff.2 this
  simp only [List.length_append] at key
  omega

/-! ## Pieces -/

/-- A word as it stands in a line, complete or not. -/
structure Piece where
  /-- The word, without quotes. -/
  word : List Char
  /-- The place of its first character. -/
  start : Nat
  /-- The place after its last character. -/
  stop : Nat
  /-- Its opening quote, if it has one. -/
  quote : Option Quote
  /-- Whether it has a closing quote. -/
  closed : Bool
  deriving DecidableEq, Repr

/-- The pieces of a list of characters that begins at place `pos`. -/
def pieces (pos : Nat) (cs : List Char) : List Piece :=
  match cs with
  | [] => []
  | c :: cs' =>
    if hs : isSpace c = true then pieces (pos + 1) cs'
    else
      match Quote.ofChar? c with
      | some q =>
        let r := scanQuoted q.char cs'
        match hq : r.2 with
        | none => [⟨r.1, pos, pos + 1 + r.1.length, some q, false⟩]
        | some rest =>
          have := length_scanQuoted hq
          ⟨r.1, pos, pos + 2 + r.1.length, some q, true⟩ :: pieces (pos + 2 + r.1.length) rest
      | none =>
        have := @length_scanBare c cs' (by simpa using hs)
        let r := scanBare (c :: cs')
        ⟨r.1, pos, pos + r.1.length, none, false⟩ :: pieces (pos + r.1.length) r.2
termination_by cs.length
decreasing_by all_goals simp_all <;> omega

/-- The token of a piece that is complete. -/
def Piece.token (p : Piece) : Token :=
  { text := String.ofList p.word
    start := p.start
    stop := p.stop
    kind := match p.quote with
      | some q => .quoted q
      | none => if p.word = ['-', '-'] then .break else .bare }

/-- The tail of a piece that ends the line. -/
def Piece.tail (p : Piece) : Tail :=
  { text := String.ofList p.word, start := p.start, quote := p.quote, closed := p.closed }

/-! ## A line that is complete -/

/-- What is wrong with the quotes of a line. -/
inductive QuoteError where
  /-- The quote at this place is never closed. -/
  | unterminated (place : Nat)
  /-- Something follows a closing quote without a space; this is its place. -/
  | trailing (place : Nat)
  deriving DecidableEq, Repr

/-- Whether the next piece begins right behind a closing quote. -/
def Piece.glued (p : Piece) : List Piece → Bool
  | [] => false
  | next :: _ => p.quote.isSome && next.start == p.stop

/-- The tokens of pieces, if their quotes are in order. -/
def tokensOf : List Piece → Except QuoteError (List Token)
  | [] => .ok []
  | p :: ps =>
    if p.quote.isSome && !p.closed then .error (.unterminated p.start)
    else if p.glued ps then .error (.trailing p.stop)
    else (tokensOf ps).map (p.token :: ·)

/-- The tokens of a complete line. -/
def tokenize (line : String) : Except QuoteError (List Token) :=
  tokensOf (pieces 0 line.toList)

/-! ## A line that is being typed -/

/-- The tokens and the tail of pieces, of a line with so many characters. -/
def splitTail (length : Nat) : List Piece → List Token × Option Tail
  | [] => ([], none)
  | [p] => if p.stop = length then ([], some p.tail) else ([p.token], none)
  | p :: ps =>
    let (tokens, tail) := splitTail length ps
    (p.token :: tokens, tail)

/-- The tokens of a line that is being typed, and its last word if it may still grow. -/
def tokenizeUnfinished (line : String) : List Token × Option Tail :=
  splitTail line.length (pieces 0 line.toList)

end Courier.Line
