/-
Courier.Text.Like — patterns with wildcards.

Requests are looked up by patterns in which `%` stands for any run of characters
and `_` for any single character; nothing escapes the two. All other characters
stand for themselves, except that an ASCII letter also stands for its other case,
and that the characters U+FFFD, U+FFFE and U+FFFF, none of which is a letter of any
script, stand for each other. A NUL character ends the pattern, and the text that is
matched.

`likeChars` states the rule. `like` follows it in a number of steps that is the
product of the two lengths, however many wildcards there are: `likeEnds` looks at all
ends of the text at once, and `like_eq` says that nothing else comes of it.
-/

namespace Courier.Text

/-- What a character counts as in a match. -/
def likeForm (c : Char) : Char :=
  if 'A' ≤ c && c ≤ 'Z' then Char.ofNat (c.toNat + 32)
  else if c = '\uFFFE' || c = '\uFFFF' then '\uFFFD'
  else c

/-- Whether a character matches one of a pattern that is not `%`. -/
def likeOne (p c : Char) : Bool := p == '_' || likeForm p == likeForm c

/-- Whether a list of characters matches a pattern. -/
def likeChars : List Char → List Char → Bool
  | [], cs => cs.isEmpty
  | p :: ps, [] => p == '%' && likeChars ps []
  | p :: ps, c :: cs =>
    if p = '%' then likeChars ps (c :: cs) || likeChars (p :: ps) cs
    else likeOne p c && likeChars ps cs
termination_by ps cs => ps.length + cs.length

/-- At each place, whether there is a `true` at it or behind it. -/
def anyBehind : List Bool → List Bool
  | [] => []
  | b :: bs =>
    let behind := anyBehind bs
    (b || behind.headD false) :: behind

/--
Which ends of a list of characters match a pattern: the list itself, then what is left of
it without its first character, and so on to the empty list.
-/
def likeEnds : List Char → List Char → List Bool
  | [], cs => List.replicate cs.length false ++ [true]
  | p :: ps, cs =>
    let ends := likeEnds ps cs
    if p = '%' then anyBehind ends
    else List.zipWith (fun c fits => likeOne p c && fits) cs ends.tail ++ [false]

/-- The longest pattern that is looked for, in bytes. -/
def maxPattern : Nat := 50000

/-- The part of a text in front of its first NUL. -/
def untilNul (s : String) : List Char := s.toList.takeWhile (· ≠ '\x00')

/-- Whether a text matches a pattern. -/
def like (pattern s : String) : Bool :=
  (likeEnds (untilNul pattern) (untilNul s)).headD false

/-- The empty list has one end, which is itself. -/
theorem likeEnds_nil (ps : List Char) : likeEnds ps [] = [likeChars ps []] := by
  induction ps with
  | nil => simp [likeEnds, likeChars]
  | cons p ps ih => by_cases h : p = '%' <;> simp [likeEnds, likeChars, anyBehind, ih, h]

/-- The first end of a list is the list itself, and the others are those of the rest. -/
theorem likeEnds_cons (ps : List Char) (c : Char) (cs : List Char) :
    likeEnds ps (c :: cs) = likeChars ps (c :: cs) :: likeEnds ps cs := by
  induction ps generalizing c cs with
  | nil => simp [likeEnds, likeChars, List.replicate_succ]
  | cons p ps ih =>
    by_cases h : p = '%'
    · have first : ∀ cs, (anyBehind (likeEnds ps cs)).headD false = likeChars (p :: ps) cs := by
        intro cs
        induction cs with
        | nil => simp [likeEnds_nil, likeChars, anyBehind, h]
        | cons c cs ihc => rw [ih, likeChars, if_pos h, ← ihc]; rfl
      simp only [likeEnds, if_pos h]
      rw [ih, anyBehind, first cs, likeChars, if_pos h]
    · simp only [likeEnds, if_neg h, ih c cs, List.tail_cons]
      rw [likeChars, if_neg h]
      cases cs with
      | nil => simp [likeEnds_nil]
      | cons d ds => simp [ih d ds]

/-- Whether a text matches a pattern is decided by the rule for characters. -/
theorem like_eq (pattern s : String) :
    like pattern s = likeChars (untilNul pattern) (untilNul s) := by
  unfold like
  cases untilNul s with
  | nil => simp [likeEnds_nil]
  | cons c cs => simp [likeEnds_cons]

end Courier.Text
