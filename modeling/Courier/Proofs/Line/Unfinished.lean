/-
Courier.Proofs.Line.Unfinished — a line while it is being typed.

`tokenizeUnfinished` reads every line: a piece that reaches the end of the line is the
tail, all others are tokens. Two statements tie it to what is read in the end.

* `tokenizeUnfinished_eq_reopen` — it agrees with `tokenize`. Of a line that can be read
  it takes back the last token if nothing is behind it (`reopen`). Of a line whose last
  quote is open it gives the tokens of the line in front of that quote.
* `tokenizeUnfinished_append` — typing more changes no token that is already complete,
  and what was the tail still begins where it began.

## The last piece

Both are inductions along the line, and in both the only piece that matters is the one
in hand: `splitTail_cons_of_ne` steps over a piece with something behind it, and
`splitTail_end` stops at the one that ends the line. A bare word whose last backslash
could still hold on to something always ends the line (`Ends`), so no cut of the line
reaches a piece that was stepped over.
-/
import Courier.Proofs.Line.Layout

namespace Courier.Line

/-! ## Ends of lines

Where a line ends that begins at `pos`, told from behind its first word. -/

theorem end_cons (pos : Nat) (c : Char) (cs : List Char) :
    pos + (c :: cs).length = pos + 1 + cs.length := by
  rw [List.length_cons]; omega

theorem end_append (pos : Nat) (w rest : List Char) :
    pos + (w ++ rest).length = pos + w.length + rest.length := by
  rw [List.length_append]; omega

theorem end_quoted (pos : Nat) (c d : Char) (w rest : List Char) :
    pos + (c :: (w ++ d :: rest)).length = pos + 2 + w.length + rest.length := by
  simp only [List.length_cons, List.length_append]; omega

/-! ## The tail -/

/-- A token that ends the line, as the word that is still being typed. -/
def Token.tail (t : Token) : Tail :=
  match t.kind with
  | .quoted q => { text := t.text, start := t.start.toNat, quote := some q, closed := true }
  | _ => { text := t.text, start := t.start.toNat }

/-- The tokens of a line with so many characters, the last one taken back if it ends the
line. -/
def reopen (length : Nat) (ts : List Token) : List Token × Option Tail :=
  match ts.getLast? with
  | none => ([], none)
  | some t => if t.stop < length then (ts, none) else (ts.dropLast, some t.tail)

/-- Where the tokens and the tail of a line begin, in their order. -/
def starts (r : List Token × Option Tail) : List Int :=
  r.1.map Token.start ++ r.2.toList.map fun t => (t.start : Int)

theorem splitTail_cons_of_ne {length : Nat} {p : Piece} (h : p.stop ≠ length)
    (ps : List Piece) :
    splitTail length (p :: ps)
      = (p.token :: (splitTail length ps).1, (splitTail length ps).2) := by
  cases ps with
  | nil => simp [splitTail, h]
  | cons next ps => simp [splitTail]

theorem splitTail_end (p : Piece) : splitTail p.stop [p] = ([], some p.tail) := by
  simp [splitTail]

theorem reopen_cons_of_lt {length : Nat} {t : Token} (h : t.stop < length) (ts : List Token) :
    reopen length (t :: ts) = (t :: (reopen length ts).1, (reopen length ts).2) := by
  cases hlast : ts.getLast? with
  | none =>
    rw [List.getLast?_eq_none_iff] at hlast
    subst hlast
    simp [reopen, h]
  | some u =>
    have hne : ts ≠ [] := by rintro rfl; simp at hlast
    simp only [reopen, List.getLast?_cons, hlast, Option.getD_some]
    split
    · rfl
    · rw [List.dropLast_cons_of_ne_nil hne]

theorem reopen_end {length : Nat} {t : Token} (h : t.stop = length) :
    reopen length [t] = ([], some t.tail) := by
  simp [reopen, h]

/-- Every piece is a token or the tail, and begins where the piece begins. -/
theorem starts_splitTail (length : Nat) (ps : List Piece) :
    starts (splitTail length ps) = ps.map fun p => (p.start : Int) := by
  fun_induction splitTail length ps with
  | case1 => rfl
  | case2 p h => rfl
  | case3 p h => rfl
  | case4 p ps _ tokens tail heq ih =>
    rw [heq] at ih
    rw [List.map_cons, ← ih]
    rfl

/-! ## A line that can be read -/

theorem token_tail {p : Piece} (h : p.closed = p.quote.isSome) : p.token.tail = p.tail := by
  cases hq : p.quote with
  | none =>
    rw [hq] at h
    simp only [Piece.token, Piece.tail, Token.tail, hq]
    by_cases hbreak : p.word = ['-', '-']
    · simp [hbreak, h]
    · simp [hbreak, h]
  | some q =>
    rw [hq] at h
    simp [Piece.token, Piece.tail, Token.tail, hq, h]

/-- One word of a line that can be read: it is stepped over on both sides, or it is the
tail on both sides. -/
theorem splitTail_cons_eq_reopen {p : Piece} (hp : p.closed = p.quote.isSome)
    {rest : List Char} {ts : List Token}
    (ih : ∀ us, tokensOf (pieces p.stop rest) = .ok us →
      splitTail (p.stop + rest.length) (pieces p.stop rest)
        = reopen (p.stop + rest.length) us)
    (h : tokensOf (p :: pieces p.stop rest) = .ok ts) :
    splitTail (p.stop + rest.length) (p :: pieces p.stop rest)
      = reopen (p.stop + rest.length) ts := by
  obtain ⟨-, us, hus, rfl⟩ := tokensOf_cons_eq_ok h
  cases rest with
  | nil =>
    rw [pieces_nil, tokensOf, Except.ok.injEq] at hus
    subst hus
    rw [pieces_nil, List.length_nil, Nat.add_zero, splitTail_end, reopen_end rfl,
      token_tail hp]
  | cons c rest =>
    have hlt : p.stop < p.stop + (c :: rest).length := by simp
    rw [splitTail_cons_of_ne (by omega), ih us hus, reopen_cons_of_lt (Int.ofNat_lt.mpr hlt)]

theorem splitTail_eq_reopen {pos : Nat} {cs : List Char} {ts : List Token}
    (h : tokensOf (pieces pos cs) = .ok ts) :
    splitTail (pos + cs.length) (pieces pos cs) = reopen (pos + cs.length) ts := by
  induction pos, cs using line_induction generalizing ts with
  | nil pos =>
    rw [pieces_nil, tokensOf, Except.ok.injEq] at h
    subst h
    rw [pieces_nil]
    rfl
  | space pos c cs hc ih =>
    rw [pieces_space hc] at h ⊢
    rw [end_cons]
    exact ih h
  | unclosed pos q w held => simp [pieces_unclosed held, tokensOf] at h
  | quoted pos q w rest hw ih =>
    rw [pieces_quoted hw] at h ⊢
    rw [end_quoted]
    exact splitTail_cons_eq_reopen rfl (fun us => ih) h
  | bare pos w rest hw ends ih =>
    rw [pieces_bare hw ends] at h ⊢
    rw [end_append]
    exact splitTail_cons_eq_reopen rfl (fun us => ih) h

/-! ## A line with more typed behind it -/

/-- `r` has these tokens in front, and what comes behind them, a token or the tail,
begins at `next` if that is a place. -/
def Continues (r : List Token × Option Tail) (ts : List Token) (next : Option Nat) : Prop :=
  ts <+: r.1 ∧ ∀ s ∈ next, (starts r)[ts.length]? = some (s : Int)

theorem continues_nil (r : List Token × Option Tail) : Continues r [] none :=
  ⟨List.nil_prefix, by simp⟩

theorem Continues.cons {r : List Token × Option Tail} {ts : List Token} {next : Option Nat}
    (h : Continues r ts next) (t : Token) : Continues (t :: r.1, r.2) (t :: ts) next := by
  obtain ⟨hinit, hnext⟩ := h
  refine ⟨List.cons_prefix_cons.mpr ⟨rfl, hinit⟩, fun s hs => ?_⟩
  rw [← hnext s hs]
  simp [starts]

/-- Pieces that begin where a tail begins go on from that tail. -/
theorem continues_head {length pos : Nat} {ps : List Piece}
    (h : ∃ p ps', ps = p :: ps' ∧ p.start = pos) :
    Continues (splitTail length ps) [] (some pos) := by
  obtain ⟨p, ps', rfl, hstart⟩ := h
  refine ⟨List.nil_prefix, fun s hs => ?_⟩
  rw [Option.mem_some_iff] at hs
  rw [starts_splitTail, ← hs, ← hstart]
  rfl

/-- One word of a line. With something behind it, it is read as the same word in the
longer line (`hsame`); otherwise the longer line has some word at its place (`hhead`). -/
theorem continues_cons (p : Piece) {rest more : List Char} {ps : List Piece}
    (hhead : ∃ p' ps', ps = p' :: ps' ∧ p'.start = p.start)
    (hsame : rest ≠ [] → ps = p :: pieces p.stop (rest ++ more))
    (ih : Continues (splitTail (p.stop + (rest ++ more).length) (pieces p.stop (rest ++ more)))
      (splitTail (p.stop + rest.length) (pieces p.stop rest)).1
      ((splitTail (p.stop + rest.length) (pieces p.stop rest)).2.map Tail.start)) :
    Continues (splitTail (p.stop + (rest ++ more).length) ps)
      (splitTail (p.stop + rest.length) (p :: pieces p.stop rest)).1
      ((splitTail (p.stop + rest.length) (p :: pieces p.stop rest)).2.map Tail.start) := by
  by_cases hrest : rest = []
  · -- the word is the tail, and what is typed behind it may still belong to it
    subst hrest
    rw [pieces_nil, List.length_nil, Nat.add_zero, splitTail_end]
    exact continues_head hhead
  · have hpos : 0 < rest.length := List.length_pos_iff.mpr hrest
    have hlong : p.stop ≠ p.stop + (rest ++ more).length := by
      rw [List.length_append]; omega
    rw [hsame hrest, splitTail_cons_of_ne hlong, splitTail_cons_of_ne (by omega)]
    exact ih.cons p.token

/-- Whatever is typed behind a line, its tokens stay and its tail goes on where it
began. -/
theorem continues_append (pos : Nat) (cs more : List Char) :
    Continues (splitTail (pos + (cs ++ more).length) (pieces pos (cs ++ more)))
      (splitTail (pos + cs.length) (pieces pos cs)).1
      ((splitTail (pos + cs.length) (pieces pos cs)).2.map Tail.start) := by
  induction pos, cs using line_induction with
  | nil pos => rw [pieces_nil]; exact continues_nil _
  | space pos c cs hc ih =>
    rw [List.cons_append, pieces_space hc, pieces_space hc, end_cons, end_cons]
    exact ih
  | unclosed pos q w held =>
    have hend := splitTail_end ⟨w, pos, pos + 1 + w.length, some q, false⟩
    rw [pieces_unclosed held, end_cons pos q.char w, hend]
    exact continues_head (pieces_head q.isSpace_char _ _)
  | quoted pos q w rest hw ih =>
    have happ : q.char :: (w ++ q.char :: rest) ++ more
        = q.char :: (w ++ q.char :: (rest ++ more)) := by simp
    rw [happ, end_quoted, end_quoted, pieces_quoted hw pos rest]
    exact continues_cons ⟨w, pos, pos + 2 + w.length, some q, true⟩
      (pieces_head q.isSpace_char _ _) (fun _ => pieces_quoted hw pos (rest ++ more)) ih
  | bare pos w rest hw ends ih =>
    rw [List.append_assoc, end_append pos w (rest ++ more), end_append pos w rest,
      pieces_bare hw ends]
    refine continues_cons ⟨w, pos, pos + w.length, none, false⟩ ?_
      (fun hrest => pieces_bare hw (ends.append hrest more) pos) ih
    cases w with
    | nil => exact absurd rfl hw.1
    | cons c w => exact pieces_head hw.isSpace_head _ _

/-- **Typing more changes nothing that is complete.** The complete tokens of what has been
typed are the first tokens of any line that it grows into, and if it has a tail, then the
token or the tail behind them begins where that tail begins. -/
theorem tokenizeUnfinished_append (typed more : String) :
    (tokenizeUnfinished typed).1 <+: (tokenizeUnfinished (typed ++ more)).1 ∧
    ∀ tail ∈ (tokenizeUnfinished typed).2,
      (starts (tokenizeUnfinished (typed ++ more)))[(tokenizeUnfinished typed).1.length]?
        = some (tail.start : Int) := by
  obtain ⟨hinit, hnext⟩ := continues_append 0 typed.toList more.toList
  simp only [tokenizeUnfinished, ← String.length_toList, String.toList_append] at *
  rw [Nat.zero_add, Nat.zero_add] at hinit hnext
  exact ⟨hinit, fun tail htail => hnext tail.start (by rw [htail]; rfl)⟩

/-! ## A line that cannot be read -/

/-- The place where a line stops being readable. -/
def QuoteError.place : QuoteError → Nat
  | .unterminated s => s
  | .trailing s => s

/-- What a line with an error is while it is being typed, if `ts` is read in front of the
error: an open quote is the tail; what is glued to a closing quote is a word of its
own. -/
def Resumes (r : List Token × Option Tail) (ts : List Token) : QuoteError → Prop
  | .unterminated s => ∃ text q,
      r = (ts, some { text := text, start := s, quote := some q, closed := false })
  | .trailing s => Continues r ts (some s)

theorem Resumes.cons {r : List Token × Option Tail} {ts : List Token} {e : QuoteError}
    (h : Resumes r ts e) (t : Token) : Resumes (t :: r.1, r.2) (t :: ts) e := by
  cases e with
  | unterminated s =>
    obtain ⟨text, q, rfl⟩ := h
    exact ⟨text, q, rfl⟩
  | trailing s => exact Continues.cons h t

/-- What is wrong with a word and those behind it. -/
theorem tokensOf_cons_eq_error {p : Piece} {ps : List Piece} {e : QuoteError}
    (hclosed : p.quote.isSome → p.closed) (h : tokensOf (p :: ps) = .error e) :
    (p.glued ps = true ∧ e = .trailing p.stop) ∨ (p.glued ps = false ∧ tokensOf ps = .error e) := by
  cases hglued : p.glued ps with
  | true =>
    rw [tokensOf, if_neg (by simpa using hclosed), if_pos hglued, Except.error.injEq] at h
    exact .inl ⟨rfl, h.symm⟩
  | false =>
    rw [tokensOf_cons hclosed hglued] at h
    cases hps : tokensOf ps with
    | ok us => simp [hps, Except.map] at h
    | error e' =>
      simp only [hps, Except.map, Except.error.injEq] at h
      exact .inr ⟨rfl, by rw [h]⟩

/-- A word to which nothing is glued in the whole line has nothing glued to it in a part
of the line. -/
theorem glued_take {p : Piece} {rest : List Char} (h : p.glued (pieces p.stop rest) = false)
    (k : Nat) : p.glued (pieces p.stop (rest.take k)) = false := by
  cases hq : p.quote with
  | none => exact glued_bare p hq _
  | some q =>
    have hsome : p.quote.isSome = true := by rw [hq]; rfl
    exact (glued_pieces_iff hsome).mpr (((glued_pieces_iff hsome).mp h).take k)

theorem not_isSpace_of_glued {p : Piece} {rest : List Char}
    (h : p.glued (pieces p.stop rest) = true) :
    ∃ c cs, rest = c :: cs ∧ isSpace c = false := by
  have hsome : p.quote.isSome = true := by
    cases hq : p.quote with
    | none => rw [glued_bare p hq] at h; simp at h
    | some q => rfl
  have hapart : ¬ Apart rest := by
    rw [← glued_pieces_iff hsome, h]; simp
  cases rest with
  | nil => exact absurd apart_nil hapart
  | cons c cs => exact ⟨c, cs, rfl, by simpa [apart_cons] using hapart⟩

/-- One word of a line with an error. The line cut behind the word, or further on, begins
with the same word (`hcut`). -/
theorem resumes_cons (p : Piece) (hclosed : p.quote.isSome → p.closed) {pos : Nat}
    (hpos : pos ≤ p.stop) {cs rest : List Char} {e : QuoteError}
    (hcut : ∀ k, pieces pos (cs.take (p.stop + k - pos)) = p :: pieces p.stop (rest.take k))
    (ih : tokensOf (pieces p.stop rest) = .error e → p.stop ≤ e.place ∧
      ∃ ts, tokensOf (pieces p.stop (rest.take (e.place - p.stop))) = .ok ts ∧
        Resumes (splitTail (p.stop + rest.length) (pieces p.stop rest)) ts e)
    (h : tokensOf (p :: pieces p.stop rest) = .error e) :
    pos ≤ e.place ∧ ∃ ts, tokensOf (pieces pos (cs.take (e.place - pos))) = .ok ts ∧
      Resumes (splitTail (p.stop + rest.length) (p :: pieces p.stop rest)) ts e := by
  rcases tokensOf_cons_eq_error hclosed h with ⟨hglued, rfl⟩ | ⟨hglued, herror⟩
  · -- something is glued to the word: the line is cut right behind it
    obtain ⟨c, rest, rfl, hc⟩ := not_isSpace_of_glued hglued
    refine ⟨hpos, [p.token], ?_, ?_⟩
    · have hword := hcut 0
      rw [Nat.add_zero, List.take_zero, pieces_nil] at hword
      rw [QuoteError.place, hword, tokensOf_cons hclosed rfl]
      rfl
    · rw [splitTail_cons_of_ne (by simp)]
      exact (continues_head (pieces_head hc _ _)).cons p.token
  · obtain ⟨hle, ts, hts, hresumes⟩ := ih herror
    refine ⟨Nat.le_trans hpos hle, p.token :: ts, ?_, ?_⟩
    · have hword := hcut (e.place - p.stop)
      rw [Nat.add_sub_cancel' hle] at hword
      rw [hword, tokensOf_cons hclosed (glued_take hglued _), hts]
      rfl
    · have hne : p.stop ≠ p.stop + rest.length := by
        intro hlen
        have : rest = [] := List.length_eq_zero_iff.mp (by omega)
        rw [this, pieces_nil, tokensOf] at herror
        simp at herror
      rw [splitTail_cons_of_ne hne]
      exact hresumes.cons p.token

/-- The line in front of an error can be read, and its tokens are those of the unfinished
line. -/
theorem resumes_of_error {pos : Nat} {cs : List Char} {e : QuoteError}
    (h : tokensOf (pieces pos cs) = .error e) :
    pos ≤ e.place ∧ ∃ ts, tokensOf (pieces pos (cs.take (e.place - pos))) = .ok ts ∧
      Resumes (splitTail (pos + cs.length) (pieces pos cs)) ts e := by
  induction pos, cs using line_induction with
  | nil pos => simp [pieces_nil, tokensOf] at h
  | space pos c cs hc ih =>
    rw [pieces_space hc] at h ⊢
    obtain ⟨hle, ts, hts, hresumes⟩ := ih h
    have hcut : e.place - pos = e.place - (pos + 1) + 1 := by omega
    refine ⟨by omega, ts, ?_, ?_⟩
    · rw [hcut, List.take_succ_cons, pieces_space hc, hts]
    · rw [end_cons]; exact hresumes
  | unclosed pos q w held =>
    rw [pieces_unclosed held] at h ⊢
    simp only [tokensOf, Option.isSome_some, Bool.not_false, Bool.and_self, if_true,
      Except.error.injEq] at h
    subst h
    refine ⟨Nat.le_refl _, [], ?_, String.ofList w, q, ?_⟩
    · rw [QuoteError.place, Nat.sub_self, List.take_zero, pieces_nil, tokensOf]
    · rw [end_cons]; exact splitTail_end ⟨w, pos, pos + 1 + w.length, some q, false⟩
  | quoted pos q w rest hw ih =>
    rw [pieces_quoted hw] at h ⊢
    rw [end_quoted]
    refine resumes_cons ⟨w, pos, pos + 2 + w.length, some q, true⟩ (fun _ => rfl)
      (show pos ≤ pos + 2 + w.length by omega) (fun k => ?_) ih h
    have hcut : pos + 2 + w.length + k - pos = (w.length + (k + 1)) + 1 := by omega
    rw [hcut, List.take_succ_cons, List.take_length_add_append, List.take_succ_cons,
      pieces_quoted hw]
  | bare pos w rest hw ends ih =>
    rw [pieces_bare hw ends] at h ⊢
    rw [end_append]
    refine resumes_cons ⟨w, pos, pos + w.length, none, false⟩ (by simp)
      (show pos ≤ pos + w.length by omega) (fun k => ?_) ih h
    have hcut : pos + w.length + k - pos = w.length + k := by omega
    rw [hcut, List.take_length_add_append, pieces_bare hw (ends.take k)]

/-- **Both readers agree on every line.** If the line can be read, the unfinished line has
its tokens, the last one as the tail if nothing is behind it. If it cannot, the line in
front of the error can, and the unfinished line has the tokens of that line: behind them
comes the open quote as the tail, or what is glued to a closing quote. -/
theorem tokenizeUnfinished_eq_reopen (line : String) :
    match tokenize line with
    | .ok ts => tokenizeUnfinished line = reopen line.length ts
    | .error e => ∃ ts, tokenize (String.ofList (line.toList.take e.place)) = .ok ts ∧
        Resumes (tokenizeUnfinished line) ts e := by
  have hlen : (0 : Nat) + line.toList.length = line.length := by
    rw [Nat.zero_add, String.length_toList]
  cases h : tokenize line with
  | ok ts =>
    have hread := splitTail_eq_reopen h
    rwa [hlen] at hread
  | error e =>
    obtain ⟨-, ts, hts, hresumes⟩ := resumes_of_error h
    rw [hlen] at hresumes
    refine ⟨ts, ?_, hresumes⟩
    rw [tokenize, String.toList_ofList]
    exact hts

end Courier.Line
