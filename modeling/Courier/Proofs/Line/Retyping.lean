/-
Courier.Proofs.Line.Retyping — the last word of a line typed anew.

Whoever takes an offer while typing replaces the tail of the line, or adds a word behind its
white space. `tokenizeUnfinished_retyped` says what is read then: the tokens that were complete,
and behind them whatever the new word is read as at its place.

What the new word is read as depends on how it was written. With a space behind it

* a well-formed word is read as that word (`splitTail_word`),
* a text between quotes that holds the same quote falls apart, and none of its parts is the
  text again (`splitTail_broken`).
-/
import Courier.Proofs.Line.Places

namespace Courier.Line

/-! ## The place of the tail -/

/-- The place where the tail of a line begins that begins at `pos`; without a tail it is the end
of the line. -/
def tailPlace (pos : Nat) (cs : List Char) : Nat :=
  ((splitTail (pos + cs.length) (pieces pos cs)).2.map Tail.start).getD (pos + cs.length)

/-- The tail begins in the line, or where it ends. -/
theorem tailPlace_bounds (pos : Nat) (cs : List Char) :
    pos ≤ tailPlace pos cs ∧ tailPlace pos cs ≤ pos + cs.length := by
  unfold tailPlace
  cases htail : (splitTail (pos + cs.length) (pieces pos cs)).2 with
  | none => exact ⟨Nat.le_add_right _ _, Nat.le_refl _⟩
  | some tail =>
    have hmem : (tail.start : Int) ∈ starts (splitTail (pos + cs.length) (pieces pos cs)) := by
      simp [starts, htail]
    rw [starts_splitTail, List.mem_map] at hmem
    obtain ⟨p, hp, hstart⟩ := hmem
    have hfrom := le_start_of_mem_pieces p hp
    have hto := stop_le_of_mem_pieces p hp
    simp only [Option.map_some, Option.getD_some]
    omega

theorem tailPlace_space {c : Char} (hc : isSpace c = true) (pos : Nat) (cs : List Char) :
    tailPlace pos (c :: cs) = tailPlace (pos + 1) cs := by
  rw [tailPlace, pieces_space hc, end_cons, tailPlace]

/-- The tail does not begin in white space. -/
theorem lt_tailPlace {rest : List Char} (apart : Apart rest) (hrest : rest ≠ []) (pos : Nat) :
    pos < tailPlace pos rest := by
  cases rest with
  | nil => exact absurd rfl hrest
  | cons c cs =>
    rw [tailPlace_space (apart_cons.mp apart)]
    exact (tailPlace_bounds (pos + 1) cs).1

theorem tailPlace_end {p : Piece} {cs : List Char} (hps : pieces p.start cs = [p])
    (hstop : p.stop = p.start + cs.length) : tailPlace p.start cs = p.start := by
  rw [tailPlace, hps, ← hstop, splitTail_end]
  rfl

/-! ## A new word -/

/-- With a new word at the place of its tail, a line has its tokens and those of the new word. -/
def Retypes (word : List Char) (pos : Nat) (cs : List Char) : Prop :=
  splitTail (tailPlace pos cs + word.length)
      (pieces pos (cs.take (tailPlace pos cs - pos) ++ word))
    = ((splitTail (pos + cs.length) (pieces pos cs)).1
        ++ (splitTail (tailPlace pos cs + word.length) (pieces (tailPlace pos cs) word)).1,
      (splitTail (tailPlace pos cs + word.length) (pieces (tailPlace pos cs) word)).2)

/-- A line that is a tail as a whole is replaced as a whole. -/
theorem retypes_end (word : List Char) {p : Piece} {cs : List Char}
    (hps : pieces p.start cs = [p]) (hstop : p.stop = p.start + cs.length) :
    Retypes word p.start cs := by
  rw [Retypes, tailPlace_end hps hstop, hps, ← hstop, splitTail_end, Nat.sub_self, List.take_zero]
  rfl

/-- One word of a line: it is the tail, or it is read as before in front of the new word. -/
theorem retypes_cons {word : List Char} (hword : word ≠ []) {p : Piece} {cs rest : List Char}
    (hps : pieces p.start cs = p :: pieces p.stop rest)
    (hlength : p.start + cs.length = p.stop + rest.length)
    (hsame : rest ≠ [] → pieces p.start (cs.take (tailPlace p.stop rest - p.start) ++ word)
      = p :: pieces p.stop (rest.take (tailPlace p.stop rest - p.stop) ++ word))
    (ih : Retypes word p.stop rest) : Retypes word p.start cs := by
  by_cases hrest : rest = []
  · subst hrest
    rw [pieces_nil] at hps
    exact retypes_end word hps (by simpa using hlength.symm)
  · have hpos : 0 < rest.length := List.length_pos_iff.mpr hrest
    have hnew : 0 < word.length := List.length_pos_iff.mpr hword
    have hne : p.stop ≠ p.stop + rest.length := by omega
    have hread := splitTail_cons_of_ne hne (pieces p.stop rest)
    have hplace : tailPlace p.start cs = tailPlace p.stop rest := by
      rw [tailPlace, hlength, hps, hread]
      rfl
    have hle := (tailPlace_bounds p.stop rest).1
    rw [Retypes, hplace, hsame hrest, hlength, hps, hread, splitTail_cons_of_ne (by omega), ih]
    rfl

theorem retypes {word : List Char} (hword : word ≠ []) (pos : Nat) (cs : List Char) :
    Retypes word pos cs := by
  induction pos, cs using line_induction with
  | nil pos =>
    rw [Retypes, tailPlace, pieces_nil]
    simp [splitTail]
  | space pos c cs hc ih =>
    have hle := (tailPlace_bounds (pos + 1) cs).1
    have hcut : tailPlace (pos + 1) cs - pos = tailPlace (pos + 1) cs - (pos + 1) + 1 := by omega
    rw [Retypes, tailPlace_space hc, hcut, List.take_succ_cons, List.cons_append, pieces_space hc,
      pieces_space hc, end_cons]
    exact ih
  | unclosed pos q w held =>
    have hlength : pos + 1 + w.length = pos + (q.char :: w).length := (end_cons pos q.char w).symm
    exact retypes_end word (p := ⟨w, pos, pos + 1 + w.length, some q, false⟩)
      (pieces_unclosed held pos) hlength
  | quoted pos q w rest hw ih =>
    refine retypes_cons hword (p := ⟨w, pos, pos + 2 + w.length, some q, true⟩)
      (pieces_quoted hw pos rest) (end_quoted pos q.char q.char w rest) (fun _ => ?_) ih
    have hle := (tailPlace_bounds (pos + 2 + w.length) rest).1
    have hcut : tailPlace (pos + 2 + w.length) rest - pos
        = w.length + (tailPlace (pos + 2 + w.length) rest - (pos + 2 + w.length) + 1) + 1 := by
      omega
    dsimp only
    rw [hcut, List.take_succ_cons, List.take_length_add_append, List.take_succ_cons,
      List.cons_append, List.append_assoc, List.cons_append, pieces_quoted hw]
  | bare pos w rest hw ends ih =>
    refine retypes_cons hword (p := ⟨w, pos, pos + w.length, none, false⟩)
      (pieces_bare hw ends pos) (end_append pos w rest) (fun hrest => ?_) ih
    -- white space is left behind the word, so that it ends where it did
    have hlt := lt_tailPlace ends.1 hrest (pos + w.length)
    have hgap : rest.take (tailPlace (pos + w.length) rest - (pos + w.length)) ≠ [] := by
      rw [ne_eq, List.take_eq_nil_iff, not_or]
      exact ⟨by omega, hrest⟩
    have hcut : tailPlace (pos + w.length) rest - pos
        = w.length + (tailPlace (pos + w.length) rest - (pos + w.length)) := by omega
    dsimp only
    rw [hcut, List.take_length_add_append, List.append_assoc,
      pieces_bare hw ((ends.take _).append hgap word)]

/-- **Typing the last word anew leaves the words in front of it.** If what stands behind the
place of the tail is replaced, then the tokens that were complete are read again, and behind
them what the new word is at its place. -/
theorem tokenizeUnfinished_retyped (typed : String) {word : String} (hword : word ≠ "") :
    let place := ((tokenizeUnfinished typed).2.map Tail.start).getD typed.length
    let new := splitTail (place + word.toList.length) (pieces place word.toList)
    tokenizeUnfinished (String.ofList (typed.toList.take place) ++ word)
      = ((tokenizeUnfinished typed).1 ++ new.1, new.2) := by
  intro place new
  have hlength : (0 : Nat) + typed.toList.length = typed.length := by
    rw [Nat.zero_add, String.length_toList]
  have hplace : tailPlace 0 typed.toList = place := by
    rw [tailPlace, hlength]
    rfl
  have hle : place ≤ typed.toList.length := by
    have hbound := (tailPlace_bounds 0 typed.toList).2
    rwa [hplace, Nat.zero_add] at hbound
  have hnonempty : word.toList ≠ [] := by simpa using hword
  have hread := retypes hnonempty 0 typed.toList
  rw [Retypes, hplace, Nat.sub_zero, hlength] at hread
  rw [tokenizeUnfinished, String.toList_append, String.toList_ofList, ← String.length_toList,
    String.toList_append, String.toList_ofList, List.length_append, List.length_take,
    Nat.min_eq_left hle]
  exact hread

/-! ## A word with a space behind it -/

/-- A well-formed word is read as that word, unless it would hold on to the space. -/
theorem splitTail_word {x : Lexeme} (hx : x.WellFormed) (hends : endsEscaped x.text = false)
    (pos : Nat) :
    splitTail (pos + (x.source.toList ++ [' ']).length) (pieces pos (x.source.toList ++ [' ']))
      = ([x.at pos], none) := by
  have hapart : Apart [' '] := apart_cons.mpr rfl
  have hread := tokensOf_word hx hapart (by simp [hends]) pos
  rw [pieces_space rfl, pieces_nil, tokensOf] at hread
  have hlt : (x.at pos).stop < (pos + (x.source.toList ++ [' ']).length : Nat) := by
    rw [List.length_append, String.length_toList]
    simp only [Lexeme.at, List.length_singleton]
    omega
  rw [splitTail_eq_reopen hread]
  exact if_pos hlt

/-! ## A word that falls apart -/

/-- What is not held has a part in front of a quote that may stand between quotes. -/
theorem exists_enclosed {q : Char} {w : List Char} (h : quotesHeld q w = false) :
    ∃ first more, w = first ++ q :: more ∧ Enclosed q first := by
  fun_induction quotesHeld q w with
  | case1 => simp at h
  | case2 c =>
    have hc : c = q := by simpa using h
    exact ⟨[], [], by rw [hc]; rfl, rfl, rfl⟩
  | case3 d w ih =>
    obtain ⟨first, more, rfl, held, ends⟩ := ih h
    exact ⟨'\\' :: d :: first, more, rfl, by rwa [quotesHeld_pair], by rwa [endsHolding_pair]⟩
  | case4 c d w hc ih =>
    by_cases hquote : c = q
    · exact ⟨[], d :: w, by rw [hquote]; rfl, rfl, rfl⟩
    · obtain ⟨first, more, hw, held, ends⟩ := ih (by simpa [hquote] using h)
      refine ⟨c :: first, more, by rw [hw]; rfl, ?_, by rwa [endsHolding_cons hc]⟩
      rw [quotesHeld_cons hc, held, Bool.and_true, bne_iff_ne]
      exact hquote

/-- The words of a line that are complete, each with something behind it. -/
def InFront (pos : Nat) (cs : List Char) : Prop :=
  ∀ t ∈ (splitTail (pos + cs.length) (pieces pos cs)).1, t.source.toList <:+: cs.dropLast

/-- One word of a line: it is the tail, or the rest of the line is behind it. -/
theorem inFront_cons {p : Piece} {source rest cs : List Char}
    (hps : pieces p.start cs = p :: pieces p.stop rest)
    (hlength : p.start + cs.length = p.stop + rest.length) (hcs : cs = source ++ rest)
    (hsource : p.token.source.toList = source) (ih : InFront p.stop rest) :
    InFront p.start cs := by
  intro t ht
  rw [hlength, hps] at ht
  by_cases hrest : rest = []
  · subst hrest
    simp [pieces_nil, splitTail_end] at ht
  · have hpos : 0 < rest.length := List.length_pos_iff.mpr hrest
    rw [splitTail_cons_of_ne (by omega)] at ht
    rw [hcs, List.dropLast_append_of_ne_nil hrest]
    rcases List.mem_cons.mp ht with rfl | ht
    · exact hsource ▸ (List.prefix_append source rest.dropLast).isInfix
    · exact (ih t ht).trans (List.suffix_append source rest.dropLast).isInfix

theorem inFront (pos : Nat) (cs : List Char) : InFront pos cs := by
  induction pos, cs using line_induction with
  | nil pos => simp [InFront, pieces_nil, splitTail]
  | space pos c cs hc ih =>
    intro t ht
    rw [pieces_space hc, end_cons] at ht
    cases cs with
    | nil => simp [pieces_nil, splitTail] at ht
    | cons d cs => exact List.infix_cons (ih t ht)
  | unclosed pos q w held =>
    rw [InFront, pieces_unclosed held, end_cons]
    simp [splitTail]
  | quoted pos q w rest hw ih =>
    have hcs : q.char :: (w ++ q.char :: rest) = (q.char :: (w ++ [q.char])) ++ rest := by simp
    refine inFront_cons (p := ⟨w, pos, pos + 2 + w.length, some q, true⟩)
      (pieces_quoted hw pos rest) (end_quoted pos q.char q.char w rest) hcs ?_ ih
    rw [token_quoted, Token.source_eq, Lexeme.lexeme_at, Lexeme.source_quoted,
      String.toList_ofList]
  | bare pos w rest hw ends ih =>
    refine inFront_cons (p := ⟨w, pos, pos + w.length, none, false⟩)
      (pieces_bare hw ends pos) (end_append pos w rest) (rfl : _ = w ++ rest) ?_ ih
    rw [token_bare, Token.source_eq, Lexeme.lexeme_at, Lexeme.source_bareKind,
      String.toList_ofList]

/-- The source of a word is its text, or longer than that. -/
theorem Token.text_eq_source_or_shorter (t : Token) :
    t.text = t.source ∨ t.text.length < t.source.length := by
  unfold Token.source
  split
  · refine .inr ?_
    simp only [String.length_append, String.length_singleton]
    omega
  · exact .inl rfl

/-- A list that is the same with a member in front as with it behind has no other members. -/
theorem eq_of_append_eq_cons {α : Type} {x : α} {xs : List α} (h : xs ++ [x] = x :: xs) :
    ∀ y ∈ xs, y = x := by
  induction xs with
  | nil => simp
  | cons z zs ih =>
    rw [List.cons_append, List.cons.injEq] at h
    obtain ⟨rfl, h⟩ := h
    simpa using ih h

/-- **A text that holds its own quote falls apart.** Its first part is a quoted word that is
shorter, and among the words behind it none is longer than what was behind the `lead`, and none
is that again. -/
theorem splitTail_broken {q : Quote} {lead value : List Char}
    (hbroken : quotesHeld q.char (lead ++ value) = false) (hlead : q.char ∉ lead)
    (hother : ∃ c ∈ value, c ≠ q.char) (pos : Nat) :
    let word := q.char :: (lead ++ value ++ [q.char, ' '])
    ∃ first more tail, splitTail (pos + word.length) (pieces pos word) = (first :: more, tail) ∧
      first.kind = .quoted q ∧ first.text.length < (lead ++ value).length ∧
      ∀ t ∈ more, t.text.length ≤ value.length ∧ t.text.toList ≠ value := by
  intro word
  obtain ⟨first, more, hsplit, hfirst⟩ := exists_enclosed hbroken
  -- the lead has no quote, so the first part reaches beyond it
  obtain ⟨part, rfl, rfl⟩ : ∃ part, first = lead ++ part ∧ value = part ++ q.char :: more := by
    rcases List.append_eq_append_iff.mp hsplit with h | ⟨cut, hcut, hmore⟩
    · exact h
    · cases cut with
      | nil => exact ⟨[], by simpa using hcut.symm, by simpa using hmore.symm⟩
      | cons c cut =>
        obtain ⟨rfl, -⟩ := List.cons.inj hmore
        exact absurd (by simp [hcut]) hlead
  have hword : word = q.char :: (lead ++ part ++ q.char :: (more ++ [q.char, ' '])) := by
    simp [word]
  have hdrop : (more ++ [q.char, ' ']).dropLast = more ++ [q.char] := by
    rw [List.dropLast_append_of_ne_nil (by simp)]
    rfl
  rw [hword, pieces_quoted hfirst, end_quoted, splitTail_cons_of_ne (by simp), token_quoted]
  refine ⟨_, _, _, rfl, rfl, ?_, fun t ht => ?_⟩
  · simp only [Lexeme.at, String.length_ofList, List.length_append, List.length_cons]
    omega
  · have hinfix := inFront _ _ t ht
    rw [hdrop] at hinfix
    have hle := hinfix.length_le
    have htext : t.text.length ≤ t.source.length := by
      rcases t.text_eq_source_or_shorter with h | h
      · exact Nat.le_of_eq (by rw [h])
      · exact Nat.le_of_lt h
    rw [String.length_toList, List.length_append, List.length_singleton] at hle
    rw [List.length_append, List.length_cons]
    refine ⟨by omega, fun hsame => ?_⟩
    -- the word would be all that is left, and that is the text with its quote moved to the end
    have hlength := congrArg List.length hsame
    rw [String.length_toList, List.length_append, List.length_cons] at hlength
    have hall : t.source.toList = more ++ [q.char] := by
      apply hinfix.eq_of_length
      rw [String.length_toList, List.length_append, List.length_singleton]
      omega
    have hsource : t.text = t.source := t.text_eq_source_or_shorter.resolve_right (by omega)
    obtain rfl : part = [] := List.length_eq_zero_iff.mp (by omega)
    obtain ⟨c, hc, hne⟩ := hother
    rw [hsource, hall] at hsame
    rcases List.mem_cons.mp hc with rfl | hc
    · exact hne rfl
    · exact hne (eq_of_append_eq_cons hsame c hc)

end Courier.Line
