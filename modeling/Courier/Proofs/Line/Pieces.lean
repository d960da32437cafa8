/-
Courier.Proofs.Line.Pieces — how a line falls into pieces.

`pieces` recurses on what its scanners leave, so its own induction principle speaks of
scanners. `line_induction` says the same of the line itself: a line is empty, or begins
with white space, an unclosed quote, a quoted word or a bare word. Each case has its
equation (`pieces_space`, `pieces_unclosed`, `pieces_quoted`, `pieces_bare`), and no
proof below this module unfolds `pieces` or a scanner.

The words are those of `Courier.Proofs.Line.Word`. In the last two cases the rest of the
line is part of the case, because a bare word ends where `Ends` lets it.
-/
import Courier.Proofs.Line.Word

namespace Courier.Line

/-! ## Characters -/

theorem Quote.ofChar?_char (q : Quote) : Quote.ofChar? q.char = some q := by
  cases q <;> rfl

theorem Quote.char_of_ofChar? {c : Char} {q : Quote} (h : Quote.ofChar? c = some q) :
    q.char = c := by
  simp only [Quote.ofChar?] at h
  split at h
  · next hc => cases h; exact hc.symm
  · split at h
    · next hc => cases h; exact hc.symm
    · simp at h

theorem Quote.isSpace_char (q : Quote) : isSpace q.char = false := by
  cases q <;> rfl

theorem Quote.char_ne_backslash (q : Quote) : q.char ≠ '\\' := by
  cases q <;> decide

/-! ## The cases of a line -/

/-- Whether a word begins with a quote. -/
def startsQuoted : List Char → Bool
  | [] => false
  | c :: _ => (Quote.ofChar? c).isSome

/-- A word that may stand without quotes. -/
def Bare (w : List Char) : Prop :=
  w ≠ [] ∧ startsQuoted w = false ∧ spacesHeld w = true

theorem Bare.ofChar?_head {c : Char} {w : List Char} (h : Bare (c :: w)) :
    Quote.ofChar? c = none := by
  simpa [startsQuoted] using h.2.1

theorem Bare.isSpace_head {c : Char} {w : List Char} (h : Bare (c :: w)) :
    isSpace c = false := by
  obtain ⟨-, -, held⟩ := h
  cases hc : isSpace c with
  | false => rfl
  | true =>
    have hne : c ≠ '\\' := by rintro rfl; simp [isSpace] at hc
    rw [spacesHeld_cons (fun h => absurd h hne), hc] at held
    simp at held

theorem pieces_nil (pos : Nat) : pieces pos [] = [] := by
  rw [pieces]

theorem pieces_space {c : Char} (hc : isSpace c = true) (pos : Nat) (cs : List Char) :
    pieces pos (c :: cs) = pieces (pos + 1) cs := by
  rw [pieces, dif_pos hc]

theorem pieces_unclosed {q : Quote} {w : List Char} (held : quotesHeld q.char w = true)
    (pos : Nat) :
    pieces pos (q.char :: w) = [⟨w, pos, pos + 1 + w.length, some q, false⟩] := by
  have hscan := scanQuoted_open held
  rw [pieces, dif_neg (by simp [q.isSpace_char])]
  simp only [q.ofChar?_char]
  split
  · rw [hscan]
  · next rest hq => simp [hscan] at hq

theorem pieces_quoted {q : Quote} {w : List Char} (hw : Enclosed q.char w) (pos : Nat)
    (rest : List Char) :
    pieces pos (q.char :: (w ++ q.char :: rest))
      = ⟨w, pos, pos + 2 + w.length, some q, true⟩ :: pieces (pos + 2 + w.length) rest := by
  have hscan := scanQuoted_closed q.char_ne_backslash hw rest
  rw [pieces, dif_neg (by simp [q.isSpace_char])]
  simp only [q.ofChar?_char]
  split
  · next hq => simp [hscan] at hq
  · next rest' hq =>
    simp only [hscan, Option.some.injEq] at hq
    rw [hscan, hq]

theorem pieces_bare {w rest : List Char} (hw : Bare w) (ends : Ends w rest) (pos : Nat) :
    pieces pos (w ++ rest)
      = ⟨w, pos, pos + w.length, none, false⟩ :: pieces (pos + w.length) rest := by
  cases w with
  | nil => exact absurd rfl hw.1
  | cons c w =>
    have hscan := scanBare_word hw.2.2 ends
    rw [List.cons_append, pieces, dif_neg (by simp [hw.isSpace_head])]
    simp only [hw.ofChar?_head]
    rw [← List.cons_append, hscan]

/-- A line is empty, or begins with white space, an unclosed quote, a quoted word or a
bare word; the last three are what the scanners read. -/
theorem line_induction {motive : Nat → List Char → Prop}
    (nil : ∀ pos, motive pos [])
    (space : ∀ pos c cs, isSpace c = true → motive (pos + 1) cs → motive pos (c :: cs))
    (unclosed : ∀ pos (q : Quote) w, quotesHeld q.char w = true → motive pos (q.char :: w))
    (quoted : ∀ pos (q : Quote) w rest, Enclosed q.char w →
      motive (pos + 2 + w.length) rest → motive pos (q.char :: (w ++ q.char :: rest)))
    (bare : ∀ pos w rest, Bare w → Ends w rest →
      motive (pos + w.length) rest → motive pos (w ++ rest))
    (pos : Nat) (cs : List Char) : motive pos cs := by
  fun_induction pieces pos cs with
  | case1 pos => exact nil pos
  | case2 pos c cs hc ih => exact space pos c cs hc ih
  | case3 pos c cs hc q hq r hr =>
    obtain ⟨-, held⟩ := scanQuoted_eq_open hr
    rw [← Quote.char_of_ofChar? hq]
    exact unclosed pos q cs held
  | case4 pos c cs hc q hq r rest hr _ ih =>
    obtain ⟨heq, hw⟩ := scanQuoted_eq_closed hr
    rw [← Quote.char_of_ofChar? hq, heq]
    exact quoted pos q _ rest hw ih
  | case5 pos c cs hc hq _ r ih =>
    obtain ⟨held, ends⟩ := scanBare_eq (c :: cs)
    have happ := scanBare_append (c :: cs)
    have hw : Bare (scanBare (c :: cs)).1 := by
      refine ⟨?_, ?_, held⟩
      · intro hnil
        rw [hnil, List.nil_append] at happ
        rw [happ] at ends
        exact hc (apart_cons.mp ends.1)
      · cases hw : (scanBare (c :: cs)).1 with
        | nil => rfl
        | cons e w =>
          rw [hw, List.cons_append, List.cons.injEq] at happ
          rw [startsQuoted, happ.1, hq]
          rfl
    rw [← happ]
    exact bare pos _ _ hw ends ih

/-! ## Where pieces begin -/

/-- A line that begins with a word has a piece at its own place. -/
theorem pieces_head {c : Char} (hc : isSpace c = false) (pos : Nat) (cs : List Char) :
    ∃ p ps, pieces pos (c :: cs) = p :: ps ∧ p.start = pos := by
  rw [pieces, dif_neg (by simp [hc])]
  split
  · dsimp only
    split
    · exact ⟨_, _, rfl, rfl⟩
    · exact ⟨_, _, rfl, rfl⟩
  · exact ⟨_, _, rfl, rfl⟩

theorem le_start_of_mem_pieces {pos : Nat} {cs : List Char} :
    ∀ p ∈ pieces pos cs, pos ≤ p.start := by
  induction pos, cs using line_induction with
  | nil pos => simp [pieces_nil]
  | space pos c cs hc ih =>
    rw [pieces_space hc]
    intro p hp
    have := ih p hp
    omega
  | unclosed pos q w held => simp [pieces_unclosed held]
  | quoted pos q w rest hw ih =>
    rw [pieces_quoted hw]
    intro p hp
    rcases List.mem_cons.mp hp with rfl | hp
    · exact Nat.le_refl _
    · have := ih p hp
      omega
  | bare pos w rest hw ends ih =>
    rw [pieces_bare hw ends]
    intro p hp
    rcases List.mem_cons.mp hp with rfl | hp
    · exact Nat.le_refl _
    · have := ih p hp
      omega

/-- Nothing is glued to a quoted word exactly when white space or nothing follows it. -/
theorem glued_pieces_iff {p : Piece} (hq : p.quote.isSome = true) {cs : List Char} :
    p.glued (pieces p.stop cs) = false ↔ Apart cs := by
  cases cs with
  | nil => simp [pieces_nil, Piece.glued, apart_nil]
  | cons c cs =>
    rw [apart_cons]
    cases hc : isSpace c with
    | true =>
      rw [pieces_space hc]
      have hle := @le_start_of_mem_pieces (p.stop + 1) cs
      cases hps : pieces (p.stop + 1) cs with
      | nil => simp [Piece.glued]
      | cons next ps =>
        have := hle next (by simp [hps])
        have hne : next.start ≠ p.stop := by omega
        simp [Piece.glued, hne]
    | false =>
      obtain ⟨next, ps, heq, hstart⟩ := pieces_head hc p.stop cs
      simp [heq, Piece.glued, hq, hstart]

/-- White space in front of a line only moves its pieces. -/
theorem pieces_blank {gap : List Char} (h : gap.all isSpace = true) (pos : Nat)
    (cs : List Char) : pieces pos (gap ++ cs) = pieces (pos + gap.length) cs := by
  induction gap generalizing pos with
  | nil => rfl
  | cons c gap ih =>
    rw [List.all_cons, Bool.and_eq_true] at h
    rw [List.cons_append, pieces_space h.1, ih h.2, List.length_cons]
    congr 1
    omega

end Courier.Line
