/-
Courier.Proofs.Line.Places — places that lie in a line.

What the shell points at is a part of the line between two places, an `excerpt`. A token
that stands in the line is pointed at exactly: its places lie in the line, and the excerpt
between them is its source (`StandsIn.excerpt`). All tokens that are read stand in the line
(`standsIn_of_tokenize`).

A quote that is not in order has a place and no token. It lies in the line too
(`place_le_length`).
-/
import Courier.Proofs.Line.Unfinished
import Courier.Text.Blank

namespace Courier.Line

open Courier.Text

/-! ## Excerpts -/

/-- The part of a line between two places. -/
def excerpt (line : String) (start stop : Int) : String :=
  String.ofList ((line.toList.drop start.toNat).take (stop - start).toNat)

namespace Token.StandsIn

variable {t : Token} {line : String} (h : t.StandsIn line)

include h

theorem start_nonneg : 0 ≤ t.start := by
  obtain ⟨before, after, -, hstart, -⟩ := h
  omega

theorem start_le_stop : t.start ≤ t.stop := by
  obtain ⟨before, after, -, hstart, hstop⟩ := h
  omega

theorem stop_le_length : t.stop ≤ line.length := by
  obtain ⟨before, after, rfl, -, hstop⟩ := h
  rw [hstop, String.length_append, String.length_append]
  omega

theorem length_source : (t.source.length : Int) = t.stop - t.start := by
  obtain ⟨before, after, -, hstart, hstop⟩ := h
  omega

/-- Between its places stands the source of the token, and nothing else. -/
theorem excerpt : excerpt line t.start t.stop = t.source := by
  have hlength : (t.stop - t.start).toNat = t.source.toList.length := by
    rw [← h.length_source, String.length_toList]
    rfl
  obtain ⟨before, after, rfl, hstart, -⟩ := h
  have hdrop : t.start.toNat = before.toList.length := by
    rw [hstart, String.length_toList]
    rfl
  rw [Line.excerpt, hlength, hdrop, String.toList_append, String.toList_append,
    List.append_assoc, List.drop_left, List.take_left, String.ofList_toList]

end Token.StandsIn

/-- The part of a bare word behind some of its characters stands in the line as well. -/
theorem Token.StandsIn.behind {t : Token} {line : String} (h : t.StandsIn line)
    (hkind : t.kind = .bare) {lead value : String} (htext : t.text = lead ++ value) :
    ({ t with text := value, start := t.start + lead.length } : Token).StandsIn line := by
  obtain ⟨before, after, hline, hstart, hstop⟩ := h
  have hsource : t.source = lead ++ value := by
    rw [Token.source, hkind, htext]
  have hvalue : ({ t with text := value, start := t.start + lead.length } : Token).source
      = value := by
    rw [Token.source, hkind]
  refine ⟨before ++ lead, after, ?_, ?_, ?_⟩
  · rw [hline, hsource, hvalue]
    simp only [String.append_assoc]
  · rw [hstart, String.length_append, Int.natCast_add]
  · rw [hvalue, String.length_append, Nat.add_assoc, ← String.length_append, ← hsource]
    exact hstop

/-! ## Tokens that are read -/

/-- Every token that is read stands in the line. -/
theorem standsIn_of_tokenize {line : String} {ts : List Token} (h : tokenize line = .ok ts) :
    ∀ t ∈ ts, t.StandsIn line := by
  obtain ⟨l, -, hline, hts⟩ := exists_layout h
  rw [Nat.zero_add] at hts
  rw [← String.toList_inj.mp hline, hts]
  exact standsIn_place l.lead l.words

/-! ## Quotes that are not in order -/

/-- A piece does not reach beyond the characters that it is cut from. -/
theorem stop_le_of_mem_pieces {pos : Nat} {cs : List Char} :
    ∀ p ∈ pieces pos cs, p.start ≤ p.stop ∧ p.stop ≤ pos + cs.length := by
  induction pos, cs using line_induction with
  | nil pos => simp [pieces_nil]
  | space pos c cs hc ih =>
    rw [pieces_space hc]
    intro p hp
    have := ih p hp
    rw [List.length_cons]
    omega
  | unclosed pos q w held =>
    intro p hp
    rw [pieces_unclosed held, List.mem_singleton] at hp
    subst hp
    rw [List.length_cons]
    simp only
    omega
  | quoted pos q w rest hw ih =>
    rw [pieces_quoted hw, List.length_cons, List.length_append, List.length_cons]
    intro p hp
    rcases List.mem_cons.mp hp with rfl | hp
    · simp only
      omega
    · have := ih p hp
      omega
  | bare pos w rest hw ends ih =>
    rw [pieces_bare hw ends, List.length_append]
    intro p hp
    rcases List.mem_cons.mp hp with rfl | hp
    · simp only
      omega
    · have := ih p hp
      omega

/-- What is wrong with quotes is wrong where some piece begins or ends. -/
theorem exists_piece_of_error {ps : List Piece} {e : QuoteError} (h : tokensOf ps = .error e) :
    ∃ p ∈ ps, e.place = p.start ∨ e.place = p.stop := by
  induction ps with
  | nil => simp [tokensOf] at h
  | cons p ps ih =>
    rw [tokensOf] at h
    split at h
    · cases h
      exact ⟨p, by simp, .inl rfl⟩
    · split at h
      · cases h
        exact ⟨p, by simp, .inr rfl⟩
      · cases hps : tokensOf ps with
        | error e' =>
          rw [hps] at h
          cases h
          obtain ⟨q, hq, hplace⟩ := ih hps
          exact ⟨q, List.mem_cons_of_mem p hq, hplace⟩
        | ok ts =>
          rw [hps] at h
          simp [Except.map] at h

/-- A quote that is not in order has its place in the line. -/
theorem place_le_length {line : String} {e : QuoteError} (h : tokenize line = .error e) :
    e.place ≤ line.length := by
  obtain ⟨p, hp, hplace⟩ := exists_piece_of_error h
  have hbound := stop_le_of_mem_pieces p hp
  rw [Nat.zero_add, String.length_toList] at hbound
  omega

/-! ## The end of a line -/

theorem length_stripEnd_le (line : String) : (stripEnd line).length ≤ line.length := by
  have hdrop := (List.dropWhile_suffix (l := line.toList.reverse) isBlank).length_le
  rw [List.length_reverse, String.length_toList] at hdrop
  rwa [stripEnd, String.length_ofList, stripEndChars, List.length_reverse]

end Courier.Line
