/-
Courier.Proofs.Line.Quoting — which words `quote` writes readably.

`quote` writes a text bare or between quotes. Bare it is read back as it is, because a text that
needs no quotes is a bare word. Between quotes it is read back if it may stand between these
(`tokenize_enclose_iff`), and two things are in the way of that:

* both quotes occur in the text, so that neither is free, and the single one is not held;
* the text ends in a backslash, which holds on to the closing quote.

Words of a line have either in them. A word that is written between double quotes may have a
single quote in it that nothing holds, and held double ones; and a bare word may end in a
backslash and have a held space. `quoted_lexeme_reads_back_iff` says that no other word is lost.
-/
import Courier.Proofs.Line.Layout
import Mathlib.Control.Monad.Basic

namespace Courier.Line

/-! ## A line that is one word -/

/-- A well-formed word alone is a line that is read as this word. -/
theorem tokenize_source {x : Lexeme} (hx : x.WellFormed) : tokenize x.source = .ok [x.at 0] := by
  have hread := tokensOf_word hx apart_nil (fun _ => rfl) 0
  rw [List.append_nil, pieces_nil, tokensOf] at hread
  exact hread

/-- Tokens are well-formed words. -/
theorem wellFormed_of_mem_tokenize {line : String} {ts : List Token} (h : tokenize line = .ok ts)
    {t : Token} (ht : t ∈ ts) : t.lexeme.WellFormed := by
  obtain ⟨l, hl, -, rfl⟩ := exists_layout h
  have hmem := List.mem_map_of_mem (f := Token.lexeme) ht
  rw [lexeme_place] at hmem
  obtain ⟨w, hw, hword⟩ := List.mem_map.mp hmem
  exact hword ▸ (hl.words w hw).1

/-- A line that is read as one word has white space around it and nothing else. -/
theorem exists_blanks_of_tokenize {line : String} {t : Token} (h : tokenize line = .ok [t]) :
    ∃ lead gap, Blank lead ∧ line = lead ++ (t.source ++ gap) := by
  obtain ⟨l, hl, hline, hts⟩ := exists_layout h
  have hwords : l.words.map Spaced.word = [t.lexeme] := by
    rw [← lexeme_place (0 + l.lead.length) l.words, ← hts]
    rfl
  obtain ⟨w, hw, hlexeme⟩ := List.map_eq_singleton_iff.mp hwords
  refine ⟨l.lead, w.gap, hl.lead, ?_⟩
  rw [← String.toList_inj.mp hline, Layout.line, hw, write, write, hlexeme, String.append_empty,
    Token.source_eq]

/-! ## A text between quotes -/

theorem toList_enclose (q : Quote) (text : String) :
    (enclose q text).toList = q.char :: (text.toList ++ [q.char]) := by
  simp [enclose]

/-- What is read as one word and begins with a quote has no white space in front. -/
theorem eq_empty_of_enclose {q : Quote} {text lead rest : String} (hlead : Blank lead)
    (h : enclose q text = lead ++ rest) : lead = "" := by
  have hchars := congrArg String.toList h
  rw [toList_enclose, String.toList_append] at hchars
  cases hcs : lead.toList with
  | nil => exact String.toList_eq_nil_iff.mp hcs
  | cons c cs =>
    rw [hcs, List.cons_append] at hchars
    rw [Blank, hcs, List.all_cons, ← (List.cons.inj hchars).1, q.isSpace_char] at hlead
    exact absurd hlead (by simp)

/-- If a text between quotes is read as one word of this text, then that word has these quotes. -/
theorem lexeme_of_tokenize_enclose {q : Quote} {text : String} {t : Token}
    (h : tokenize (enclose q text) = .ok [t]) (htext : t.text = text) :
    t.lexeme = ⟨text, .quoted q⟩ := by
  have hx : t.lexeme.WellFormed := wellFormed_of_mem_tokenize h (List.mem_singleton_self t)
  obtain ⟨lead, gap, hlead, hline⟩ := exists_blanks_of_tokenize h
  obtain rfl := eq_empty_of_enclose hlead hline
  have hchars := congrArg String.toList hline
  rw [String.empty_append, String.toList_append, toList_enclose, Token.source_eq] at hchars
  by_cases hquoted : ∃ q', t.lexeme.kind = .quoted q'
  · obtain ⟨q', hkind⟩ := hquoted
    have hlexeme : t.lexeme = ⟨text, .quoted q'⟩ := by rw [← hkind, ← htext]; rfl
    rw [hlexeme, Lexeme.source_quoted, List.cons_append] at hchars
    rw [hlexeme]
    have hsame : Quote.ofChar? q.char = Quote.ofChar? q'.char := by rw [(List.cons.inj hchars).1]
    rw [q.ofChar?_char, q'.ofChar?_char, Option.some.injEq] at hsame
    rw [hsame]
  · -- a bare word does not begin with a quote
    obtain ⟨hbare, -, hsource⟩ := hx.bare fun q' hq' => hquoted ⟨q', hq'⟩
    rw [hsource] at hchars
    cases hword : t.lexeme.text.toList with
    | nil => exact absurd hword hbare.1
    | cons c cs =>
      rw [hword] at hchars hbare
      have hhead := hbare.ofChar?_head
      rw [List.cons_append] at hchars
      rw [← (List.cons.inj hchars).1, q.ofChar?_char] at hhead
      exact nomatch hhead

/-- **Between quotes** a text is read back if and only if the quotes in it are held and its end
does not hold on to the closing one. -/
theorem tokenize_enclose_iff {q : Quote} {text : String} :
    (∃ t, tokenize (enclose q text) = .ok [t] ∧ t.text = text) ↔
      quotesHeld q.char text.toList = true ∧ endsEscaped text = false := by
  constructor
  · rintro ⟨t, h, htext⟩
    have hx : t.lexeme.WellFormed := wellFormed_of_mem_tokenize h (List.mem_singleton_self t)
    rwa [lexeme_of_tokenize_enclose h htext] at hx
  · intro hx
    have hword : (Lexeme.mk text (.quoted q)).WellFormed := hx
    have hsource : enclose q text = (Lexeme.mk text (.quoted q)).source := rfl
    rw [hsource]
    exact ⟨(Lexeme.mk text (.quoted q)).at 0, tokenize_source hword, rfl⟩

/-! ## Quoting -/

/-- If not both quotes occur, one that does not is preferred. -/
theorem preferredQuote_not_mem {text : String}
    (h : ¬ ('\'' ∈ text.toList ∧ '"' ∈ text.toList)) :
    (preferredQuote text).char ∉ text.toList := by
  by_cases hsingle : '\'' ∈ text.toList
  · have hdouble : '"' ∉ text.toList := fun hdouble => h ⟨hsingle, hdouble⟩
    have hpreferred : preferredQuote text = .double := by simp [preferredQuote, hsingle, hdouble]
    rw [hpreferred]
    exact hdouble
  · have hpreferred : preferredQuote text = .single := by simp [preferredQuote, hsingle]
    rw [hpreferred]
    exact hsingle

/-- The preferred quote is held if it is the double one, or if the single one is. -/
theorem quotesHeld_preferredQuote_iff {text : String} :
    quotesHeld (preferredQuote text).char text.toList = true ↔
      ('"' ∈ text.toList → quotesHeld '\'' text.toList = true) := by
  by_cases hdouble : '"' ∈ text.toList
  · have hsingle : preferredQuote text = .single := by simp [preferredQuote, hdouble]
    rw [hsingle, forall_prop_of_true hdouble]
    rfl
  · have hfree := preferredQuote_not_mem fun hboth => hdouble hboth.2
    exact iff_of_true (quotesHeld_of_not_mem hfree) fun h => absurd h hdouble

/-- Which texts are read back as they are quoted. -/
theorem tokenize_quote_iff (text : String) :
    (∃ t, tokenize (quote text) = .ok [t] ∧ t.text = text) ↔ (needsQuotes text = true →
      endsEscaped text = false ∧ ('"' ∈ text.toList → quotesHeld '\'' text.toList = true)) := by
  cases hneeds : needsQuotes text with
  | false =>
    have hbare : quote text = (Lexeme.mk text .bare).source := by
      rw [quote, hneeds]
      rfl
    rw [hbare]
    have hread := tokenize_source (Lexeme.wellFormed_bare hneeds)
    exact iff_of_true ⟨(Lexeme.mk text .bare).at 0, hread, rfl⟩ nofun
  | true =>
    rw [quote, if_pos hneeds, tokenize_enclose_iff, quotesHeld_preferredQuote_iff,
      forall_prop_of_true rfl, and_comm]

/-- Of the words of a line only a bare one can end in a backslash that holds on to what follows. -/
theorem Lexeme.WellFormed.kind_of_endsEscaped {x : Lexeme} (hx : x.WellFormed)
    (h : endsEscaped x.text = true) : x.kind = .bare := by
  obtain ⟨text, kind⟩ := x
  cases kind with
  | bare => rfl
  | quoted q => exact absurd (hx.2.symm.trans h) Bool.false_ne_true
  | «break» =>
    obtain rfl : text = "--" := hx
    exact absurd h (by decide)

/-- **Which words are quoted readably.** A word of a line that needs no quotes is read back as it
is quoted. Any other is read back, as one word of the same text, if and only if it is no bare word
that ends in an odd run of backslashes, and the single quotes in it are held if it has double
ones. -/
theorem quoted_lexeme_reads_back_iff {line : String} {ts : List Token}
    (h : tokenize line = .ok ts) {t : Token} (ht : t ∈ ts) :
    (∃ u, tokenize (quote t.text) = .ok [u] ∧ u.text = t.text) ↔ (needsQuotes t.text = true →
      ¬ (t.kind = .bare ∧ endsEscaped t.text = true) ∧
        ('"' ∈ t.text.toList → quotesHeld '\'' t.text.toList = true)) := by
  have hbare : endsEscaped t.text = true → t.kind = .bare :=
    (wellFormed_of_mem_tokenize h ht).kind_of_endsEscaped
  rw [tokenize_quote_iff, ← Bool.not_eq_true]
  refine imp_congr_right fun _ => and_congr_left fun _ => not_congr ?_
  exact ⟨fun hends => ⟨hbare hends, hends⟩, And.right⟩

/-- A word with both quotes in it, of which the single one is held. -/
theorem quoted_lexeme_reads_back_iff_held :
    let t : Token := ⟨"a\\' \"b\"", 4, 13, .quoted .single⟩
    tokenize "run 'a\\' \"b\"'" = .ok [⟨"run", 0, 3, .bare⟩, t] ∧
      ∃ u, tokenize (quote t.text) = .ok [u] ∧ u.text = t.text := by
  intro t
  have h : tokenize "run 'a\\' \"b\"'" = .ok [⟨"run", 0, 3, .bare⟩, t] := by decide +kernel
  refine ⟨h, (quoted_lexeme_reads_back_iff h (by simp)).mpr fun _ => ⟨?_, fun _ => ?_⟩⟩
  · exact fun hbare => nomatch hbare.1
  · decide

/-- A word in double quotes that has a single one, and a bare word with a held space at whose end
there is a backslash. Both are enclosed in single quotes. The first ends at the quote that it has,
and the second does not end. -/
theorem quoted_lexeme_breaks :
    tokenize "\"it's \\\"x\\\"\"" = .ok [⟨"it's \\\"x\\\"", 0, 12, .quoted .double⟩] ∧
      tokenize (quote "it's \\\"x\\\"") = .error (.trailing 4) ∧
      tokenize "a\\ b\\" = .ok [⟨"a\\ b\\", 0, 5, .bare⟩] ∧
      tokenize (quote "a\\ b\\") = .error (.unterminated 0) := by
  decide +kernel

end Courier.Line
