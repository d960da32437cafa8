/-
Courier.Proofs.Completion.Rendering — how a candidate is written.

A candidate that is complete is written as one word with a space behind it
(`render_of_space`): between the quote that has been typed, between quotes that it needs, or
bare (`writtenWord`). Everything else that `render` writes ends in something to go on with, or
in a backslash.

Only a word that holds its own quote is not read back as that word
(`wellFormed_writtenWord_iff`), and that takes both quotes, one of them with nothing to hold it
(`exists_ne_of_broken`).
-/
import Courier.Completion
import Courier.Proofs.Line.Layout

namespace Courier

open Courier.Line Courier.Text

/-! ## The word of a value -/

/-- The quote that a value is put into the line with, if it has one. -/
def writtenQuote? (value : String) (tail : Option Tail) : Option Quote :=
  (tailQuote? value tail).or
    (if needsQuotes value then some (preferredQuote value) else none)

/-- A value as a word of the line. -/
def writtenWord (value : String) (tail : Option Tail) : Lexeme :=
  ⟨value, match writtenQuote? value tail with
    | some q => .quoted q
    | none => .bare⟩

theorem source_writtenWord (value : String) (tail : Option Tail) :
    (writtenWord value tail).source
      = match writtenQuote? value tail with
        | some q => enclose q value
        | none => value := by
  unfold writtenWord
  cases writtenQuote? value tail <;> rfl

/-- A tail without a quote does not ask for one. -/
theorem tailQuote?_of_bare (value : String) {tail : Tail} (h : tail.quote = none) :
    tailQuote? value (some tail) = none := by
  simp [tailQuote?, h]

/-! ## Behind the word -/

theorem endsWith_space_iff {s : String} : endsWith " " s = true ↔ s.toList.getLast? = some ' ' := by
  have hspace : " ".toList = [' '] := rfl
  rw [endsWith, hspace, List.isSuffixOf_iff_suffix, List.singleton_suffix_iff_getLast?_eq_some]

/-- A value that is gone on with, or that ends in a backslash, does not end in a space. -/
theorem getLast?_of_unfinished {value : String}
    (h : openEnded value = true ∨ endsEscaped value = true) :
    ∃ c, value.toList.getLast? = some c ∧ c ≠ ' ' := by
  rcases h with h | h
  · unfold openEnded at h
    cases hlast : value.toList.getLast? with
    | none => simp [hlast] at h
    | some c =>
      refine ⟨c, rfl, ?_⟩
      rintro rfl
      simp [hlast] at h
  · unfold endsEscaped at h
    rw [← List.head?_reverse]
    cases hrev : value.toList.reverse with
    | nil => simp [hrev, oddBackslashes] at h
    | cons c cs =>
      refine ⟨c, rfl, ?_⟩
      rintro rfl
      simp [hrev, oddBackslashes] at h

theorem dropLast_enclose (q : Quote) (value : String) :
    dropLast (enclose q value) = String.singleton q.char ++ value := by
  rw [← String.toList_inj]
  rw [dropLast, enclose, String.toList_ofList, String.toList_append, String.toList_singleton,
    List.dropLast_concat]

/-- Such a value is the end of what is written for it. -/
theorem render_unfinished {value : String} (tail : Option Tail)
    (h : openEnded value = true ∨ endsEscaped value = true) :
    ∃ front, render value tail true = front ++ value := by
  unfold render
  cases hopen : openEnded value with
  | true =>
    simp only [Bool.not_true, Bool.and_false, Bool.false_and, Bool.false_eq_true, ↓reduceIte]
    split
    · exact ⟨_, rfl⟩
    · split
      · next hneeds =>
        rw [Bool.and_eq_true] at hneeds
        rw [quote, if_pos hneeds.1, dropLast_enclose]
        exact ⟨_, rfl⟩
      · exact ⟨"", String.empty_append.symm⟩
  | false =>
    have hescaped : endsEscaped value = true := h.resolve_left (by simp [hopen])
    have htail : tailQuote? value tail = none := by simp [tailQuote?, hescaped]
    refine ⟨"", ?_⟩
    simp [hescaped, htail]

/-- A value that is complete is written as a word with a space behind it. -/
theorem render_finished {value : String} {tail : Option Tail} (hopen : openEnded value = false)
    (hescaped : endsEscaped value = false) :
    render value tail true = (writtenWord value tail).source ++ " " := by
  rw [source_writtenWord, writtenQuote?, render, hopen, hescaped]
  cases tailQuote? value tail with
  | some q => rfl
  | none =>
    cases hneeds : needsQuotes value with
    | true => simp [quote, hneeds]
    | false => simp

/-- **A candidate with a space behind it is a complete word.** -/
theorem render_of_space {value : String} {tail : Option Tail}
    (h : endsWith " " (render value tail true) = true) :
    openEnded value = false ∧ endsEscaped value = false ∧
      render value tail true = (writtenWord value tail).source ++ " " := by
  have hfinished : ¬ (openEnded value = true ∨ endsEscaped value = true) := by
    intro hunfinished
    obtain ⟨front, hrender⟩ := render_unfinished tail hunfinished
    obtain ⟨c, hlast, hne⟩ := getLast?_of_unfinished hunfinished
    rw [endsWith_space_iff, hrender, String.toList_append, List.getLast?_append, hlast] at h
    exact hne (Option.some.inj h)
  rw [not_or, Bool.not_eq_true, Bool.not_eq_true] at hfinished
  obtain ⟨hopen, hescaped⟩ := hfinished
  exact ⟨hopen, hescaped, render_finished hopen hescaped⟩

/-! ## Reading the word back -/

/-- A word that is put into the line is read back as that word, unless it holds the quote that
it is written in. -/
theorem wellFormed_writtenWord_iff {value : String} {tail : Option Tail}
    (hescaped : endsEscaped value = false) :
    (writtenWord value tail).WellFormed
      ↔ ∀ q ∈ writtenQuote? value tail, quotesHeld q.char value.toList = true := by
  unfold writtenWord
  cases hquote : writtenQuote? value tail with
  | some q => simp [Lexeme.WellFormed, hescaped]
  | none =>
    rw [writtenQuote?, Option.or_eq_none_iff] at hquote
    have hneeds : needsQuotes value = false :=
      Bool.eq_false_iff.mpr fun hneeds => by simp [hneeds] at hquote
    exact ⟨fun _ => by simp, fun _ => Lexeme.wellFormed_bare hneeds⟩

/-- A word is broken only if it has its own quote and another character. -/
theorem exists_ne_of_broken {value : String} {tail : Option Tail} {q : Quote}
    (hquote : writtenQuote? value tail = some q)
    (hbroken : quotesHeld q.char value.toList = false) : ∃ c ∈ value.toList, c ≠ q.char := by
  have hmem : q.char ∈ value.toList := by
    refine Decidable.byContradiction fun hnot => ?_
    simp [quotesHeld_of_not_mem hnot] at hbroken
  rw [writtenQuote?, Option.or_eq_some_iff] at hquote
  rcases hquote with htail | ⟨-, hpreferred⟩
  · -- the quote that has been typed is kept for values without it
    rw [tailQuote?, Option.filter_eq_some_iff] at htail
    simp [hmem] at htail
  · simp only [Option.ite_none_right_eq_some, Option.some.injEq] at hpreferred
    obtain ⟨-, rfl⟩ := hpreferred
    simp only [preferredQuote, Bool.and_eq_true, Bool.not_eq_true', List.contains_eq_mem,
      decide_eq_true_eq, decide_eq_false_iff_not] at hmem ⊢
    split at hmem
    · next hdouble => exact absurd hmem hdouble.2
    · next hsingle =>
      rw [not_and, Decidable.not_not] at hsingle
      refine ⟨'"', hsingle hmem, ?_⟩
      rw [if_neg (fun hdouble => hdouble.2 (hsingle hmem))]
      decide

end Courier
