/-
Courier.Proofs.Completion.Rereading — what is written for a value is read as that value.

A candidate is written in one of four ways: between the quote that has been typed, between quotes
that it needs, with a quote in front only because more is to follow, or bare. The first three need
a quote that is not in the value, and with at most one kind of quote in the value there always is
one (`not_mem_of_writtenQuote?`). A value that ends in a backslash that holds on to what follows is
written bare, and nothing is put behind it (`render_eq`).

So the reader of unfinished lines finds one word. With a space behind it, it is a token
(`splitTail_word`), and otherwise the tail: that of the whole word (`tokenizeUnfinished_source`),
or of a quote that is still open (`tokenizeUnfinished_open`).
-/
import Courier.Proofs.Completion.Rendering
import Courier.Proofs.Line.Quoting
import Courier.Proofs.Line.Retyping

namespace Courier

open Courier.Line Courier.Text

/-! ## Lines that are one word -/

/-- A well-formed word with nothing behind it is the tail. -/
theorem Line.tokenizeUnfinished_source {x : Lexeme} (hx : x.WellFormed) :
    tokenizeUnfinished x.source = ([], some (x.at 0).tail) := by
  have hread := tokenizeUnfinished_eq_reopen x.source
  rw [tokenize_source hx] at hread
  rw [hread, reopen_end]
  simp [Lexeme.at]

/-- With a space behind it, it is a token, unless it would hold on to the space. -/
theorem Line.tokenizeUnfinished_source_space {x : Lexeme} (hx : x.WellFormed)
    (hends : endsEscaped x.text = false) :
    tokenizeUnfinished (x.source ++ " ") = ([x.at 0], none) := by
  have hread := splitTail_word hx hends 0
  rw [Nat.zero_add] at hread
  rw [tokenizeUnfinished, ← String.length_toList, String.toList_append]
  exact hread

/-- Behind a quote that is not closed everything is the tail. -/
theorem Line.tokenizeUnfinished_open {q : Quote} {value : String} (h : q.char ∉ value.toList) :
    tokenizeUnfinished (String.singleton q.char ++ value)
      = ([], some { text := value, start := 0, quote := some q }) := by
  have hlength : (String.singleton q.char ++ value).length = 0 + 1 + value.toList.length := by
    rw [String.length_append, String.length_singleton, String.length_toList, Nat.zero_add]
  rw [tokenizeUnfinished, hlength, String.toList_append, String.toList_singleton,
    List.singleton_append, pieces_unclosed (quotesHeld_of_not_mem h)]
  simp [splitTail, Piece.tail]

theorem Line.text_tail (t : Token) : t.tail.text = t.text := by
  unfold Token.tail
  split <;> rfl

/-! ## How a value is written -/

/-- The quote that a value is written with is not in it, if one of the two is not. -/
theorem not_mem_of_writtenQuote? {value : String} {tail : Option Tail} {q : Quote}
    (hquotes : ¬ ('\'' ∈ value.toList ∧ '"' ∈ value.toList))
    (h : writtenQuote? value tail = some q) : q.char ∉ value.toList := by
  rw [writtenQuote?, Option.or_eq_some_iff] at h
  rcases h with htail | ⟨-, hneeds⟩
  · rw [tailQuote?, Option.filter_eq_some_iff] at htail
    intro hmem
    simp [hmem] at htail
  · simp only [Option.ite_none_right_eq_some, Option.some.injEq] at hneeds
    obtain ⟨-, rfl⟩ := hneeds
    exact preferredQuote_not_mem hquotes

/-- A value that is written between quotes does not end in a backslash that would hold on to the
closing one. -/
theorem endsEscaped_of_writtenQuote? {value : String} {tail : Option Tail} {q : Quote}
    (hends : ¬ (needsQuotes value = true ∧ endsEscaped value = true))
    (h : writtenQuote? value tail = some q) : endsEscaped value = false := by
  rw [writtenQuote?, Option.or_eq_some_iff] at h
  rcases h with htail | ⟨-, hneeds⟩
  · rw [tailQuote?, Option.filter_eq_some_iff] at htail
    simp only [Bool.and_eq_true, Bool.not_eq_true'] at htail
    exact htail.2.2
  · simp only [Option.ite_none_right_eq_some] at hneeds
    exact Bool.eq_false_iff.mpr fun hescaped => hends ⟨hneeds.1, hescaped⟩

/-- Whether a space is put behind a value. -/
def SpaceFollows (value : String) (space : Bool) : Prop :=
  space = true ∧ openEnded value = false ∧ endsEscaped value = false

instance (value : String) (space : Bool) : Decidable (SpaceFollows value space) :=
  inferInstanceAs (Decidable (_ ∧ _ ∧ _))

theorem render_eq {value : String}
    (hends : ¬ (needsQuotes value = true ∧ endsEscaped value = true)) (tail : Option Tail)
    (space : Bool) :
    render value tail space
      = (match writtenQuote? value tail with
          | some q => if openEnded value then String.singleton q.char ++ value else enclose q value
          | none => value) ++ (if SpaceFollows value space then " " else "") := by
  have hspace (text : String) :
      (if (space && !openEnded value && !endsEscaped value) = true then text ++ " " else text)
        = text ++ (if SpaceFollows value space then " " else "") := by
    by_cases h : SpaceFollows value space
    · have hsome : (space && !openEnded value && !endsEscaped value) = true := by
        simpa [SpaceFollows, and_assoc] using h
      rw [if_pos hsome, if_pos h]
    · have hnone : ¬ (space && !openEnded value && !endsEscaped value) = true := by
        simpa [SpaceFollows, and_assoc] using h
      rw [if_neg hnone, if_neg h, String.append_empty]
  have hneeds : (needsQuotes value && !endsEscaped value) = needsQuotes value := by
    cases hneeds : needsQuotes value with
    | false => rfl
    | true =>
      have hescaped : endsEscaped value = false :=
        Bool.eq_false_iff.mpr fun hescaped => hends ⟨hneeds, hescaped⟩
      rw [hescaped]
      rfl
  simp only [render, hspace, hneeds, writtenQuote?]
  cases tailQuote? value tail with
  | some q => rfl
  | none =>
    cases hquoted : needsQuotes value with
    | false => simp
    | true => simp [quote, hquoted, dropLast_enclose]

/-! ## Reading it again -/

/-- A value that is gone on with ends in one of three characters. -/
theorem openEnded_iff {value : String} :
    openEnded value = true ↔ ∃ c ∈ value.toList.getLast?, c = '-' ∨ c = '=' ∨ c = ':' := by
  unfold openEnded
  cases value.toList.getLast? with
  | none => simp
  | some c => simp [or_assoc]

/-- **What is written for a value is read as that value.** Let not both quotes be in a value, and
let it not end in a backslash that holds on to what follows if it needs quotes. However the last
word of the line was begun, what is written for the value is read as one word with the value as
its text. This is a complete token if there is a space behind it, which is put there if it is asked
for, unless the value is to be gone on with or ends in such a backslash. Otherwise it is the tail,
and for a value that ends in a dash, a sign or a colon no quote of it is closed. -/
theorem rendered_value_reads_back {value : String}
    (hquotes : ¬ ('\'' ∈ value.toList ∧ '"' ∈ value.toList))
    (hends : ¬ (needsQuotes value = true ∧ endsEscaped value = true)) (tail : Option Tail)
    (space : Bool) :
    (SpaceFollows value space → render value tail space = render value tail false ++ " " ∧
      ∃ t, tokenizeUnfinished (render value tail space) = ([t], none) ∧ t.text = value) ∧
    (¬ SpaceFollows value space → render value tail space = render value tail false ∧
      ∃ t, tokenizeUnfinished (render value tail space) = ([], some t) ∧ t.text = value ∧
        ((∃ c ∈ value.toList.getLast?, c = '-' ∨ c = '=' ∨ c = ':') → t.closed = false)) := by
  have hword (hescaped : endsEscaped value = false) : (writtenWord value tail).WellFormed :=
    (wellFormed_writtenWord_iff hescaped).mpr fun q hq =>
      quotesHeld_of_not_mem (not_mem_of_writtenQuote? hquotes hq)
  have hrender := render_eq hends tail
  constructor
  · intro hspaced
    have hplain : ¬ SpaceFollows value false := fun h => Bool.false_ne_true h.1
    refine ⟨?_, ?_⟩
    · rw [hrender space, hrender false, if_pos hspaced, if_neg hplain, String.append_empty]
    · obtain ⟨rfl, hopen, hescaped⟩ := hspaced
      rw [render_finished hopen hescaped]
      exact ⟨_, tokenizeUnfinished_source_space (hword hescaped) hescaped, rfl⟩
  · intro hspaced
    have hplain : ¬ SpaceFollows value false := fun h => Bool.false_ne_true h.1
    rw [hrender space, hrender false, if_neg hspaced, if_neg hplain, String.append_empty,
      ← openEnded_iff]
    refine ⟨rfl, ?_⟩
    cases hquote : writtenQuote? value tail with
    | none =>
      have hneeds : needsQuotes value = false := by
        rw [writtenQuote?, Option.or_eq_none_iff] at hquote
        simpa using hquote.2
      have hread := tokenizeUnfinished_source (Lexeme.wellFormed_bare hneeds)
      exact ⟨_, hread, rfl, fun _ => rfl⟩
    | some q =>
      cases hopen : openEnded value with
      | true =>
        exact ⟨_, tokenizeUnfinished_open (not_mem_of_writtenQuote? hquotes hquote), rfl,
          fun _ => rfl⟩
      | false =>
        have hread := tokenizeUnfinished_source (hword (endsEscaped_of_writtenQuote? hends hquote))
        rw [source_writtenWord, hquote] at hread
        exact ⟨_, hread, text_tail _, fun h => absurd h Bool.false_ne_true⟩

/-- The quote that has been typed is in the values, so they are written between the other one;
the second value is to be gone on with. -/
theorem rendered_value_reads_back_requoted :
    let tail : Option Tail := some { text := "it", start := 4, quote := some .single }
    (¬ ('\'' ∈ "it's here".toList ∧ '"' ∈ "it's here".toList) ∧
      ¬ (needsQuotes "it's here" = true ∧ endsEscaped "it's here" = true) ∧
      SpaceFollows "it's here" true ∧ render "it's here" tail true = "\"it's here\" " ∧
      ∃ t, tokenizeUnfinished (render "it's here" tail true) = ([t], none) ∧
        t.text = "it's here") ∧
    ¬ ('\'' ∈ "it's a=".toList ∧ '"' ∈ "it's a=".toList) ∧
      ¬ (needsQuotes "it's a=" = true ∧ endsEscaped "it's a=" = true) ∧
      ¬ SpaceFollows "it's a=" true ∧ render "it's a=" tail true = "\"it's a=" ∧
      ∃ t, tokenizeUnfinished (render "it's a=" tail true) = ([], some t) ∧
        t.text = "it's a=" ∧ t.closed = false := by
  intro tail
  constructor
  · have hquotes : ¬ ('\'' ∈ "it's here".toList ∧ '"' ∈ "it's here".toList) := by decide
    have hends : ¬ (needsQuotes "it's here" = true ∧ endsEscaped "it's here" = true) := by decide
    have hspaced : SpaceFollows "it's here" true := by decide
    obtain ⟨-, hread⟩ := (rendered_value_reads_back hquotes hends tail true).1 hspaced
    exact ⟨hquotes, hends, hspaced, by decide, hread⟩
  · have hquotes : ¬ ('\'' ∈ "it's a=".toList ∧ '"' ∈ "it's a=".toList) := by decide
    have hends : ¬ (needsQuotes "it's a=" = true ∧ endsEscaped "it's a=" = true) := by decide
    have hspaced : ¬ SpaceFollows "it's a=" true := by decide
    obtain ⟨-, t, hread, htext, hclosed⟩ :=
      (rendered_value_reads_back hquotes hends tail true).2 hspaced
    have hopen : ∃ c ∈ "it's a=".toList.getLast?, c = '-' ∨ c = '=' ∨ c = ':' :=
      ⟨'=', rfl, .inr (.inl rfl)⟩
    exact ⟨hquotes, hends, hspaced, by decide, t, hread, htext, hclosed hopen⟩

end Courier
