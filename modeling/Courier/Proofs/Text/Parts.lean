/-
Courier.Proofs.Text.Parts — the parts of a text that is cut, and a text without its blanks.

A text is cut at the first of a character, or it has none and stays whole.
`cut_eq_some_iff` and `cut_eq_none_iff` say so without the recursion, for every
character: headers, pairs, words and names are all cut in this way.

What `strip` leaves is part of what was there (`strip_subset`) and has no blanks
around it, so that nothing is left to be stripped (`strip_strip`).
-/
import Courier.Text.Basic
import Courier.Text.Blank
import Mathlib.Data.List.DropRight

namespace Courier.Text

/-! ## Cutting -/

theorem cutChars_of_not_mem {c : Char} {s : List Char} (h : c ∉ s) : cutChars c s = (s, none) := by
  induction s with
  | nil => rfl
  | cons x xs ih =>
    rw [List.mem_cons, not_or] at h
    rw [cutChars, if_neg (Ne.symm h.1), ih h.2]

theorem cutChars_append_cons {c : Char} {s : List Char} (h : c ∉ s) (rest : List Char) :
    cutChars c (s ++ c :: rest) = (s, some rest) := by
  induction s with
  | nil => simp [cutChars]
  | cons x xs ih =>
    rw [List.mem_cons, not_or] at h
    rw [List.cons_append, cutChars, if_neg (Ne.symm h.1), ih h.2]

section
variable {c : Char} {s before after : String}

theorem cut_of_not_mem (h : c ∉ s.toList) : cut c s = (s, none) := by
  rw [cut, cutChars_of_not_mem h]
  simp

theorem not_mem_cut_fst (c : Char) (s : String) : c ∉ (cut c s).1.toList := by
  rw [cut, String.toList_ofList]
  exact not_mem_cutChars_fst c s.toList

/-- A text is cut in two at the first of a character. -/
theorem cut_eq_some_iff :
    cut c s = (before, some after) ↔
      c ∉ before.toList ∧ s.toList = before.toList ++ c :: after.toList := by
  constructor
  · intro h
    have hfirst := not_mem_cutChars_fst c s.toList
    have hwhole := cutChars_append c s.toList
    rw [cut] at h
    rcases hcut : cutChars c s.toList with ⟨front, _ | back⟩
    · simp [hcut] at h
    · rw [hcut] at h hfirst hwhole
      obtain ⟨rfl, rfl⟩ : String.ofList front = before ∧ String.ofList back = after := by
        simpa using h
      simpa using ⟨hfirst, hwhole⟩
  · rintro ⟨hfirst, hwhole⟩
    rw [cut, hwhole, cutChars_append_cons hfirst]
    simp

/-- A text stays whole if the character does not occur. -/
theorem cut_eq_none_iff : cut c s = (before, none) ↔ before = s ∧ c ∉ s.toList := by
  constructor
  · intro h
    by_cases hmem : c ∈ s.toList
    · obtain ⟨front, back, hwhole, hfirst⟩ := List.eq_append_cons_of_mem hmem
      rw [cut, hwhole, cutChars_append_cons hfirst] at h
      simp at h
    · rw [cut_of_not_mem hmem, Prod.mk.injEq] at h
      exact ⟨h.1.symm, hmem⟩
  · rintro ⟨rfl, h⟩
    exact cut_of_not_mem h

end

/-! ## Stripping -/

theorem stripEndChars_cons {c : Char} (hc : isBlank c = false) (cs : List Char) :
    stripEndChars (c :: cs) = c :: stripEndChars cs := by
  have hdrop (xs : List Char) :
      (xs ++ [c]).dropWhile isBlank = xs.dropWhile isBlank ++ [c] := by
    rw [List.dropWhile_append]
    split
    next hempty => simp [List.isEmpty_iff.1 hempty, hc]
    next => rfl
  rw [stripEndChars, List.reverse_cons, hdrop, List.reverse_append]
  rfl

/-- There are no blanks around what is left. -/
theorem stripChars_stripChars (cs : List Char) : stripChars (stripChars cs) = stripChars cs := by
  have hstart : (stripChars cs).dropWhile isBlank = stripChars cs := by
    rw [stripChars]
    cases hcs : cs.dropWhile isBlank with
    | nil => rfl
    | cons c rest =>
      have hc : isBlank c = false := by
        have hhead := List.head_dropWhile_not isBlank (l := cs) (by simp [hcs])
        simpa [hcs] using hhead
      rw [stripEndChars_cons hc, List.dropWhile_cons_of_neg (by simp [hc])]
  rw [stripChars, hstart, stripChars]
  exact List.rdropWhile_idempotent isBlank _

theorem strip_strip (s : String) : strip (strip s) = strip s := by
  rw [strip, strip, String.toList_ofList, stripChars_stripChars]

/-- Nothing is left that was not there. -/
theorem strip_subset (s : String) : (strip s).toList ⊆ s.toList := by
  rw [strip, String.toList_ofList, stripChars, stripEndChars]
  intro c hc
  have hfront := (List.dropWhile_suffix isBlank).subset (List.mem_reverse.1 hc)
  exact (List.dropWhile_suffix isBlank).subset (List.mem_reverse.1 hfront)

/-- A blank in front of a text is not seen. -/
theorem strip_blank_append {c : Char} (hc : isBlank c = true) (s : String) :
    strip (String.singleton c ++ s) = strip s := by
  have hchars : (String.singleton c ++ s).toList = c :: s.toList := by simp
  rw [strip, hchars, stripChars, List.dropWhile_cons_of_pos hc]
  rfl

end Courier.Text
