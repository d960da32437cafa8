/-
Courier.Proofs.Store.Lines — what is read back of lines.

Lines are stored as one text and come back as its non-empty lines. So what comes back is that of
each line for itself (`storedLines_eq_flatMap`), and it is what was stored if no line is empty
or has a line break in it, and only then (`storedLines_eq_self_iff`). Headers are stored in this
way. They are never empty, and what breaks a header is a line break in its key or its value.
-/
import Courier.Http.Header
import Courier.Store.Row
import Mathlib.Algebra.BigOperators.Group.List.Basic

namespace Courier

open Courier.Text Courier.Http

/-! ## Lines of a text -/

namespace Text

theorem splitOn_cons_self (c : Char) (s : List Char) : (c :: s).splitOn c = [] :: s.splitOn c :=
  List.splitOn_append_cons_self [] s

/-- A character that does not split belongs to the first part. -/
theorem splitOn_cons_of_ne {c d : Char} (h : d ≠ c) (s : List Char) :
    ∃ first parts, s.splitOn c = first :: parts ∧ (d :: s).splitOn c = (d :: first) :: parts := by
  obtain ⟨first, parts, hparts⟩ := List.exists_cons_of_ne_nil (List.splitOn_ne_nil c s)
  refine ⟨first, parts, hparts, ?_⟩
  rw [List.splitOn_cons_eq_if_modifyHead, if_neg (by simpa using h), hparts, List.modifyHead_cons]

theorem length_splitOn (c : Char) (s : List Char) : (s.splitOn c).length = s.count c + 1 := by
  induction s with
  | nil => simp
  | cons d s ih =>
    by_cases hd : d = c
    · rw [hd, splitOn_cons_self, List.length_cons, ih, List.count_cons_self]
    · obtain ⟨first, parts, hparts, hcons⟩ := splitOn_cons_of_ne hd s
      rw [hcons, List.length_cons, List.count_cons_of_ne hd, ← ih, hparts, List.length_cons]

theorem not_mem_of_mem_splitOn {c : Char} {s part : List Char} (h : part ∈ s.splitOn c) :
    c ∉ part := by
  induction s generalizing part with
  | nil =>
    rw [List.splitOn_nil, List.mem_singleton] at h
    rw [h]
    exact List.not_mem_nil
  | cons d s ih =>
    by_cases hd : d = c
    · rw [hd, splitOn_cons_self] at h
      rcases List.mem_cons.1 h with rfl | h
      · exact List.not_mem_nil
      · exact ih h
    · obtain ⟨first, parts, hparts, hcons⟩ := splitOn_cons_of_ne hd s
      rw [hcons] at h
      rw [hparts] at ih
      rcases List.mem_cons.1 h with rfl | h
      · exact List.not_mem_cons_of_ne_of_not_mem (Ne.symm hd) (ih List.mem_cons_self)
      · exact ih (List.mem_cons_of_mem first h)

/-- Splitting loses nothing but what it splits at. -/
theorem exists_mem_splitOn {c x : Char} {s : List Char} (hx : x ∈ s) (hne : x ≠ c) :
    ∃ part ∈ s.splitOn c, x ∈ part := by
  induction s with
  | nil => exact absurd hx List.not_mem_nil
  | cons d s ih =>
    by_cases hd : d = c
    · have hrest : x ∈ s := (List.mem_cons.1 hx).resolve_left (hd ▸ hne)
      obtain ⟨part, hpart, hmem⟩ := ih hrest
      rw [hd, splitOn_cons_self]
      exact ⟨part, List.mem_cons_of_mem _ hpart, hmem⟩
    · obtain ⟨first, parts, hparts, hcons⟩ := splitOn_cons_of_ne hd s
      rw [hcons]
      rw [hparts] at ih
      rcases List.mem_cons.1 hx with rfl | hrest
      · exact ⟨_, List.mem_cons_self, List.mem_cons_self⟩
      · obtain ⟨part, hpart, hmem⟩ := ih hrest
        rcases List.mem_cons.1 hpart with rfl | hpart
        · exact ⟨_, List.mem_cons_self, List.mem_cons_of_mem d hmem⟩
        · exact ⟨part, List.mem_cons_of_mem _ hpart, hmem⟩

theorem mem_lines {line s : String} (h : line ∈ lines s) : line ≠ "" ∧ '\n' ∉ line.toList := by
  rw [lines, List.mem_filter, splitOn, List.mem_map] at h
  obtain ⟨⟨part, hpart, rfl⟩, hline⟩ := h
  refine ⟨fun hempty => ?_, ?_⟩
  · rw [hempty] at hline
    exact nomatch hline
  · rw [String.toList_ofList]
    exact not_mem_of_mem_splitOn hpart

theorem lines_of_not_mem {s : String} (hne : s ≠ "") (h : '\n' ∉ s.toList) : lines s = [s] := by
  rw [lines, splitOn, List.splitOn_eq_singleton h, List.map_singleton, String.ofList_toList]
  exact List.filter_eq_self.2 (by simpa using hne)

/-- A text that is not all line breaks has a line. -/
theorem lines_ne_nil {s : String} {x : Char} (hx : x ∈ s.toList) (hne : x ≠ '\n') :
    lines s ≠ [] := by
  obtain ⟨part, hpart, hmem⟩ := exists_mem_splitOn hx hne
  refine List.ne_nil_of_mem (a := String.ofList part)
    (List.mem_filter.2 ⟨List.mem_map.2 ⟨part, hpart, rfl⟩, ?_⟩)
  cases part with
  | nil => exact absurd hmem List.not_mem_nil
  | cons c part => simp

/-- Texts that are written below each other are split one after the other. -/
theorem splitOn_append (s t : String) :
    splitOn '\n' (s ++ "\n" ++ t) = splitOn '\n' s ++ splitOn '\n' t := by
  have hchars : (s ++ "\n" ++ t).toList = s.toList ++ '\n' :: t.toList := by simp
  rw [splitOn, hchars, List.splitOn_append_cons_self, List.map_append]
  rfl

/-- The lines of texts that are written below each other are those of each text. -/
theorem lines_append (s t : String) : lines (s ++ "\n" ++ t) = lines s ++ lines t := by
  rw [lines, splitOn_append, List.filter_append]
  rfl

theorem splitOn_joinLines {parts : List String} (h : parts ≠ []) :
    splitOn '\n' (joinLines parts) = parts.flatMap (splitOn '\n') := by
  unfold joinLines
  induction parts with
  | nil => exact absurd rfl h
  | cons part parts ih =>
    cases parts with
    | nil => simp
    | cons next parts =>
      rw [String.intercalate_cons_cons, splitOn_append, ih (List.cons_ne_nil _ _)]
      rfl

theorem length_flatMap_splitOn_cons (part : String) (parts : List String) :
    ((part :: parts).flatMap (splitOn '\n')).length =
      part.toList.count '\n' + 1 + (parts.flatMap (splitOn '\n')).length := by
  rw [List.flatMap_cons, List.length_append, splitOn, List.length_map, length_splitOn]

theorem length_le_flatMap_splitOn (parts : List String) :
    parts.length ≤ (parts.flatMap (splitOn '\n')).length := by
  induction parts with
  | nil => exact Nat.le_refl 0
  | cons part parts ih =>
    rw [length_flatMap_splitOn_cons, List.length_cons]
    omega

/-- The parts of texts are more than the texts if there is a line break in one of these. -/
theorem length_flatMap_splitOn_eq_iff {parts : List String} :
    (parts.flatMap (splitOn '\n')).length = parts.length ↔ ∀ part ∈ parts, '\n' ∉ part.toList := by
  induction parts with
  | nil => exact iff_of_true rfl nofun
  | cons part parts ih =>
    have hle := length_le_flatMap_splitOn parts
    rw [List.forall_mem_cons, ← ih, ← List.count_eq_zero, length_flatMap_splitOn_cons,
      List.length_cons]
    omega

/-- Texts are their own parts if there is nothing to split them at. -/
theorem flatMap_splitOn_eq_self {parts : List String} (h : ∀ part ∈ parts, '\n' ∉ part.toList) :
    parts.flatMap (splitOn '\n') = parts := by
  have hparts : ∀ part ∈ parts, splitOn '\n' part = [part] := by
    intro part hpart
    rw [splitOn, List.splitOn_eq_singleton (h part hpart), List.map_singleton,
      String.ofList_toList]
  rw [List.flatMap_congr hparts, List.flatMap_singleton']

end Text

namespace Store

theorem storedLines_eq_flatMap (written : List String) :
    storedLines written = written.flatMap lines := by
  unfold storedLines joinLines
  induction written with
  | nil => rfl
  | cons line written ih =>
    cases written with
    | nil => simp
    | cons next written =>
      rw [String.intercalate_cons_cons, lines_append, ih]
      rfl

theorem length_le_storedLines {written : List String} (h : ∀ line ∈ written, lines line ≠ []) :
    written.length ≤ (storedLines written).length := by
  rw [storedLines_eq_flatMap, List.length_flatMap]
  refine (List.length_map fun line => (lines line).length).symm.trans_le
    (List.length_le_sum_of_one_le _ fun i hi => ?_)
  obtain ⟨line, hline, rfl⟩ := List.mem_map.1 hi
  exact List.length_pos_iff.2 (h line hline)

/-- Lines are read back as they were written if each of them is a line. -/
theorem storedLines_eq_self_iff {written : List String} :
    storedLines written = written ↔ ∀ line ∈ written, line ≠ "" ∧ '\n' ∉ line.toList := by
  rw [storedLines_eq_flatMap]
  constructor
  · intro h line hline
    rw [← h, List.mem_flatMap] at hline
    obtain ⟨_, -, hline⟩ := hline
    exact mem_lines hline
  · intro h
    have hlines : ∀ line ∈ written, lines line = [line] := fun line hline =>
      lines_of_not_mem (h line hline).1 (h line hline).2
    rw [List.flatMap_congr hlines, List.flatMap_singleton']

end Store

/-! ## Headers -/

namespace Http

theorem colon_mem_writeHeader (key value : String) : ':' ∈ (writeHeader key value).toList := by
  simp [writeHeader]

/-- A header is a line if its key and its value have no line break. -/
theorem writeHeader_line_iff {key value : String} :
    (writeHeader key value ≠ "" ∧ '\n' ∉ (writeHeader key value).toList) ↔
      '\n' ∉ key.toList ∧ '\n' ∉ value.toList := by
  simp [writeHeader]

end Http

end Courier
