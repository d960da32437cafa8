/-
Courier.Proofs.Http.Template — which names a text needs, and when two mappings fill it alike.

A character that can stand in no placeholder (`isInert`) cuts a template in two: the parts of
the whole are those of what is before it, the character, and those of what is behind it
(`parts_append_inert`). So the names of a header are those of its key and those of its value
(`placeholderNames_headerPair`), because colons and blanks are inert.

What is put into a text depends on its own names only (`substitute_congr`). If all of them
have values then every placeholder is filled (`substitute_eq_fillEvery`), and a text without
placeholders stays what it is (`fillEvery_eq_self`). The names of a text or a request are
listed in ascending order, each once (`pairwise_ascending`).
-/
import Courier.Http.Header
import Courier.Http.Template
import Courier.Proofs.Text.Parts
import Mathlib.Data.List.Induction
import Mathlib.Data.String.Basic

namespace Courier.Text

/-! ## Names in ascending order -/

theorem mem_insertName {name x : String} {names : List String} :
    x ∈ insertName name names ↔ x = name ∨ x ∈ names := by
  induction names with
  | nil => simp [insertName]
  | cons n ns ih =>
    rw [insertName]
    split
    · simp
    · split
      next hsame => simp [hsame]
      next => simp only [List.mem_cons, ih, or_left_comm]

theorem mem_ascending {x : String} {names : List String} : x ∈ ascending names ↔ x ∈ names := by
  induction names with
  | nil => simp [ascending]
  | cons name names ih =>
    show x ∈ insertName name (ascending names) ↔ _
    rw [mem_insertName, ih, List.mem_cons]

theorem pairwise_insertName {name : String} {names : List String}
    (h : names.Pairwise (· < ·)) : (insertName name names).Pairwise (· < ·) := by
  induction names with
  | nil => exact List.pairwise_singleton _ _
  | cons n ns ih =>
    obtain ⟨hn, hns⟩ := List.pairwise_cons.1 h
    rw [insertName]
    split
    next hbefore =>
      refine List.pairwise_cons.2 ⟨?_, h⟩
      intro x hx
      rcases List.mem_cons.1 hx with rfl | hx
      · exact hbefore
      · exact hbefore.trans (hn x hx)
    next hbefore =>
      split
      next => exact h
      next hne =>
        refine List.pairwise_cons.2 ⟨?_, ih hns⟩
        intro x hx
        rcases mem_insertName.1 hx with rfl | hx
        · exact lt_of_le_of_ne (not_lt.1 hbefore) (Ne.symm hne)
        · exact hn x hx

/-- Names in ascending order are strictly ascending, so none is there twice. -/
theorem pairwise_ascending (names : List String) : (ascending names).Pairwise (· < ·) := by
  induction names with
  | nil => exact List.Pairwise.nil
  | cons name names ih => exact pairwise_insertName ih

end Courier.Text

namespace Courier.Http

open Courier.Text

/-! ## Characters that stand in no placeholder -/

/-- Whether a character can stand in no placeholder. -/
def isInert (c : Char) : Bool := c != '\x7b' && c != '\x7d' && !isNameChar c

theorem isInert_iff {c : Char} :
    isInert c = true ↔ c ≠ '\x7b' ∧ c ≠ '\x7d' ∧ isNameChar c = false := by
  simp [isInert, and_assoc]

/-- Braces and the characters of names are no blanks. -/
theorem isInert_of_isBlank {c : Char} (h : isBlank c = true) : isInert c = true := by
  rw [isInert_iff]
  refine ⟨by rintro rfl; exact absurd h (by decide), by rintro rfl; exact absurd h (by decide), ?_⟩
  have hval : c.val.toNat = c.toNat := rfl
  simp only [isBlank, Bool.or_eq_true, Bool.and_eq_true, decide_eq_true_eq, beq_iff_eq] at h
  simp only [isNameChar, isNameStart, Bool.or_eq_false_iff, Bool.and_eq_false_iff,
    decide_eq_false_iff_not, Char.le_def, UInt32.le_iff_toNat_le, beq_eq_false_iff_ne, ne_eq,
    Char.ext_iff, ← UInt32.toNat_inj, hval]
  refine ⟨⟨⟨⟨?_, ?_⟩, ?_⟩, ?_⟩, ?_⟩ <;> simp <;> omega

theorem hole?_append_inert {c : Char} (hc : isInert c = true) (xs ys : List Char) :
    hole? (xs ++ c :: ys) = (hole? xs).map fun found => (found.1, found.2 ++ c :: ys) := by
  obtain ⟨hopen, hclose, hname⟩ := isInert_iff.1 hc
  have hstart : isNameStart c = false := by
    simp only [isNameChar, Bool.or_eq_false_iff] at hname
    exact hname.1.1
  match xs with
  | [] => simp [hole?, hopen]
  | [x] =>
    by_cases hx : x = '\x7b'
    · simp [hx, hole?, hstart]
    · simp [hole?, hx]
  | x :: y :: zs =>
    by_cases hx : x = '\x7b'
    · subst hx
      simp only [List.cons_append, hole?]
      cases isNameStart y with
      | false => simp
      | true =>
        -- the name ends in front of the inert character, if not before
        have hdrop : (zs ++ c :: ys).dropWhile isNameChar = zs.dropWhile isNameChar ++ c :: ys := by
          rw [List.dropWhile_append]
          split
          next hempty => simp [List.isEmpty_iff.1 hempty, hname]
          next => rfl
        have htake : (zs ++ c :: ys).takeWhile isNameChar = zs.takeWhile isNameChar := by
          rw [List.takeWhile_append]
          split
          next hall => simp [hname, List.IsPrefix.eq_of_length (List.takeWhile_prefix _) hall]
          next => rfl
        rw [hdrop, htake]
        cases zs.dropWhile isNameChar with
        | nil => simp [hclose]
        | cons z rest => by_cases hz : z = '\x7d' <;> simp [hz]
    · simp [hole?, hx]

@[simp]
theorem parts_nil : parts [] = [] := by
  rw [parts]

theorem parts_hole {cs name rest : List Char} (h : hole? cs = some (name, rest)) :
    parts cs = .hole name :: parts rest := by
  cases cs with
  | nil => simp [hole?] at h
  | cons c cs =>
    rw [parts]
    split
    next name' rest' h' =>
      rw [h, Option.some.injEq, Prod.mk.injEq] at h'
      rw [h'.1, h'.2]
    next h' => simp [h] at h'

theorem parts_char {c : Char} {cs : List Char} (h : hole? (c :: cs) = none) :
    parts (c :: cs) = .char c :: parts cs := by
  rw [parts]
  split
  next h' => simp [h] at h'
  next => rfl

/-- An inert character cuts a template in two. -/
theorem parts_append_inert {c : Char} (hc : isInert c = true) (xs ys : List Char) :
    parts (xs ++ c :: ys) = parts xs ++ .char c :: parts ys := by
  induction xs using parts.induct with
  | case1 =>
    have hwhole : hole? (c :: ys) = none := by simpa [hole?] using hole?_append_inert hc [] ys
    simp [parts_char hwhole]
  | case2 x xs name rest hhole _ ih =>
    have hwhole : hole? (x :: xs ++ c :: ys) = some (name, rest ++ c :: ys) := by
      rw [hole?_append_inert hc, hhole]
      rfl
    rw [parts_hole hhole, parts_hole hwhole, ih, List.cons_append]
  | case3 x xs hhole ih =>
    have hwhole : hole? (x :: (xs ++ c :: ys)) = none := by
      rw [← List.cons_append, hole?_append_inert hc, hhole]
      rfl
    rw [List.cons_append, parts_char hhole, parts_char hwhole, ih, List.cons_append]

/-! ## The names of a text -/

/-- The names of the placeholders among characters. -/
def namesIn (cs : List Char) : List String := (parts cs).filterMap Part.name?

theorem namesIn_append_inert {c : Char} (hc : isInert c = true) (xs ys : List Char) :
    namesIn (xs ++ c :: ys) = namesIn xs ++ namesIn ys := by
  rw [namesIn, parts_append_inert hc, List.filterMap_append]
  rfl

theorem namesIn_stripChars (cs : List Char) : namesIn (stripChars cs) = namesIn cs := by
  have hstart (cs : List Char) : namesIn (cs.dropWhile isBlank) = namesIn cs := by
    induction cs with
    | nil => rfl
    | cons c cs ih =>
      rw [List.dropWhile_cons]
      split
      next hc =>
        have hcut := namesIn_append_inert (isInert_of_isBlank hc) [] cs
        rw [ih]
        simpa [namesIn] using hcut.symm
      next => rfl
  have hend (cs : List Char) : namesIn (stripEndChars cs) = namesIn cs := by
    rw [stripEndChars]
    induction cs using List.reverseRecOn with
    | nil => rfl
    | append_singleton cs c ih =>
      rw [List.reverse_append, List.reverse_singleton, List.singleton_append, List.dropWhile_cons]
      split
      next hc =>
        rw [ih, namesIn_append_inert (isInert_of_isBlank hc)]
        simp [namesIn]
      next => simp
  rw [stripChars, hend, hstart]

theorem placeholderNames_strip (s : String) : placeholderNames (strip s) = placeholderNames s := by
  have h := namesIn_stripChars s.toList
  simpa [namesIn, placeholderNames, strip] using h

/-- The names of a header are those of its key and those of its value. -/
theorem placeholderNames_headerPair (h : String) :
    placeholderNames h =
      placeholderNames (headerPair h).1 ++ placeholderNames (headerPair h).2 := by
  rw [headerPair, placeholderNames_strip, placeholderNames_strip]
  rcases hcut : cut ':' h with ⟨key, _ | value⟩
  · obtain ⟨rfl, -⟩ := cut_eq_none_iff.1 hcut
    simp [placeholderNames]
  · obtain ⟨-, hwhole⟩ := cut_eq_some_iff.1 hcut
    rw [Option.getD_some, placeholderNames, hwhole]
    exact namesIn_append_inert (by decide) key.toList value.toList

/-! ## Filling -/

/-- What is put into a text depends on the values of its own names only. -/
theorem substitute_congr {s : String} {values values' : List (String × String)}
    (h : ∀ name ∈ placeholderNames s, values.lookup name = values'.lookup name) :
    substitute s values = substitute s values' := by
  have hparts : ∀ p ∈ parts s.toList, p.fill values = p.fill values' := by
    intro p hp
    cases p with
    | char c => rfl
    | hole name =>
      have hname := h (String.ofList name) (List.mem_filterMap.2 ⟨_, hp, rfl⟩)
      simp only [Part.fill, hname]
  rw [substitute, substitute, List.flatMap_congr hparts]

/-- A piece with the value of its name in its place. -/
def Part.valued (value : String → String) : Part → List Char
  | .char c => [c]
  | .hole name => (value (String.ofList name)).toList

/-- A text with the value of its name in the place of every placeholder. -/
def fillEvery (value : String → String) (s : String) : String :=
  String.ofList ((parts s.toList).flatMap (Part.valued value))

/-- Where every name has a value, no placeholder is left. -/
theorem substitute_eq_fillEvery {s : String} {values : List (String × String)}
    {value : String → String}
    (h : ∀ name ∈ placeholderNames s, values.lookup name = some (value name)) :
    substitute s values = fillEvery value s := by
  have hparts : ∀ p ∈ parts s.toList, p.fill values = p.valued value := by
    intro p hp
    cases p with
    | char c => rfl
    | hole name =>
      have hname := h (String.ofList name) (List.mem_filterMap.2 ⟨_, hp, rfl⟩)
      simp only [Part.fill, Part.valued, hname]
  rw [substitute, fillEvery, List.flatMap_congr hparts]

/-- A placeholder is read off what it is written as. -/
theorem hole?_eq_some {cs name rest : List Char} (h : hole? cs = some (name, rest)) :
    cs = (Part.hole name).source ++ rest := by
  unfold hole? at h
  split at h
  next c cs =>
    split at h
    next =>
      split at h
      next r hr =>
        cases h
        have hcut := List.takeWhile_append_dropWhile (p := isNameChar) (l := cs)
        rw [hr] at hcut
        simp [Part.source, hcut]
      next => exact nomatch h
    next => exact nomatch h
  next => exact nomatch h

/-- The parts of a text are all of it. -/
theorem flatMap_source_parts (cs : List Char) : (parts cs).flatMap Part.source = cs := by
  induction cs using parts.induct with
  | case1 => rw [parts_nil, List.flatMap_nil]
  | case2 c cs name rest hhole _ ih =>
    rw [parts_hole hhole, List.flatMap_cons, ih, hole?_eq_some hhole]
  | case3 c cs hhole ih =>
    rw [parts_char hhole, List.flatMap_cons, ih]
    rfl

/-- A text without placeholders is what it was. -/
theorem fillEvery_eq_self {s : String} (h : placeholderNames s = [])
    (value : String → String) : fillEvery value s = s := by
  have hparts : ∀ p ∈ parts s.toList, p.valued value = p.source := by
    intro p hp
    cases p with
    | char c => rfl
    | hole name =>
      have hname : String.ofList name ∈ placeholderNames s := List.mem_filterMap.2 ⟨_, hp, rfl⟩
      rw [h] at hname
      exact nomatch hname
  rw [fillEvery, List.flatMap_congr hparts, flatMap_source_parts, String.ofList_toList]

end Courier.Http
