/-
Courier.Proofs.Http.Header — one header in all its forms.

A header is taken apart in four places: when it is accepted (`isHeader`), stored
(`storedHeader?`), compared while it is typed (`looseHeader`) and sent
(`headerPair`). All of them cut it at its first colon, and `storedHeader?_eq_some_iff`
says what that means for a stored form without the functions in between.

A stored form is a key and a value that are written as a header again, and the key has
no colon (`cut_writeHeader`). So it is cut where it was put together, and storing it
again, comparing it and sending it give back the key and the value that were typed.
-/
import Courier.Http.Header
import Courier.Proofs.Text.Parts

namespace Courier.Http

open Courier.Text

/-! ## What is accepted -/

section
variable {h stored : String}

/-- A header that can be stored is a key that is not blank and a value, around its first colon. -/
theorem storedHeader?_eq_some_iff :
    storedHeader? h = some stored ↔
      ∃ key value, cut ':' h = (key, some value) ∧ strip key ≠ "" ∧
        stored = writeHeader (strip key) (strip value) := by
  unfold storedHeader?
  rcases hcut : cut ':' h with ⟨key, _ | value⟩
  · simp
  · by_cases hblank : strip key = ""
    · simp [hblank]
    · simp only [String.isEmpty_iff, hblank, if_false, Option.some.injEq, Prod.mk.injEq]
      constructor
      · rintro rfl
        exact ⟨key, value, ⟨rfl, rfl⟩, hblank, rfl⟩
      · rintro ⟨_, _, ⟨rfl, rfl⟩, -, rfl⟩
        rfl

/-- What is accepted as a header is what can be stored. -/
theorem isHeader_iff : isHeader h = true ↔ ∃ stored, storedHeader? h = some stored := by
  unfold isHeader storedHeader?
  rcases hcut : cut ':' h with ⟨key, _ | value⟩
  · simp
  · by_cases hblank : strip key = "" <;> simp [hblank]

end

/-! ## A key and a value, written as a header -/

section
variable {key value : String}

theorem cut_writeHeader (hkey : ':' ∉ key.toList) :
    cut ':' (writeHeader key value) = (key, some (" " ++ value)) :=
  cut_eq_some_iff.2 ⟨hkey, by simp [writeHeader]⟩

theorem strip_space_append (s : String) : strip (" " ++ s) = strip s :=
  strip_blank_append (c := ' ') (by decide) s

theorem storedHeader?_writeHeader (hkey : ':' ∉ key.toList) (hblank : strip key ≠ "") :
    storedHeader? (writeHeader key value) = some (writeHeader (strip key) (strip value)) :=
  storedHeader?_eq_some_iff.2
    ⟨key, " " ++ value, cut_writeHeader hkey, hblank, by rw [strip_space_append]⟩

theorem headerPair_writeHeader (hkey : ':' ∉ key.toList) :
    headerPair (writeHeader key value) = (strip key, strip value) := by
  simp only [headerPair, cut_writeHeader hkey, Option.getD_some, strip_space_append]

end

/-! ## The stored form -/

section
variable {h stored : String}

/-- The key and the value of a stored form, which are stripped already. -/
theorem exists_key_of_stored (hstored : storedHeader? h = some stored) :
    ∃ before after, h = before ++ ":" ++ after ∧ ':' ∉ before.toList ∧ strip before ≠ "" ∧
      stored = writeHeader (strip before) (strip after) ∧ ':' ∉ (strip before).toList := by
  obtain ⟨before, after, hcut, hblank, rfl⟩ := storedHeader?_eq_some_iff.1 hstored
  obtain ⟨hfirst, hwhole⟩ := cut_eq_some_iff.1 hcut
  refine ⟨before, after, ?_, hfirst, hblank, rfl, fun hmem => hfirst (strip_subset before hmem)⟩
  rw [← String.toList_inj, hwhole]
  simp

/-- Storing a stored form leaves it as it is. -/
theorem storedHeader?_stored (hstored : storedHeader? h = some stored) :
    storedHeader? stored = some stored := by
  obtain ⟨before, after, -, -, hblank, rfl, hkey⟩ := exists_key_of_stored hstored
  rw [storedHeader?_writeHeader hkey (by rwa [strip_strip]), strip_strip, strip_strip]

/-- Completion compares a header by its stored form, if it has one. -/
theorem looseHeader_eq (hstored : storedHeader? h = some stored) : looseHeader h = stored := by
  obtain ⟨key, value, hcut, -, rfl⟩ := storedHeader?_eq_some_iff.1 hstored
  rw [looseHeader, hcut]

/-- A stored form is sent as the key and the value that were typed. -/
theorem headerPair_stored (hstored : storedHeader? h = some stored) :
    ∃ before after, h = before ++ ":" ++ after ∧ ':' ∉ before.toList ∧
      headerPair stored = (strip before, strip after) := by
  obtain ⟨before, after, hwhole, hfirst, -, rfl, hkey⟩ := exists_key_of_stored hstored
  refine ⟨before, after, hwhole, hfirst, ?_⟩
  rw [headerPair_writeHeader hkey, strip_strip, strip_strip]

end

end Courier.Http
