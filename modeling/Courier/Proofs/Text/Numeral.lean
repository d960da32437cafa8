/-
Courier.Proofs.Text.Numeral — which numerals are read, and which are misread.

What decimal digits write does not depend on how many they are: `integer?` is the number that a
text writes by decimal digits of any script, behind at most one minus sign. `readInteger` gives
this number if there are no more digits than are read, and fails for every other text
(`readInteger_eq_ok_iff`).

Whether a text is taken for a number is another question: it is asked whether the text is digits
behind any number of minus signs, and not only decimal digits are digits. A text that passes and
is not read is `Misread`.
-/
import Courier.Text.Numeral
import Mathlib.Data.List.TakeWhile

namespace Courier.Text

/-! ## Digits -/

def isDecimal (c : Char) : Bool := (decimalDigit? c).isSome

/-- The number that decimal digits write, however many they are. -/
def natural? (cs : List Char) : Option Nat :=
  if !cs.isEmpty && cs.all isDecimal then some (digitsValue 0 (cs.filterMap decimalDigit?))
  else none

theorem natural?_eq_some_iff {cs : List Char} {n : Nat} :
    natural? cs = some n ↔ (cs ≠ [] ∧ ∀ c ∈ cs, isDecimal c = true) ∧
      digitsValue 0 (cs.filterMap decimalDigit?) = n := by
  rw [natural?, Option.ite_none_right_eq_some, Option.some.injEq]
  simp

theorem isNumericChars_of_decimal {cs : List Char} (hne : cs ≠ [])
    (h : ∀ c ∈ cs, isDecimal c = true) : isNumericChars cs = true := by
  rw [isNumericChars, Bool.and_eq_true, List.all_eq_true]
  refine ⟨by simpa using hne, fun c hc => ?_⟩
  rw [isDigitChar, Bool.or_eq_true]
  exact .inl (h c hc)

/-- Decimal digits are read if they are not too many, and nothing else is. -/
theorem readNaturalChars_eq_ok_iff {text : String} {cs : List Char} {n : Nat} :
    readNaturalChars text cs = .ok n ↔ natural? cs = some n ∧ cs.length ≤ maxDigits := by
  have hlength : ((cs.takeWhile isDecimal).filterMap decimalDigit?).length =
      (cs.takeWhile isDecimal).length :=
    List.filterMap_length_eq_length.mpr fun c hc =>
      (List.mem_takeWhile_imp hc : isDecimal c = true)
  have hunfold : readNaturalChars text cs =
      if (cs.takeWhile isDecimal).length > maxDigits then
        .error (.tooLong (cs.takeWhile isDecimal).length)
      else if (cs.takeWhile isDecimal).length = cs.length && !cs.isEmpty then
        .ok (digitsValue 0 ((cs.takeWhile isDecimal).filterMap decimalDigit?))
      else .error (.malformed text) := by
    rw [← hlength]
    rfl
  rw [hunfold, natural?_eq_some_iff]
  by_cases hall : ∀ c ∈ cs, isDecimal c = true
  · rw [List.takeWhile_eq_self_iff.mpr hall]
    by_cases hlong : cs.length > maxDigits
    · simp [hlong]
    · by_cases hnil : cs = []
      · simp [hnil]
      · simp [hlong, hnil, Nat.le_of_not_lt hlong, and_iff_right hall]
  · have hshort : (cs.takeWhile isDecimal).length ≠ cs.length := fun heq =>
      hall (List.takeWhile_eq_self_iff.mp ((List.takeWhile_prefix isDecimal).eq_of_length heq))
    refine iff_of_false (fun h => ?_) fun h => hall h.1.1.2
    rw [decide_eq_false hshort, Bool.false_and, if_neg Bool.false_ne_true] at h
    split at h <;> exact nomatch h

/-! ## Signs -/

/-- The characters of a text behind the minus signs in front. -/
def unsigned (text : String) : List Char := text.toList.dropWhile (· = '-')

/-- How many minus signs a text has in front. -/
def minusSigns (text : String) : Nat := (text.toList.takeWhile (· = '-')).length

/-- The number that a text writes by decimal digits behind at most one minus sign. -/
def integer? (text : String) : Option Int :=
  match minusSigns text with
  | 0 => (natural? (unsigned text)).map fun n : Nat => (n : Int)
  | 1 => (natural? (unsigned text)).map fun n : Nat => -(n : Int)
  | _ => none

theorem toList_eq_minusSigns_append (text : String) :
    text.toList = List.replicate (minusSigns text) '-' ++ unsigned text := by
  have hminus : text.toList.takeWhile (· = '-') = List.replicate (minusSigns text) '-' :=
    List.eq_replicate_of_mem fun c hc => by simpa using List.mem_takeWhile_imp hc
  rw [← hminus, unsigned, List.takeWhile_append_dropWhile]

theorem head?_unsigned (text : String) : (unsigned text).head? ≠ some '-' := by
  intro h
  have hnot := List.head?_dropWhile_not (· = '-') text.toList
  rw [← unsigned, h] at hnot
  exact absurd hnot (by decide)

/-- What is read of a text with these minus signs and these characters behind them. -/
theorem readInteger_eq (text : String) :
    readInteger text = match minusSigns text with
      | 0 => (readNaturalChars text (unsigned text)).map fun n : Nat => (n : Int)
      | signs + 1 =>
        (readNaturalChars text (List.replicate signs '-' ++ unsigned text)).map
          fun n : Nat => -(n : Int) := by
  rw [readInteger, toList_eq_minusSigns_append]
  cases minusSigns text with
  | zero =>
    rw [List.replicate_zero, List.nil_append]
    split
    · rename_i hminus
      exact absurd (head?_unsigned text) (by simp [hminus])
    · cases readNaturalChars text (unsigned text) <;> rfl
  | succ signs =>
    rw [List.replicate_succ, List.cons_append]
    show Except.map _ (Except.bind _ _) = Except.map _ (readNaturalChars text _)
    cases readNaturalChars text (List.replicate signs '-' ++ unsigned text) <;> rfl

theorem map_readNaturalChars_eq_ok_iff {text : String} {cs : List Char} {f : Nat → Int} {i : Int} :
    (readNaturalChars text cs).map f = .ok i ↔
      (natural? cs).map f = some i ∧ cs.length ≤ maxDigits := by
  cases hread : readNaturalChars text cs with
  | ok n =>
    obtain ⟨hn, hle⟩ := readNaturalChars_eq_ok_iff.mp hread
    simp [Except.map, hn, hle]
  | error cause =>
    refine iff_of_false nofun fun ⟨hmap, hle⟩ => ?_
    obtain ⟨n, hn, -⟩ := Option.map_eq_some_iff.mp hmap
    exact nomatch hread.symm.trans (readNaturalChars_eq_ok_iff.mpr ⟨hn, hle⟩)

theorem natural?_minus (cs : List Char) : natural? ('-' :: cs) = none := by
  refine Option.eq_none_iff_forall_ne_some.mpr fun n h => ?_
  exact absurd ((natural?_eq_some_iff.mp h).1.2 '-' List.mem_cons_self) (by decide)

/-- A number is read if it is written by no more digits than are read, and nothing else is. -/
theorem readInteger_eq_ok_iff {text : String} {i : Int} :
    readInteger text = .ok i ↔ integer? text = some i ∧ (unsigned text).length ≤ maxDigits := by
  rw [readInteger_eq, integer?]
  match minusSigns text with
  | 0 => exact map_readNaturalChars_eq_ok_iff
  | 1 => exact map_readNaturalChars_eq_ok_iff
  | signs + 2 =>
    refine iff_of_false (fun h => ?_) nofun
    have hread := (map_readNaturalChars_eq_ok_iff.mp h).1
    rw [List.replicate_succ, List.cons_append, natural?_minus] at hread
    exact nomatch hread

/-! ## Numerals that are misread -/

/-- Digits behind minus signs that are not read: the signs are two or more, or one of the digits
is not decimal, or the digits are more than are read. -/
def Misread (text : String) : Prop :=
  isNumericChars (unsigned text) = true ∧
    (2 ≤ minusSigns text ∨ (∃ c ∈ unsigned text, isDecimal c = false) ∨
      maxDigits < (unsigned text).length)

theorem exists_map_natural?_iff {cs : List Char} {f : Nat → Int} :
    (∃ i, (natural? cs).map f = some i) ↔ cs ≠ [] ∧ ∀ c ∈ cs, isDecimal c = true := by
  constructor
  · rintro ⟨i, h⟩
    obtain ⟨n, hn, -⟩ := Option.map_eq_some_iff.mp h
    exact (natural?_eq_some_iff.mp hn).1
  · intro h
    exact ⟨_, Option.map_eq_some_iff.mpr ⟨_, natural?_eq_some_iff.mpr ⟨h, rfl⟩, rfl⟩⟩

/-- What writes a number: at most one minus sign, and decimal digits behind it. -/
theorem exists_integer?_iff {text : String} : (∃ i, integer? text = some i) ↔
    minusSigns text ≤ 1 ∧ unsigned text ≠ [] ∧ ∀ c ∈ unsigned text, isDecimal c = true := by
  rw [integer?]
  match minusSigns text with
  | 0 => simpa using exists_map_natural?_iff (f := fun n : Nat => (n : Int))
  | 1 => simpa using exists_map_natural?_iff (f := fun n : Nat => -(n : Int))
  | signs + 2 => simp

/-- What writes a number passes for digits behind minus signs. -/
theorem isNumericChars_of_integer? {text : String} {i : Int} (h : integer? text = some i) :
    isNumericChars (unsigned text) = true := by
  obtain ⟨-, hne, hdecimal⟩ := exists_integer?_iff.mp ⟨i, h⟩
  exact isNumericChars_of_decimal hne hdecimal

/-- Digits behind minus signs are read or misread. -/
theorem exists_readInteger_iff_not_misread {text : String}
    (h : isNumericChars (unsigned text) = true) :
    (∃ i, readInteger text = .ok i) ↔ ¬ Misread text := by
  have hne : unsigned text ≠ [] := by
    rintro hnil
    rw [hnil] at h
    exact absurd h (by decide)
  calc (∃ i, readInteger text = .ok i)
      ↔ (∃ i, integer? text = some i) ∧ (unsigned text).length ≤ maxDigits := by
        simp only [readInteger_eq_ok_iff, exists_and_right]
    _ ↔ (minusSigns text ≤ 1 ∧ ∀ c ∈ unsigned text, isDecimal c = true) ∧
          (unsigned text).length ≤ maxDigits := by
        rw [exists_integer?_iff, and_iff_right hne]
    _ ↔ ¬ Misread text := by
        simp only [Misread, h, true_and, not_or, not_exists, not_and, Bool.not_eq_false,
          Nat.not_le, Nat.not_lt, Nat.lt_succ_iff, and_assoc]

end Courier.Text
