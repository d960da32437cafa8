/-
Courier.Text.Utf16 — texts as 16-bit units.

The strings of a JSON document are sequences of 16-bit units: an escape names
one unit, and a character beyond U+FFFF takes two. A document may name half a
pair alone, which is no character, so that the reader and the writer of JSON work
on units and not on characters.

* `units s` are the units of a text.
* `codePoints us` are the numbers that units stand for: those of characters, and
  those of halves that stand alone.
* `text? us` is the text that units stand for, if no half stands alone. It has these units
  (`units_of_text?`).
-/
import Courier.Text.Utf8

namespace Courier.Text

/-- The content of a JSON string. -/
abbrev Units := List UInt16

/-- The 16-bit units of a character: one, or the two halves of a pair. -/
def charUnits (c : Char) : Units :=
  let n := c.toNat
  if n < 0x10000 then [n.toUInt16]
  else [(0xD800 + (n - 0x10000) / 0x400).toUInt16, (0xDC00 + (n - 0x10000) % 0x400).toUInt16]

/-- The 16-bit units of a text. -/
def units (s : String) : Units :=
  s.toList.flatMap charUnits

/-- Whether a unit is the first half of a pair. -/
def isHighHalf (u : UInt16) : Bool := 0xD800 ≤ u.toNat && u.toNat ≤ 0xDBFF

/-- Whether a unit is the second half of a pair. -/
def isLowHalf (u : UInt16) : Bool := 0xDC00 ≤ u.toNat && u.toNat ≤ 0xDFFF

/-- The numbers that units stand for; a pair stands for one number. -/
def codePoints : Units → List Nat
  | [] => []
  | [u] => [u.toNat]
  | u :: v :: us =>
    if isHighHalf u && isLowHalf v then
      (0x10000 + (u.toNat - 0xD800) * 0x400 + (v.toNat - 0xDC00)) :: codePoints us
    else u.toNat :: codePoints (v :: us)

/-- Whether a number is that of half a pair. -/
def isHalf (n : Nat) : Bool := 0xD800 ≤ n && n ≤ 0xDFFF

/-- The text that units stand for, if no half of a pair stands alone. -/
def text? (us : Units) : Option String :=
  let ns := codePoints us
  if ns.any isHalf then none else some (String.ofList (ns.map Char.ofNat))

/-- The halves that stand alone next to each other, the first such: their place, and what they are. -/
def loneHalves (us : Units) : Nat × List Nat :=
  let ns := codePoints us
  let before := ns.takeWhile (fun n => !isHalf n)
  (before.length, (ns.drop before.length).takeWhile isHalf)

/-! ## Units and their text -/

theorem toNat_ofNat_of_not_isHalf {n : Nat} (h : isHalf n = false) (hn : n < 0x110000) :
    (Char.ofNat n).toNat = n := by
  have hvalid : n.isValidChar := by
    simp only [isHalf, Bool.and_eq_false_iff, decide_eq_false_iff_not] at h
    unfold Nat.isValidChar
    omega
  rw [Char.ofNat, dif_pos hvalid]
  rfl

/-- A unit that is no half is that of a character. -/
theorem charUnits_unit {u : UInt16} (h : isHalf u.toNat = false) :
    charUnits (Char.ofNat u.toNat) = [u] := by
  have hu := u.toNat_lt
  rw [charUnits, toNat_ofNat_of_not_isHalf h (by omega)]
  simp [show u.toNat < 65536 by omega]

/-- Two halves that fit are those of a character. -/
theorem charUnits_pair {u v : UInt16} (hu : isHighHalf u = true) (hv : isLowHalf v = true) :
    charUnits (Char.ofNat (0x10000 + (u.toNat - 0xD800) * 0x400 + (v.toNat - 0xDC00)))
      = [u, v] := by
  simp only [isHighHalf, isLowHalf, Bool.and_eq_true, decide_eq_true_eq] at hu hv
  have hbound : (u.toNat - 0xD800) * 0x400 + (v.toNat - 0xDC00) < 0x100000 := by omega
  rw [charUnits, toNat_ofNat_of_not_isHalf (by simp [isHalf]; omega) (by omega),
    if_neg (by omega), List.cons.injEq, List.cons.injEq]
  refine ⟨UInt16.toNat.inj ?_, UInt16.toNat.inj ?_, rfl⟩
  · rw [UInt16.toNat_ofNat']
    omega
  · rw [UInt16.toNat_ofNat']
    omega

/-- The units of the text that units stand for are these units. -/
theorem units_of_text? {us : Units} {s : String} (h : text? us = some s) : units s = us := by
  unfold text? at h
  dsimp only at h
  split at h
  · exact nomatch h
  next hnone =>
    rw [Bool.not_eq_true, List.any_eq_false] at hnone
    obtain rfl := Option.some.inj h
    rw [units, String.toList_ofList]
    clear h
    induction us using codePoints.induct with
    | case1 => rfl
    | case2 u =>
      simp [codePoints] at hnone ⊢
      exact charUnits_unit hnone
    | case3 u v us hpair ih =>
      rw [codePoints, if_pos hpair] at hnone ⊢
      rw [Bool.and_eq_true] at hpair
      rw [List.map_cons, List.flatMap_cons, charUnits_pair hpair.1 hpair.2,
        ih fun n hn => hnone n (List.mem_cons_of_mem _ hn)]
      rfl
    | case4 u v us hpair ih =>
      rw [codePoints, if_neg hpair] at hnone ⊢
      rw [List.map_cons, List.flatMap_cons,
        charUnits_unit (by simpa using hnone _ List.mem_cons_self),
        ih fun n hn => hnone n (List.mem_cons_of_mem _ hn)]
      rfl

end Courier.Text
