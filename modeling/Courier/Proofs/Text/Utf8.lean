/-
Courier.Proofs.Text.Utf8 — what was written is read back as it was.

`decode` takes a character from the front of the bytes, whatever comes behind it
(`decodeChars_utf8EncodeChar`), so it reads every text that `encode` wrote
(`decode_encode`). The other way round fails: where the bytes are no text, replacements
are read, and these have bytes of their own. Bytes come back from `decode` and `encode`
if and only if they are the form of some text (`encode_decode_eq_self_iff`).
-/
import Courier.Text.Utf8
import Mathlib.Data.String.Basic

namespace Courier.Text

/-! ## A character and what is behind it -/

theorem toNat_ofNat_byte {n : Nat} (h : n < 0x100) : (UInt8.ofNat n).toNat = n :=
  UInt8.toNat_ofNat_of_lt' h

/-- A first byte and a second one that fits it give the bits of both. -/
theorem decodeStep_cons {first second count low high : Nat}
    (hfirst : 0x80 ≤ first ∧ first < 0x100)
    (hlead : leadByte? first = some (count + 1, low, high)) (hsecond : second < 0x100)
    (hfits : low ≤ second ∧ second ≤ high) (bs : Bytes) :
    decodeStep (UInt8.ofNat first) (UInt8.ofNat second :: bs) =
      decodeTail count 0x80 0xBF (leadBits first (count + 1) * 0x40 + second % 0x40) bs := by
  rw [decodeStep, toNat_ofNat_byte hfirst.2, if_neg (Nat.not_lt.2 hfirst.1), hlead]
  simp [decodeTail, toNat_ofNat_byte hsecond, hfits]

/-- A later byte adds its bits. -/
theorem decodeTail_cons (count acc v : Nat) (bs : Bytes) :
    decodeTail (count + 1) 0x80 0xBF acc (UInt8.ofNat (v % 0x40 + 0x80) :: bs) =
      decodeTail count 0x80 0xBF (acc * 0x40 + v % 0x40) bs := by
  have hfits : v % 0x40 + 0x80 ≤ 0xBF := by omega
  have hbyte : (UInt8.ofNat (v % 0x40 + 0x80)).toNat = v % 0x40 + 0x80 :=
    toNat_ofNat_byte (Nat.lt_of_le_of_lt hfits (by decide))
  have hbits : (v % 0x40 + 0x80) % 0x40 = v % 0x40 := by omega
  rw [decodeTail, hbyte, hbits, if_pos (by simpa using hfits)]

theorem leadByte?_two {v : Nat} (hlow : 0x7F < v) (hhigh : v ≤ 0x7FF) :
    leadByte? (v / 64 % 32 + 192) = some (1, 0x80, 0xBF) := by
  have h : 0xC2 ≤ v / 64 % 32 + 192 ∧ v / 64 % 32 + 192 ≤ 0xDF := by omega
  simp [leadByte?, h]

/-- What may follow a first byte of three keeps out halves of pairs and what two bytes can hold. -/
theorem leadByte?_three {v : Nat} (hlow : 0x7FF < v) (hhigh : v ≤ 0xFFFF)
    (hv : v < 0xD800 ∨ 0xDFFF < v) :
    ∃ low high, leadByte? (v / 4096 % 16 + 224) = some (2, low, high) ∧
      low ≤ v / 64 % 64 + 128 ∧ v / 64 % 64 + 128 ≤ high := by
  simp only [leadByte?, Bool.and_eq_true, Bool.or_eq_true, decide_eq_true_eq, beq_iff_eq]
  split_ifs
  all_goals first | exact ⟨_, _, rfl, by omega, by omega⟩ | omega

theorem leadByte?_four {v : Nat} (hlow : 0xFFFF < v) (hhigh : v < 0x110000) :
    ∃ low high, leadByte? (v / 262144 % 8 + 240) = some (3, low, high) ∧
      low ≤ v / 4096 % 64 + 128 ∧ v / 4096 % 64 + 128 ≤ high := by
  simp only [leadByte?, Bool.and_eq_true, Bool.or_eq_true, decide_eq_true_eq, beq_iff_eq]
  split_ifs
  all_goals first | exact ⟨_, _, rfl, by omega, by omega⟩ | omega

theorem decodeChars_cons {b : UInt8} {bs rest : Bytes} {c : Char}
    (h : decodeStep b bs = (c, rest)) :
    decodeChars (b :: bs) = c :: decodeChars rest := by
  rw [decodeChars, h]

/-- A character that is written in front of any bytes is read there. -/
theorem decodeChars_utf8EncodeChar (c : Char) (rest : Bytes) :
    decodeChars (String.utf8EncodeChar c ++ rest) = c :: decodeChars rest := by
  obtain ⟨v, hv⟩ : ∃ v, v = c.val.toNat := ⟨_, rfl⟩
  have hchar : Char.ofNat v = c := hv ▸ Char.ofNat_toNat c
  have hvalid : v < 0xD800 ∨ 0xDFFF < v ∧ v < 0x110000 := hv ▸ c.valid
  simp only [String.utf8EncodeChar, ← hv]
  -- as many cases as a character may have bytes
  split_ifs with hone htwo hthree <;> simp only [List.cons_append, List.nil_append] <;>
    refine decodeChars_cons ?_
  · rw [decodeStep, toNat_ofNat_byte (by omega), if_pos (by omega), hchar]
  · have hbits : (v / 64 % 32 + 192) % 0x20 * 0x40 + (v % 64 + 128) % 0x40 = v := by omega
    rw [decodeStep_cons (by omega) (leadByte?_two (by omega) htwo) (by omega) (by omega),
      decodeTail]
    exact Prod.ext ((congrArg Char.ofNat hbits).trans hchar) rfl
  · have hbits : ((v / 4096 % 16 + 224) % 0x10 * 0x40 + (v / 64 % 64 + 128) % 0x40) * 0x40 +
        v % 0x40 = v := by omega
    obtain ⟨low, high, hlead, hfits⟩ := leadByte?_three (by omega) hthree (by omega)
    rw [decodeStep_cons (by omega) hlead (by omega) hfits, decodeTail_cons, decodeTail]
    exact Prod.ext ((congrArg Char.ofNat hbits).trans hchar) rfl
  · have hbits : (((v / 262144 % 8 + 240) % 0x08 * 0x40 + (v / 4096 % 64 + 128) % 0x40) * 0x40 +
        v / 64 % 0x40) * 0x40 + v % 0x40 = v := by omega
    obtain ⟨low, high, hlead, hfits⟩ := leadByte?_four (v := v) (by omega) (by omega)
    rw [decodeStep_cons (by omega) hlead (by omega) hfits, decodeTail_cons, decodeTail_cons,
      decodeTail]
    exact Prod.ext ((congrArg Char.ofNat hbits).trans hchar) rfl

/-! ## Texts -/

theorem decodeChars_flatMap (cs : List Char) :
    decodeChars (cs.flatMap String.utf8EncodeChar) = cs := by
  induction cs with
  | nil => rw [List.flatMap_nil, decodeChars]
  | cons c cs ih => rw [List.flatMap_cons, decodeChars_utf8EncodeChar, ih]

theorem decode_encode (s : String) : decode (encode s) = s := by
  rw [decode, encode, decodeChars_flatMap, String.ofList_toList]

/-- Whether bytes are the UTF-8 form of a text. -/
def IsUtf8 (bs : Bytes) : Prop := ∃ s, encode s = bs

/-- Bytes that are read and written again are what they were if they are a text. -/
theorem encode_decode_eq_self_iff {bs : Bytes} : encode (decode bs) = bs ↔ IsUtf8 bs := by
  constructor
  · exact fun h => ⟨_, h⟩
  · rintro ⟨s, rfl⟩
    rw [decode_encode]

instance : DecidablePred IsUtf8 := fun _ => decidable_of_iff _ encode_decode_eq_self_iff

end Courier.Text
