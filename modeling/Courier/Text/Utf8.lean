/-
Courier.Text.Utf8 — bodies as bytes and as text.

A request body is stored as bytes; placeholders are looked for in its text.
`encode` writes a text as UTF-8. `decode` reads bytes as UTF-8 and never fails:
each maximal part of an ill-formed sequence becomes one replacement character
U+FFFD, and reading goes on with the byte that broke the sequence.

`decodeStep` is one step of `decode`: it reads one character, or the longest
beginning of one, from the front of the bytes. It always takes a byte, so that
`decode` ends.
-/

namespace Courier.Text

/-- The bytes of a body. -/
abbrev Bytes := List UInt8

/-- What stands for bytes that are no character. -/
def replacement : Char := '\uFFFD'

/-- The UTF-8 form of a text. -/
def encode (s : String) : Bytes :=
  s.toList.flatMap String.utf8EncodeChar

/-- How many bytes follow a first byte, and between which bounds the second one lies. -/
def leadByte? (b : Nat) : Option (Nat × Nat × Nat) :=
  if 0xC2 ≤ b && b ≤ 0xDF then some (1, 0x80, 0xBF)
  else if b == 0xE0 then some (2, 0xA0, 0xBF)
  else if 0xE1 ≤ b && b ≤ 0xEC then some (2, 0x80, 0xBF)
  else if b == 0xED then some (2, 0x80, 0x9F)
  else if b == 0xEE || b == 0xEF then some (2, 0x80, 0xBF)
  else if b == 0xF0 then some (3, 0x90, 0xBF)
  else if 0xF1 ≤ b && b ≤ 0xF3 then some (3, 0x80, 0xBF)
  else if b == 0xF4 then some (3, 0x80, 0x8F)
  else none

/-- The value bits of a first byte that `count` bytes follow. -/
def leadBits (b count : Nat) : Nat :=
  if count = 1 then b % 0x20 else if count = 2 then b % 0x10 else b % 0x08

/--
Reads `count` more bytes of a character whose bits so far are `acc`; the first of
them lies between `low` and `high`, the others in the ordinary range. The result
is the character, or the replacement if a byte does not fit, and the bytes left.
-/
def decodeTail : Nat → Nat → Nat → Nat → Bytes → Char × Bytes
  | 0, _, _, acc, bs => (Char.ofNat acc, bs)
  | _ + 1, _, _, _, [] => (replacement, [])
  | count + 1, low, high, acc, b :: bs =>
    if low ≤ b.toNat && b.toNat ≤ high then
      decodeTail count 0x80 0xBF (acc * 0x40 + b.toNat % 0x40) bs
    else (replacement, b :: bs)

/-- Reads one character at the front of the bytes `b :: bs`. -/
def decodeStep (b : UInt8) (bs : Bytes) : Char × Bytes :=
  if b.toNat < 0x80 then (Char.ofNat b.toNat, bs)
  else
    match leadByte? b.toNat with
    | none => (replacement, bs)
    | some (count, low, high) => decodeTail count low high (leadBits b.toNat count) bs

/-- The tail of a character is taken from the front of the bytes. -/
theorem length_decodeTail_le (count low high acc : Nat) (bs : Bytes) :
    (decodeTail count low high acc bs).2.length ≤ bs.length := by
  induction count generalizing low high acc bs with
  | zero => simp [decodeTail]
  | succ count ih =>
    cases bs with
    | nil => simp [decodeTail]
    | cons b bs =>
      simp only [decodeTail]
      split
      · exact Nat.le_succ_of_le (ih ..)
      · exact Nat.le_refl _

/-- A step leaves no more than the bytes after the first. -/
theorem length_decodeStep_le (b : UInt8) (bs : Bytes) :
    (decodeStep b bs).2.length ≤ bs.length := by
  unfold decodeStep
  split
  · exact Nat.le_refl _
  · split
    · exact Nat.le_refl _
    · exact length_decodeTail_le ..

/-- The characters that bytes stand for, ill-formed parts replaced. -/
def decodeChars : Bytes → List Char
  | [] => []
  | b :: bs =>
    have : (decodeStep b bs).2.length < bs.length + 1 :=
      Nat.lt_succ_of_le (length_decodeStep_le b bs)
    (decodeStep b bs).1 :: decodeChars (decodeStep b bs).2
termination_by bs => bs.length

/-- The text that bytes stand for, ill-formed parts replaced. -/
def decode (bs : Bytes) : String :=
  String.ofList (decodeChars bs)

end Courier.Text
