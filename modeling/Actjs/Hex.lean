import Mathlib.Data.Nat.Digits.Defs
import Mathlib.Tactic.IntervalCases

/-!
# Bytes in hexadecimal

Two digits for a byte, small letters. What is read may have capital letters, and is read
up to the first pair of characters that are not both digits: the reader never refuses, and
many texts are read as the same bytes.
-/

namespace Hex

/-- The digits of a byte. -/
def digits (b : UInt8) : List Char :=
  [Nat.digitChar (b.toNat / 16), Nat.digitChar (b.toNat % 16)]

/-- `buffer.toString('hex')`. -/
def encode (bs : List UInt8) : String := String.ofList (bs.flatMap digits)

/-- What a digit is worth. -/
def value (c : Char) : Option ℕ :=
  if 48 ≤ c.toNat ∧ c.toNat ≤ 57 then some (c.toNat - 48)
  else if 97 ≤ c.toNat ∧ c.toNat ≤ 102 then some (c.toNat - 87)
  else if 65 ≤ c.toNat ∧ c.toNat ≤ 70 then some (c.toNat - 55)
  else none

/-- The bytes of the pairs of digits that the text begins with. -/
def pairs : List Char → List UInt8
  | a :: b :: cs =>
    match value a, value b with
    | some x, some y => UInt8.ofNat (16 * x + y) :: pairs cs
    | _, _ => []
  | _ => []

/-- `Buffer.from(text, 'hex')`. -/
def decode (text : String) : List UInt8 := pairs text.toList

theorem value_digitChar {n : ℕ} (h : n < 16) : value (Nat.digitChar n) = some n := by
  interval_cases n <;> rfl

/-- **What is written is read back.** -/
theorem decode_encode (bs : List UInt8) : decode (encode bs) = bs := by
  unfold decode encode
  rw [String.toList_ofList]
  induction bs with
  | nil => rfl
  | cons b bs ih =>
    have hb : b.toNat < 256 := b.toNat_lt
    have hbyte : 16 * (b.toNat / 16) + b.toNat % 16 = b.toNat := Nat.div_add_mod _ _
    show pairs (Nat.digitChar _ :: Nat.digitChar _ :: bs.flatMap digits) = _
    rw [pairs, value_digitChar (by omega), value_digitChar (by omega)]
    dsimp only
    rw [hbyte, UInt8.ofNat_toNat, ih]

example : decode "1FE3zz00" = [0x1f, 0xe3] := by decide

end Hex
