import Mathlib.Data.List.DropRight
import Mathlib.Tactic.Ring

/-!
# Base64

Bytes are cut into sextets, three of them into four, and each sextet is written as a
digit. Where one or two bytes are left, the last sextet is filled up with zeros, and the
text with `=`.

A decoder reads the digits up to the first `=` and passes over what is no digit, so that
how a text is filled up makes no difference to it. What was written is read back,
whatever the number of bytes left over.
-/

namespace Base64

/-! ## Sextets -/

/-- The sextets of some bytes. -/
def sextets : List UInt8 → List ℕ
  | [] => []
  | [a] => [a.toNat / 4, a.toNat % 4 * 16]
  | [a, b] => [a.toNat / 4, a.toNat % 4 * 16 + b.toNat / 16, b.toNat % 16 * 4]
  | a :: b :: c :: rest =>
    a.toNat / 4 :: (a.toNat % 4 * 16 + b.toNat / 16) :: (b.toNat % 16 * 4 + c.toNat / 64)
      :: c.toNat % 64 :: sextets rest

/-- The bytes of some sextets: bits that do not make a byte are dropped. -/
def octets : List ℕ → List UInt8
  | w :: x :: y :: z :: rest =>
    UInt8.ofNat (w * 4 + x / 16) :: UInt8.ofNat (x % 16 * 16 + y / 4)
      :: UInt8.ofNat (y % 4 * 64 + z) :: octets rest
  | [w, x, y] => [UInt8.ofNat (w * 4 + x / 16), UInt8.ofNat (x % 16 * 16 + y / 4)]
  | [w, x] => [UInt8.ofNat (w * 4 + x / 16)]
  | [_] | [] => []

theorem sextets_lt : ∀ bs : List UInt8, ∀ n ∈ sextets bs, n < 64
  | [] => by simp [sextets]
  | [a] => by
    have := a.toNat_lt
    simp only [sextets, List.mem_cons, List.not_mem_nil, or_false]
    omega
  | [a, b] => by
    have := a.toNat_lt
    have := b.toNat_lt
    simp only [sextets, List.mem_cons, List.not_mem_nil, or_false]
    omega
  | a :: b :: c :: rest => by
    have := a.toNat_lt
    have := b.toNat_lt
    have := c.toNat_lt
    have hrest := sextets_lt rest
    simp only [sextets, List.mem_cons]
    rintro n (rfl | rfl | rfl | rfl | hn)
    · omega
    · omega
    · omega
    · omega
    · exact hrest n hn

/-- A byte from its number, whatever way it is come by. -/
theorem ofNat_eq {n : ℕ} {a : UInt8} (h : n = a.toNat) : UInt8.ofNat n = a := by
  rw [h, UInt8.ofNat_toNat]

/-- **The sextets of some bytes make these bytes.** -/
theorem octets_sextets : ∀ bs : List UInt8, octets (sextets bs) = bs
  | [] => rfl
  | [a] => by
    have ha : a.toNat / 4 * 4 + a.toNat % 4 * 16 / 16 = a.toNat := by omega
    rw [sextets, octets, ofNat_eq ha]
  | [a, b] => by
    have := b.toNat_lt
    have ha : a.toNat / 4 * 4 + (a.toNat % 4 * 16 + b.toNat / 16) / 16 = a.toNat := by omega
    have hb : (a.toNat % 4 * 16 + b.toNat / 16) % 16 * 16 + b.toNat % 16 * 4 / 4 = b.toNat := by
      omega
    rw [sextets, octets, ofNat_eq ha, ofNat_eq hb]
  | a :: b :: c :: rest => by
    have := b.toNat_lt
    have := c.toNat_lt
    have ha : a.toNat / 4 * 4 + (a.toNat % 4 * 16 + b.toNat / 16) / 16 = a.toNat := by omega
    have hb : (a.toNat % 4 * 16 + b.toNat / 16) % 16 * 16
        + (b.toNat % 16 * 4 + c.toNat / 64) / 4 = b.toNat := by omega
    have hc : (b.toNat % 16 * 4 + c.toNat / 64) % 4 * 64 + c.toNat % 64 = c.toNat := by omega
    rw [sextets, octets, ofNat_eq ha, ofNat_eq hb, ofNat_eq hc, octets_sextets rest]

/-! ## Digits -/

/-- The digits, in the order of their values. -/
def digits : List Char :=
  "ABCDEFGHIJKLMNOPQRSTUVWXYZabcdefghijklmnopqrstuvwxyz0123456789+/".toList

/-- The digit of a sextet. -/
def digit (n : ℕ) : Char := digits.getD n '='

/-- The value of a digit, of this alphabet or of the one that is safe in URLs. -/
def value (c : Char) : Option ℕ :=
  if 'A' ≤ c ∧ c ≤ 'Z' then some (c.toNat - 65)
  else if 'a' ≤ c ∧ c ≤ 'z' then some (c.toNat - 97 + 26)
  else if '0' ≤ c ∧ c ≤ '9' then some (c.toNat - 48 + 52)
  else if c = '+' ∨ c = '-' then some 62
  else if c = '/' ∨ c = '_' then some 63
  else none

theorem value_digit : ∀ n < 64, value (digit n) = some n := by decide +kernel

/-- No digit is what a text is filled up with, which has no value. -/
theorem digit_ne {n : ℕ} (h : n < 64) : digit n ≠ '=' := by
  intro heq
  have hvalue := value_digit n h
  have hnone : value '=' = none := by decide
  rw [heq, hnone] at hvalue
  exact absurd hvalue (by simp)

theorem digit_mem {n : ℕ} (h : n < 64) : digit n ∈ digits := by
  have hne := digit_ne h
  rw [digit, List.getD_eq_getElem?_getD] at hne ⊢
  cases hd : digits[n]? with
  | none => exact absurd (by rw [hd]; rfl) hne
  | some c => exact List.mem_of_getElem? hd

/-- The digits of some bytes. -/
def body (bs : List UInt8) : List Char := (sextets bs).map digit

theorem body_mem {bs : List UInt8} {c : Char} (hc : c ∈ body bs) : c ∈ digits := by
  obtain ⟨n, hn, rfl⟩ := List.mem_map.mp hc
  exact digit_mem (sextets_lt bs n hn)

theorem body_ne {bs : List UInt8} {c : Char} (hc : c ∈ body bs) : c ≠ '=' := by
  obtain ⟨n, hn, rfl⟩ := List.mem_map.mp hc
  exact digit_ne (sextets_lt bs n hn)

theorem filterMap_value_body (bs : List UInt8) : (body bs).filterMap value = sextets bs := by
  rw [body, List.filterMap_map]
  have hvalue : ∀ n ∈ sextets bs, (value ∘ digit) n = some n :=
    fun n hn => value_digit n (sextets_lt bs n hn)
  rw [List.filterMap_congr hvalue, List.filterMap_some]

/-! ## Texts -/

/-- The text of some bytes, filled up to a multiple of four. -/
def encode (bs : List UInt8) : List Char :=
  body bs ++ List.replicate ((3 - bs.length % 3) % 3) '='

/-- The bytes of a text. -/
def decode (s : List Char) : List UInt8 :=
  octets ((s.takeWhile (fun c => c != '=')).filterMap value)

theorem takeWhile_body (bs : List UInt8) (k : ℕ) :
    (body bs ++ List.replicate k '=').takeWhile (fun c => c != '=') = body bs := by
  rw [List.takeWhile_append_of_pos (fun c hc => bne_iff_ne.mpr (body_ne hc))]
  cases k <;> simp [List.replicate_succ]

/-- **What was written is read back**, however it is filled up. -/
theorem decode_body (bs : List UInt8) (k : ℕ) :
    decode (body bs ++ List.replicate k '=') = bs := by
  rw [decode, takeWhile_body, filterMap_value_body, octets_sextets]

theorem decode_encode (bs : List UInt8) : decode (encode bs) = bs := decode_body bs _

/-- What a text is filled up with comes off again. -/
theorem rdropWhile_encode (bs : List UInt8) :
    (encode bs).rdropWhile (fun c => c == '=') = body bs := by
  have hdrop : ∀ k, (body bs ++ List.replicate k '=').rdropWhile (fun c => c == '=')
      = body bs := by
    intro k
    induction k with
    | zero =>
      rw [List.replicate_zero, List.append_nil, List.rdropWhile_eq_self_iff]
      exact fun hl heq => body_ne (List.getLast_mem hl) (beq_iff_eq.mp heq)
    | succ k ih =>
      rw [List.replicate_succ', ← List.append_assoc, List.rdropWhile_concat_pos _ _ _ (by simp), ih]
  exact hdrop _

end Base64
