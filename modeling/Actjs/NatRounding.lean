import Mathlib.Algebra.Ring.Nat
import Mathlib.Tactic.Common

/-!
# Natural numbers of so many bits

A floating-point number has so many bits, and a natural number that needs more is rounded to
the nearest one that does not; of two that are as near, to the even one. `roundBits` is this
rounding, for any number of bits. It keeps the order of the numbers (`roundBits_mono`), and it
is the identity on those that need no rounding (`roundBits_of_lt`).

`toDouble` is the rounding of doubles, which are finite below `2 ^ 1024`.
-/

/-- The multiple of `u` that is nearest. -/
def roundTo (u n : ℕ) : ℕ :=
  if 2 * (n % u) < u ∨ 2 * (n % u) = u ∧ n / u % 2 = 0 then n / u * u else (n / u + 1) * u

/-- **The number of `p` bits that is nearest**, with as many zeros after them as it takes. -/
def roundBits (p n : ℕ) : ℕ := roundTo (2 ^ (n.log2 + 1 - p)) n

/-- The double that is nearest, where it is finite. -/
def toDouble (n : ℕ) : Option ℕ :=
  if (roundBits 53 n).log2 < 1024 then some (roundBits 53 n) else none

variable {u p n m : ℕ}

theorem roundTo_le (u n : ℕ) : roundTo u n ≤ (n / u + 1) * u := by
  unfold roundTo
  split
  · exact Nat.mul_le_mul_right u (Nat.le_succ _)
  · exact Nat.le_refl _

theorem le_roundTo (u n : ℕ) : n / u * u ≤ roundTo u n := by
  unfold roundTo
  split
  · exact Nat.le_refl _
  · exact Nat.mul_le_mul_right u (Nat.le_succ _)

theorem roundTo_mul (hu : 0 < u) (k : ℕ) : roundTo u (k * u) = k * u := by
  unfold roundTo
  rw [Nat.mul_mod_left, Nat.mul_div_cancel k hu, if_pos (.inl (by omega))]

theorem roundTo_one (n : ℕ) : roundTo 1 n = n := by
  have h := roundTo_mul Nat.one_pos n
  rwa [Nat.mul_one] at h

theorem roundTo_mono (h : n ≤ m) : roundTo u n ≤ roundTo u m := by
  obtain hq | hq := Nat.lt_or_eq_of_le (Nat.div_le_div_right h : n / u ≤ m / u)
  · calc roundTo u n ≤ (n / u + 1) * u := roundTo_le u n
      _ ≤ m / u * u := Nat.mul_le_mul_right u hq
      _ ≤ roundTo u m := le_roundTo u m
  · have hmod : n % u ≤ m % u := by
      have hn := Nat.div_add_mod n u
      have hm := Nat.div_add_mod m u
      rw [hq] at hn
      omega
    have hle : m / u * u ≤ (m / u + 1) * u := Nat.mul_le_mul_right u (Nat.le_succ _)
    unfold roundTo
    rw [hq]
    split
    · split
      · exact Nat.le_refl _
      · exact hle
    · next hn =>
      have hm : ¬(2 * (m % u) < u ∨ 2 * (m % u) = u ∧ m / u % 2 = 0) := by omega
      exact Nat.le_of_eq (if_neg hm).symm

/-- What has `p` bits already stays as it is. -/
theorem roundBits_of_lt (hp : 0 < p) (h : n < 2 ^ p) : roundBits p n = n := by
  have hbits : n.log2 + 1 - p = 0 := by
    by_cases hn : n = 0
    · rw [hn, Nat.log2_zero]
      omega
    · have hlog := (Nat.log2_lt hn).mpr h
      omega
  rw [roundBits, hbits, Nat.pow_zero, roundTo_one]

/-- A power of two is rounded to itself, whatever the bits that are left out are. -/
theorem roundTo_pow {e k : ℕ} (h : e ≤ k) : roundTo (2 ^ e) (2 ^ k) = 2 ^ k := by
  have hmul := roundTo_mul (Nat.two_pow_pos e) (2 ^ (k - e))
  rwa [← Nat.pow_add, Nat.sub_add_cancel h] at hmul

/-- **Rounding keeps the order.** Of two numbers of the same length the same bits are left
out; otherwise the power of two that the longer one begins with is between the two. -/
theorem roundBits_mono (hp : 0 < p) (h : n ≤ m) : roundBits p n ≤ roundBits p m := by
  by_cases hn : n = 0
  · rw [hn, roundBits_of_lt hp (Nat.two_pow_pos p)]
    exact Nat.zero_le _
  have hm : m ≠ 0 := by omega
  have hlog : n.log2 ≤ m.log2 := by
    have hlt : n < 2 ^ (m.log2 + 1) := Nat.lt_of_le_of_lt h Nat.lt_log2_self
    exact Nat.le_of_lt_succ ((Nat.log2_lt hn).mpr hlt)
  obtain hlt | heq := Nat.lt_or_eq_of_le hlog
  · have hnk : n ≤ 2 ^ m.log2 := by
      calc n ≤ 2 ^ (n.log2 + 1) := Nat.le_of_lt Nat.lt_log2_self
        _ ≤ 2 ^ m.log2 := Nat.pow_le_pow_right (by omega) hlt
    calc roundBits p n ≤ roundTo (2 ^ (n.log2 + 1 - p)) (2 ^ m.log2) := roundTo_mono hnk
      _ = 2 ^ m.log2 := roundTo_pow (by omega)
      _ = roundTo (2 ^ (m.log2 + 1 - p)) (2 ^ m.log2) := (roundTo_pow (by omega)).symm
      _ ≤ roundBits p m := roundTo_mono (Nat.log2_self_le hm)
  · unfold roundBits
    rw [heq]
    exact roundTo_mono h

theorem toDouble_of_lt (h : n < 2 ^ 53) : toDouble n = some n := by
  have hlog : n.log2 < 1024 := by
    by_cases hn : n = 0
    · rw [hn, Nat.log2_zero]
      omega
    · exact Nat.lt_trans ((Nat.log2_lt hn).mpr h) (by omega)
  rw [toDouble, roundBits_of_lt (by omega) h, if_pos hlog]

/-- **Doubles that are not the same are in the order of the numbers.** -/
theorem toDouble_lt {i j : ℕ} (hi : toDouble n = some i) (hj : toDouble m = some j)
    (hij : i ≠ j) : i < j ↔ n < m := by
  have hval : ∀ {k d : ℕ}, toDouble k = some d → roundBits 53 k = d := fun h =>
    Option.some.inj (Option.ite_none_right_eq_some.mp h).2
  rw [← hval hi, ← hval hj] at hij ⊢
  constructor
  · intro hlt
    by_contra hle
    have hback := roundBits_mono (p := 53) (by omega) (Nat.le_of_not_lt hle)
    exact absurd hlt (Nat.not_lt.mpr hback)
  · intro hlt
    exact Nat.lt_of_le_of_ne (roundBits_mono (by omega) (Nat.le_of_lt hlt)) hij
