import Mathlib.Data.List.Basic
import Mathlib.Data.Nat.Basic

/-!
# The length of a longest common subsequence

It is given by a recursion on both lists: where the heads are the same they are matched,
and otherwise one of the two heads is left out. `lcsLength_drop` is the recursion from one
pair of suffixes to the next, which is how a table of the lengths is filled.
-/

namespace LongestCommon

open List (Sublist)

variable {α : Type*} [DecidableEq α]

/-- **The length of a longest common subsequence.** -/
def lcsLength : List α → List α → ℕ
  | [], _ => 0
  | _ :: _, [] => 0
  | x :: a, y :: b =>
    if x = y then lcsLength a b + 1
    else max (lcsLength a (y :: b)) (lcsLength (x :: a) b)
termination_by a b => a.length + b.length

@[simp]
theorem lcsLength_nil_left (b : List α) : lcsLength [] b = 0 := by
  rw [lcsLength]

@[simp]
theorem lcsLength_nil_right (a : List α) : lcsLength a [] = 0 := by
  cases a <;> rw [lcsLength]

theorem lcsLength_cons_self (x : α) (a b : List α) :
    lcsLength (x :: a) (x :: b) = lcsLength a b + 1 := by
  rw [lcsLength, if_pos rfl]

theorem lcsLength_cons_ne {x y : α} (h : x ≠ y) (a b : List α) :
    lcsLength (x :: a) (y :: b)
      = max (lcsLength a (y :: b)) (lcsLength (x :: a) b) := by
  rw [lcsLength, if_neg h]

/-- **No common subsequence is longer.** -/
theorem length_le_lcsLength {a b c : List α} (ha : Sublist c a) (hb : Sublist c b) :
    c.length ≤ lcsLength a b := by
  induction a, b using lcsLength.induct generalizing c with
  | case1 b => rw [List.sublist_nil.mp ha, List.length_nil, lcsLength_nil_left]
  | case2 x a => rw [List.sublist_nil.mp hb, List.length_nil, lcsLength_nil_right]
  | case3 a y b ih =>
    have htail : c.tail.length ≤ lcsLength a b := ih ha.tail hb.tail
    rw [lcsLength_cons_self]
    rw [List.length_tail] at htail
    omega
  | case4 x a y b hne iha ihb =>
    rw [lcsLength_cons_ne hne]
    cases c with
    | nil => exact Nat.zero_le _
    | cons z c =>
      -- the head of a common subsequence is not both `x` and `y`
      by_cases hz : z = x
      · have hzy : z ≠ y := hz ▸ hne
        exact Nat.le_trans (ihb ha (hb.of_cons_of_ne hzy)) (Nat.le_max_right _ _)
      · exact Nat.le_trans (iha (ha.of_cons_of_ne hz) hb) (Nat.le_max_left _ _)

/-! ## Of the suffixes -/

section

variable {a b : List α} {i j : ℕ}

theorem lcsLength_drop_left (h : a.length ≤ i) : lcsLength (a.drop i) (b.drop j) = 0 := by
  rw [List.drop_eq_nil_of_le h, lcsLength_nil_left]

theorem lcsLength_drop_right (h : b.length ≤ j) : lcsLength (a.drop i) (b.drop j) = 0 := by
  rw [List.drop_eq_nil_of_le h, lcsLength_nil_right]

/-- **From the suffixes after to those before.** -/
theorem lcsLength_drop (hi : i < a.length) (hj : j < b.length) :
    lcsLength (a.drop i) (b.drop j)
      = if a[i] = b[j] then lcsLength (a.drop (i + 1)) (b.drop (j + 1)) + 1
        else max (lcsLength (a.drop (i + 1)) (b.drop j))
          (lcsLength (a.drop i) (b.drop (j + 1))) := by
  rw [List.drop_eq_getElem_cons hi, List.drop_eq_getElem_cons hj]
  split
  · rename_i h
    rw [h, lcsLength_cons_self]
  · rename_i h
    rw [lcsLength_cons_ne h]

end

end LongestCommon
