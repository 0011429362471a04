import Mathlib.Data.List.Basic
import Mathlib.Data.Nat.Notation

/-!
# Counting holders

Holders are kept in a list, each at its place, and those of a thing are counted by a
predicate. A holder that changes at its place changes the count by what it counts for
before and after.
-/

namespace Holders

variable {α : Type} {l : List α} {n : ℕ} {a : α} (p : α → Bool)

/-- What one holder counts for. -/
def weight (p : α → Bool) (a : α) : ℕ := if p a = true then 1 else 0

theorem weight_le_countP (h : l[n]? = some a) : weight p a ≤ l.countP p := by
  unfold weight
  split
  · next hp => exact List.countP_pos_iff.mpr ⟨a, List.mem_of_getElem? h, hp⟩
  · exact Nat.zero_le _

/-- **A holder changes at its place.** -/
theorem countP_set (b : α) (h : l[n]? = some a) :
    (l.set n b).countP p + weight p a = l.countP p + weight p b := by
  obtain ⟨hn, rfl⟩ := List.getElem?_eq_some_iff.mp h
  have hle := weight_le_countP p h
  have hset := List.countP_set (p := p) (a := b) hn
  unfold weight at *
  omega

/-- It counts for the same before and after. -/
theorem countP_set_of_eq {b : α} (h : l[n]? = some a) (hp : p b = p a) :
    (l.set n b).countP p = l.countP p := by
  have hset := countP_set p b h
  unfold weight at hset
  rw [hp] at hset
  omega

/-- A holder more. -/
theorem countP_concat : (l ++ [a]).countP p = l.countP p + weight p a := by
  rw [List.countP_append, List.countP_singleton, weight]

end Holders
