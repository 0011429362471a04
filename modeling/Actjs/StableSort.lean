import Mathlib.Data.List.Pairwise
import Mathlib.Data.List.Sort

/-!
# Sorting what is sorted by something else

A stable sort leaves elements that its order does not tell apart as they were. So a list
that is sorted by one relation and then by another is sorted by the two of them, the later
one first. Lists sorted so have one order only.

What a sort puts first is before all others.
-/

namespace StableSort

variable {α : Type*} {le : α → α → Bool} {t : α → α → Prop}

/-- By `le`, and where `le` does not tell by `t`. -/
def Then (le : α → α → Bool) (t : α → α → Prop) (a b : α) : Prop :=
  le a b = true ∧ (le b a = true → t a b)

/-- **A list sorted by `t` and then by `le`.** -/
theorem pairwise_mergeSort_then (trans : ∀ a b c, le a b → le b c → le a c)
    (total : ∀ a b, le a b || le b a) {l : List α} (h : l.Pairwise t) :
    (l.mergeSort le).Pairwise (Then le t) := by
  induction l with
  | nil =>
    rw [List.mergeSort_nil]
    exact List.Pairwise.nil
  | cons a l ih =>
    obtain ⟨ha, hl⟩ := List.pairwise_cons.mp h
    have hsorted := List.pairwise_mergeSort trans total (a :: l)
    obtain ⟨before, after, hs, hrest, hbefore⟩ := List.mergeSort_cons trans total a l
    rw [hs] at hsorted ⊢
    have hih := ih hl
    rw [hrest, List.pairwise_append] at hih
    obtain ⟨hpre, hpost, hcross⟩ := hih
    have hmem : ∀ c ∈ after, c ∈ l := fun c hc => by
      rw [← (List.mergeSort_perm l le).mem_iff, hrest]
      exact List.mem_append_right before hc
    have hafter := (List.pairwise_cons.mp (List.pairwise_append.mp hsorted).2.1).1
    refine List.pairwise_append.mpr ⟨hpre, List.pairwise_cons.mpr ⟨fun c hc => ?_, hpost⟩,
      fun b hb c hc => ?_⟩
    · exact ⟨hafter c hc, fun _ => ha c (hmem c hc)⟩
    · rcases List.mem_cons.mp hc with rfl | hc
      · -- what comes before `a` is less than it
        have hlt : le c b = false := by simpa using hbefore b hb
        refine ⟨?_, fun hle => absurd (hlt.symm.trans hle) Bool.false_ne_true⟩
        simpa [hlt] using total b c
      · exact hcross b hb c hc

/-- **There is one order.** -/
theorem eq_of_perm (asymm : ∀ a b, t a b → ¬ t b a) {l l' : List α}
    (h : l.Pairwise (Then le t)) (h' : l'.Pairwise (Then le t)) (hp : l.Perm l') : l = l' := by
  refine List.Perm.eq_of_pairwise (fun a b _ _ hab hba => ?_) h h' hp
  exact absurd (hba.2 hab.1) (asymm a b (hab.2 hba.1))

/-- **What is first is before all others.** -/
theorem rel_of_head?_insertionSort {r : α → α → Prop} [DecidableRel r] [Std.Total r]
    [IsTrans α r] {l : List α} {a b : α} (h : (l.insertionSort r).head? = some a)
    (hb : b ∈ l) : r a b := by
  have hsorted := List.pairwise_insertionSort r l
  obtain ⟨tail, htail⟩ := List.head?_eq_some_iff.mp h
  rw [← List.mem_insertionSort r] at hb
  rw [htail] at hsorted hb
  obtain rfl | hb := List.mem_cons.mp hb
  · exact (Std.Total.total (r := r) b b).elim id id
  · exact (List.pairwise_cons.mp hsorted).1 b hb

end StableSort
