import Mathlib.Data.List.Lex
import Mathlib.Order.Lattice

/-!
# The order of texts that are split

A text that is split at a letter is a list of pieces. Where the letter comes before all
others, the lexicographic order of the lists of pieces is the lexicographic order of the
texts: a piece that ends where the other goes on is followed by the letter, or by nothing.
-/

namespace SplitOrder

variable {α : Type*} [LinearOrder α] {sep : α} {s t : List α}

/-- **A text of letters that do not come before `sep`.** -/
def Above (sep : α) (s : List α) : Prop := ∀ a ∈ s, sep ≤ a

theorem splitOn_cons_self (s : List α) : (sep :: s).splitOn sep = [] :: s.splitOn sep := by
  rw [List.splitOn_eq_splitOnP, List.splitOnP_cons_eq_if_modifyHead, if_pos (beq_self_eq_true sep),
    List.splitOn_eq_splitOnP]

theorem splitOn_cons_of_ne {a : α} (h : a ≠ sep) (s : List α) :
    (a :: s).splitOn sep = (s.splitOn sep).modifyHead (a :: ·) := by
  rw [List.splitOn_eq_splitOnP, List.splitOnP_cons_eq_if_modifyHead,
    if_neg (by rwa [beq_iff_eq]), List.splitOn_eq_splitOnP]

theorem exists_splitOn (sep : α) (s : List α) : ∃ p ps, s.splitOn sep = p :: ps := by
  rw [List.splitOn_eq_splitOnP]
  exact List.exists_cons_of_ne_nil (List.splitOnP_ne_nil _ s)

/-- The list of pieces of a text that begins with another letter than `sep`. -/
theorem exists_splitOn_cons {a : α} (h : a ≠ sep) (s : List α) :
    ∃ p ps, s.splitOn sep = p :: ps ∧ (a :: s).splitOn sep = (a :: p) :: ps := by
  obtain ⟨p, ps, hp⟩ := exists_splitOn sep s
  exact ⟨p, ps, hp, by rw [splitOn_cons_of_ne h, hp, List.modifyHead_cons]⟩

/-- The letters of the pieces. -/
theorem mem_of_mem_splitOn {p : List α} (hp : p ∈ s.splitOn sep) {a : α} (ha : a ∈ p) :
    a ∈ s ∧ a ≠ sep := by
  induction s generalizing p with
  | nil =>
    rw [List.mem_singleton.mp hp] at ha
    exact absurd ha (by simp)
  | cons b s ih =>
    by_cases hb : b = sep
    · rw [hb, splitOn_cons_self] at hp
      obtain rfl | hp := List.mem_cons.mp hp
      · exact absurd ha (by simp)
      · exact (ih hp ha).imp_left (List.mem_cons_of_mem _)
    · obtain ⟨q, qs, hq, hbq⟩ := exists_splitOn_cons hb s
      rw [hbq] at hp
      obtain rfl | hp := List.mem_cons.mp hp
      · obtain rfl | ha := List.mem_cons.mp ha
        · exact ⟨List.mem_cons_self, hb⟩
        · exact (ih (hq ▸ List.mem_cons_self) ha).imp_left (List.mem_cons_of_mem _)
      · exact (ih (hq ▸ List.mem_cons_of_mem _ hp) ha).imp_left (List.mem_cons_of_mem _)

theorem splitOn_lt_of_lt (hs : Above sep s) (ht : Above sep t) (h : s < t) :
    s.splitOn sep < t.splitOn sep := by
  induction s generalizing t with
  | nil =>
    cases t with
    | nil => exact absurd h (by simp)
    | cons b t =>
      show [[]] < _
      by_cases hb : b = sep
      · obtain ⟨q, qs, hq⟩ := exists_splitOn sep t
        rw [hb, splitOn_cons_self, hq]
        exact .cons .nil
      · obtain ⟨q, qs, -, hq⟩ := exists_splitOn_cons hb t
        rw [hq]
        exact .rel .nil
  | cons a s ih =>
    cases t with
    | nil => exact absurd h (by simp)
    | cons b t =>
      have hsa : sep ≤ a := hs a List.mem_cons_self
      obtain hab | ⟨rfl, hst⟩ := List.cons_lt_cons_iff.mp h
      · -- the second letter is not `sep`, which nothing is before
        obtain ⟨q, qs, -, hq⟩ := exists_splitOn_cons (lt_of_le_of_lt hsa hab).ne' t
        rw [hq]
        by_cases ha : a = sep
        · rw [ha, splitOn_cons_self]
          exact .rel .nil
        · obtain ⟨p, ps, -, hp⟩ := exists_splitOn_cons ha s
          rw [hp]
          exact .rel (.rel hab)
      · have hrest := ih (fun c hc => hs c (List.mem_cons_of_mem _ hc))
          (fun c hc => ht c (List.mem_cons_of_mem _ hc)) hst
        by_cases ha : a = sep
        · rw [ha, splitOn_cons_self, splitOn_cons_self]
          exact .cons hrest
        · obtain ⟨p, ps, hp, hap⟩ := exists_splitOn_cons ha s
          obtain ⟨q, qs, hq, haq⟩ := exists_splitOn_cons ha t
          rw [hp, hq, List.cons_lt_cons_iff] at hrest
          rw [hap, haq]
          obtain hpq | ⟨rfl, hpqs⟩ := hrest
          · exact .rel (.cons hpq)
          · exact .cons hpqs

/-- **The order of the pieces is the order of the texts.** -/
theorem splitOn_lt_iff (hs : Above sep s) (ht : Above sep t) :
    s.splitOn sep < t.splitOn sep ↔ s < t := by
  refine ⟨fun h => ?_, splitOn_lt_of_lt hs ht⟩
  obtain hlt | rfl | hgt := lt_trichotomy s t
  · exact hlt
  · exact absurd h (lt_irrefl _)
  · exact absurd h (lt_asymm (splitOn_lt_of_lt ht hs hgt))

end SplitOrder
