import Actjs.Codegen
import Actjs.LongestCommon

/-!
# The line diff

`lcsDiff` fills a table `dp` from its end, row by row, and walks it from its start: a line
that both lists have next is context, and otherwise a line of the old list is deleted or a
line of the new one added, whichever leaves the longer common subsequence.

Whatever the table says, the walk gives both lists back. That its table is the one of the
longest common subsequences is what makes the context as long as it can be.
-/

open Function (update)
open LongestCommon

namespace LineDiff

variable {α : Type} [DecidableEq α]

inductive DiffKind where
  | context
  | add
  | del
deriving DecidableEq

/-- `Op`. -/
structure DiffOp (α : Type) where
  kind : DiffKind
  line : α

/-! ## As the source computes it -/

/-- The cells of `dp`, all of them 0 at first. -/
abbrev Table := ℕ → ℕ → ℕ

/-- The body of the inner loop. -/
def fillCell (a b : List α) (i j : ℕ) (dp : Table) : Table :=
  update dp i (update (dp i) j
    (if a[i]? = b[j]? then dp (i + 1) (j + 1) + 1 else max (dp (i + 1) j) (dp i (j + 1))))

/-- The inner loop, from the column before `j` down to 0. -/
def fillRow (a b : List α) (i : ℕ) : ℕ → Table → Table
  | 0, dp => dp
  | j + 1, dp => fillRow a b i j (fillCell a b i j dp)

/-- The outer loop, from the row before `i` down to 0. -/
def fillRows (a b : List α) : ℕ → Table → Table
  | 0, dp => dp
  | i + 1, dp => fillRows a b i (fillRow a b i b.length dp)

/-- **The table of the lengths.** -/
def lcsTable (a b : List α) : Table := fillRows a b a.length (fun _ _ => 0)

/-- The walk from `i` and `j`, and after it what is left of either list. -/
def walk (dp : Table) (a b : List α) (i j : ℕ) : List (DiffOp α) :=
  if h : i < a.length ∧ j < b.length then
    if a[i] = b[j] then ⟨.context, a[i]⟩ :: walk dp a b (i + 1) (j + 1)
    else if dp i (j + 1) ≤ dp (i + 1) j then ⟨.del, a[i]⟩ :: walk dp a b (i + 1) j
    else ⟨.add, b[j]⟩ :: walk dp a b i (j + 1)
  else (a.drop i).map (DiffOp.mk .del) ++ (b.drop j).map (DiffOp.mk .add)
termination_by (a.length - i) + (b.length - j)

/-- **`lcsDiff`.** -/
def lcsDiff (a b : List α) : List (DiffOp α) := walk (lcsTable a b) a b 0 0

/-- A line of `unifiedDiff`. -/
def DiffOp.text (op : DiffOp String) : String :=
  match op.kind with
  | .context => " " ++ op.line
  | .add => "+" ++ op.line
  | .del => "-" ++ op.line

/-! ## The lines of a diff -/

/-- The lines of the operations of some kinds. -/
def linesOf (keep : DiffKind → Bool) (ops : List (DiffOp α)) : List α :=
  (ops.filter (fun op => keep op.kind)).map DiffOp.line

/-- The lines that are not added. -/
def oldLines (ops : List (DiffOp α)) : List α := linesOf (· != .add) ops

/-- The lines that are not deleted. -/
def newLines (ops : List (DiffOp α)) : List α := linesOf (· != .del) ops

def contextLines (ops : List (DiffOp α)) : List α := linesOf (· == .context) ops

section

omit [DecidableEq α]

variable (keep keep' : DiffKind → Bool) (op : DiffOp α) (ops ops' : List (DiffOp α))

theorem linesOf_append :
    linesOf keep (ops ++ ops') = linesOf keep ops ++ linesOf keep ops' := by
  rw [linesOf, List.filter_append, List.map_append]
  rfl

theorem linesOf_cons :
    linesOf keep (op :: ops)
      = if keep op.kind then op.line :: linesOf keep ops else linesOf keep ops := by
  rw [linesOf, List.filter_cons]
  split
  · rfl
  · rfl

theorem linesOf_map (kind : DiffKind) (lines : List α) :
    linesOf keep (lines.map (DiffOp.mk kind)) = if keep kind then lines else [] := by
  induction lines with
  | nil => simp [linesOf]
  | cons line lines ih =>
    rw [List.map_cons, linesOf_cons, ih]
    split
    · rfl
    · rfl

theorem linesOf_sublist (h : ∀ kind, keep kind = true → keep' kind = true) :
    (linesOf keep ops).Sublist (linesOf keep' ops) :=
  (ops.monotone_filter_right (fun op hop => h op.kind hop)).map _

end

/-! ## What the walk gives back

By induction on the two lists, for any table: the lines without those added
are the old ones, without those deleted the new ones. -/

section Walk

variable (dp : Table) (a b : List α) (i j : ℕ)

/-- **The walk gives the old list back**, whatever the table. -/
theorem oldLines_walk : oldLines (walk dp a b i j) = a.drop i := by
  unfold oldLines
  induction i, j using walk.induct dp a b with
  | case1 i j h heq ih =>
    rw [walk, dif_pos h, if_pos heq, linesOf_cons, ih]
    exact (List.drop_eq_getElem_cons h.1).symm
  | case2 i j h hne hle ih =>
    rw [walk, dif_pos h, if_neg hne, if_pos hle, linesOf_cons, ih]
    exact (List.drop_eq_getElem_cons h.1).symm
  | case3 i j h hne hle ih =>
    rw [walk, dif_pos h, if_neg hne, if_neg hle, linesOf_cons, ih]
    rfl
  | case4 i j h =>
    rw [walk, dif_neg h, linesOf_append, linesOf_map, linesOf_map]
    exact List.append_nil _

/-- **And the new one.** -/
theorem newLines_walk : newLines (walk dp a b i j) = b.drop j := by
  unfold newLines
  induction i, j using walk.induct dp a b with
  | case1 i j h heq ih =>
    rw [walk, dif_pos h, if_pos heq, linesOf_cons, ih, heq]
    exact (List.drop_eq_getElem_cons h.2).symm
  | case2 i j h hne hle ih =>
    rw [walk, dif_pos h, if_neg hne, if_pos hle, linesOf_cons, ih]
    rfl
  | case3 i j h hne hle ih =>
    rw [walk, dif_pos h, if_neg hne, if_neg hle, linesOf_cons, ih]
    exact (List.drop_eq_getElem_cons h.2).symm
  | case4 i j h =>
    rw [walk, dif_neg h, linesOf_append, linesOf_map, linesOf_map]
    exact List.nil_append _

variable {dp a b}

/-- **By the table of the lengths, the walk keeps as much context as there can be.** -/
theorem length_contextLines_walk
    (hdp : ∀ i j, dp i j = lcsLength (a.drop i) (b.drop j)) :
    (contextLines (walk dp a b i j)).length = lcsLength (a.drop i) (b.drop j) := by
  unfold contextLines
  induction i, j using walk.induct dp a b with
  | case1 i j h heq ih =>
    rw [walk, dif_pos h, if_pos heq, linesOf_cons, lcsLength_drop h.1 h.2, if_pos heq]
    show (linesOf _ _).length + 1 = _
    rw [ih]
  | case2 i j h hne hle ih =>
    rw [hdp, hdp] at hle
    rw [walk, dif_pos h, if_neg hne, if_pos (by rw [hdp, hdp]; exact hle), linesOf_cons,
      lcsLength_drop h.1 h.2, if_neg hne, max_eq_left hle]
    exact ih
  | case3 i j h hne hle ih =>
    rw [walk, dif_pos h, if_neg hne, if_neg hle, linesOf_cons, lcsLength_drop h.1 h.2,
      if_neg hne]
    rw [hdp, hdp] at hle
    rw [max_eq_right (Nat.le_of_not_le hle)]
    exact ih
  | case4 i j h =>
    rw [walk, dif_neg h, linesOf_append, linesOf_map, linesOf_map]
    show 0 = _
    rcases Nat.lt_or_ge i a.length with hi | hi
    · exact (lcsLength_drop_right (Nat.le_of_not_lt (fun hj => h ⟨hi, hj⟩))).symm
    · exact (lcsLength_drop_left hi).symm

end Walk

/-! ## The table -/

section Table

variable {a b : List α} {i j : ℕ} {dp : Table}

/-- The cells after column `j` of row `i`, this one included, are filled. -/
structure Filled (a b : List α) (i j : ℕ) (dp : Table) : Prop where
  filled : ∀ k l, i < k ∨ i = k ∧ j ≤ l → dp k l = lcsLength (a.drop k) (b.drop l)
  beside : ∀ k l, b.length ≤ l → dp k l = 0

theorem Filled.cell (h : Filled a b i (j + 1) dp) (hi : i < a.length) (hj : j < b.length) :
    Filled a b i j (fillCell a b i j dp) := by
  refine ⟨fun k l hkl => ?_, fun k l hl => ?_⟩
  · unfold fillCell
    rcases eq_or_ne i k with rfl | hik
    · rw [Function.update_self]
      rcases eq_or_ne j l with rfl | hjl
      · rw [Function.update_self, lcsLength_drop hi hj, List.getElem?_eq_getElem hi,
          List.getElem?_eq_getElem hj, h.filled (i + 1) (j + 1) (by omega),
          h.filled (i + 1) j (by omega), h.filled i (j + 1) (by omega)]
        simp only [Option.some.injEq]
      · rw [Function.update_of_ne (Ne.symm hjl)]
        exact h.filled i l (by omega)
    · rw [Function.update_of_ne (Ne.symm hik)]
      exact h.filled k l (by omega)
  · unfold fillCell
    rcases eq_or_ne i k with rfl | hik
    · rw [Function.update_self, Function.update_of_ne (by omega)]
      exact h.beside i l hl
    · rw [Function.update_of_ne (Ne.symm hik)]
      exact h.beside k l hl

theorem Filled.row (hi : i < a.length) (hj : j ≤ b.length) (h : Filled a b i j dp) :
    Filled a b i 0 (fillRow a b i j dp) := by
  induction j generalizing dp with
  | zero => exact h
  | succ j ih => exact ih (by omega) (h.cell hi (by omega))

theorem Filled.rows (hi : i ≤ a.length) (h : Filled a b i 0 dp) :
    Filled a b 0 0 (fillRows a b i dp) := by
  induction i generalizing dp with
  | zero => exact h
  | succ i ih =>
    -- of row `i` nothing is filled but what is beside the table
    have hrow : Filled a b i b.length dp := by
      refine ⟨fun k l hkl => ?_, h.beside⟩
      rcases hkl with hk | ⟨rfl, hl⟩
      · exact h.filled k l (by omega)
      · rw [h.beside i l hl, lcsLength_drop_right hl]
    exact ih (by omega) (hrow.row (by omega) le_rfl)

/-- **The table is the one of the longest common subsequences.** -/
theorem lcsTable_eq (a b : List α) (i j : ℕ) :
    lcsTable a b i j = lcsLength (a.drop i) (b.drop j) := by
  have hstart : Filled a b a.length 0 (fun _ _ => 0) := by
    refine ⟨fun k l hkl => ?_, fun _ _ _ => rfl⟩
    rw [lcsLength_drop_left (by omega)]
  exact (hstart.rows le_rfl).filled i j (by omega)

end Table

/-! ## The text -/

theorem lcsLength_eq (a b : List String) : UnifiedDiff.lcsLength a b = lcsLength a b := by
  induction a, b using UnifiedDiff.lcsLength.induct with
  | case1 b => rw [UnifiedDiff.lcsLength, lcsLength_nil_left]
  | case2 x a => rw [UnifiedDiff.lcsLength, lcsLength_nil_right]
  | case3 a y b ih => rw [UnifiedDiff.lcsLength, if_pos rfl, lcsLength_cons_self, ih]
  | case4 x a y b hne iha ihb =>
    rw [UnifiedDiff.lcsLength, if_neg hne, lcsLength_cons_ne hne, iha, ihb]

theorem map_text_walk (a b : List String) (i j : ℕ) :
    (walk (lcsTable a b) a b i j).map DiffOp.text
      = UnifiedDiff.lcsDiff (a.drop i) (b.drop j) := by
  induction i, j using walk.induct (lcsTable a b) a b with
  | case1 i j h heq ih =>
    rw [walk, dif_pos h, if_pos heq, List.map_cons, ih, List.drop_eq_getElem_cons h.1,
      List.drop_eq_getElem_cons h.2, UnifiedDiff.lcsDiff, if_pos heq]
    rfl
  | case2 i j h hne hle ih =>
    rw [walk, dif_pos h, if_neg hne, if_pos hle, List.map_cons, ih]
    rw [lcsTable_eq, lcsTable_eq, List.drop_eq_getElem_cons h.1,
      List.drop_eq_getElem_cons h.2] at hle
    rw [List.drop_eq_getElem_cons h.1, List.drop_eq_getElem_cons h.2,
      UnifiedDiff.lcsDiff, if_neg hne, if_pos (by rw [lcsLength_eq, lcsLength_eq]; exact hle)]
    rfl
  | case3 i j h hne hle ih =>
    rw [walk, dif_pos h, if_neg hne, if_neg hle, List.map_cons, ih]
    rw [lcsTable_eq, lcsTable_eq, List.drop_eq_getElem_cons h.1,
      List.drop_eq_getElem_cons h.2] at hle
    rw [List.drop_eq_getElem_cons h.1, List.drop_eq_getElem_cons h.2,
      UnifiedDiff.lcsDiff, if_neg hne, if_neg (by rw [lcsLength_eq, lcsLength_eq]; exact hle)]
    rfl
  | case4 i j h =>
    rw [walk, dif_neg h, List.map_append, List.map_map, List.map_map]
    rcases Nat.lt_or_ge i a.length with hi | hi
    · have hj : b.length ≤ j := Nat.le_of_not_lt (fun hj => h ⟨hi, hj⟩)
      rw [List.drop_eq_nil_of_le hj, List.drop_eq_getElem_cons hi, UnifiedDiff.lcsDiff]
      exact List.append_nil _
    · rw [List.drop_eq_nil_of_le hi, UnifiedDiff.lcsDiff]
      rfl

/-- **`unifiedDiff` writes the diff of the lines**, under its two names. -/
theorem unifiedDiff_of_ne {oldText newText : String} (h : oldText ≠ newText)
    (oldName newName : String) :
    unifiedDiff oldText newText oldName newName
      = Emit.joinLines (["--- " ++ oldName, "+++ " ++ newName]
        ++ (lcsDiff (oldText.splitOn "\n") (newText.splitOn "\n")).map DiffOp.text) := by
  rw [unifiedDiff, if_neg h, lcsDiff, map_text_walk]
  rfl

theorem unifiedDiff_eq_empty_iff (oldText newText oldName newName : String) :
    unifiedDiff oldText newText oldName newName = "" ↔ oldText = newText := by
  refine ⟨fun h => ?_, fun h => if_pos h⟩
  by_contra hne
  rw [unifiedDiff_of_ne hne] at h
  rw [Emit.joinLines, List.cons_append, List.cons_append, String.intercalate_cons_cons] at h
  have hlength := congrArg String.length h
  simp at hlength

/-- **A line diff is right**: its context and deleted lines are the old list, its context
and added lines the new one, and no common subsequence is longer than its context. And the
diff of two texts is empty when they are the same, and only then. -/
theorem lcsDiff_correct :
    (∀ a b : List α,
      oldLines (lcsDiff a b) = a ∧ newLines (lcsDiff a b) = b
        ∧ (contextLines (lcsDiff a b)).Sublist a ∧ (contextLines (lcsDiff a b)).Sublist b
        ∧ ∀ c : List α, c.Sublist a → c.Sublist b →
            c.length ≤ (contextLines (lcsDiff a b)).length)
      ∧ ∀ oldText newText oldName newName : String,
          unifiedDiff oldText newText oldName newName = "" ↔ oldText = newText := by
  refine ⟨fun a b => ?_, unifiedDiff_eq_empty_iff⟩
  have hold : oldLines (lcsDiff a b) = a := oldLines_walk _ a b 0 0
  have hnew : newLines (lcsDiff a b) = b := newLines_walk _ a b 0 0
  have hcontext : (contextLines (lcsDiff a b)).length = lcsLength a b :=
    length_contextLines_walk 0 0 (lcsTable_eq a b)
  refine ⟨hold, hnew, ?_, ?_, fun c ha hb => ?_⟩
  · have hsub : (contextLines (lcsDiff a b)).Sublist (oldLines (lcsDiff a b)) :=
      linesOf_sublist _ _ _ (fun kind h => by rw [beq_iff_eq.mp h]; rfl)
    rwa [hold] at hsub
  · have hsub : (contextLines (lcsDiff a b)).Sublist (newLines (lcsDiff a b)) :=
      linesOf_sublist _ _ _ (fun kind h => by rw [beq_iff_eq.mp h]; rfl)
    rwa [hnew] at hsub
  · rw [hcontext]
    exact length_le_lcsLength ha hb

end LineDiff
