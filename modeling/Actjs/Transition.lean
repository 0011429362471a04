import Mathlib.Data.List.Basic
import Mathlib.Data.List.Induction
import Mathlib.Order.Defs.PartialOrder

/-!
# Labelled transition systems given by a step function

A system is a function `step : σ → α → Option σ`: a label that is not
enabled in a state gives `none`. Everything here is about one such
function, over arbitrary states and labels.

`run` executes a list of labels and `Along` says that a condition holds of
every step of an execution – a condition on the label and on the state
*before* the step, which is what a scheduler or a caller can be held to.
The rule everything else uses is `run_invariant`: what one step preserves
under the condition, an execution along which the condition holds
preserves. `run_induction` goes along an execution from its end, `Makes` says
at which moments of it a step is made, `run_mono` is for what never changes back,
`count_le_one` is about what an execution does at most once, and
`timed_invariant` is the rule for calls that are never refused but come at a time.
-/

namespace TransitionSystem

variable {σ α τ : Type*} (step : σ → α → Option σ)

/-- Execute a list of labels, stopping at the first one not enabled. -/
def run : σ → List α → Option σ
  | s, [] => some s
  | s, a :: as => (step s a).bind (fun s' => run s' as)

@[simp] theorem run_nil (s : σ) : run step s [] = some s := rfl

@[simp] theorem run_cons (s : σ) (a : α) (as : List α) :
    run step s (a :: as) = (step s a).bind (fun s' => run step s' as) := rfl

/-- An execution of a concatenation is an execution of both parts. -/
theorem run_append (s : σ) (as bs : List α) :
    run step s (as ++ bs)
      = (run step s as).bind (fun s' => run step s' bs) := by
  induction as generalizing s with
  | nil => rfl
  | cons a as ih =>
    rw [List.cons_append, run_cons, run_cons]
    cases step s a with
    | none => rfl
    | some s' => exact ih s'

/-- **The condition `G` holds of every step** that executing the labels
takes. -/
def Along (G : σ → α → Prop) : σ → List α → Prop
  | _, [] => True
  | s, a :: as =>
    G s a ∧ match step s a with
      | none => True
      | some s' => Along G s' as

/-- A decidable condition on steps is decidable along an execution. -/
def decidableAlong (G : σ → α → Prop) [∀ s a, Decidable (G s a)] :
    ∀ (as : List α) (s : σ), Decidable (Along step G s as)
  | [], _ => isTrue trivial
  | a :: as, s =>
    match h : step s a with
    | none => decidable_of_iff (G s a) (by simp [Along, h])
    | some s' =>
      have := decidableAlong G as s'
      decidable_of_iff (G s a ∧ Along step G s' as) (by simp [Along, h])

instance (G : σ → α → Prop) [∀ s a, Decidable (G s a)] (s : σ)
    (as : List α) : Decidable (Along step G s as) :=
  decidableAlong step G as s

theorem along_cons {G : σ → α → Prop} {s s' : σ} {a : α} {as : List α}
    (h : Along step G s (a :: as)) (hs : step s a = some s') :
    G s a ∧ Along step G s' as := by
  simpa only [Along, hs] using h

/-- A condition that always holds holds along every execution. -/
theorem along_of_forall {G : σ → α → Prop} (h : ∀ s a, G s a) (s : σ)
    (as : List α) : Along step G s as := by
  induction as generalizing s with
  | nil => trivial
  | cons a as ih =>
    refine ⟨h s a, ?_⟩
    cases step s a with
    | none => trivial
    | some s' => exact ih s'

/-- A condition on labels alone holds along an execution of such labels. -/
theorem along_of_mem {G : α → Prop} {as : List α} (h : ∀ a ∈ as, G a) (s : σ) :
    Along step (fun _ a => G a) s as := by
  induction as generalizing s with
  | nil => trivial
  | cons a as ih =>
    refine ⟨h a List.mem_cons_self, ?_⟩
    cases step s a with
    | none => trivial
    | some s' => exact ih (fun b hb => h b (List.mem_cons_of_mem _ hb)) s'

/-- A weaker condition holds along the same executions. -/
theorem Along.mono {G H : σ → α → Prop} (hGH : ∀ s a, G s a → H s a)
    {s : σ} {as : List α} (h : Along step G s as) : Along step H s as := by
  induction as generalizing s with
  | nil => trivial
  | cons a as ih =>
    refine ⟨hGH s a h.1, ?_⟩
    have h₂ := h.2
    cases hs : step s a with
    | none => trivial
    | some s' =>
      rw [hs] at h₂
      exact ih h₂

/-- Two conditions that hold along an execution hold along it together. -/
theorem Along.and {G H : σ → α → Prop} {s : σ} {as : List α}
    (hG : Along step G s as) (hH : Along step H s as) :
    Along step (fun s a => G s a ∧ H s a) s as := by
  induction as generalizing s with
  | nil => trivial
  | cons a as ih =>
    refine ⟨⟨hG.1, hH.1⟩, ?_⟩
    have hG₂ := hG.2
    have hH₂ := hH.2
    cases hs : step s a with
    | none => trivial
    | some s' =>
      rw [hs] at hG₂ hH₂
      exact ih hG₂ hH₂

/-- **The invariant rule.** What every step taken under `G` preserves, an
execution along which `G` holds preserves. -/
theorem run_invariant {P : σ → Prop} {G : σ → α → Prop}
    (hstep : ∀ s a s', P s → G s a → step s a = some s' → P s')
    {s s' : σ} {as : List α} (h₀ : P s) (hG : Along step G s as)
    (hrun : run step s as = some s') : P s' := by
  induction as generalizing s with
  | nil =>
    rw [run_nil, Option.some.injEq] at hrun
    exact hrun ▸ h₀
  | cons a as ih =>
    rw [run_cons, Option.bind_eq_some_iff] at hrun
    obtain ⟨t, ht, hrun⟩ := hrun
    obtain ⟨hGa, hGas⟩ := along_cons step hG ht
    exact ih (hstep s a t h₀ hGa ht) hGas hrun

/-- The invariant rule for a property no condition is needed for. -/
theorem run_invariant' {P : σ → Prop}
    (hstep : ∀ s a s', P s → step s a = some s' → P s')
    {s s' : σ} {as : List α} (h₀ : P s)
    (hrun : run step s as = some s') : P s' :=
  run_invariant step (G := fun _ _ => True)
    (fun s a s' hP _ h => hstep s a s' hP h) h₀
    (along_of_forall step (fun _ _ => trivial) s as) hrun

/-- **What holds along an execution.** A property that an invariant and the
condition on a step give of the step holds along every execution along which the
condition does. -/
theorem along_invariant {P : σ → Prop} {G H : σ → α → Prop}
    (hstep : ∀ s a s', P s → G s a → step s a = some s' → P s')
    (hH : ∀ s a, P s → G s a → H s a) {s : σ} {as : List α} (h₀ : P s)
    (hG : Along step G s as) : Along step H s as := by
  induction as generalizing s with
  | nil => trivial
  | cons a as ih =>
    refine ⟨hH s a h₀ hG.1, ?_⟩
    have hG₂ := hG.2
    cases hs : step s a with
    | none => trivial
    | some s' =>
      rw [hs] at hG₂
      exact ih (hstep s a s' h₀ hG.1 hs) hG₂

/-- A condition along an execution holds along the first part of it. -/
theorem Along.left {G : σ → α → Prop} {s : σ} {as bs : List α}
    (h : Along step G s (as ++ bs)) : Along step G s as := by
  induction as generalizing s with
  | nil => trivial
  | cons a as ih =>
    refine ⟨h.1, ?_⟩
    have h₂ := h.2
    cases hs : step s a with
    | none => trivial
    | some s' =>
      rw [hs] at h₂
      exact ih h₂

/-- A condition along an execution holds along what comes after a part of it. -/
theorem Along.of_append {G : σ → α → Prop} {s s' : σ} {as bs : List α}
    (h : Along step G s (as ++ bs)) (hrun : run step s as = some s') :
    Along step G s' bs := by
  induction as generalizing s with
  | nil =>
    obtain rfl := Option.some.inj hrun
    exact h
  | cons a as ih =>
    rw [run_cons, Option.bind_eq_some_iff] at hrun
    obtain ⟨t, ht, hrun⟩ := hrun
    exact ih (along_cons step h ht).2 hrun

/-- Where a condition does not hold along an execution there is a step that does not
meet it. -/
theorem exists_of_not_along {G : σ → α → Prop} {s s' : σ} {as : List α}
    (hrun : run step s as = some s') (h : ¬Along step G s as) :
    ∃ bs a cs t t', as = bs ++ a :: cs ∧ run step s bs = some t ∧ ¬G t a
      ∧ step t a = some t' ∧ run step t' cs = some s' := by
  induction as generalizing s with
  | nil => exact absurd trivial h
  | cons a as ih =>
    rw [run_cons, Option.bind_eq_some_iff] at hrun
    obtain ⟨t, ht, hrun⟩ := hrun
    by_cases hG : G s a
    · have hrest : ¬Along step G t as := fun hrest => h ⟨hG, by rw [ht]; exact hrest⟩
      obtain ⟨bs, b, cs, u, u', rfl, hbs, hb, hu, hcs⟩ := ih hrun hrest
      exact ⟨a :: bs, b, cs, u, u', rfl, by rw [run_cons, ht]; exact hbs, hb, hu, hcs⟩
    · exact ⟨[], a, as, s, t, rfl, rfl, hG, ht, hrun⟩

/-- **The monotonicity rule.** A reflexive and transitive relation between
a state and its successors relates the two ends of every execution. -/
theorem run_mono {R : σ → σ → Prop} (hrefl : ∀ s, R s s)
    (htrans : ∀ s t u, R s t → R t u → R s u)
    (hstep : ∀ s a s', step s a = some s' → R s s')
    {s s' : σ} {as : List α} (hrun : run step s as = some s') : R s s' := by
  induction as generalizing s with
  | nil =>
    rw [run_nil, Option.some.injEq] at hrun
    exact hrun ▸ hrefl s
  | cons a as ih =>
    rw [run_cons, Option.bind_eq_some_iff] at hrun
    obtain ⟨t, ht, hrun⟩ := hrun
    exact htrans s t s' (hstep s a t ht) (ih hrun)

/-- **The invariant rule with a history.** What relates a state to what `f` makes of
the labels so far is related at the end to what `f` makes of all of them. -/
theorem run_history {P : σ → τ → Prop} {f : τ → α → τ}
    (hstep : ∀ s a s' b, P s b → step s a = some s' → P s' (f b a)) {s s' : σ} {b : τ}
    {as : List α} (h₀ : P s b) (hrun : run step s as = some s') : P s' (as.foldl f b) := by
  induction as generalizing s b with
  | nil =>
    obtain rfl := Option.some.inj hrun
    exact h₀
  | cons a as ih =>
    rw [run_cons, Option.bind_eq_some_iff] at hrun
    obtain ⟨t, ht, hrun⟩ := hrun
    exact ih (hstep s a t b h₀ ht) hrun

/-- **Induction on an execution, from its end**: what holds before the first step, and of the
labels so far and the state that they lead to when one step more is made, holds of all. -/
theorem run_induction {P : List α → σ → Prop} {s₀ : σ} (hnil : P [] s₀)
    (hsnoc : ∀ as s a s', run step s₀ as = some s → P as s → step s a = some s' →
      P (as ++ [a]) s') {s : σ} {as : List α} (hrun : run step s₀ as = some s) : P as s := by
  induction as using List.reverseRecOn generalizing s with
  | nil =>
    obtain rfl := Option.some.inj hrun
    exact hnil
  | append_singleton as a ih =>
    rw [run_append, Option.bind_eq_some_iff] at hrun
    obtain ⟨t, ht, hrun⟩ := hrun
    rw [run_cons, Option.bind_eq_some_iff] at hrun
    obtain ⟨s', hs', hrun⟩ := hrun
    obtain rfl := Option.some.inj hrun
    exact hsnoc as t a s' ht (ih ht) hs'

/-! ## The moments of an execution

`Makes` points at one step of an execution, with the state before it, so that
a condition can be put on the states in which some step is made. -/

/-- **The step `a` is made in `t`**, among those that executing the labels
from `s` takes. The state is the one before the step. -/
def Makes (s : σ) (as : List α) (a : α) (t : σ) : Prop :=
  ∃ before after, as = before ++ a :: after ∧ run step s before = some t

/-- The last step is made in the state that those before it lead to, -/
theorem makes_last {s t : σ} {as : List α} (h : run step s as = some t) (a : α) :
    Makes step s (as ++ [a]) a t := ⟨as, [], rfl, h⟩

/-- and one that has been made stays so. -/
theorem Makes.append {s t : σ} {as : List α} {a : α} (h : Makes step s as a t) (bs : List α) :
    Makes step s (as ++ bs) a t := by
  obtain ⟨before, after, rfl, hrun⟩ := h
  exact ⟨before, after ++ bs, by rw [List.append_assoc, List.cons_append], hrun⟩

/-! ## How often something happens

What an execution does at most once is what no step can do again;
`timed_invariant` is for functions that are total and take the time as an
argument. -/

/-- How many of the steps that executing the labels takes are as `p` says. -/
def count (p : σ → α → Bool) : σ → List α → ℕ
  | _, [] => 0
  | s, a :: as =>
    match step s a with
    | none => 0
    | some s' => (if p s a = true then 1 else 0) + count p s' as

theorem count_cons {p : σ → α → Bool} {s s' : σ} {a : α} (hs : step s a = some s')
    (as : List α) : count step p s (a :: as)
      = (if p s a = true then 1 else 0) + count step p s' as := by
  rw [count, hs]

/-- What no state with `Q` does, and every step keeps `Q`, never happens. -/
theorem count_eq_zero {Q : σ → Prop} {p : σ → α → Bool}
    (hstep : ∀ s a s', Q s → step s a = some s' → Q s')
    (hp : ∀ s a s', Q s → step s a = some s' → p s a = false) {s : σ} (h₀ : Q s)
    (as : List α) : count step p s as = 0 := by
  induction as generalizing s with
  | nil => rfl
  | cons a as ih =>
    cases hs : step s a with
    | none => rw [count, hs]
    | some s' =>
      rw [count_cons step hs, hp s a s' h₀ hs, ih (hstep s a s' h₀ hs)]
      rfl

/-- **What can be done once**: where doing it leads to a state with `Q`, in which
it cannot be done and which no step leaves. -/
theorem count_le_one {P Q : σ → Prop} {p : σ → α → Bool}
    (hP : ∀ s a s', P s → step s a = some s' → P s')
    (hdone : ∀ s a s', P s → p s a = true → step s a = some s' → Q s')
    (hQ : ∀ s a s', P s → Q s → step s a = some s' → Q s')
    (hp : ∀ s a s', P s → Q s → step s a = some s' → p s a = false) {s : σ} (h₀ : P s)
    (as : List α) : count step p s as ≤ 1 := by
  induction as generalizing s with
  | nil => exact Nat.zero_le _
  | cons a as ih =>
    cases hs : step s a with
    | none => rw [count, hs]; exact Nat.zero_le _
    | some s' =>
      have h₁ := hP s a s' h₀ hs
      rw [count_cons step hs]
      by_cases hpa : p s a = true
      · have hnone : count step p s' as = 0 :=
          count_eq_zero step (Q := fun s => P s ∧ Q s)
            (fun s a s' h hs => ⟨hP s a s' h.1 hs, hQ s a s' h.1 h.2 hs⟩)
            (fun s a s' h hs => hp s a s' h.1 h.2 hs)
            ⟨h₁, hdone s a s' h₀ hpa hs⟩ as
        exact Nat.le_of_eq (by rw [if_pos hpa, hnone])
      · rw [if_neg hpa, Nat.zero_add]
        exact ih h₁

/-- **What time does not end, and no fit call ends, holds after fit calls** that a clock
which does not go back gives their times. -/
theorem timed_invariant {T : Type*} [Preorder T] (call : σ → T → α → σ) {P : σ → T → Prop}
    {Q : T × α → Prop} (hmono : ∀ s t t', t ≤ t' → P s t → P s t')
    (hcall : ∀ s t a, Q (t, a) → P s t → P (call s t a) t) {s : σ} {t t' : T}
    {calls : List (T × α)} (h : P s t)
    (hclock : (t :: (calls.map Prod.fst ++ [t'])).Pairwise (· ≤ ·))
    (hfit : ∀ tc ∈ calls, Q tc) :
    P (calls.foldl (fun s tc => call s tc.1 tc.2) s) t' := by
  induction calls generalizing s t with
  | nil => exact hmono s t t' ((List.pairwise_cons.mp hclock).1 t' (by simp)) h
  | cons tc calls ih =>
    obtain ⟨u, a⟩ := tc
    obtain ⟨hle, hrest⟩ := List.pairwise_cons.mp hclock
    have hat := hmono s t u (hle u List.mem_cons_self) h
    exact ih (hcall s u a (hfit _ List.mem_cons_self) hat) hrest
      (fun tc htc => hfit tc (List.mem_cons_of_mem _ htc))

end TransitionSystem
