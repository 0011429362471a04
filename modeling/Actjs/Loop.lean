import Mathlib.Data.Nat.Notation
import Mathlib.Data.Prod.Lex
import Mathlib.Order.WellFounded

/-!
# Loops that end

A loop is a function `next : σ → Option (Except ε σ)`: `none` where the loop is
left, an error where an iteration throws. `run` executes it, given that some pair
of numbers goes down with every iteration.

`Reached` are the states at the head of the loop. What holds of the first and is
preserved by every iteration holds of all of them (`Reached.invariant`); so a run
ends in such a state, or throws in one (`run_ok`, `run_error`). `endsIn` and
`holdsAlong` execute a loop for so many iterations, for loops that are given.

A loop for which the pair goes down only in the states that it comes to has no `run`.
That it ends is said of `endsIn` (`exists_endsIn`), and `shown` is what its iterations
show on the way.
-/

namespace Loop

variable {σ ε : Type} {next : σ → Option (Except ε σ)} {size : σ → ℕ × ℕ}

/-- **An iteration makes the size smaller.** -/
def Shrinks (next : σ → Option (Except ε σ)) (size : σ → ℕ × ℕ) : Prop :=
  ∀ s s', next s = some (.ok s') → Prod.Lex (· < ·) (· < ·) (size s') (size s)

/-- Execute the loop. -/
def run (next : σ → Option (Except ε σ)) (size : σ → ℕ × ℕ) (h : Shrinks next size) (s : σ) :
    Except ε σ :=
  match _hn : next s with
  | none => .ok s
  | some (.error e) => .error e
  | some (.ok s') => run next size h s'
termination_by size s
decreasing_by exact h s s' ‹_›

theorem run_of_none {h : Shrinks next size} {s : σ} (hn : next s = none) :
    run next size h s = .ok s := by
  rw [run]
  split
  · rfl
  · next hn' => exact absurd (hn.symm.trans hn') (by simp)
  · next hn' => exact absurd (hn.symm.trans hn') (by simp)

theorem run_of_error {h : Shrinks next size} {s : σ} {e : ε} (hn : next s = some (.error e)) :
    run next size h s = .error e := by
  rw [run]
  split
  · next hn' => exact absurd (hn.symm.trans hn') (by simp)
  · next e' hn' =>
    obtain rfl := Except.error.inj (Option.some.inj (hn.symm.trans hn'))
    rfl
  · next hn' => exact absurd (hn.symm.trans hn') (by simp)

theorem run_of_ok {h : Shrinks next size} {s s' : σ} (hn : next s = some (.ok s')) :
    run next size h s = run next size h s' := by
  rw [run]
  split
  · next hn' => exact absurd (hn.symm.trans hn') (by simp)
  · next hn' => exact absurd (hn.symm.trans hn') (by simp)
  · next s₁ hn' =>
    obtain rfl := Except.ok.inj (Option.some.inj (hn.symm.trans hn'))
    rfl

/-- **The states at the head of the loop.** -/
inductive Reached (next : σ → Option (Except ε σ)) (s : σ) : σ → Prop
  | here : Reached next s s
  | next {s' s'' : σ} : Reached next s s' → next s' = some (.ok s'') → Reached next s s''

theorem Reached.of_next {s s' s'' : σ} (hn : next s = some (.ok s'))
    (h : Reached next s' s'') : Reached next s s'' := by
  induction h with
  | here => exact .next .here hn
  | next _ hn' ih => exact .next ih hn'

/-- **The invariant rule**, under a condition on the states at the head. -/
theorem Reached.invariant {G P : σ → Prop}
    (hstep : ∀ s s', P s → G s → next s = some (.ok s') → P s') {s s' : σ} (h₀ : P s)
    (hG : ∀ s', Reached next s s' → G s') (h : Reached next s s') : P s' := by
  induction h with
  | here => exact h₀
  | next hr hn ih => exact hstep _ _ ih (hG _ hr) hn

/-- A run that ends does so in a state at the head, where the loop is left. -/
theorem run_ok {h : Shrinks next size} {s s' : σ} (hr : run next size h s = .ok s') :
    Reached next s s' ∧ next s' = none := by
  induction s using run.induct next size h with
  | case1 s hn =>
    obtain rfl := Except.ok.inj ((run_of_none hn).symm.trans hr)
    exact ⟨.here, hn⟩
  | case2 s e hn => exact absurd ((run_of_error hn).symm.trans hr) (by simp)
  | case3 s s₁ hn ih =>
    obtain ⟨hreached, hdone⟩ := ih ((run_of_ok hn).symm.trans hr)
    exact ⟨hreached.of_next hn, hdone⟩

/-- A run that throws does so in an iteration from a state at the head. -/
theorem run_error {h : Shrinks next size} {s : σ} {e : ε} (hr : run next size h s = .error e) :
    ∃ s', Reached next s s' ∧ next s' = some (.error e) := by
  induction s using run.induct next size h with
  | case1 s hn => exact absurd ((run_of_none hn).symm.trans hr) (by simp)
  | case2 s e' hn =>
    obtain rfl := Except.error.inj ((run_of_error hn).symm.trans hr)
    exact ⟨s, .here, hn⟩
  | case3 s s₁ hn ih =>
    obtain ⟨s', hreached, hthrows⟩ := ih ((run_of_ok hn).symm.trans hr)
    exact ⟨s', hreached.of_next hn, hthrows⟩

/-! ## Loops that are given

For a loop over concrete values the number of iterations is known, and
counting them is all the measure that is needed. -/

/-- What the loop comes to within so many iterations. -/
def endsIn (next : σ → Option (Except ε σ)) : ℕ → σ → Option (Except ε σ)
  | 0, _ => none
  | n + 1, s =>
    match next s with
    | none => some (.ok s)
    | some (.error e) => some (.error e)
    | some (.ok s') => endsIn next n s'

theorem run_of_endsIn {h : Shrinks next size} {n : ℕ} {s : σ} {r : Except ε σ}
    (he : endsIn next n s = some r) : run next size h s = r := by
  induction n generalizing s with
  | zero => exact absurd he (by simp [endsIn])
  | succ n ih =>
    rw [endsIn] at he
    split at he
    · next hn => exact (run_of_none hn).trans (Option.some.inj he)
    · next hn => exact (run_of_error hn).trans (Option.some.inj he)
    · next hn => exact (run_of_ok hn).trans (ih he)

/-- **A loop ends** where an invariant makes every iteration bring the size down. -/
theorem exists_endsIn {P : σ → Prop} (hstep : ∀ s s', P s → next s = some (.ok s') →
    P s' ∧ Prod.Lex (· < ·) (· < ·) (size s') (size s)) {s : σ} (h₀ : P s) :
    ∃ n r, endsIn next n s = some r := by
  have hwf : WellFounded (InvImage (Prod.Lex (· < ·) (· < ·)) size) :=
    InvImage.wf size (Prod.lex Nat.lt_wfRel Nat.lt_wfRel).wf
  induction s using hwf.induction with
  | _ s ih =>
    cases hn : next s with
    | none => exact ⟨1, .ok s, by rw [endsIn, hn]⟩
    | some r =>
      cases r with
      | error e => exact ⟨1, .error e, by rw [endsIn, hn]⟩
      | ok s' =>
        obtain ⟨hP, hlt⟩ := hstep s s' h₀ hn
        obtain ⟨n, r, hr⟩ := ih s' hlt hP
        exact ⟨n + 1, r, by rw [endsIn, hn]; exact hr⟩

/-- What so many iterations show, also one that throws. -/
def shown {β : Type} (next : σ → Option (Except ε σ)) (show? : σ → Option β) : ℕ → σ → List β
  | 0, _ => []
  | n + 1, s =>
    (show? s).toList ++ match next s with
      | some (.ok s') => shown next show? n s'
      | _ => []

/-- The loop ends within so many iterations, and the condition holds at the head of
each. -/
def holdsAlong (next : σ → Option (Except ε σ)) (G : σ → Bool) : ℕ → σ → Bool
  | 0, _ => false
  | n + 1, s =>
    G s && match next s with
      | some (.ok s') => holdsAlong next G n s'
      | _ => true

theorem Reached.of_holdsAlong {G : σ → Bool} {n : ℕ} {s s' : σ}
    (h : holdsAlong next G n s = true) (hr : Reached next s s') : G s' = true := by
  have hhead : ∃ n, holdsAlong next G n s' = true := by
    induction hr with
    | here => exact ⟨n, h⟩
    | next _ hn ih =>
      obtain ⟨n, hn'⟩ := ih
      cases n with
      | zero => exact absurd hn' (by simp [holdsAlong])
      | succ n =>
        rw [holdsAlong, hn] at hn'
        exact ⟨n, (Bool.and_eq_true_iff.mp hn').2⟩
  obtain ⟨n, hn⟩ := hhead
  cases n with
  | zero => exact absurd hn (by simp [holdsAlong])
  | succ n =>
    rw [holdsAlong] at hn
    exact (Bool.and_eq_true_iff.mp hn).1

end Loop
