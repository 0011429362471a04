import Actjs.Lifecycle

/-!
# Crashes

A crash takes the memory of the process and leaves storage as it is. The
next process constructs a new host over what is there, so the life of an
actor is a sequence of hosts, all of one configuration and each but the last
cut short at an arbitrary point. What was in flight to the driver at that
point is lost; what had landed is kept.
-/

variable {S Env Op : Type}

/-- **The lives of an actor**: its host, and the hosts that crashed before
it, each as it was then and the last one first. -/
structure Lives (S Env Op : Type) where
  sys : Sys S Env Op
  crashed : List (Sys S Env Op)

/-- What can happen in the lives of an actor: a step of its host, or a
crash. -/
inductive Fate (Env : Type) where
  | act (a : Act Env)
  | crash

namespace Lives

variable {cfg : HostConfig S Env Op} {l l' : Lives S Env Op}

/-- An actor that storage has never heard of. -/
def init (cfg : HostConfig S Env Op) : Lives S Env Op :=
  ⟨.init cfg .empty, []⟩

/-- One step in the lives of an actor. -/
def step (cfg : HostConfig S Env Op) (l : Lives S Env Op) :
    Fate Env → Option (Lives S Env Op)
  | .act a => (l.sys.step cfg a).map (fun s => { l with sys := s })
  | .crash => some ⟨.init cfg l.sys.store, l.sys :: l.crashed⟩

/-- The steps: of the host, which leave the crashed ones as they are, and
the crash. -/
theorem step_cases {x : Fate Env} (h : l.step cfg x = some l') :
    (∃ a, x = .act a ∧ l.sys.step cfg a = some l'.sys
        ∧ l'.crashed = l.crashed)
      ∨ x = .crash ∧ l' = ⟨.init cfg l.sys.store, l.sys :: l.crashed⟩ := by
  cases x with
  | act a =>
    obtain ⟨s, hs, rfl⟩ := Option.map_eq_some_iff.mp h
    exact .inl ⟨a, rfl, hs, rfl⟩
  | crash => exact .inr ⟨rfl, (Option.some.inj h).symm⟩

/-- **What every step of a host preserves, and a new host over the same
storage has, holds in all lives of an actor.** -/
theorem run_invariant {P : Sys S Env Op → Prop}
    {G : Lives S Env Op → Fate Env → Prop}
    (hstep : ∀ (l : Lives S Env Op) (a : Act Env) (s' : Sys S Env Op),
      P l.sys → G l (.act a) → l.sys.step cfg a = some s' → P s')
    (hcrash : ∀ s : Sys S Env Op, P s → P (.init cfg s.store))
    {xs : List (Fate Env)} (h₀ : P l.sys)
    (hG : TransitionSystem.Along (step cfg) G l xs)
    (h : TransitionSystem.run (step cfg) l xs = some l') : P l'.sys :=
  TransitionSystem.run_invariant (step cfg) (P := fun l => P l.sys)
    (fun l x l' hP hG hs => by
      rcases step_cases hs with ⟨a, rfl, ha, -⟩ | ⟨rfl, rfl⟩
      · exact hstep l a l'.sys hP hG ha
      · exact hcrash l.sys hP) h₀ hG h

end Lives
