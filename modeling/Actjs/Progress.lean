import Mathlib.Algebra.Order.BigOperators.Group.Finset
import Actjs.Promises
import Actjs.SerialTurns
import Actjs.WorkLeft

/-!
# A host runs out of steps

Nothing a host does by itself goes on forever. What it has left to do,
`Sys.due`, is compared by who makes work for whom: an activation replays an
inbox, a request puts an item into the mailbox, an item is a turn, and a turn,
an activation or a deactivation issues snapshot writes. `Sys.due_step` says that
each internal step leaves less.

## What a host does by itself

A host goes on by itself where one of its functions is suspended at an await of
the runtime, where the driver has an operation to settle, and where the debounce
timer is armed. It does not where a handler or a hook is at an await of its own:
what the author of the class awaits is nothing the host knows of, and may never
be over. A handler that calls its own actor, for one, awaits an item that its own
worker would have to take. So a step that goes on with user code is no step of
the host's own, `Sys.own`.
-/

open Function (update)

variable {S Env Op : Type}

/-- **The step is internal**: a suspended function goes on, the driver settles
an operation, or the debounce timer fires. Anything else is asked for, or is the
idle timer. -/
def Act.internal : Act Env → Bool
  | tellLand _ _ => true
  | tellResume _ => true
  | callResume _ => true
  | activation _ _ => true
  | worker _ _ _ => true
  | deactivation _ => true
  | idleEvict => true
  | snapshotFire => true
  | flushResume _ => true
  | save _ _ => true
  | _ => false

/-! ## User code

Which steps go on with user code that was awaiting something of its own. -/

/-- A hook is at an await of its own. -/
def HookPc.inUser : HookPc S → Bool
  | running _ => true
  | returned _ => false

/-- An activation awaits user code: a hook, or what `migrate` has returned. -/
def ActPc.inUser : ActPc S Env → Bool
  | onInit pc => pc.inUser
  | migrate _ => true
  | onActivate pc => pc.inUser
  | _ => false

/-- A worker awaits user code: the handler is at an await of its own. -/
def WorkerPc.inUser : WorkerPc S → Bool
  | running _ _ => true
  | _ => false

/-- A deactivation awaits user code. -/
def DeactPc.inUser : DeactPc S → Bool
  | onDeactivate pc => pc.inUser
  | _ => false

/-- **The step goes on with user code**, at an await that is the user's own. -/
def Sys.resumesUser (s : Sys S Env Op) : Act Env → Bool
  | .activation _ _ => (s.host.activating.map ActPc.inUser).getD false
  | .worker g _ _ => (s.host.workers g).inUser
  | .deactivation _ => (s.host.deactivating.map (fun d => d.pc.inUser)).getD false
  | _ => false

/-- **The step is one that the host takes by itself**: it is internal, and waits
for no user code. -/
def Sys.own (s : Sys S Env Op) (a : Act Env) : Bool := a.internal && !s.resumesUser a

/-- An internal step that goes on with no user code is the host's own. -/
theorem Sys.own_of_internal {s : Sys S Env Op} {a : Act Env} (h : a.internal = true)
    (hu : s.resumesUser a = false) : s.own a = true := by
  rw [own, h, hu]
  rfl

/-! ## Requests -/

/-- How many steps a `tell()` still takes. -/
def TellPc.left : TellPc → ℕ
  | awaitActivate _ => 4
  | appending => 3
  | appended _ => 2
  | dropAcking _ => 1
  | resolved _ => 0
  | rejected _ _ => 0

/-- How many steps a `call()` still takes until the mailbox has it. -/
def CallPc.left : CallPc → ℕ
  | awaitActivate _ => 1
  | queued => 0
  | settled _ => 0
  | refused _ => 0

namespace Host

variable {h h' : Host S Env} {n i : ℕ}

/-- What the requests numbered `i` still take. -/
def requestLeft (h : Host S Env) (i : ℕ) : ℕ :=
  ((h.tells i).map (fun task => task.pc.left)).getD 0
    + ((h.calls i).map (fun task => task.pc.left)).getD 0

/-- What the first `n` requests still take. -/
def requestsLeft (h : Host S Env) (n : ℕ) : ℕ := ∑ i ∈ Finset.range n, h.requestLeft i

/-- All requests that were made are among the first `n`. -/
def Below (h : Host S Env) (n : ℕ) : Prop :=
  ∀ i, n ≤ i → h.tells i = none ∧ h.calls i = none

end Host

/-- The step is one of a `tell()`. -/
def Act.ofTell : Act Env → Bool
  | tellStart _ _ _ => true
  | tellLand _ _ => true
  | tellResume _ => true
  | _ => false

/-- The step is one of a `call()`, or may settle one. -/
def Act.ofCall : Act Env → Bool
  | callStart _ _ _ => true
  | callResume _ => true
  | worker _ _ _ => true
  | _ => false

namespace HostFlow

variable {f f' : HostFlow} {i : ℕ}

theorem Opening.requests (h : f.Opening f') : f'.tells = f.tells ∧ f'.calls = f.calls := by
  cases h <;> exact ⟨rfl, rfl⟩

theorem Closing.requests (h : f.Closing f') (hl : Lifecycle f.toLife) :
    f'.tells = f.tells ∧ f'.calls = f.calls := by
  cases h with
  | unattended _ hd ha hg => exact absurd hg (hl.present ha (by simp [hd])).1
  | _ => exact ⟨rfl, rfl⟩

theorem Activating.requests (h : f.Activating f') :
    f'.tells = f.tells ∧ f'.calls = f.calls := by
  cases h with
  | replayed hp =>
    rw [enqueueAll_frame]
    exact ⟨rfl, rfl⟩
  | _ => exact ⟨rfl, rfl⟩

namespace Moves

variable {a : Act Env}

/-- **Only its own steps move a tell.** -/
theorem tells_eq (hl : Lifecycle f.toLife) (hs : f.Moves f' a) (ha : a.ofTell = false) :
    f'.tells = f.tells := by
  cases a with
  | tellStart t type payload => exact absurd ha (by simp [Act.ofTell])
  | tellLand t ok => exact absurd ha (by simp [Act.ofTell])
  | tellResume t => exact absurd ha (by simp [Act.ofTell])
  | activate => exact (Opening.requests hs).1
  | callStart c method args =>
    obtain ⟨-, ⟨-, hc⟩ | ⟨f₁, task, ho, -, rfl⟩⟩ := hs
    · cases hc <;> rfl
    · exact ho.requests.1
  | callResume c =>
    obtain ⟨-, hc⟩ := hs
    cases hc <;> rfl
  | activation env ok => exact (Activating.requests hs).1
  | worker g env ok => cases hs <;> rfl
  | deactivate env => exact (Closing.requests hs hl).1
  | deactivation env => cases hs <;> rfl
  | destroy env => exact (Closing.requests hs hl).1
  | idleFire env => exact (Closing.requests hs hl).1
  | flushResume k =>
    obtain ⟨es, rfl⟩ := hs
    rfl
  | _ =>
    obtain rfl := hs
    rfl

/-- **Only its own steps, and those of a worker, move a call.** -/
theorem calls_eq (hl : Lifecycle f.toLife) (hs : f.Moves f' a) (ha : a.ofCall = false) :
    f'.calls = f.calls := by
  cases a with
  | callStart c method args => exact absurd ha (by simp [Act.ofCall])
  | callResume c => exact absurd ha (by simp [Act.ofCall])
  | worker g env ok => exact absurd ha (by simp [Act.ofCall])
  | activate => exact (Opening.requests hs).2
  | tellStart t type payload =>
    obtain ⟨-, f₁, task, ho, -, rfl⟩ := hs
    exact ho.requests.2
  | tellLand t ok => cases hs <;> rfl
  | tellResume t => cases hs <;> rfl
  | activation env ok => exact (Activating.requests hs).2
  | deactivate env => exact (Closing.requests hs hl).2
  | deactivation env => cases hs <;> rfl
  | destroy env => exact (Closing.requests hs hl).2
  | idleFire env => exact (Closing.requests hs hl).2
  | flushResume k =>
    obtain ⟨es, rfl⟩ := hs
    rfl
  | _ =>
    obtain rfl := hs
    rfl

end Moves

/-- **A worker settles at most the call in its hands.** -/
theorem Working.calls_eq {g : ℕ} (h : f.Working g f') :
    f'.calls = f.calls ∨ ∃ item r, f'.calls = settleItem f.calls item r := by
  cases h with
  | @refuse m x c e hg => exact .inr ⟨.call m x c, _, rfl⟩
  | @resolve m x c r hg => exact .inr ⟨.call m x c, _, rfl⟩
  | fail e hg => exact .inr ⟨_, _, rfl⟩
  | _ => exact .inl rfl

namespace Moves

variable {a : Act Env}

/-- A tell that is there was made. -/
theorem tells_none (hl : Lifecycle f.toLife) (hs : f.Moves f' a)
    (ha : ∀ type payload, a ≠ .tellStart i type payload) (h : f.tells i = none) :
    f'.tells i = none := by
  have hmoved : ∀ {t} {task task' : TellTask}, f.tells t = some task →
      update f.tells t (some task') i = none := by
    intro t task task' ht
    rw [Function.update_of_ne (fun he => absurd ((he ▸ h).symm.trans ht) (by simp))]
    exact h
  have htelling : ∀ {t}, f.Telling t f' → f'.tells i = none := by
    intro t ht
    cases ht with
    | move ht _ _ => exact hmoved ht
    | append ht => exact hmoved ht
    | closed ht _ => exact hmoved ht
    | drop ht _ => exact hmoved ht
    | accept ht _ => exact hmoved ht
    | dropAcked ht => exact hmoved ht
    | dropFailed ht => exact hmoved ht
  by_cases hof : a.ofTell = true
  · cases a with
    | tellStart t type payload =>
      obtain ⟨-, f₁, task, ho, -, rfl⟩ := hs
      have hne : i ≠ t := fun he => ha type payload (he ▸ rfl)
      exact (Function.update_of_ne hne _ _).trans (ho.requests.1 ▸ h)
    | tellLand t ok => exact htelling hs
    | tellResume t => exact htelling hs
    | _ => exact absurd hof (by simp [Act.ofTell])
  · rw [hs.tells_eq hl (by simpa using hof)]
    exact h

/-- A call that is there was made. -/
theorem calls_none (hl : Lifecycle f.toLife) (hs : f.Moves f' a)
    (ha : ∀ method args, a ≠ .callStart i method args) (h : f.calls i = none) :
    f'.calls i = none := by
  have hcalling : ∀ {c}, i ≠ c → f.Calling c f' → f'.calls i = none := by
    intro c hne hc
    cases hc <;> exact (Function.update_of_ne hne _ _).trans h
  by_cases hof : a.ofCall = true
  · cases a with
    | callStart c method args =>
      have hne : i ≠ c := fun he => ha method args (he ▸ rfl)
      obtain ⟨-, ⟨-, hc⟩ | ⟨f₁, task, ho, -, rfl⟩⟩ := hs
      · exact hcalling hne hc
      · exact (Function.update_of_ne hne _ _).trans (ho.requests.2 ▸ h)
    | callResume c =>
      obtain ⟨⟨task, ht, -⟩, hc⟩ := hs
      exact hcalling (fun he => absurd ((he ▸ h).symm.trans ht) (by simp)) hc
    | worker g env ok =>
      rcases Working.calls_eq hs with he | ⟨item, r, he⟩
      · rw [he]
        exact h
      · rw [he]
        cases item with
        | tell type payload id => exact h
        | call method args c =>
          rw [settleItem, Function.update_apply]
          split
          · next he => rw [← he, h]; rfl
          · exact h
    | _ => exact absurd hof (by simp [Act.ofCall])
  · rw [hs.calls_eq hl (by simpa using hof)]
    exact h

end Moves

end HostFlow


namespace Host.Below

variable {cfg : HostConfig S Env Op} {s s' : Sys S Env Op} {a : Act Env} {n : ℕ}

/-- An internal step makes no request. -/
theorem internal (hn : s.host.Below n) (hl : Lifecycle s.flow.toLife)
    (ha : a.internal = true) (hs : s.step cfg a = some s') : s'.host.Below n := by
  intro i hi
  have hm := Sys.flow_step hs
  refine ⟨hm.tells_none hl ?_ (hn i hi).1, hm.calls_none hl ?_ (hn i hi).2⟩
  · rintro type payload rfl
    exact absurd ha (by simp [Act.internal])
  · rintro method args rfl
    exact absurd ha (by simp [Act.internal])

/-- Any step makes at most one. -/
theorem step (hn : s.host.Below n) (hl : Lifecycle s.flow.toLife)
    (hs : s.step cfg a = some s') : ∃ m, s'.host.Below m := by
  have hm := Sys.flow_step hs
  -- beyond the number of the request that is made, if one is
  let made : ℕ := match a with
    | .tellStart t _ _ => t + 1
    | .callStart c _ _ => c + 1
    | _ => 0
  refine ⟨max n made, fun i hi => ?_⟩
  have hin : n ≤ i := le_trans (le_max_left _ _) hi
  have him : made ≤ i := le_trans (le_max_right _ _) hi
  refine ⟨hm.tells_none hl ?_ (hn i hin).1, hm.calls_none hl ?_ (hn i hin).2⟩
  · rintro type payload rfl
    exact absurd him (Nat.not_succ_le_self i)
  · rintro method args rfl
    exact absurd him (Nat.not_succ_le_self i)

end Host.Below

/-! ## What is left

A number, or a pair of them, for each kind of work, compared in the order of
who makes work for whom. -/

/-- How many steps a snapshot write still takes. -/
def SavePc.left : SavePc S → ℕ
  | toEncode _ => 2
  | toLand _ => 1
  | ended _ => 0

/-- What is left of snapshot writes, and of what the debounce timer and an eviction
still do. The timer issues a write, and awaits it. -/
def Host.asideLeft (h : Host S Env) : ℕ :=
  (if h.snapshotTimer = true then 4 else 0) + (h.saves.map (fun sv => sv.pc.left)).sum
    + h.timerFlushes.length + h.idleEvicts

/-- **What a host has left to do**, with its first `n` requests. -/
def Sys.due (n : ℕ) (s : Sys S Env Op) :
    (ℕ ×ₗ ℕ) ×ₗ ℕ ×ₗ (ℕ ×ₗ ℕ ×ₗ ℕ) ×ₗ (ℕ ×ₗ ℕ) ×ₗ ℕ :=
  toLex (s.host.actLeft, toLex (s.host.requestsLeft n,
    toLex (s.host.turnsLeft, toLex (s.host.deactLeft, s.host.asideLeft))))

namespace Sys

variable {cfg : HostConfig S Env Op} {s s' : Sys S Env Op} {env : Env} {ok : Bool}
  {n : ℕ}

/-- A tell that enqueues has at most an entry to ack. -/
theorem tells_tellEnqueue (s : Sys S Env Op) (t : ℕ) (type : String) (payload : Json)
    (id : ℕ) : ∃ pc : TellPc, pc.left ≤ 1
      ∧ (s.tellEnqueue t type payload id).host.tells
        = update s.host.tells t (some ⟨type, payload, pc⟩) := by
  unfold tellEnqueue
  dsimp only
  split
  · exact ⟨_, Nat.zero_le _, rfl⟩
  · exact ⟨_, le_rfl, rfl⟩
  · exact ⟨_, Nat.zero_le _, rfl⟩

/-- A call that enqueues waits for nothing but the worker. -/
theorem calls_callEnqueue (s : Sys S Env Op) (c : ℕ) (method : String) (args : Json) :
    ∃ pc : CallPc, pc.left = 0 ∧ (s.callEnqueue c method args).host.calls
      = update s.host.calls c (some ⟨method, args, pc⟩) := by
  unfold callEnqueue
  split
  · exact ⟨_, rfl, rfl⟩
  · split <;> exact ⟨_, rfl, rfl⟩

end Sys
