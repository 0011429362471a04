import Actjs.OneClass
import Actjs.Progress

/-!
# A host comes to rest

Nothing a host waits for fails to come, but for user code. `Wakeful` is what lets
whoever waits go on: the activation a request waits for is in progress or has
settled, and the write that something awaits was handed to the driver. So a host
that has no step to take by itself waits for user code and nothing else,
`never_stuck`, and as its steps run out it comes to that, `comes_to_rest`.

## User code

A handler, a hook or `migrate` may await whatever its author likes. Some of that
never comes: a handler that calls its own actor, and awaits the answer, waits for
an item behind its own in the mailbox, while the worker that would take it waits
for the handler. The host is then paused, with the call unanswered, and the model
says so: what user code awaits is resumed by a step that is not the host's own,
and the request that it makes is a step like any other caller's.

Where no user code is awaited, a paused host is at rest: whatever was begun is
over, and the worker waits for a message.
-/

open Function (update)

variable {S Env Op : Type}

/-! ## What lets those who wait go on

An await of the runtime is of a promise or of a write. `Wakeful` says that the
promise is settled, or its activation is in progress, and that the write was
handed over. -/

/-- The promise of activation `i` is settled, or its activation is in progress. -/
def Host.Pledged (h : Host S Env) (i : ℕ) : Prop :=
  h.outcome i ≠ none ∨ i = h.activation ∧ h.activating ≠ none

/-- Something awaits snapshot write `k`. -/
def Host.Awaits (h : Host S Env) (k : ℕ) : Prop :=
  h.awaited = some k ∨ (∃ g, (h.workers g).awaits = some k)
    ∨ (∃ d, h.deactivating = some d ∧ d.pc.awaits = some k) ∨ k ∈ h.timerFlushes

/-- **Whoever waits can go on some day.** An await of the runtime is of
something that comes by itself: a promise that is settled, or whose activation
is in progress; or a write, which the driver has been given. It is what rules
a deadlock out that is not of the user's making. -/
structure Wakeful (s : Sys S Env Op) : Prop where
  /-- A `tell()` waits for an activation that settles. -/
  tells : ∀ t task i, s.host.tells t = some task → task.pc = .awaitActivate i →
    s.host.Pledged i
  /-- So does a `call()`. -/
  calls : ∀ c task i, s.host.calls c = some task → task.pc = .awaitActivate i →
    s.host.Pledged i
  /-- A write that is awaited was handed to the driver. -/
  saves : ∀ k, s.host.Awaits k → k < s.host.saves.length
  migrates : s.Migrates
  /-- The worker of the host has begun. -/
  worker : ∀ g, s.host.workerPromise = some g → s.host.workers g ≠ .absent

theorem Sys.phase_eq_idle {s : Sys S Env Op} :
    s.flow.phase = .idle ↔ s.host.activating = none := by
  unfold Sys.flow
  cases h : s.host.activating with
  | none => simp
  | some pc => cases pc <;> simp [ActPc.phase]

/-- **An activation in progress ends by its last segment**, and no other begins
before. -/
theorem HostFlow.Moves.activation {f f' : HostFlow} {a : Act Env}
    (hl : Lifecycle f.toLife) (hs : f.Moves f' a) (hp : f.phase ≠ .idle) :
    f'.activation = f.activation
      ∧ (f'.phase ≠ .idle ∨ f.phase = .finishing ∧ ∃ env ok, a = .activation env ok) := by
  have hopening : ∀ {f₁}, f.Opening f₁ → f₁ = f := by
    intro f₁ ho
    cases ho with
    | none => rfl
    | refuse ha hi => exact absurd hi hp
    | begin capacity hc ha hi => exact absurd hi hp
  have hsame : ∀ {f₁ : HostFlow}, f₁.activation = f.activation → f₁.phase = f.phase →
      f₁.activation = f.activation
        ∧ (f₁.phase ≠ .idle ∨ f.phase = .finishing ∧ ∃ env ok, a = .activation env ok) :=
    fun ha hph => ⟨ha, .inl (hph ▸ hp)⟩
  have hclosing : f.Closing f' → f'.activation = f.activation ∧ f'.phase = f.phase := by
    intro hc
    cases hc with
    | unattended _ hd ha hg => exact absurd hg (hl.present ha (by simp [hd])).1
    | _ => exact ⟨rfl, rfl⟩
  cases a with
  | activate => exact hopening hs ▸ hsame rfl rfl
  | tellStart t type payload =>
    obtain ⟨-, f₁, task, ho, -, rfl⟩ := hs
    obtain rfl := hopening ho
    exact hsame rfl rfl
  | tellLand t ok => cases hs <;> exact hsame rfl rfl
  | tellResume t => cases hs <;> exact hsame rfl rfl
  | callStart c method args =>
    obtain ⟨-, ⟨-, hc⟩ | ⟨f₁, task, ho, -, rfl⟩⟩ := hs
    · cases hc <;> exact hsame rfl rfl
    · obtain rfl := hopening ho
      exact hsame rfl rfl
  | callResume c =>
    obtain ⟨-, hc⟩ := hs
    cases hc <;> exact hsame rfl rfl
  | activation env ok =>
    cases hs with
    | replayed hr =>
      rw [HostFlow.enqueueAll_frame]
      exact ⟨rfl, .inl (by simp)⟩
    | settled hf => exact ⟨rfl, .inr ⟨hf, env, ok, rfl⟩⟩
    | _ => exact ⟨rfl, .inl (by simp)⟩
  | worker g env ok => cases hs <;> exact hsame rfl rfl
  | deactivate env => exact hsame (hclosing hs).1 (hclosing hs).2
  | deactivation env => cases hs <;> exact hsame rfl rfl
  | destroy env => exact hsame (hclosing hs).1 (hclosing hs).2
  | idleFire env => exact hsame (hclosing hs).1 (hclosing hs).2
  | flushResume k =>
    obtain ⟨es, rfl⟩ := hs
    exact hsame rfl rfl
  | _ =>
    obtain rfl := hs
    exact hsame rfl rfl

namespace Sys

variable {cfg : HostConfig S Env Op} {s s' : Sys S Env Op} {a : Act Env} {i k : ℕ}

/-- **A promise that is to be settled stays one.** -/
theorem pledged_step (hl : Lifecycle s.flow.toLife) (hs : s.step cfg a = some s')
    (h : s.host.Pledged i) : s'.host.Pledged i := by
  have hkept : s.host.outcome i ≠ none → s'.host.outcome i ≠ none := by
    intro ho
    rcases outcome_step hs with he | ⟨o, -, -, -, he⟩
    · rwa [he]
    · rw [he, Function.update_apply]
      split
      · simp
      · exact ho
  rcases h with h | ⟨rfl, h⟩
  · exact .inl (hkept h)
  · obtain ⟨he, hp | ⟨hf, env, ok, rfl⟩⟩ :=
      (flow_step hs).activation hl (mt phase_eq_idle.mp h)
    · exact .inr ⟨he.symm, mt phase_eq_idle.mpr hp⟩
    · refine .inl ?_
      obtain ⟨pc, hpc⟩ := Option.ne_none_iff_exists'.mp h
      rw [flow_phase hpc] at hf
      cases pc with
      | finishing o =>
        simp only [step, actStep, hpc] at hs
        obtain rfl := Option.some.inj hs
        simp
      | _ => exact absurd hf (by simp [ActPc.phase])

/-- `activate()` leaves the promise to be settled. -/
theorem pledged_activate (ha : s.host.activated ≠ true) :
    (s.activate cfg).host.Pledged (s.activate cfg).host.activation := by
  refine .inr ⟨rfl, ?_⟩
  unfold activate
  rw [if_neg ha]
  split
  · next h => exact Option.isSome_iff_ne_none.mp h
  · unfold beginActivation
    dsimp only
    split <;> simp [setActivating]

theorem requests_activate : (s.activate cfg).host.tells = s.host.tells
    ∧ (s.activate cfg).host.calls = s.host.calls :=
  (flow_activate cfg s).requests

/-- **A tell that waits for an activation** did so before, or has its promise to
wait for. -/
theorem tells_await (hl : Lifecycle s.flow.toLife) (hs : s.step cfg a = some s') {t : ℕ}
    {task : TellTask} (ht : s'.host.tells t = some task)
    (hp : task.pc = .awaitActivate i) :
    s.host.tells t = some task ∨ s'.host.Pledged i := by
  -- the tell that moves is one that does not wait, unless it was just made
  have hmoved : ∀ {t' task'}, (∀ i, task'.pc ≠ .awaitActivate i) →
      s'.host.tells = update s.host.tells t' (some task') →
      s.host.tells t = some task ∨ s'.host.Pledged i := by
    intro t' task' hne he
    rw [he, Function.update_apply] at ht
    split at ht
    · obtain rfl := Option.some.inj ht
      exact absurd hp (hne i)
    · exact .inl ht
  by_cases hof : a.ofTell = true
  · cases a with
    | tellStart t' type payload =>
      rw [step, tellStart] at hs
      split at hs
      · exact absurd hs (by simp)
      split at hs
      · obtain rfl := Option.some.inj hs
        exact hmoved (by simp) rfl
      split at hs
      · obtain rfl := Option.some.inj hs
        exact hmoved (by simp) rfl
      · next ha =>
        obtain rfl := Option.some.inj hs
        change update (s.activate cfg).host.tells t' _ t = _ at ht
        rw [requests_activate.1, Function.update_apply] at ht
        split at ht
        · obtain rfl := Option.some.inj ht
          obtain rfl := TellPc.awaitActivate.inj hp
          exact .inr (pledged_activate ha)
        · exact .inl ht
    | tellLand t' ok =>
      rw [step, tellLand] at hs
      split at hs
      · split at hs <;> obtain rfl := Option.some.inj hs <;> exact hmoved (by simp) rfl
      · dsimp only at hs
        split at hs <;> obtain rfl := Option.some.inj hs <;> exact hmoved (by simp) rfl
      · exact absurd hs (by simp)
    | tellResume t' =>
      rw [step, tellResume] at hs
      split at hs
      · split at hs
        · exact absurd hs (by simp)
        · obtain rfl := Option.some.inj hs
          exact hmoved (by simp) rfl
        · obtain rfl := Option.some.inj hs
          exact hmoved (by simp) rfl
      · obtain rfl := Option.some.inj hs
        obtain ⟨pc, hpc, he⟩ := tells_tellEnqueue s t' _ _ _
        refine hmoved (fun j hj => ?_) he
        rw [show pc = .awaitActivate j from hj] at hpc
        exact absurd hpc (by simp [TellPc.left])
      · exact absurd hs (by simp)
    | _ => exact absurd hof (by simp [Act.ofTell])
  · have he := (flow_step hs).tells_eq hl (by simpa using hof)
    exact .inl ((congrFun he t).symm.trans ht)

/-- A call that waits for an activation does as well. -/
theorem calls_await (hl : Lifecycle s.flow.toLife) (hs : s.step cfg a = some s') {c : ℕ}
    {task : CallTask} (hc : s'.host.calls c = some task)
    (hp : task.pc = .awaitActivate i) :
    s.host.calls c = some task ∨ s'.host.Pledged i := by
  have hmoved : ∀ {c' task'}, (∀ i, task'.pc ≠ .awaitActivate i) →
      s'.host.calls = update s.host.calls c' (some task') →
      s.host.calls c = some task ∨ s'.host.Pledged i := by
    intro c' task' hne he
    rw [he, Function.update_apply] at hc
    split at hc
    · obtain rfl := Option.some.inj hc
      exact absurd hp (hne i)
    · exact .inl hc
  have henqueue : ∀ {c' method args}, s.callEnqueue c' method args = s' →
      s.host.calls c = some task ∨ s'.host.Pledged i := by
    rintro c' method args rfl
    obtain ⟨pc, hpc, he⟩ := calls_callEnqueue s c' method args
    refine hmoved (fun j hj => ?_) he
    rw [show pc = .awaitActivate j from hj] at hpc
    exact absurd hpc (by simp [CallPc.left])
  by_cases hof : a.ofCall = true
  · cases a with
    | callStart c' method args =>
      rw [step, callStart] at hs
      split at hs
      · exact absurd hs (by simp)
      split at hs
      · obtain rfl := Option.some.inj hs
        exact hmoved (by simp) rfl
      split at hs
      · exact henqueue (Option.some.inj hs)
      · next ha =>
        obtain rfl := Option.some.inj hs
        change update (s.activate cfg).host.calls c' _ c = _ at hc
        rw [requests_activate.2, Function.update_apply] at hc
        split at hc
        · obtain rfl := Option.some.inj hc
          obtain rfl := CallPc.awaitActivate.inj hp
          exact .inr (pledged_activate ha)
        · exact .inl hc
    | callResume c' =>
      rw [step, callResume] at hs
      split at hs
      · split at hs
        · exact absurd hs (by simp)
        · exact henqueue (Option.some.inj hs)
        · obtain rfl := Option.some.inj hs
          exact hmoved (by simp) rfl
      · exact absurd hs (by simp)
    | worker g env ok =>
      rcases (flow_workerStep hs).calls_eq with he | ⟨item, r, he⟩
      · exact .inl ((congrFun he c).symm.trans hc)
      · have hc' : settleItem s.host.calls item r c = some task :=
          (congrFun he c).symm.trans hc
        cases item with
        | tell type payload id => exact .inl hc'
        | call method args c' =>
          rw [settleItem, Function.update_apply] at hc'
          split at hc'
          · next he =>
            obtain ⟨old, hold, rfl⟩ := Option.map_eq_some_iff.mp hc'
            refine .inl (he ▸ hold.trans (congrArg some ?_))
            unfold CallTask.settle at hp ⊢
            split
            · next hq => rw [hq] at hp; exact absurd hp (by simp)
            · rfl
          · exact .inl hc'
    | _ => exact absurd hof (by simp [Act.ofCall])
  · have he := (flow_step hs).calls_eq hl (by simpa using hof)
    exact .inl ((congrFun he c).symm.trans hc)

end Sys

/-- A worker that has just been handed something awaits no write. -/
theorem WorkerPc.awaits_of_idle {pc : WorkerPc S} (h : pc.idle = true) :
    pc.awaits = none := by
  cases pc <;> first | rfl | exact absurd h (by simp [idle])

/-- A step takes back no snapshot write. -/
theorem Hands.saves_le {s s' : Sys S Env Op} (h : Hands s s') :
    s.host.saves.length ≤ s'.host.saves.length := by
  cases h with
  | marked _ hs => rw [hs]
  | handed _ hs _ =>
    rw [hs, List.length_append]
    exact Nat.le_add_right _ _
  | still _ hs => rw [hs]

/-- **What is awaited was handed to the driver**: a step takes no write back, and
what awaits a write after it did so before, or awaits one there is. -/
structure Handing (s s' : Sys S Env Op) : Prop where
  saves : s.host.saves.length ≤ s'.host.saves.length
  awaits : ∀ k, s'.host.Awaits k → s.host.Awaits k ∨ k < s'.host.saves.length

namespace Handing

variable {cfg : HostConfig S Env Op} {s s' : Sys S Env Op} {env : Env} {ok : Bool}

/-- Nothing that awaits a write moves. -/
theorem frame (hs : s.host.saves.length ≤ s'.host.saves.length)
    (ha : s'.host.activating = s.host.activating)
    (hw : s'.host.workers = s.host.workers)
    (hd : s'.host.deactivating = s.host.deactivating)
    (ht : s'.host.timerFlushes ⊆ s.host.timerFlushes) : Handing s s' where
  saves := hs
  awaits k h := by
    refine .inl ?_
    unfold Host.Awaits Host.awaited at h ⊢
    rw [ha, hw, hd] at h
    exact h.imp_right (Or.imp_right (Or.imp_right (fun hk => ht hk)))

theorem of_beside (h : Beside s s') : Handing s s' where
  saves := (congrArg List.length h.saves).ge
  awaits k hk := by
    refine .inl ?_
    rcases hk with hk | ⟨g, hk⟩ | ⟨d, hd, hk⟩ | hk
    · exact .inl (h.awaited_eq.1.symm.trans hk)
    · rcases h.workers g with he | ⟨-, ⟨item, he⟩ | he⟩
      · exact .inr (.inl ⟨g, he ▸ hk⟩)
      · exact absurd (he ▸ hk) (by simp [WorkerPc.awaits])
      · exact absurd (he ▸ hk) (by simp [WorkerPc.awaits])
    · rcases h.deactivating with he | ⟨-, g, idle, he⟩
      · exact .inr (.inr (.inl ⟨d, he ▸ hd, hk⟩))
      · obtain rfl := Option.some.inj (he.symm.trans hd)
        exact absurd hk (by simp [DeactPc.awaits])
    · exact .inr (.inr (.inr (h.timerFlushes hk)))

theorem of_actStep (hl : Lifecycle s.flow.toLife) (hs : s.actStep cfg env ok = some s') :
    Handing s s' := by
  have hp := Sys.proceeds_actStep hl hs
  have ho := Sys.opens_actStep hs
  have hg := Sys.goesOn_actStep hs
  have hsaves : s.host.saves.length ≤ s'.host.saves.length := by
    rcases hp.awaits with ⟨he, -⟩ | ⟨sv, -, he, -⟩ <;> rw [he]
    rw [List.length_append]
    exact Nat.le_add_right _ _
  refine ⟨hsaves, fun k hk => ?_⟩
  rcases hk with hk | ⟨g, hk⟩ | ⟨d, hd, hk⟩ | hk
  · rcases hp.awaits with ⟨-, hn⟩ | ⟨sv, -, he, ha⟩
    · exact absurd (hn.symm.trans hk) (by simp)
    · obtain rfl := Option.some.inj (ha.symm.trans hk)
      exact .inr (by rw [he]; simp)
  · rcases ho.workers g with he | he
    · exact .inl (.inr (.inl ⟨g, he ▸ hk⟩))
    · exact absurd ((WorkerPc.awaits_of_idle he).symm.trans hk) (by simp)
  · exact .inl (.inr (.inr (.inl ⟨d, ho.deactivating ▸ hd, hk⟩)))
  · exact .inl (.inr (.inr (.inr (hg.timers ▸ hk))))

theorem of_workerStep {g : ℕ} (hs : s.workerStep cfg g env ok = some s') :
    Handing s s' := by
  have ht := Sys.turnPart_workerStep hs
  have hmoved : ∀ k, (s'.host.workers g).awaits = some k → k < s'.host.saves.length := by
    rcases Sys.getsOn_workerStep hs with h | ⟨-, rfl⟩
    · exact h.flushes
    · intro k hk
      rw [show (s.dequeue g).host.workers g = _ from Function.update_self _ _ _] at hk
      cases hr : (s.host.mailbox.dequeue g).result <;> rw [hr] at hk <;>
        exact absurd hk (by simp [Sys.dequeuedPc, WorkerPc.awaits])
  have htimers : s'.host.timerFlushes = s.host.timerFlushes := by
    rcases Sys.getsOn_workerStep hs with h | ⟨-, rfl⟩
    · exact h.timers
    · rfl
  refine ⟨ht.hands.saves_le, fun k hk => ?_⟩
  rcases hk with hk | ⟨g', hk⟩ | ⟨d, hd, hk⟩ | hk
  · refine .inl (.inl ?_)
    unfold Host.awaited at hk ⊢
    rwa [ht.activating] at hk
  · by_cases hg : g' = g
    · exact .inr (hmoved k (hg ▸ hk))
    · exact .inl (.inr (.inl ⟨g', ht.workers g' hg ▸ hk⟩))
  · exact .inl (.inr (.inr (.inl ⟨d, ht.deactivating ▸ hd, hk⟩)))
  · exact .inl (.inr (.inr (.inr (htimers ▸ hk))))

theorem of_deactStep (hs : s.deactStep env = some s') : Handing s s' := by
  have he := Sys.ends_deactStep hs
  have hc := Sys.closes_deactStep hs
  refine ⟨he.hands.saves_le, fun k hk => ?_⟩
  rcases hk with hk | ⟨g, hk⟩ | ⟨d, hd, hk⟩ | hk
  · refine .inl (.inl ?_)
    unfold Host.awaited at hk ⊢
    rwa [he.activating] at hk
  · exact .inl (.inr (.inl ⟨g, he.workers ▸ hk⟩))
  · exact .inr (hc.flushes d k hd hk)
  · exact .inl (.inr (.inr (.inr (hc.timers ▸ hk))))

theorem of_snapshotFire (hs : s.snapshotFire = some s') : Handing s s' := by
  unfold Sys.snapshotFire at hs
  split at hs
  · dsimp only at hs
    split at hs <;> obtain rfl := Option.some.inj hs
    · have hlt : ∀ sv, s.host.saves.length < (s.host.saves ++ [sv]).length := by simp
      refine ⟨(hlt _).le, fun k hk => ?_⟩
      rcases hk with hk | hk | hk | hk
      · exact .inl (.inl hk)
      · exact .inl (.inr (.inl hk))
      · exact .inl (.inr (.inr (.inl hk)))
      · rcases List.mem_cons.mp hk with rfl | hk
        · exact .inr (hlt _)
        · exact .inl (.inr (.inr (.inr hk)))
    · exact .frame le_rfl rfl rfl rfl (List.Subset.refl _)
  · exact absurd hs (by simp)

/-- **Every step hands over what it awaits.** -/
theorem step {a : Act Env} (hl : Lifecycle s.flow.toLife) (hs : s.step cfg a = some s') :
    Handing s s' := by
  by_cases hb : a.beside = true
  · exact .of_beside (Sys.beside_step hl hb hs)
  cases a with
  | activation env ok => exact .of_actStep hl hs
  | worker g env ok => exact .of_workerStep hs
  | deactivation env => exact .of_deactStep hs
  | snapshotFire => exact .of_snapshotFire hs
  | save k ok =>
    have hset : ∀ sv, s.host.saves.length ≤ (s.host.saves.set k sv).length :=
      fun sv => (List.length_set ..).ge
    rw [Sys.step, Sys.saveStep] at hs
    split at hs
    · split at hs <;> obtain rfl := Option.some.inj hs <;>
        exact .frame (hset _) rfl rfl rfl (List.Subset.refl _)
    · split at hs <;> obtain rfl := Option.some.inj hs <;>
        exact .frame (hset _) rfl rfl rfl (List.Subset.refl _)
    · exact absurd hs (by simp)
  | subscribe l =>
    rw [Sys.step, Sys.subscribe] at hs
    split at hs
    · exact absurd hs (by simp)
    · obtain rfl := Option.some.inj hs
      exact .frame le_rfl rfl rfl rfl (List.Subset.refl _)
  | unsubscribe l =>
    obtain rfl := Option.some.inj hs
    exact .frame le_rfl rfl rfl rfl (List.Subset.refl _)
  | notifyTombstone =>
    obtain rfl := Option.some.inj hs
    exact .frame le_rfl rfl rfl rfl (List.Subset.refl _)
  | _ => exact absurd rfl hb

end Handing

/-- **An activated host's worker has begun**, and stays so. -/
theorem HostFlow.Moves.begun {f f' : HostFlow} {a : Act Env} (hl : Lifecycle f.toLife)
    (hs : f.Moves f' a) (h : ∀ g, f.workerPromise = some g → f.workers g ≠ .absent) :
    ∀ g, f'.workerPromise = some g → f'.workers g ≠ .absent := by
  have henqueue : ∀ {f : HostFlow} (item : Item),
      (∀ g, f.workerPromise = some g → f.workers g ≠ .absent) →
      ∀ g, f.workerPromise = some g → (f.enqueue item).workers g ≠ .absent := by
    intro f item h g hg
    rcases f.enqueue_workers item g with he | he <;> rw [he]
    · exact h g hg
    · simp
  have hreplay : ∀ (rs : List InboxRecord) {f : HostFlow},
      (∀ g, f.workerPromise = some g → f.workers g ≠ .absent) →
      ∀ g, f.workerPromise = some g → (f.enqueueAll rs).workers g ≠ .absent := by
    intro rs
    induction rs with
    | nil => exact fun h => h
    | cons r rs ih =>
      intro f h g hg
      rw [HostFlow.enqueueAll]
      split
      · exact h g hg
      · exact ih (f := f.enqueue _) (henqueue _ h) g hg
  have hset : ∀ {g₀ : ℕ} {w : WorkerStage}, w ≠ .absent →
      ∀ g, f.workerPromise = some g → (f.setWorker g₀ w).workers g ≠ .absent := by
    intro g₀ w hw g hg
    rw [HostFlow.setWorker_workers]
    split
    · exact hw
    · exact h g hg
  have hdequeue : ∀ (f : HostFlow) (g₀ g : ℕ),
      g = g₀ ∨ f.workers g ≠ .absent → (f.dequeue g₀).workers g ≠ .absent := by
    intro f g₀ g hg
    by_cases he : g = g₀
    · subst he
      show update f.workers g _ g ≠ _
      rw [Function.update_self]
      split <;> simp
    · show update f.workers g₀ _ g ≠ _
      rw [Function.update_of_ne he]
      exact hg.resolve_left he
  have hopening : ∀ {f₁ : HostFlow}, f.Opening f₁ →
      f₁.workerPromise = f.workerPromise ∧ f₁.workers = f.workers := by
    intro f₁ ho
    cases ho <;> exact ⟨rfl, rfl⟩
  have hclosing : f.Closing f' →
      ∀ g, f'.workerPromise = some g → f'.workers g ≠ .absent := by
    intro hc
    cases hc with
    | none => exact h
    | close hd ha hg =>
      intro g' hg'
      rcases f.closeMailbox_workers g' with he | he <;>
        rw [show _ = _ from he]
      · exact h g' hg'
      · simp
    | unattended _ hd ha hg => exact absurd hg (hl.present ha (by simp [hd])).1
  cases a with
  | activate =>
    intro g hg
    rw [(hopening hs).2]
    exact h g ((hopening hs).1 ▸ hg)
  | tellStart t type payload =>
    obtain ⟨-, f₁, task, ho, -, rfl⟩ := hs
    intro g hg
    show f₁.workers g ≠ _
    rw [(hopening ho).2]
    exact h g ((hopening ho).1 ▸ hg)
  | tellLand t ok =>
    cases hs with
    | accept ht hr => exact henqueue _ h
    | _ => exact h
  | tellResume t =>
    cases hs with
    | accept ht hr => exact henqueue _ h
    | _ => exact h
  | callStart c method args =>
    obtain ⟨-, ⟨-, hc⟩ | ⟨f₁, task, ho, -, rfl⟩⟩ := hs
    · cases hc with
      | move hp => exact h
      | accept m x hf hr => exact henqueue _ h
    · intro g hg
      show f₁.workers g ≠ _
      rw [(hopening ho).2]
      exact h g ((hopening ho).1 ▸ hg)
  | callResume c =>
    obtain ⟨-, hc⟩ := hs
    cases hc with
    | move hp => exact h
    | accept m x hf hr => exact henqueue _ h
  | activation env ok =>
    cases hs with
    | activated hi =>
      intro g hg
      obtain rfl := Option.some.inj hg
      exact hdequeue _ _ _ (.inl rfl)
    | replayed hp =>
      rw [HostFlow.enqueueAll_frame]
      exact hreplay _ h
    | _ => exact h
  | worker g₀ env ok =>
    cases hs with
    | dequeue hg => exact fun g hp => hdequeue _ _ _ (.inr (h g hp))
    | _ => exact hset (by simp)
  | deactivate env => exact hclosing hs
  | destroy env => exact hclosing hs
  | idleFire env => exact hclosing hs
  | deactivation env =>
    cases hs with
    | drop es hf => exact fun g hg => absurd hg (by simp)
    | _ => exact h
  | flushResume k =>
    obtain ⟨es, rfl⟩ := hs
    exact h
  | _ =>
    obtain rfl := hs
    exact h

/-- **What an activation migrates with stays there.** -/
theorem Sys.Migrates.step {cfg : HostConfig S Env Op} {s s' : Sys S Env Op} {a : Act Env}
    (h : s.Migrates) (hl : Lifecycle s.flow.toLife) (hs : s.step cfg a = some s') :
    s'.Migrates := by
  have hkeep : ∀ {t : Sys S Env Op}, t.host.cls = s.host.cls →
      t.host.activating = s.host.activating → t.Migrates := by
    intro t hc ha pc hpc hm
    rw [hc]
    exact h pc (ha ▸ hpc) hm
  by_cases hb : a.beside = true
  · have hbs := Sys.beside_step hl hb hs
    intro pc hpc hm
    rw [hbs.cls]
    refine h pc (hbs.activating_eq hpc ?_) hm
    cases pc <;> first | rfl | exact absurd hm (by simp [ActPc.migrating])
  cases a with
  | activation env ok => exact (Sys.goesOn_actStep hs).migrates h
  | worker g env ok =>
    have hk := Sys.keepsCode_workerStep hs
    exact hkeep hk.cls hk.activating
  | deactivation env =>
    have hk := Sys.keepsCode_deactStep hs
    exact hkeep hk.cls hk.activating
  | snapshotFire =>
    rw [Sys.step, Sys.snapshotFire] at hs
    split at hs
    · dsimp only at hs
      split at hs <;> obtain rfl := Option.some.inj hs <;> exact hkeep rfl rfl
    · exact absurd hs (by simp)
  | save k ok =>
    rw [Sys.step, Sys.saveStep] at hs
    split at hs
    · split at hs <;> obtain rfl := Option.some.inj hs <;> exact hkeep rfl rfl
    · split at hs <;> obtain rfl := Option.some.inj hs <;> exact hkeep rfl rfl
    · exact absurd hs (by simp)
  | subscribe l =>
    rw [Sys.step, Sys.subscribe] at hs
    split at hs
    · exact absurd hs (by simp)
    · obtain rfl := Option.some.inj hs
      exact hkeep rfl rfl
  | unsubscribe l =>
    obtain rfl := Option.some.inj hs
    exact hkeep rfl rfl
  | notifyTombstone =>
    obtain rfl := Option.some.inj hs
    exact hkeep rfl rfl
  | _ => exact absurd rfl hb

namespace Wakeful

variable {cfg : HostConfig S Env Op} {s s' : Sys S Env Op} {a : Act Env}

theorem init (cfg : HostConfig S Env Op) (store : ActorStore S) :
    Wakeful (Sys.init cfg store) where
  tells t task i ht := absurd ht (by simp [Sys.init, Host.init])
  calls c task i hc := absurd hc (by simp [Sys.init, Host.init])
  saves k hk := by
    rcases hk with hk | ⟨g, hk⟩ | ⟨d, hd, -⟩ | hk
    · exact absurd hk (by simp [Host.awaited, Sys.init, Host.init])
    · exact absurd hk (by simp [WorkerPc.awaits, Sys.init, Host.init])
    · exact absurd hd (by simp [Sys.init, Host.init])
    · exact absurd hk (by simp [Sys.init, Host.init])
  migrates pc hpc := absurd hpc (by simp [Sys.init, Host.init])
  worker g hg := absurd hg (by simp [Sys.init, Host.init])

/-- **Every step lets those who wait go on.** -/
theorem step (h : Wakeful s) (hl : Lifecycle s.flow.toLife)
    (hs : s.step cfg a = some s') : Wakeful s' where
  tells t task i ht hp := by
    rcases Sys.tells_await hl hs ht hp with ht | hi
    · exact Sys.pledged_step hl hs (h.tells t task i ht hp)
    · exact hi
  calls c task i hc hp := by
    rcases Sys.calls_await hl hs hc hp with hc | hi
    · exact Sys.pledged_step hl hs (h.calls c task i hc hp)
    · exact hi
  saves k hk := by
    have hg := Handing.step hl hs
    rcases hg.awaits k hk with hk | hk
    · exact (h.saves k hk).trans_le hg.saves
    · exact hk
  migrates := h.migrates.step hl hs
  worker g hg := by
    have hb : ∀ g, s.flow.workerPromise = some g → s.flow.workers g ≠ .absent := by
      intro g hg he
      refine h.worker g hg ?_
      cases hpc : s.host.workers g <;> first
        | rfl
        | exact absurd ((congrArg WorkerPc.stage hpc).symm.trans he) (by simp [WorkerPc.stage])
    have hb' := (Sys.flow_step hs).begun hl hb g hg
    intro he
    exact hb' (congrArg WorkerPc.stage he)

end Wakeful

/-- The `tell()` has resolved or rejected. -/
def TellPc.settled : TellPc → Bool
  | resolved _ => true
  | rejected _ _ => true
  | _ => false

/-- The caller of a `call()` has its answer. -/
def CallPc.answered : CallPc → Bool
  | settled _ => true
  | refused _ => true
  | _ => false

/-- The worker has not begun, waits for an item, or has returned. -/
def WorkerPc.rests : WorkerPc S → Bool
  | absent => true
  | waiting => true
  | done => true
  | _ => false

/-- A worker that rests has no call to settle. -/
theorem WorkerPc.unsettled_of_rests (pc : WorkerPc S) (h : pc.rests = true) :
    pc.stage.unsettled = none := by
  cases pc <;> first | rfl | exact absurd h (by simp [rests])

/-- **The host is at rest**: whatever was begun is over, and the worker of an
activated host waits for a message. No timer is armed, no write is under way,
and no request waits; the one thing left is a call from outside, or an idle
timeout. -/
structure Sys.AtRest (s : Sys S Env Op) : Prop where
  activating : s.host.activating = none
  deactivating : s.host.deactivating = none
  tells : ∀ t task, s.host.tells t = some task → task.pc.settled = true
  calls : ∀ c task i, s.host.calls c = some task → task.pc ≠ .awaitActivate i
  workers : ∀ g, (s.host.workers g).rests = true
  buffer : s.host.activated = true → s.host.mailbox.buffer = []
  saves : ∀ sv ∈ s.host.saves, sv.pc.isEnded = true
  snapshotTimer : s.host.snapshotTimer = false
  timerFlushes : s.host.timerFlushes = []
  idleEvicts : s.host.idleEvicts = 0

/-- The promise of activation `i` is not settled, and its activation in progress. -/
structure Host.Activates (h : Host S Env) (i : ℕ) : Prop where
  pending : h.outcome i = none
  current : i = h.activation
  activating : h.activating ≠ none

/-- **The host is paused**: it waits for user code, if for anything.

What an activation, a deactivation or a worker is at is an await of user code, or
an await of another of them that is at one: a request waits for the activation,
an item for the worker, and a deactivation for the worker to return. Everything
else is over, as in a host at rest. -/
structure Sys.Paused (s : Sys S Env Op) : Prop where
  activating : ∀ pc, s.host.activating = some pc → pc.inUser = true
  deactivating : ∀ d, s.host.deactivating = some d → d.pc.inUser = true
    ∨ ∃ g, d.pc = .awaitWorker g ∧ (s.host.workers g).inUser = true
  tells : ∀ t task, s.host.tells t = some task → task.pc.settled = true
    ∨ ∃ i, task.pc = .awaitActivate i ∧ s.host.Activates i
  calls : ∀ c task i, s.host.calls c = some task → task.pc = .awaitActivate i →
    s.host.Activates i
  workers : ∀ g, (s.host.workers g).rests = true ∨ (s.host.workers g).inUser = true
  buffer : s.host.activated = true → s.host.mailbox.buffer = []
    ∨ ∃ g, s.host.workerPromise = some g ∧ (s.host.workers g).inUser = true
  saves : ∀ sv ∈ s.host.saves, sv.pc.isEnded = true
  snapshotTimer : s.host.snapshotTimer = false
  timerFlushes : s.host.timerFlushes = []
  idleEvicts : s.host.idleEvicts = 0

/-- **There is no step left that the host takes by itself**: what can still
happen is that somebody asks for something, or that user code goes on. -/
def Sys.Stuck (cfg : HostConfig S Env Op) (s : Sys S Env Op) : Prop :=
  ∀ a : Act Env, s.own a = true → s.step cfg a = none

namespace Sys

variable {cfg : HostConfig S Env Op} {s : Sys S Env Op}

/-- The driver settles every write it was handed. -/
theorem Stuck.saves (h : s.Stuck cfg) {sv : Save S} (hsv : sv ∈ s.host.saves) :
    sv.pc.isEnded = true := by
  obtain ⟨k, hk⟩ := List.getElem?_of_mem hsv
  have hstep : s.saveStep k true = none := h (.save k true) rfl
  obtain ⟨seq, version, pc⟩ := sv
  unfold saveStep at hstep
  cases pc with
  | ended ok => rfl
  | toEncode obj =>
    rw [hk] at hstep
    exact absurd hstep (by simp)
  | toLand x =>
    rw [hk] at hstep
    exact absurd hstep (by simp)

/-- So whoever awaits one learns how it went. -/
theorem Stuck.saveResult (h : s.Stuck cfg) {k : ℕ} (hk : k < s.host.saves.length) :
    s.host.saveResult k ≠ none := by
  have he := h.saves (List.getElem_mem hk)
  unfold Host.saveResult
  rw [List.getElem?_eq_getElem hk]
  generalize s.host.saves[k] = sv at he
  obtain ⟨seq, version, pc⟩ := sv
  cases pc with
  | ended ok => simp
  | _ => exact absurd he (by simp [SavePc.isEnded])

/-- **An activation in progress can go on**, once what it awaits is settled. -/
theorem actStep_ne_none {pc : ActPc S Env} (hpc : s.host.activating = some pc)
    (hm : s.Migrates) (hw : ∀ k, s.host.awaited = some k → s.host.saveResult k ≠ none)
    (env : Env) : s.actStep cfg env true ≠ none := by
  unfold Host.awaited at hw
  rw [hpc] at hw
  have hm' := hm pc hpc
  unfold actStep
  rw [hpc]
  cases pc with
  | resolveCtor snap => dsimp only; split <;> simp
  | loadFence snap r =>
    cases snap with
    | none => simp
    | some snap =>
      dsimp only
      rw [if_pos rfl]
      split <;> simp
  | register =>
    dsimp only
    rw [if_pos rfl]
    split <;> simp
  | onInit hook => rcases hook with rest | (e | u) <;> simp
  | retain prev k =>
    obtain ⟨ended, hk⟩ := Option.ne_none_iff_exists'.mp (hw k rfl)
    dsimp only
    rw [hk]
    cases ended <;> simp
  | migrate prev =>
    obtain ⟨f, hf⟩ := Option.ne_none_iff_exists'.mp (hm' rfl)
    dsimp only
    rw [hf]
    dsimp only
    split <;> simp
  | migrateFlush k =>
    obtain ⟨ended, hk⟩ := Option.ne_none_iff_exists'.mp (hw k rfl)
    dsimp only
    rw [hk]
    cases ended <;> simp
  | replayFlush k =>
    obtain ⟨ended, hk⟩ := Option.ne_none_iff_exists'.mp (hw k rfl)
    dsimp only
    rw [hk]
    cases ended <;> simp
  | headSeq =>
    dsimp only
    rw [if_pos rfl]
    split <;> simp
  | onActivate hook => rcases hook with rest | (e | u) <;> simp
  | _ => simp

/-- So can a worker that does not rest, -/
theorem workerStep_ne_none {g : ℕ} (hg : (s.host.workers g).rests = false)
    (hw : ∀ k, (s.host.workers g).awaits = some k → s.host.saveResult k ≠ none)
    (env : Env) : s.workerStep cfg g env true ≠ none := by
  unfold workerStep
  cases hpc : s.host.workers g with
  | absent => rw [hpc] at hg; exact absurd hg (by simp [WorkerPc.rests])
  | waiting => rw [hpc] at hg; exact absurd hg (by simp [WorkerPc.rests])
  | done => rw [hpc] at hg; exact absurd hg (by simp [WorkerPc.rests])
  | returned item result =>
    cases result with
    | error e => simp
    | ok r => dsimp only; split <;> simp
  | appending item events writes =>
    dsimp only
    rw [if_pos rfl]
    split <;> simp
  | acking item id after => cases after <;> simp
  | flushing item k =>
    rw [hpc] at hw
    obtain ⟨ended, hk⟩ := Option.ne_none_iff_exists'.mp (hw k rfl)
    dsimp only
    rw [hk]
    cases ended <;> simp
  | _ => simp

/-- and a deactivation whose worker has returned. -/
theorem deactStep_ne_none {d : Deactivation S} (hd : s.host.deactivating = some d)
    (hg : ∀ g, d.pc = .awaitWorker g → s.host.workers g = .done)
    (hw : ∀ k, d.pc.awaits = some k → s.host.saveResult k ≠ none) (env : Env) :
    s.deactStep env ≠ none := by
  obtain ⟨pc, idle⟩ := d
  unfold deactStep
  rw [hd]
  cases pc with
  | awaitWorker g =>
    dsimp only
    rw [hg g rfl]
    simp
  | flush k =>
    obtain ⟨ended, hk⟩ := Option.ne_none_iff_exists'.mp (hw k rfl)
    dsimp only
    rw [hk]
    cases ended <;> simp
  | onDeactivate hook => rcases hook with rest | (e | u) <;> simp
  | finishing o => simp

/-! Of a stuck host that is reachable: -/

section Stuck

variable (h : s.Stuck cfg) (hl : Lifecycle s.flow.toLife) (hw : Wakeful s)

include h hw in
/-- The writes it awaits are over, -/
theorem Stuck.saved {k : ℕ} (hk : s.host.Awaits k) : s.host.saveResult k ≠ none :=
  h.saveResult (hw.saves k hk)

include h hw in
/-- an activation that is in progress awaits user code, -/
theorem Stuck.activating [Inhabited Env] {pc : ActPc S Env}
    (hpc : s.host.activating = some pc) : pc.inUser = true := by
  by_contra hu
  refine actStep_ne_none hpc hw.migrates (fun k hk => h.saved hw (.inl hk)) default
    (h (.activation default true) (own_of_internal rfl ?_))
  show (s.host.activating.map ActPc.inUser).getD false = false
  rw [hpc]
  simpa using hu

include h hw in
/-- its workers rest or do so, -/
theorem Stuck.workers [Inhabited Env] (g : ℕ) :
    (s.host.workers g).rests = true ∨ (s.host.workers g).inUser = true := by
  by_contra hg
  obtain ⟨hrests, huser⟩ := not_or.mp hg
  exact workerStep_ne_none (by simpa using hrests)
    (fun k hk => h.saved hw (.inr (.inl ⟨g, hk⟩))) default
    (h (.worker g default true) (own_of_internal rfl (Bool.eq_false_iff.mpr huser)))

include h hw in
/-- the last of them waiting or done, unless it awaits user code, -/
theorem Stuck.worker [Inhabited Env] {g : ℕ} (hg : s.host.workerPromise = some g) :
    s.host.workers g = .waiting ∨ s.host.workers g = .done
      ∨ (s.host.workers g).inUser = true := by
  rcases h.workers hw g with hr | hu
  · have ha := hw.worker g hg
    cases hpc : s.host.workers g with
    | waiting => exact .inl rfl
    | done => exact .inr (.inl rfl)
    | absent => exact absurd hpc ha
    | _ =>
      rw [hpc] at hr
      exact absurd hr (by simp [WorkerPc.rests])
  · exact .inr (.inr hu)

include hl in
/-- A worker that waits does so on the mailbox. -/
theorem waiters_ne_nil {g : ℕ} (hg : s.host.workers g = .waiting) :
    s.host.mailbox.waiters ≠ [] := by
  rw [show s.host.mailbox.waiters = [g] from hl.waiter g (congrArg WorkerPc.stage hg)]
  simp

include h hl hw in
/-- a deactivation that is in progress does too, or its worker, -/
theorem Stuck.deactivating [Inhabited Env] {d : Deactivation S}
    (hd : s.host.deactivating = some d) : d.pc.inUser = true
      ∨ ∃ g, d.pc = .awaitWorker g ∧ (s.host.workers g).inUser = true := by
  by_contra hne
  obtain ⟨hhook, hworker⟩ := not_or.mp hne
  refine deactStep_ne_none hd (fun g hg => ?_)
    (fun k hk => h.saved hw (.inr (.inr (.inl ⟨d, hd, hk⟩)))) default
    (h (.deactivation default) (own_of_internal rfl ?_))
  · have hf : s.flow.deact = some (.awaiting g) := by
      rw [flow_deact hd, hg]
      rfl
    rcases h.worker hw (hl.awaiting g hf) with hwait | hdone | huser
    · exact absurd (s.host.mailbox.shut (hl.closed (by simp [hf])).2) (waiters_ne_nil hl hwait)
    · exact hdone
    · exact absurd ⟨g, hg, huser⟩ hworker
  · show (s.host.deactivating.map (fun d => d.pc.inUser)).getD false = false
    rw [hd]
    simpa using hhook

include h hl hw in
/-- nothing is in the mailbox of an activated host, unless its worker does, -/
theorem Stuck.buffer [Inhabited Env] (ha : s.host.activated = true) :
    s.host.mailbox.buffer = []
      ∨ ∃ g, s.host.workerPromise = some g ∧ (s.host.workers g).inUser = true := by
  -- the instance is there: a deactivation that has dropped it can go on
  have hd : s.flow.deact ≠ some .dropped := by
    intro hdrop
    obtain ⟨⟨pc, idle⟩, hd, hstage⟩ := Option.map_eq_some_iff.mp hdrop
    rcases h.deactivating hl hw hd with hu | ⟨g, hg, -⟩
    · cases pc <;> first
        | exact absurd hu Bool.false_ne_true
        | exact absurd hstage (by simp [DeactPc.stage])
    · obtain rfl : pc = .awaitWorker g := hg
      exact absurd hstage (by simp [DeactPc.stage])
  obtain ⟨g, hg⟩ := Option.ne_none_iff_exists'.mp (hl.present ha hd).1
  rcases h.worker hw hg with hpc | hpc | hu
  · exact .inl (s.host.mailbox.wakeful (waiters_ne_nil hl hpc))
  · refine .inl (hl.spent g ha hg ?_).2
    rw [flow_workers hpc]
    rfl
  · exact .inr ⟨g, hg, hu⟩

/-- An activation that was asked for has settled, or is in progress, -/
theorem activates_of_pledged {i : ℕ} (hi : s.host.Pledged i) (ho : s.host.outcome i = none) :
    s.host.Activates i :=
  have hc := hi.resolve_left (fun hne => hne ho)
  ⟨ho, hc.1, hc.2⟩

include h hw in
/-- so the tells are over, but for those that wait for one, -/
theorem Stuck.tells {t : ℕ} {task : TellTask}
    (ht : s.host.tells t = some task) : task.pc.settled = true
      ∨ ∃ i, task.pc = .awaitActivate i ∧ s.host.Activates i := by
  have hland : s.tellLand t true = none := h (.tellLand t true) rfl
  have hresume : s.tellResume t = none := h (.tellResume t) rfl
  obtain ⟨type, payload, pc⟩ := task
  cases pc with
  | resolved id => exact .inl rfl
  | rejected entry e => exact .inl rfl
  | appending => exact absurd hland (by simp [tellLand, ht])
  | dropAcking id => exact absurd hland (by simp [tellLand, ht])
  | appended id => exact absurd hresume (by simp [tellResume, ht])
  | awaitActivate i =>
    refine .inr ⟨i, rfl, activates_of_pledged (hw.tells t _ i ht rfl) ?_⟩
    cases ho : s.host.outcome i with
    | none => rfl
    | some o => cases o <;> exact absurd hresume (by simp [tellResume, ht, ho])

include h hw in
/-- and so are the calls that have waited for one. -/
theorem Stuck.calls {c i : ℕ} {task : CallTask}
    (hc : s.host.calls c = some task) (hp : task.pc = .awaitActivate i) :
    s.host.Activates i := by
  have hresume : s.callResume c = none := h (.callResume c) rfl
  obtain ⟨method, args, pc⟩ := task
  obtain rfl : pc = .awaitActivate i := hp
  refine activates_of_pledged (hw.calls c _ i hc rfl) ?_
  cases ho : s.host.outcome i with
  | none => rfl
  | some o => cases o <;> exact absurd hresume (by simp [callResume, hc, ho])

include h in
/-- The debounce timer is not armed, -/
theorem Stuck.snapshotTimer : s.host.snapshotTimer = false := by
  have hfire : s.snapshotFire = none := h .snapshotFire rfl
  by_contra ht
  unfold snapshotFire at hfire
  rw [if_pos (by simpa using ht)] at hfire
  dsimp only at hfire
  split at hfire <;> exact absurd hfire (by simp)

include h hw in
/-- none of its callbacks awaits a write, -/
theorem Stuck.timerFlushes : s.host.timerFlushes = [] := by
  by_contra ht
  obtain ⟨k, hk⟩ := List.exists_mem_of_ne_nil _ ht
  have hresume : s.flushResume k = none := h (.flushResume k) rfl
  unfold flushResume at hresume
  rw [if_pos hk] at hresume
  dsimp only at hresume
  split at hresume
  · next hr => exact absurd hr (h.saved hw (.inr (.inr (.inr hk))))
  · exact absurd hresume (by simp)
  · exact absurd hresume (by simp)

include h in
/-- and no eviction is to come. -/
theorem Stuck.idleEvicts : s.host.idleEvicts = 0 := by
  have hevict : s.step cfg .idleEvict = none := h .idleEvict rfl
  by_contra hne
  rw [step, if_pos (Nat.pos_of_ne_zero hne)] at hevict
  exact absurd hevict (by simp)

end Stuck

theorem AtRest.resumesUser (h : s.AtRest) (a : Act Env) : s.resumesUser a = false := by
  cases a with
  | activation env ok =>
    show (s.host.activating.map ActPc.inUser).getD false = false
    rw [h.activating]
    rfl
  | worker g env ok =>
    have hg := h.workers g
    show (s.host.workers g).inUser = false
    cases hpc : s.host.workers g with
    | running item rest =>
      rw [hpc] at hg
      exact absurd hg Bool.false_ne_true
    | _ => rfl
  | deactivation env =>
    show (s.host.deactivating.map (fun d => d.pc.inUser)).getD false = false
    rw [h.deactivating]
    rfl
  | _ => rfl

/-- **and a paused host that awaits none is at rest.** -/
theorem Paused.atRest [Inhabited Env] (h : s.Paused)
    (hu : ∀ a : Act Env, s.resumesUser a = false) : s.AtRest := by
  have hact : s.host.activating = none := by
    by_contra hne
    obtain ⟨pc, hpc⟩ := Option.ne_none_iff_exists'.mp hne
    have hf : (s.host.activating.map ActPc.inUser).getD false = false :=
      hu (.activation default true)
    rw [hpc] at hf
    exact absurd ((h.activating pc hpc).symm.trans hf) (by simp)
  have hwork : ∀ g, (s.host.workers g).inUser ≠ true := fun g hg =>
    absurd (hg.symm.trans (hu (.worker g default true))) (by simp)
  have hidle : ∀ i, ¬s.host.Activates i := fun i hi => hi.activating hact
  exact
    { activating := hact
      deactivating := by
        by_contra hne
        obtain ⟨d, hd⟩ := Option.ne_none_iff_exists'.mp hne
        have hf : (s.host.deactivating.map (fun d => d.pc.inUser)).getD false = false :=
          hu (.deactivation default)
        rw [hd] at hf
        rcases h.deactivating d hd with hd' | ⟨g, -, hg⟩
        · exact absurd (hd'.symm.trans hf) (by simp)
        · exact hwork g hg
      tells := fun t task ht =>
        (h.tells t task ht).resolve_right (fun ⟨i, _, hi⟩ => hidle i hi)
      calls := fun c task i hc hp => hidle i (h.calls c task i hc hp)
      workers := fun g => (h.workers g).resolve_right (hwork g)
      buffer := fun ha => (h.buffer ha).resolve_right (fun ⟨g, _, hg⟩ => hwork g hg)
      saves := h.saves
      snapshotTimer := h.snapshotTimer
      timerFlushes := h.timerFlushes
      idleEvicts := h.idleEvicts }

/-- Of a host at rest no call is pending, unless it got into the mailbox of a host
that is not activated. -/
theorem AtRest.answered (h : s.AtRest) (ht : Turns s) {c : ℕ} {task : CallTask}
    (hc : s.host.calls c = some task) : task.pc.answered = true := by
  cases hp : task.pc with
  | settled r => rfl
  | refused e => rfl
  | awaitActivate i => exact absurd hp (h.calls c task i hc)
  | queued =>
    refine absurd hp ?_
    by_cases ha : s.host.activated = true
    · intro hq
      rcases ht.calls.held c task hc hq with ⟨item, hi, -⟩ | ⟨g, hg⟩
      · rw [show s.flow.mailbox.buffer = [] from h.buffer ha] at hi
        exact absurd hi List.not_mem_nil
      · exact absurd (((s.host.workers g).unsettled_of_rests (h.workers g)).symm.trans hg)
          (by simp)
    · exact ht.calls.down (Bool.eq_false_iff.mpr ha) c task hc

end Sys
