import Actjs.Lifecycle

/-!
# Steps beside the state

Most steps of a host move messages and have nothing to do with the state of
the actor: requests being made and going on, a deactivation being asked for,
the inbox being replayed. `Beside` is what they have in common, and an
invariant about the state is proved against it once.
-/

open Function (update)

variable {S Env Op : Type}

/-- The activation has not constructed the instance, or is through with
it. -/
def ActPc.beside : ActPc S Env → Bool
  | loadSnapshot => true
  | readInbox => true
  | replayInbox _ => true
  | finishing _ => true
  | _ => false

/-- **A step that has nothing to do with the state.** It may hand items to
workers that wait, or stop them, begin an activation or get on with one that
is through with the state, and ask for a deactivation. -/
structure Beside (s s' : Sys S Env Op) : Prop where
  inst : s'.host.inst = s.host.inst
  cls : s'.host.cls = s.host.cls
  objs : s'.host.objs = s.host.objs
  currentSeq : s'.host.currentSeq = s.host.currentSeq
  runningVersion : s'.host.runningVersion = s.host.runningVersion
  snapshotDirty : s'.host.snapshotDirty = s.host.snapshotDirty
  snapshotTimer : s'.host.snapshotTimer = s.host.snapshotTimer
  prevStateCapture : s'.host.prevStateCapture = s.host.prevStateCapture
  commitListeners : s'.host.commitListeners = s.host.commitListeners
  saves : s'.host.saves = s.host.saves
  timerFlushes : s'.host.timerFlushes ⊆ s.host.timerFlushes
  /-- Only a flush of the debounce timer goes on beside the state. -/
  eventsSinceSnapshot : s.host.timerFlushes = [] →
    s'.host.eventsSinceSnapshot = s.host.eventsSinceSnapshot
  row : s'.store.row = s.store.row
  snapshots : s'.store.snapshots = s.store.snapshots
  events : s'.store.events = s.store.events
  boundaries : s'.hist.boundaries = s.hist.boundaries
  notifs : s'.hist.notifs = s.hist.notifs
  activated : s'.host.activated = s.host.activated
  workers : ∀ g, s'.host.workers g = s.host.workers g
    ∨ s.host.workers g = .waiting
      ∧ ((∃ item, s'.host.workers g = .received item)
        ∨ s'.host.workers g = .exiting)
  activating : s'.host.activating = s.host.activating
    ∨ (∀ pc, s.host.activating = some pc → pc.beside = true)
      ∧ ∀ pc, s'.host.activating = some pc → pc.beside = true
  deactivating : s'.host.deactivating = s.host.deactivating
    ∨ s.host.deactivating = none
      ∧ ∃ g idle, s'.host.deactivating = some ⟨.awaitWorker g, idle⟩

/-- A worker on which the mailbox counts as waiting waits. -/
theorem Lifecycle.waiting {s : Sys S Env Op}
    (hl : Lifecycle s.flow.toLife) {g : ℕ}
    (hg : g ∈ s.host.mailbox.waiters) : s.host.workers g = .waiting := by
  have hw : (s.host.workers g).stage = .waiting := hl.waits g hg
  revert hw
  cases s.host.workers g <;> simp [WorkerPc.stage]

/-- Once the host is activated, its activation is through with the
state. -/
theorem Lifecycle.through {s : Sys S Env Op} (hl : Lifecycle s.flow.toLife)
    (ha : s.host.activated = true) {pc : ActPc S Env}
    (hpc : s.host.activating = some pc) : pc.through = true := by
  by_contra ht
  have hp := (ActPc.phase_of_through (Bool.not_eq_true _ ▸ ht)).imp
    (Sys.flow_phase hpc).trans (Sys.flow_phase hpc).trans
  exact absurd ((hl.early hp).1.symm.trans ha) Bool.false_ne_true

theorem Lifecycle.beside {s : Sys S Env Op} (hl : Lifecycle s.flow.toLife)
    (ha : s.host.activated = true) {pc : ActPc S Env}
    (hpc : s.host.activating = some pc) : pc.beside = true := by
  have ht := hl.through ha hpc
  cases pc <;> simp_all [ActPc.through, ActPc.beside]

/-- Only one worker is alive. -/
theorem Lifecycle.only {s : Sys S Env Op} (hl : Lifecycle s.flow.toLife)
    {g g' : ℕ} (hg : (s.host.workers g).stage.alive = true)
    (hg' : (s.host.workers g').stage.alive = true) : g' = g :=
  Option.some.inj ((hl.alive g' hg').2.symm.trans (hl.alive g hg).2)

/-- The stage of a deactivation in progress. -/
theorem Sys.flow_deact {s : Sys S Env Op} {d : Deactivation S}
    (hd : s.host.deactivating = some d) : s.flow.deact = some d.pc.stage := by
  show s.host.deactivating.map _ = _
  rw [hd]
  rfl

/-- A deactivation is of an activated host. -/
theorem Lifecycle.activated_of_deact {s : Sys S Env Op}
    (hl : Lifecycle s.flow.toLife) {d : Deactivation S}
    (hd : s.host.deactivating = some d) : s.host.activated = true :=
  (hl.closed (by rw [Sys.flow_deact hd]; simp)).1

/-- An activated host has its instance, until a deactivation drops it. -/
theorem Lifecycle.inst_ne_none {s : Sys S Env Op} (hl : Lifecycle s.flow.toLife)
    (ha : s.host.activated = true)
    (hd : ∀ idle, s.host.deactivating ≠ some ⟨.finishing (.ok ()), idle⟩) :
    s.host.inst ≠ none := by
  have hp := hl.present ha (fun he => by
    obtain ⟨d, hd', hstage⟩ := Option.map_eq_some_iff.mp he
    obtain ⟨pc, idle⟩ := d
    rcases pc with _ | _ | _ | (_ | _) <;> simp_all [DeactPc.stage])
  show s.flow.inst ≠ none
  rw [hp.2]
  exact hp.1

/-- Once a deactivation has got beyond awaiting the worker, no worker is
alive. -/
theorem Lifecycle.dead_of_deact {s : Sys S Env Op}
    (hl : Lifecycle s.flow.toLife) {d : Deactivation S}
    (hd : s.host.deactivating = some d) (hne : ∀ g, d.pc ≠ .awaitWorker g)
    (g : ℕ) : (s.host.workers g).stage.alive = false := by
  refine (hl.drained _ (Sys.flow_deact hd) (fun g' he => ?_)).1 g
  have hne := hne g'
  revert he hne
  cases d.pc with
  | awaitWorker g'' =>
    intro he hne
    exact hne (by rw [DeactStage.awaiting.inj he])
  | finishing o => cases o <;> simp [DeactPc.stage]
  | _ => simp [DeactPc.stage]

/-- So it is once the worker it awaits has returned. -/
theorem Lifecycle.dead_of_done {s : Sys S Env Op}
    (hl : Lifecycle s.flow.toLife) {g : ℕ} {idle : Bool}
    (hd : s.host.deactivating = some ⟨.awaitWorker g, idle⟩)
    (hg : s.host.workers g = .done) (g' : ℕ) :
    (s.host.workers g').stage.alive = false := by
  by_contra hg'
  have halive : (s.host.workers g').stage.alive = true := by simpa using hg'
  have hp := (hl.alive g' halive).2
  obtain rfl := Option.some.inj (hp.symm.trans (hl.awaiting g (Sys.flow_deact hd)))
  exact hg' (by rw [hg]; rfl)

/-- While a worker is alive, a deactivation awaits it. -/
theorem Lifecycle.awaits {s : Sys S Env Op} (hl : Lifecycle s.flow.toLife)
    {g : ℕ} (hg : (s.host.workers g).stage.alive = true)
    {d : Deactivation S} (hd : s.host.deactivating = some d) :
    ∃ g', d.pc = .awaitWorker g' := by
  by_contra hne
  have hdead := hl.dead_of_deact hd (fun g' he => hne ⟨g', he⟩) g
  exact absurd hdead (by rw [hg]; simp)

namespace Beside

variable {cfg : HostConfig S Env Op} {s s' t : Sys S Env Op}

/-- A step that moves no worker, activation or deactivation either. -/
theorem of_eq (inst : s'.host.inst = s.host.inst)
    (cls : s'.host.cls = s.host.cls) (objs : s'.host.objs = s.host.objs)
    (currentSeq : s'.host.currentSeq = s.host.currentSeq)
    (runningVersion : s'.host.runningVersion = s.host.runningVersion)
    (snapshotDirty : s'.host.snapshotDirty = s.host.snapshotDirty)
    (snapshotTimer : s'.host.snapshotTimer = s.host.snapshotTimer)
    (prevStateCapture : s'.host.prevStateCapture = s.host.prevStateCapture)
    (commitListeners : s'.host.commitListeners = s.host.commitListeners)
    (saves : s'.host.saves = s.host.saves)
    (timerFlushes : s'.host.timerFlushes = s.host.timerFlushes)
    (eventsSinceSnapshot : s'.host.eventsSinceSnapshot = s.host.eventsSinceSnapshot)
    (row : s'.store.row = s.store.row)
    (snapshots : s'.store.snapshots = s.store.snapshots)
    (events : s'.store.events = s.store.events)
    (boundaries : s'.hist.boundaries = s.hist.boundaries)
    (notifs : s'.hist.notifs = s.hist.notifs)
    (activated : s'.host.activated = s.host.activated)
    (workers : s'.host.workers = s.host.workers)
    (activating : s'.host.activating = s.host.activating)
    (deactivating : s'.host.deactivating = s.host.deactivating) :
    Beside s s' :=
  { inst, cls, objs, currentSeq, runningVersion, snapshotDirty,
    snapshotTimer, prevStateCapture, commitListeners, saves, row, snapshots,
    events, boundaries, notifs, activated,
    timerFlushes := fun k hk => timerFlushes ▸ hk
    eventsSinceSnapshot := fun _ => eventsSinceSnapshot
    workers := fun g => .inl (by rw [workers])
    activating := .inl activating
    deactivating := .inl deactivating }

theorem refl (s : Sys S Env Op) : Beside s s :=
  of_eq rfl rfl rfl rfl rfl rfl rfl rfl rfl rfl rfl rfl rfl rfl rfl rfl rfl rfl
    rfl rfl rfl

theorem trans (h : Beside s t) (h' : Beside t s') : Beside s s' where
  inst := h'.inst.trans h.inst
  cls := h'.cls.trans h.cls
  objs := h'.objs.trans h.objs
  currentSeq := h'.currentSeq.trans h.currentSeq
  runningVersion := h'.runningVersion.trans h.runningVersion
  snapshotDirty := h'.snapshotDirty.trans h.snapshotDirty
  snapshotTimer := h'.snapshotTimer.trans h.snapshotTimer
  prevStateCapture := h'.prevStateCapture.trans h.prevStateCapture
  commitListeners := h'.commitListeners.trans h.commitListeners
  saves := h'.saves.trans h.saves
  timerFlushes k hk := h.timerFlushes (h'.timerFlushes hk)
  eventsSinceSnapshot hn := (h'.eventsSinceSnapshot
    (List.subset_nil.mp (hn ▸ h.timerFlushes))).trans (h.eventsSinceSnapshot hn)
  row := h'.row.trans h.row
  snapshots := h'.snapshots.trans h.snapshots
  events := h'.events.trans h.events
  boundaries := h'.boundaries.trans h.boundaries
  notifs := h'.notifs.trans h.notifs
  activated := h'.activated.trans h.activated
  workers g := by
    rcases h'.workers g with he | ⟨hw, he⟩
    · rw [he]
      exact h.workers g
    · rcases h.workers g with he' | ⟨-, ⟨item, he'⟩ | he'⟩
      · exact .inr ⟨he' ▸ hw, he⟩
      · exact absurd (he'.symm.trans hw) (by simp)
      · exact absurd (he'.symm.trans hw) (by simp)
  activating := by
    rcases h'.activating with he | he
    · rw [he]
      exact h.activating
    · rcases h.activating with he' | he'
      · exact .inr ⟨he' ▸ he.1, he.2⟩
      · exact .inr ⟨he'.1, he.2⟩
  deactivating := by
    rcases h'.deactivating with he | ⟨hn, he⟩
    · rw [he]
      exact h.deactivating
    · rcases h.deactivating with he' | ⟨-, g, idle, he'⟩
      · exact .inr ⟨he' ▸ hn, he⟩
      · exact absurd (he'.symm.trans hn) (by simp)

/-! ## What a step beside the state keeps -/

/-- A worker with an item in its hands stays where it is. -/
theorem workers_eq (h : Beside s s') {g : ℕ}
    (hg : s.host.workers g ≠ .waiting) :
    s'.host.workers g = s.host.workers g :=
  (h.workers g).resolve_right (fun hw => hg hw.1)

/-- What neither waiting, nor having received an item, nor stopping counts
for, is counted of a worker as before. -/
theorem workers_iff (h : Beside s s') {P : WorkerPc S → Prop}
    (hwait : ¬P .waiting) (hrec : ∀ item, ¬P (.received item))
    (hexit : ¬P .exiting) (g : ℕ) :
    P (s'.host.workers g) ↔ P (s.host.workers g) := by
  rcases h.workers g with he | ⟨hw, ⟨item, he⟩ | he⟩
  · rw [he]
  · rw [he, hw]
    exact ⟨fun hp => absurd hp (hrec item), fun hp => absurd hp hwait⟩
  · rw [he, hw]
    exact ⟨fun hp => absurd hp hexit, fun hp => absurd hp hwait⟩

/-- An activation that is at work on the state stays where it is. -/
theorem activating_eq (h : Beside s s') {pc : ActPc S Env}
    (hpc : s'.host.activating = some pc) (hb : pc.beside = false) :
    s.host.activating = some pc := by
  rcases h.activating with he | he
  · exact he ▸ hpc
  · exact absurd (he.2 pc hpc) (Bool.eq_false_iff.mp hb)

/-! ## The steps

Which steps of a host these are: each request that is made or goes on, the
requests to deactivate, and the segments of an activation that are through
with the state. -/

theorem setTell (s : Sys S Env Op) (t : ℕ) (task : TellTask) :
    Beside s (s.setTell t task) :=
  of_eq rfl rfl rfl rfl rfl rfl rfl rfl rfl rfl rfl rfl rfl rfl rfl rfl rfl rfl
    rfl rfl rfl

theorem setCall (s : Sys S Env Op) (c : ℕ) (task : CallTask) :
    Beside s (s.setCall c task) :=
  of_eq rfl rfl rfl rfl rfl rfl rfl rfl rfl rfl rfl rfl rfl rfl rfl rfl rfl rfl
    rfl rfl rfl

theorem enqueue (hl : Lifecycle s.flow.toLife) (item : Item) :
    Beside s (s.enqueue item) :=
  { refl s with
    workers := fun g => by
      unfold Sys.enqueue Sys.wake
      dsimp only
      rcases s.host.mailbox.enqueue_cases item with ⟨he, -⟩ | ⟨he, -⟩
        | ⟨w, m, he, -, hws, -⟩ | ⟨m, he, -⟩ <;> rw [he]
      · exact .inl rfl
      · exact .inl rfl
      · dsimp only
        rw [Function.update_apply]
        split
        · next hgw =>
          refine .inr ⟨?_, .inl ⟨item, rfl⟩⟩
          rw [hgw]
          exact hl.waiting (by rw [hws]; exact List.mem_cons_self)
        · exact .inl rfl
      · exact .inl rfl }

theorem enqueueAll (hl : Lifecycle s.flow.toLife) (rs : List InboxRecord) :
    Beside s (s.enqueueAll rs).2 := by
  induction rs generalizing s with
  | nil => exact refl s
  | cons r rs ih =>
    rw [Sys.enqueueAll]
    split
    · exact refl s
    · refine (enqueue hl _).trans (ih ?_)
      rw [Sys.flow_enqueue]
      exact hl.enqueue _

theorem activate (s : Sys S Env Op) : Beside s (s.activate cfg) := by
  unfold Sys.activate
  split
  · exact refl s
  split
  · exact refl s
  next hact =>
  have hnone : ∀ pc, s.host.activating = some pc → pc.beside = true := fun pc hpc =>
    absurd (Option.isSome_iff_exists.mpr ⟨pc, hpc⟩) hact
  unfold Sys.beginActivation
  dsimp only
  split
  · exact { refl s with
      activating := .inr ⟨hnone, fun pc hpc => by
        obtain rfl := Option.some.inj hpc
        rfl⟩ }
  · exact { refl s with
      activating := .inr ⟨hnone, fun pc hpc => by
        obtain rfl := Option.some.inj hpc
        rfl⟩ }

theorem tellStart {t : ℕ} {type : String} {payload : Json}
    (h : s.tellStart cfg t type payload = some s') : Beside s s' := by
  unfold Sys.tellStart at h
  split at h
  · exact absurd h (by simp)
  split at h
  · obtain rfl := Option.some.inj h
    exact setTell s _ _
  split at h <;> obtain rfl := Option.some.inj h
  · exact setTell s _ _
  · exact (activate s).trans (setTell _ _ _)

theorem tellLand {t : ℕ} {ok : Bool} (h : s.tellLand t ok = some s') :
    Beside s s' := by
  unfold Sys.tellLand at h
  split at h
  · split at h <;> obtain rfl := Option.some.inj h
    · exact { refl s with }
    · exact setTell s _ _
  · dsimp only at h
    split at h <;> obtain rfl := Option.some.inj h
    · exact { refl s with }
    · exact { refl s with }
  · exact absurd h (by simp)

theorem tellResume (hl : Lifecycle s.flow.toLife) {t : ℕ}
    (h : s.tellResume t = some s') : Beside s s' := by
  unfold Sys.tellResume at h
  split at h
  · split at h
    · exact absurd h (by simp)
    · obtain rfl := Option.some.inj h
      exact setTell s _ _
    · obtain rfl := Option.some.inj h
      exact setTell s _ _
  · next type payload id ht =>
    obtain rfl := Option.some.inj h
    unfold Sys.tellEnqueue
    dsimp only
    split
    · exact { refl s with }
    · exact { refl s with }
    · have h₁ : Beside s { s with
          host := s.host.touch
          hist := { s.hist with landed := s.hist.landed.erase id } } :=
        { refl s with }
      refine h₁.trans ((enqueue ?_ _).trans (setTell _ _ _))
      exact hl
  · exact absurd h (by simp)

theorem callEnqueue (hl : Lifecycle s.flow.toLife) (c : ℕ) (method : String)
    (args : Json) : Beside s (s.callEnqueue c method args) := by
  unfold Sys.callEnqueue
  split
  · exact setCall s _ _
  split
  · exact setCall s _ _
  · exact setCall s _ _
  · have h₁ : Beside s { s with host := s.host.touch } := { refl s with }
    refine h₁.trans ((enqueue ?_ _).trans (setCall _ _ _))
    exact hl

theorem callStart (hl : Lifecycle s.flow.toLife) {c : ℕ} {method : String}
    {args : Json} (h : s.callStart cfg c method args = some s') :
    Beside s s' := by
  unfold Sys.callStart at h
  split at h
  · exact absurd h (by simp)
  split at h
  · obtain rfl := Option.some.inj h
    exact setCall s _ _
  split at h <;> obtain rfl := Option.some.inj h
  · exact callEnqueue hl _ _ _
  · exact (activate s).trans (setCall _ _ _)

theorem callResume (hl : Lifecycle s.flow.toLife) {c : ℕ}
    (h : s.callResume c = some s') : Beside s s' := by
  unfold Sys.callResume at h
  split at h
  · split at h
    · exact absurd h (by simp)
    · obtain rfl := Option.some.inj h
      exact callEnqueue hl _ _ _
    · obtain rfl := Option.some.inj h
      exact setCall s _ _
  · exact absurd h (by simp)

/-- A deactivation that is asked for closes the mailbox, and awaits the
worker that every activated host has. -/
theorem deactivate {env : Env} (hl : Lifecycle s.flow.toLife) (idle : Bool) :
    Beside s (s.deactivate env idle) := by
  unfold Sys.deactivate
  split
  · exact refl s
  next hd =>
  split
  · exact refl s
  next ha =>
  have hd' : s.host.deactivating = none := by simpa using hd
  dsimp only
  split
  · exact { refl s with
      workers := fun g => by
        show (if g ∈ s.host.mailbox.waiters then WorkerPc.exiting
          else s.host.workers g) = _ ∨ _ ∧ (_ ∨ (if g ∈ s.host.mailbox.waiters
            then WorkerPc.exiting else s.host.workers g) = _)
        split
        · next hg => exact .inr ⟨hl.waiting hg, .inr rfl⟩
        · exact .inl rfl
      deactivating := .inr ⟨hd', _, _, rfl⟩ }
  · next hw =>
    refine absurd (show s.flow.workerPromise = none from hw) (hl.present ?_ ?_).1
    · show s.host.activated = true
      simpa using ha
    · show s.host.deactivating.map _ ≠ _
      rw [hd']
      simp

theorem deactivateForIdle {env : Env} (hl : Lifecycle s.flow.toLife) :
    Beside s (s.deactivateForIdle env) := by
  unfold Sys.deactivateForIdle
  split
  · exact refl s
  split
  · exact { refl s with }
  · exact deactivate hl true

theorem flushResume {k : ℕ} (h : s.flushResume k = some s') : Beside s s' := by
  unfold Sys.flushResume at h
  split at h
  · next hk =>
    dsimp only at h
    split at h
    · exact absurd h (by simp)
    · obtain rfl := Option.some.inj h
      exact { refl s with
        timerFlushes := List.erase_subset
        eventsSinceSnapshot := fun hn => absurd (hn ▸ hk) List.not_mem_nil }
    · obtain rfl := Option.some.inj h
      exact { refl s with
        timerFlushes := List.erase_subset
        eventsSinceSnapshot := fun _ => rfl }
  · exact absurd h (by simp)

end Beside

/-- The steps that are beside the state. -/
def Act.beside : Act Env → Bool
  | activation _ _ => false
  | worker _ _ _ => false
  | deactivation _ => false
  | snapshotFire => false
  | save _ _ => false
  | subscribe _ => false
  | unsubscribe _ => false
  | notifyTombstone => false
  | _ => true

/-- **Requests, and what asks for a deactivation, are beside the state.** -/
theorem Sys.beside_step {cfg : HostConfig S Env Op} {s s' : Sys S Env Op}
    {a : Act Env} (hl : Lifecycle s.flow.toLife) (ha : a.beside = true)
    (h : s.step cfg a = some s') : Beside s s' := by
  cases a with
  | activate =>
    obtain rfl := Option.some.inj h
    exact .activate s
  | tellStart t type payload => exact .tellStart h
  | tellLand t ok => exact .tellLand h
  | tellResume t => exact .tellResume hl h
  | callStart c method args => exact .callStart hl h
  | callResume c => exact .callResume hl h
  | deactivate env =>
    obtain rfl := Option.some.inj h
    exact .deactivate hl false
  | destroy env =>
    obtain rfl := Option.some.inj h
    unfold Sys.destroy
    split
    · exact .refl s
    · have h₁ : Beside s { s with host := { s.host with destroyed := true } } :=
        { Beside.refl s with }
      refine h₁.trans (.deactivate ?_ false)
      exact hl
  | idleFire env =>
    rw [Sys.step] at h
    split at h
    · obtain rfl := Option.some.inj h
      have h₁ : Beside s { s with host := { s.host with idleTimer := false } } :=
        { Beside.refl s with }
      refine h₁.trans (.deactivateForIdle ?_)
      exact hl
    · exact absurd h (by simp)
  | idleEvict =>
    rw [Sys.step] at h
    split at h
    · obtain rfl := Option.some.inj h
      exact { Beside.refl s with }
    · exact absurd h (by simp)
  | flushResume k => exact .flushResume h
  | _ => exact absurd ha (by simp [Act.beside])

theorem Sys.activating_enqueueAll (s : Sys S Env Op) (rs : List InboxRecord) :
    (s.enqueueAll rs).2.host.activating = s.host.activating := by
  induction rs generalizing s with
  | nil => rfl
  | cons r rs ih =>
    rw [Sys.enqueueAll]
    split
    · rfl
    · exact ih _

/-- **So is an activation that is through with the state**, or has not come
to it. -/
theorem Sys.beside_actStep {cfg : HostConfig S Env Op} {s s' : Sys S Env Op}
    {env : Env} {ok : Bool} {pc : ActPc S Env} (hl : Lifecycle s.flow.toLife)
    (hpc : s.host.activating = some pc) (ht : pc.through = true)
    (h : s.actStep cfg env ok = some s') : Beside s s' := by
  have hbeside : ∀ {t : Sys S Env Op}, t.host.activating = s.host.activating →
      ∀ pc', t.host.activating = some pc' → pc'.beside = true := by
    intro t he pc' hpc'
    rw [he, hpc] at hpc'
    obtain rfl := Option.some.inj hpc'
    cases pc <;> simp_all [ActPc.through, ActPc.beside]
  have hmove : ∀ {t : Sys S Env Op} {pc' : ActPc S Env},
      t.host.activating = s.host.activating → pc'.beside = true →
      Beside t (t.setActivating pc') := fun ht hb =>
    { Beside.refl _ with
      activating := .inr ⟨hbeside ht, fun pc hpc => by
        obtain rfl := Option.some.inj hpc
        exact hb⟩ }
  obtain ⟨pc', hpc', hseg⟩ := Sys.actSegment h
  obtain rfl := Option.some.inj (hpc.symm.trans hpc')
  cases hseg with
  | inboxFailed | readInbox => exact hmove rfl rfl
  | @replayInbox pending =>
    exact (Beside.enqueueAll hl pending).trans
      (hmove (Sys.activating_enqueueAll s pending) rfl)
  | settled =>
    exact { Beside.refl s with
      activating := .inr ⟨hbeside rfl, fun pc hpc => absurd hpc (by simp)⟩ }
  | failed e hn => exact absurd (ht.symm.trans hn.through) (by simp)
  | _ => exact absurd ht (by simp [ActPc.through])

/-- **An activation goes on beside the state, or on its way to it**: then the host is not
activated yet. -/
theorem Sys.beside_or_opens {cfg : HostConfig S Env Op} {s s' : Sys S Env Op}
    {env : Env} {ok : Bool} (hl : Lifecycle s.flow.toLife)
    (h : s.actStep cfg env ok = some s') :
    Beside s s' ∨ s.host.activated = false ∧ ∃ pc, s.host.activating = some pc
      ∧ pc.through = false ∧ Sys.ActSegment cfg s env ok pc s' := by
  obtain ⟨pc, hpc, hseg⟩ := Sys.actSegment h
  cases ht : pc.through with
  | true => exact .inl (Sys.beside_actStep hl hpc ht h)
  | false =>
    refine .inr ⟨?_, pc, hpc, ht, hseg⟩
    by_contra ha
    exact absurd (ht.symm.trans (hl.through (by simpa using ha) hpc)) (by simp)
