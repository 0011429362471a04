import Actjs.Descent
import Actjs.Flushing

/-!
# What a host has left to do

A suspended function is at a stage, and in the stages that run user code it has
so many segments left. `ActPc.left`, `WorkerPc.left` and `DeactPc.left` say how
far a function is from its end in these two numbers, and each of its segments
takes it further on; a worker begins another turn only with one item less in
the mailbox. A function that awaits a snapshot write awaits one that was handed
to the driver, which is what `GetsOn.flushes` says of a turn.
-/

open Function (update)

variable {S Env Op : Type}

/-! ## Stages

Pairs of numbers: how many stages are to come, and how many segments of user
code in the one at hand. -/

/-- How many segments a call of user code runs after the next. -/
def Script.awaits {R : Type} : Script S R → ℕ
  | await _ rest => rest.awaits + 1
  | ret _ _ => 0
  | throw _ _ => 0

/-- How many segments a hook still runs. -/
def HookPc.left : HookPc S → ℕ
  | running rest => rest.awaits + 1
  | returned _ => 0

@[simp] theorem HookPc.left_after (p : Script S Unit) :
    (HookPc.after p).left = p.awaits := by
  cases p <;> rfl

/-- What `doActivate` has left. -/
def ActPc.left : ActPc S Env → ℕ ×ₗ ℕ
  | loadSnapshot => toLex (16, 0)
  | resolveCtor _ => toLex (15, 0)
  | loadFence _ _ => toLex (14, 0)
  | register => toLex (13, 0)
  | onInit pc => toLex (12, pc.left)
  | retain _ _ => toLex (12, 0)
  | migrate _ => toLex (11, 0)
  | migrateFlush _ => toLex (10, 0)
  | audit => toLex (9, 0)
  | noMigrate => toLex (9, 0)
  | headSeq => toLex (8, 0)
  | readEvents => toLex (7, 0)
  | replayFlush _ => toLex (6, 0)
  | onActivate pc => toLex (5, pc.left)
  | readInbox => toLex (4, 0)
  | replayInbox _ => toLex (3, 0)
  | finishing _ => toLex (2, 0)

/-- What a worker has left of the turn it is in. -/
def WorkerPc.left : WorkerPc S → ℕ ×ₗ ℕ
  | received _ => toLex (10, 0)
  | running _ rest => toLex (9, rest.awaits)
  | returned _ _ => toLex (8, 0)
  | appending _ _ _ => toLex (7, 0)
  | appended _ _ _ => toLex (6, 0)
  | acking _ _ _ => toLex (5, 0)
  | flushing _ _ => toLex (4, 0)
  | unhandled _ => toLex (3, 0)
  | committed _ => toLex (3, 0)
  | looping => toLex (2, 0)
  | exiting => toLex (1, 0)
  | waiting => toLex (0, 0)
  | done => toLex (0, 0)
  | absent => toLex (0, 0)

/-- What `doDeactivate` has left. -/
def DeactPc.left : DeactPc S → ℕ ×ₗ ℕ
  | awaitWorker _ => toLex (4, 0)
  | flush _ => toLex (3, 0)
  | onDeactivate pc => toLex (2, pc.left)
  | finishing _ => toLex (1, 0)

/-- The snapshot write a worker awaits. -/
def WorkerPc.awaits : WorkerPc S → Option ℕ
  | flushing _ k => some k
  | _ => none

/-- The snapshot write a deactivation awaits. -/
def DeactPc.awaits : DeactPc S → Option ℕ
  | flush k => some k
  | _ => none

/-- A handler that is started has less left than the item had, -/
theorem WorkerPc.left_after (item : Item) (p : Script S Json) :
    (WorkerPc.after item p).left < toLex (10, 0) := by
  cases p <;> exact descends_first (by decide)

/-- and one that goes on less than before. -/
theorem WorkerPc.left_after_running (item : Item) (rest : Script S Json) :
    (WorkerPc.after item rest).left < (running item rest).left := by
  cases rest with
  | await c rest => exact descends_next le_rfl (Nat.lt_succ_self _)
  | ret c r => exact descends_first (by decide)
  | throw c e => exact descends_first (by decide)

@[simp] theorem WorkerPc.awaits_after (item : Item) (p : Script S Json) :
    (WorkerPc.after item p).awaits = none := by
  cases p <;> rfl

/-! ## An activation -/

/-- What the activation in progress has left. -/
def Host.actLeft (h : Host S Env) : ℕ ×ₗ ℕ :=
  (h.activating.map ActPc.left).getD (toLex (0, 0))

/-- The activation is about to call the `migrate` of the class. -/
def ActPc.migrating : ActPc S Env → Bool
  | retain _ _ => true
  | migrate _ => true
  | _ => false

/-- An activation that is about to call `migrate` has one to call. -/
def Sys.Migrates (s : Sys S Env Op) : Prop :=
  ∀ pc, s.host.activating = some pc → pc.migrating = true → s.host.cls.migrate ≠ none

/-- **A part of an activation gets on**: it has less than `n` left. -/
structure GoesOn (n : ℕ ×ₗ ℕ) (s s' : Sys S Env Op) : Prop where
  left : s'.host.actLeft < n
  timers : s'.host.timerFlushes = s.host.timerFlushes
  migrates : s.Migrates → s'.Migrates

namespace GoesOn

variable {cfg : HostConfig S Env Op} {s s' t : Sys S Env Op} {env : Env} {n : ℕ ×ₗ ℕ}

/-- The activation moves to a point that has nothing to do with `migrate`. -/
theorem moves {pc : ActPc S Env} (ht : t.host.timerFlushes = s.host.timerFlushes)
    (hl : pc.left < n) (hm : pc.migrating = false) : GoesOn n s (t.setActivating pc) where
  left := hl
  timers := ht
  migrates _ pc' hpc hpc' := by
    obtain rfl := Option.some.inj hpc
    exact absurd hpc' (by simp [hm])

theorem beginOnActivate (ht : t.host.timerFlushes = s.host.timerFlushes)
    (hn : toLex (6, 0) ≤ n) : GoesOn n s (t.beginOnActivate env) := by
  unfold Sys.beginOnActivate
  split
  · refine .moves ?_ ((descends_first (by decide : 4 < 6)).trans_le hn) rfl
    exact ht
  · exact .moves ht ((descends_first (by decide : 5 < 6)).trans_le hn) rfl

theorem beginReplay (ht : t.host.timerFlushes = s.host.timerFlushes)
    (hn : toLex (9, 0) ≤ n) : GoesOn n s (t.beginReplay env) := by
  unfold Sys.beginReplay
  split
  · exact .moves ht ((descends_first (by decide : 8 < 9)).trans_le hn) rfl
  · exact .beginOnActivate ht ((descends_first (by decide : 6 < 9)).le.trans hn)

theorem beginOnInit (ht : t.host.timerFlushes = s.host.timerFlushes) :
    GoesOn (toLex (13, 0)) s (t.beginOnInit env) := by
  unfold Sys.beginOnInit
  split
  · refine .beginReplay ?_ (descends_first (by decide)).le
    exact ht
  · exact .moves ht (descends_first (by decide)) rfl

theorem beginMigrate (ht : t.host.timerFlushes = s.host.timerFlushes)
    (prev : SnapshotRead S) : GoesOn (toLex (14, 0)) s (t.beginMigrate prev) := by
  unfold Sys.beginMigrate
  split
  · exact .moves ht (descends_first (by decide)) rfl
  · next f hf =>
    refine ⟨descends_first (by decide), ht, fun _ _ _ _ hn => ?_⟩
    have hn' : t.host.cls.migrate = none := hn
    exact absurd (hf.symm.trans hn') (by simp)

theorem migrated (s : Sys S Env Op) (x : S) :
    GoesOn (toLex (11, 0)) s (s.migrated x) := by
  unfold Sys.migrated
  dsimp only
  split <;> exact .moves rfl (descends_first (by decide)) rfl

theorem replay (s : Sys S Env Op) :
    GoesOn (toLex (7, 0)) s (s.replay cfg env) := by
  unfold Sys.replay
  dsimp only
  split
  · exact .moves rfl (descends_first (by decide)) rfl
  · split
    · exact .moves rfl (descends_first (by decide)) rfl
    · refine .beginOnActivate ?_ (descends_first (by decide)).le
      rfl

theorem timers_enqueueAll (s : Sys S Env Op) (rs : List InboxRecord) :
    (s.enqueueAll rs).2.host.timerFlushes = s.host.timerFlushes := by
  induction rs generalizing s with
  | nil => rfl
  | cons r rs ih =>
    rw [Sys.enqueueAll]
    split
    · rfl
    · exact ih (s.enqueue _)

end GoesOn

theorem Host.actLeft_of {h : Host S Env} {pc : ActPc S Env}
    (hpc : h.activating = some pc) : h.actLeft = pc.left := by
  rw [actLeft, hpc]
  rfl

/-- A hook goes on. -/
theorem HookPc.left_after_running {rest : Script S Unit} {k : ℕ} :
    toLex (k, (HookPc.after rest).left)
      < toLex (k, (HookPc.running rest : HookPc S).left) :=
  descends_next le_rfl (by rw [HookPc.left_after]; exact Nat.lt_succ_self _)

/-- **Every segment takes an activation further on.** -/
theorem Sys.goesOn_actStep {cfg : HostConfig S Env Op} {s s' : Sys S Env Op} {env : Env}
    {ok : Bool} (hs : s.actStep cfg env ok = some s') : GoesOn s.host.actLeft s s' := by
  obtain ⟨pc, hpc, hseg⟩ := Sys.actSegment hs
  rw [Host.actLeft_of hpc]
  cases hseg with
  | failed e ht =>
    refine .moves rfl ?_ rfl
    cases pc <;> first | exact ht.elim | exact descends_first (by decide)
  | loadSnapshot | resolveCtor | blank | migrateFlushed | behind | activated | inboxFailed
  | readInbox =>
    exact .moves rfl (descends_first (by decide)) rfl
  | @migrates snap =>
    refine .beginMigrate ?_ snap
    rfl
  | loaded =>
    refine .beginReplay ?_ (descends_first (by decide)).le
    rfl
  | registerEs | register =>
    refine .beginOnInit ?_
    rfl
  | onInit | onActivate => exact .moves rfl HookPc.left_after_running rfl
  | initialized => exact .beginReplay rfl (descends_first (by decide)).le
  | noMigrate | audited => exact .beginReplay rfl le_rfl
  | retained => exact ⟨descends_first (by decide), rfl, fun hm _ _ _ => hm _ hpc rfl⟩
  | migrated => exact .migrated s _
  | upToDate => exact .beginOnActivate rfl (descends_first (by decide)).le
  | replayed => exact .replay s
  | replayFlushed =>
    refine .beginOnActivate ?_ le_rfl
    rfl
  | @replayInbox pending =>
    exact .moves (GoesOn.timers_enqueueAll s pending) (descends_first (by decide)) rfl
  | settled =>
    exact ⟨descends_first (by decide), rfl, fun _ pc hpc => absurd hpc (by simp)⟩

/-! ## A turn -/

/-- **A part of a turn gets on**: worker `g` has less than `n` left, nothing was
put into the mailbox, and a write that the worker awaits was handed to the
driver. -/
structure GetsOn (g : ℕ) (n : ℕ ×ₗ ℕ) (s s' : Sys S Env Op) : Prop where
  mailbox : s'.host.mailbox = s.host.mailbox
  promise : s'.host.workerPromise = s.host.workerPromise
  timers : s'.host.timerFlushes = s.host.timerFlushes
  left : (s'.host.workers g).left < n
  flushes : ∀ k, (s'.host.workers g).awaits = some k → k < s'.host.saves.length

namespace GetsOn

variable {cfg : HostConfig S Env Op} {s t : Sys S Env Op} {g : ℕ} {n : ℕ ×ₗ ℕ}
  {item : Item}

theorem setWorker {pc : WorkerPc S} (hm : t.host.mailbox = s.host.mailbox)
    (hp : t.host.workerPromise = s.host.workerPromise)
    (ht : t.host.timerFlushes = s.host.timerFlushes) (hl : pc.left < n)
    (hk : ∀ k, pc.awaits = some k → k < t.host.saves.length) :
    GetsOn g n s (t.setWorker g pc) where
  mailbox := hm
  promise := hp
  timers := ht
  left := by
    show (update t.host.workers g pc g).left < n
    rwa [Function.update_self]
  flushes k h := by
    refine hk k ?_
    rwa [show (t.setWorker g pc).host.workers g = pc from Function.update_self _ _ _] at h

/-- A worker that awaits no write moves on. -/
theorem moves {pc : WorkerPc S} (hm : t.host.mailbox = s.host.mailbox)
    (hp : t.host.workerPromise = s.host.workerPromise)
    (ht : t.host.timerFlushes = s.host.timerFlushes) (hl : pc.left < n) (hk : pc.awaits = none) :
    GetsOn g n s (t.setWorker g pc) :=
  .setWorker hm hp ht hl (fun k h => absurd (hk.symm.trans h) (by simp))

theorem commitEsTail (hm : t.host.mailbox = s.host.mailbox)
    (hp : t.host.workerPromise = s.host.workerPromise)
    (ht : t.host.timerFlushes = s.host.timerFlushes) (item : Item) (events : List Json)
    (hn : toLex (4, 0) < n) : GetsOn g n s (t.commitEsTail cfg g item events) := by
  unfold Sys.commitEsTail
  dsimp only
  split
  · refine .setWorker hm hp ht hn (fun k hk => ?_)
    obtain rfl := Option.some.inj hk
    show t.host.saves.length < (t.host.saves ++ [_]).length
    simp
  · exact .moves hm hp ht ((descends_first (by decide : 3 < 4)).trans hn) rfl

end GetsOn

/-- What the worker of the host has left, in the turns of the items in the
mailbox and in its own. -/
def Host.turnsLeft (h : Host S Env) : ℕ ×ₗ ℕ ×ₗ ℕ :=
  toLex (h.mailbox.buffer.length,
    (h.workerPromise.map (fun g => (h.workers g).left)).getD (toLex (0, 0)))

namespace Sys

variable {cfg : HostConfig S Env Op} {s s' : Sys S Env Op} {env : Env} {ok : Bool}
  {g : ℕ}

/-- **Every segment of a worker takes its turn further on**, or is the end of a
`dequeue()`. -/
theorem getsOn_workerStep (hs : s.workerStep cfg g env ok = some s') :
    GetsOn g (s.host.workers g).left s s'
      ∨ s.host.workers g = .looping ∧ s' = s.dequeue g := by
  obtain ⟨pc, hpc, hseg⟩ := workerSegment hs
  rw [hpc]
  cases hseg with
  | dequeue => exact .inr ⟨rfl, rfl⟩
  | failed e hf =>
    refine .inl (.moves rfl rfl rfl ?_ rfl)
    cases pc <;> first | exact hf.elim | exact descends_first (by decide)
  | start =>
    exact .inl (.moves rfl rfl rfl (WorkerPc.left_after _ _) (WorkerPc.awaits_after _ _))
  | run =>
    exact .inl (.moves rfl rfl rfl (WorkerPc.left_after_running _ _)
      (WorkerPc.awaits_after _ _))
  | @resolveEs _ _ _ events =>
    refine .inl (.commitEsTail ?_ ?_ ?_ _ events (descends_first (by decide : 4 < 6)))
      <;> rfl
  | @esAcked item _ events =>
    refine .inl (.commitEsTail ?_ ?_ ?_ item events (descends_first (by decide : 4 < 5)))
      <;> rfl
  | _ => exact .inl (.moves rfl rfl rfl (descends_first (by decide)) rfl)

end Sys

/-! ## A deactivation -/

/-- What the deactivation in progress has left. -/
def Host.deactLeft (h : Host S Env) : ℕ ×ₗ ℕ :=
  (h.deactivating.map (fun d => d.pc.left)).getD (toLex (0, 0))

/-- **A part of a deactivation gets on**: it has less than `n` left, the mailbox
and the workers are as they were, and a write it awaits was handed to the
driver. -/
structure Closes (n : ℕ ×ₗ ℕ) (s s' : Sys S Env Op) : Prop where
  mailbox : s'.host.mailbox = s.host.mailbox
  promise : s'.host.workerPromise = s.host.workerPromise
    ∨ s'.host.workerPromise = none
  timers : s'.host.timerFlushes = s.host.timerFlushes
  left : s'.host.deactLeft < n
  flushes : ∀ d k, s'.host.deactivating = some d → d.pc.awaits = some k →
    k < s'.host.saves.length

namespace Closes

variable {s t : Sys S Env Op} {env : Env} {idle : Bool} {n : ℕ ×ₗ ℕ}

theorem setDeactivating {d : Deactivation S} (hm : t.host.mailbox = s.host.mailbox)
    (hp : t.host.workerPromise = s.host.workerPromise
      ∨ t.host.workerPromise = none)
    (ht : t.host.timerFlushes = s.host.timerFlushes) (hl : d.pc.left < n)
    (hk : ∀ k, d.pc.awaits = some k → k < t.host.saves.length) :
    Closes n s (t.setDeactivating d) where
  mailbox := hm
  promise := hp
  timers := ht
  left := hl
  flushes d' k hd := by
    obtain rfl := Option.some.inj hd
    exact hk k

theorem dropInstance (hm : t.host.mailbox = s.host.mailbox)
    (ht : t.host.timerFlushes = s.host.timerFlushes) (hn : toLex (1, 0) < n) :
    Closes n s (t.dropInstance idle) :=
  .setDeactivating hm (.inr rfl) ht hn (fun k hk => absurd hk (by simp [DeactPc.awaits]))

theorem beginOnDeactivate (hm : t.host.mailbox = s.host.mailbox)
    (hp : t.host.workerPromise = s.host.workerPromise)
    (ht : t.host.timerFlushes = s.host.timerFlushes) (hn : toLex (3, 0) ≤ n) :
    Closes n s (t.beginOnDeactivate env idle) := by
  unfold Sys.beginOnDeactivate
  split
  · exact .setDeactivating hm (.inl hp) ht ((descends_first (by decide : 2 < 3)).trans_le hn)
      (fun k hk => absurd hk (by simp [DeactPc.awaits]))
  · exact .dropInstance hm ht ((descends_first (by decide : 1 < 3)).trans_le hn)

end Closes

/-- **Every segment takes a deactivation further on.** -/
theorem Sys.closes_deactStep {s s' : Sys S Env Op} {env : Env}
    (hs : s.deactStep env = some s') : Closes s.host.deactLeft s s' := by
  obtain ⟨pc, idle, hd, hseg⟩ := Sys.deactSegment hs
  have hleft : s.host.deactLeft = pc.left := by
    rw [Host.deactLeft, hd]
    rfl
  rw [hleft]
  cases hseg with
  | flush =>
    refine .setDeactivating rfl (.inl rfl) rfl (descends_first (by decide)) (fun k hk => ?_)
    obtain rfl := Option.some.inj hk
    show s.host.saves.length < (s.host.saves ++ [_]).length
    simp
  | unflushed => exact .beginOnDeactivate rfl rfl rfl (descends_first (by decide)).le
  | flushed => exact .beginOnDeactivate rfl rfl rfl le_rfl
  | flushFailed =>
    exact .setDeactivating rfl (.inl rfl) rfl (descends_first (by decide))
      (fun k hk => absurd hk (by simp [DeactPc.awaits]))
  | onDeactivate =>
    exact .setDeactivating rfl (.inl rfl) rfl HookPc.left_after_running
      (fun k hk => absurd hk (by simp [DeactPc.awaits]))
  | threw | dropped => exact .dropInstance rfl rfl (descends_first (by decide))
  | settled =>
    exact ⟨rfl, .inl rfl, rfl, descends_first (by decide), fun d k hd => absurd hd (by simp)⟩
