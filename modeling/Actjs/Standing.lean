import Actjs.TellEffects

/-!
# What tells have made, on its way to storage

`Standing` is the invariant of a state-with-messages host whose handlers always do the
same. Of everything there is of the state – what the host has in memory, the last
write, what storage holds – it says when it is what the tells applied so far have made.

A turn changes the state before its tell is acked, and it may change it in place, so
that a write of the turn before reads what this turn has done so far. What the driver
encodes in the middle of a turn is therefore of no use, unless it is still what the
turn began with.
-/

open Function (update)

variable {S Env Op : Type}

/-- The handler was called, and its turn is not committed. -/
def WorkerPc.busy : WorkerPc S → Bool
  | running _ _ => true
  | returned _ _ => true
  | appending _ _ _ => true
  | appended _ _ _ => true
  | acking _ _ _ => true
  | _ => false

/-- A worker that has returned, or not begun, is not in a turn. -/
theorem WorkerPc.busy_of_dead {pc : WorkerPc S} (h : pc.stage.alive = false) :
    pc.busy = false := by
  cases pc <;> first | rfl | exact absurd h (by simp [stage, WorkerStage.alive])

theorem WorkerPc.busy_after (item : Item) (p : Script S Json) :
    (WorkerPc.after item p).busy = true := by
  unfold WorkerPc.after
  cases p.next <;> rfl

/-- The last write has ended, if there is one. -/
def Host.lastEnded (h : Host S Env) : Bool :=
  match h.saves.getLast? with
  | some sv => sv.pc.isEnded
  | none => true

theorem Host.lastEnded_eq {h h' : Host S Env} (hs : h'.saves.getLast? = h.saves.getLast?) :
    h'.lastEnded = h.lastEnded := by
  unfold lastEnded
  rw [hs]

/-- What a new host would make the state from: the snapshot that is stored, or what an
actor starts with. -/
def ActorStore.base (cls : ActorClass S Env) (env : Env) (st : ActorStore S) : S :=
  match bestSnapshot st.snapshots with
  | none => cls.fresh env
  | some p => p.2.state

namespace Sys

/-- No turn is in progress. -/
def Between (s : Sys S Env Op) : Prop := ∀ g, (s.host.workers g).busy = false

/-- **The last write is of `x`**, or may be, if it still refers to an object that a turn is
at work on; and if it has ended, `x` is stored. -/
def Keeps (cls : ActorClass S Env) (env : Env) (x : S) (turn : Prop) (s : Sys S Env Op) :
    Prop :=
  match s.host.saves.getLast? with
  | some ⟨_, _, .toEncode obj⟩ => turn ∨ s.host.objs.val obj = x
  | some ⟨_, _, .toLand y⟩ => y = x
  | _ => s.store.base cls env = x

end Sys

namespace Sys

/-- What the turn in progress began with, once a step is made. -/
def beganWith (s : Sys S Env Op) (before : S) : Act Env → S
  | .worker g _ _ =>
    match s.host.workers g with
    | .received _ => s.host.state
    | _ => before
  | _ => before

/-- Whether the last write has encoded, in the middle of a turn, something else than what
the turn began with, once a step is made. -/
def tears [DecidableEq S] (s : Sys S Env Op) (before : S) (torn : Bool) : Act Env → Bool
  | .worker g _ _ =>
    match s.host.workers g with
    | .received _ => false
    | _ => torn
  | .save k ok =>
    match s.host.saves[k]? with
    | some ⟨_, _, .toEncode obj⟩ =>
      torn || ok && decide (k + 1 = s.host.saves.length ∧ s.host.objs.val obj ≠ before)
    | _ => torn
  | _ => torn

/-- **When the last write is the one that counts**: a write lands in order, and an
activation loads the snapshot only once the last write has ended. -/
def keepsWrites (s : Sys S Env Op) : Act Env → Bool
  | .save k _ =>
    match s.host.saves[k]? with
    | some ⟨seq, _, .toLand _⟩ => decide (s.LandsInOrder k seq)
    | _ => true
  | .activation _ _ =>
    match s.host.activating with
    | some .loadSnapshot => s.host.lastEnded
    | _ => true
  | _ => true

end Sys

/-- The snapshot that was loaded is of `x`, or there is none, and `x` is what the actor
starts with. -/
def HostConfig.Loads (cfg : HostConfig S Env Op) (env : Env) (x : S) :
    Option (SnapshotRead S) → Prop
  | none => x = cfg.registration.ctor.fresh env
  | some sn => sn.version = cfg.registration.version ∧ sn.state = x

/-- What holds of the state at each await of `doActivate`. -/
def ActPc.Stands (cfg : HostConfig S Env Op) (env : Env) (x : S) (s : Sys S Env Op) :
    ActPc S Env → Prop
  | resolveCtor snap => s.host.lastEnded = true ∧ cfg.Loads env x snap
  | loadFence snap r => s.host.lastEnded = true ∧ cfg.Loads env x snap
    ∧ r = ⟨cfg.registration.ctor, cfg.registration.version, false⟩
  | register => s.host.lastEnded = true ∧ s.host.state = cfg.registration.ctor.blank
    ∧ x = cfg.registration.ctor.fresh env
  | onInit (.running rest) => s.host.lastEnded = true ∧ rest.final s.host.state = x
  | onInit (.returned (.ok _)) => s.host.state = x
  | onInit (.returned (.error _)) => True
  | onActivate pc => s.host.state = x ∧ pc.Keeps
  | loadSnapshot => True
  | readInbox => True
  | replayInbox _ => True
  | finishing _ => True
  | _ => False

/-- What holds of the state at each await of a worker: what is left of the handler makes
of it what the tell does. -/
def WorkerPc.Stands (cls : ActorClass S Env) (env : Env) (x : S) (s : Sys S Env Op) :
    WorkerPc S → Prop
  | running item rest => rest.final s.host.state = cls.tell env x item.name item.input
    ∧ ∃ r, rest.result = .ok r
  | returned item result => s.host.state = cls.tell env x item.name item.input
    ∧ ∃ r, result = .ok r
  | acking item _ after => s.host.state = cls.tell env x item.name item.input
    ∧ after = .swm
  | unhandled id => ∃ e, s.store.inbox[id]? = some e ∧ cls.handlers e.type = none
  | appending _ _ _ => False
  | appended _ _ _ => False
  | flushing _ _ => False
  | _ => True

theorem WorkerPc.Stands.of_dead {cls : ActorClass S Env} {env : Env} {x : S}
    {s : Sys S Env Op} {pc : WorkerPc S} (h : pc.stage.alive = false) :
    pc.Stands cls env x s := by
  cases pc <;> trivial

/-- An activation that is through with the state asks for nothing. -/
theorem ActPc.Stands.of_beside {cfg : HostConfig S Env Op} {env : Env} {x : S}
    {s : Sys S Env Op} {pc : ActPc S Env} (h : pc.beside = true) : pc.Stands cfg env x s := by
  cases pc <;> trivial

/-- What is asked of an activation is of the state, and of whether the last write has
ended. -/
theorem ActPc.Stands.congr {cfg : HostConfig S Env Op} {env : Env} {x : S}
    {s s' : Sys S Env Op} {pc : ActPc S Env} (h : pc.Stands cfg env x s)
    (hx : s'.host.state = s.host.state)
    (he : s.host.lastEnded = true → s'.host.lastEnded = true) :
    pc.Stands cfg env x s' := by
  cases pc with
  | resolveCtor snap => exact ⟨he h.1, h.2⟩
  | loadFence snap r => exact ⟨he h.1, h.2⟩
  | register => exact ⟨he h.1, hx.trans h.2.1, h.2.2⟩
  | onInit hook =>
    rcases hook with rest | (e | u)
    · exact ⟨he h.1, by rw [hx]; exact h.2⟩
    · trivial
    · exact hx.trans h
  | onActivate hook => exact ⟨hx.trans h.1, h.2⟩
  | _ => exact h

/-- What is asked of a worker is of the state, and of the inbox. -/
theorem WorkerPc.Stands.congr {cls : ActorClass S Env} {env : Env} {x : S}
    {s s' : Sys S Env Op} {pc : WorkerPc S} (h : pc.Stands cls env x s)
    (hx : s'.host.state = s.host.state) (hi : s.store.inbox <+: s'.store.inbox) :
    pc.Stands cls env x s' := by
  cases pc with
  | unhandled id =>
    obtain ⟨e, he, hn⟩ := h
    obtain ⟨es, hes⟩ := hi
    refine ⟨e, ?_, hn⟩
    rw [← hes, List.getElem?_append_left (List.getElem?_eq_some_iff.mp he).1]
    exact he
  | _ =>
    revert h
    unfold Stands
    rw [hx]
    exact id

/-- **What is on its way to storage, and there, is of the class as it is registered**: every
snapshot is written at seq 0, and no write has failed. -/
structure Shelved (cfg : HostConfig S Env Op) (s : Sys S Env Op) : Prop where
  cls : s.host.cls = cfg.registration.ctor
  version : s.host.runningVersion = cfg.registration.version
  stored : ∀ p ∈ s.store.snapshots, p.1 = 0 ∧ p.2.classVersion = cfg.registration.version
  known : s.store.snapshots ≠ [] → s.store.row ≠ none
  saves : ∀ sv ∈ s.host.saves, sv.seq = 0 ∧ sv.version = cfg.registration.version
    ∧ sv.pc ≠ .ended false

/-- **The state is what the tells applied so far have made**, or what they will have made
once the turn in progress is committed, and so is the last write, if nothing has changed
the state since. `x` is what they have made, `before` what the turn in progress began
with, and `torn` says whether the driver has encoded something else since. -/
structure Standing (cfg : HostConfig S Env Op) (env : Env) (x before : S) (torn : Bool)
    (s : Sys S Env Op) : Prop where
  shelved : Shelved cfg s
  opening : ∀ pc, s.host.activating = some pc → pc.Stands cfg env x s
  working : ∀ g, (s.host.workers g).Stands cfg.registration.ctor env x s
  ending : ∀ d, s.host.deactivating = some d → d.pc.Keeps
  serving : s.host.activated = true → s.Between → s.host.state = x
  turning : ¬s.Between → before = x
  clean : s.host.activated = false → s.host.snapshotDirty = false
  kept : s.host.snapshotDirty = false → s.Between ∨ torn = false →
    s.Keeps cfg.registration.ctor env x (¬s.Between)

/-- What holds while little counts as torn holds while more does. -/
theorem Standing.mono_torn {cfg : HostConfig S Env Op} {env : Env} {x before : S}
    {torn torn' : Bool} {s : Sys S Env Op} (h : Standing cfg env x before torn s)
    (ht : torn' = false → torn = false) : Standing cfg env x before torn' s :=
  { h with kept := fun hd hb => h.kept hd (hb.imp_right ht) }

namespace Shelved

variable {cfg : HostConfig S Env Op} {s s' : Sys S Env Op}

theorem frame (h : Shelved cfg s) (hc : s'.host.cls = s.host.cls)
    (hv : s'.host.runningVersion = s.host.runningVersion)
    (hs : s'.host.saves = s.host.saves) (hr : s'.store.row = s.store.row)
    (hp : s'.store.snapshots = s.store.snapshots) : Shelved cfg s' where
  cls := hc.trans h.cls
  version := hv.trans h.version
  stored := hp ▸ h.stored
  known := by rw [hp, hr]; exact h.known
  saves := hs ▸ h.saves

/-- What an activation loads is what storage holds. -/
theorem load (h : Shelved cfg s) (env : Env) :
    cfg.Loads env (s.store.base cfg.registration.ctor env) s.store.loadSnapshot := by
  unfold ActorStore.loadSnapshot ActorStore.base
  cases hb : bestSnapshot s.store.snapshots with
  | none => cases s.store.row <;> rfl
  | some p =>
    obtain ⟨seq, row⟩ := p
    have hmem := (bestSnapshot_mem hb).1
    have hrow := h.known (List.ne_nil_of_mem hmem)
    cases hr : s.store.row with
    | none => exact absurd hr hrow
    | some r => exact ⟨(h.stored _ hmem).2, rfl⟩

/-- The state is handed to the driver. -/
theorem flush (h : Shelved cfg s) (hswm : cfg.registration.ctor.isEs = false) :
    Shelved cfg { s with host := s.host.flushSnapshot } where
  cls := h.cls
  version := h.version
  stored := h.stored
  known := h.known
  saves sv hsv := by
    rcases List.mem_append.mp hsv with hsv | hsv
    · exact h.saves sv hsv
    · obtain rfl := List.mem_singleton.mp hsv
      refine ⟨?_, h.version, by simp⟩
      show (if s.host.cls.isEs = true then s.host.currentSeq else 0) = 0
      rw [h.cls, hswm]
      rfl

end Shelved

/-- A snapshot that was written is what storage holds. -/
theorem ActorStore.base_saveSnapshot (cls : ActorClass S Env) (env : Env)
    {st : ActorStore S} (h : ∀ p ∈ st.snapshots, p.1 = 0) (v : Version) (x : S) :
    (st.saveSnapshot 0 v x).base cls env = x := by
  have hnil : st.snapshots.filter (fun p => p.1 != 0) = [] :=
    List.filter_eq_nil_iff.mpr (fun p hp => by simp [h p hp])
  unfold base saveSnapshot
  dsimp only
  rw [hnil]
  rfl

namespace Sys.Keeps

variable {cls : ActorClass S Env} {env : Env} {x : S} {p p' : Prop} {s s' : Sys S Env Op}

theorem frame (h : s.Keeps cls env x p) (ho : s'.host.objs = s.host.objs)
    (hs : s'.host.saves.getLast? = s.host.saves.getLast?)
    (hp : s'.store.snapshots = s.store.snapshots) : s'.Keeps cls env x p := by
  unfold Keeps ActorStore.base at h ⊢
  rw [ho, hs, hp]
  exact h

theorem mono (h : s.Keeps cls env x p) (hp : p → p') : s.Keeps cls env x p' := by
  unfold Keeps at h ⊢
  split at h
  · exact h.imp_left hp
  · exact h
  · exact h

/-- In the middle of a turn the objects do not matter. -/
theorem turning (h : s.Keeps cls env x p) (hs : s'.host.saves = s.host.saves)
    (hp : s'.store.snapshots = s.store.snapshots) (hp' : p') : s'.Keeps cls env x p' := by
  unfold Keeps ActorStore.base at h ⊢
  rw [hs, hp]
  split at h
  · exact .inl hp'
  · exact h
  · exact h

/-- Nor do they once the last write has ended. -/
theorem ended (h : s.Keeps cls env x p) (he : s.host.lastEnded = true)
    (hs : s'.host.saves = s.host.saves) (hp : s'.store.snapshots = s.store.snapshots) :
    s'.Keeps cls env x p' := by
  unfold Keeps ActorStore.base at h ⊢
  unfold Host.lastEnded at he
  rw [hs, hp]
  revert h he
  rcases s.host.saves.getLast? with _ | ⟨seq, version, obj | y | ok⟩ <;>
    simp [SavePc.isEnded]

/-- What is stored, once the last write has ended. -/
theorem base (h : s.Keeps cls env x p) (he : s.host.lastEnded = true) :
    s.store.base cls env = x := by
  unfold Keeps at h
  unfold Host.lastEnded at he
  revert h he
  rcases s.host.saves.getLast? with _ | ⟨seq, version, obj | y | ok⟩ <;>
    simp [SavePc.isEnded]

/-- What is handed to the driver is the last write. -/
theorem handed {seq : ℤ} {version : Version} {obj : ℕ} {old : List (Save S)}
    (hs : s.host.saves = old ++ [⟨seq, version, .toEncode obj⟩])
    (ho : p ∨ s.host.objs.val obj = x) : s.Keeps cls env x p := by
  unfold Keeps
  rw [hs, List.getLast?_append]
  exact ho

end Sys.Keeps

/-! ## Between two turns

Nothing of a turn is anywhere, so the state, and what is on its way to
storage, is what the tells have made. -/

/-- **The state is what the tells applied so far have made**, and so is the last write, if
nothing has changed the state since. -/
structure Rested (cfg : HostConfig S Env Op) (env : Env) (x : S) (s : Sys S Env Op) :
    Prop where
  shelved : Shelved cfg s
  state : s.host.state = x
  kept : s.host.snapshotDirty = false → s.Keeps cfg.registration.ctor env x False

/-- **In the middle of a turn**, which began with that state: what the driver has encoded
since may be something else. -/
structure Turning (cfg : HostConfig S Env Op) (env : Env) (x before : S) (torn : Bool)
    (s : Sys S Env Op) : Prop where
  shelved : Shelved cfg s
  before : before = x
  kept : s.host.snapshotDirty = false → torn = false →
    s.Keeps cfg.registration.ctor env x True

section

variable {cfg : HostConfig S Env Op} {env : Env} {x b : S} {torn : Bool}
  {s s' : Sys S Env Op} {g : ℕ}

theorem Rested.frame (h : Rested cfg env x s) (hc : s'.host.cls = s.host.cls)
    (hv : s'.host.runningVersion = s.host.runningVersion)
    (ho : s'.host.objs = s.host.objs) (hd : s'.host.snapshotDirty = s.host.snapshotDirty)
    (hs : s'.host.saves = s.host.saves) (hr : s'.store.row = s.store.row)
    (hp : s'.store.snapshots = s.store.snapshots) : Rested cfg env x s' where
  shelved := h.shelved.frame hc hv hs hr hp
  state := by
    unfold Host.state
    rw [ho]
    exact h.state
  kept hd' := (h.kept (hd ▸ hd')).frame ho (congrArg List.getLast? hs) hp

/-- The state is marked to be written. -/
theorem Rested.dirty (h : Shelved cfg s) (hx : s.host.state = x)
    (hd : s.host.snapshotDirty = true) : Rested cfg env x s :=
  ⟨h, hx, fun hd' => absurd (hd.symm.trans hd') (by simp)⟩

theorem Rested.runSegment {R : Type} {p : Script S R} (h : Rested cfg env x s)
    (hp : p.Keeps) : Rested cfg env x (s.runSegment p) :=
  h.frame rfl rfl (hp.objs s) rfl rfl rfl rfl

/-- The object a flush hands over reads the state. -/
theorem Host.val_snapshotObj {h : Host S Env}
    (hsnap : ∀ f, h.cls.snapshot = some f → ∀ x, f x = x) :
    h.snapshotObjs.val h.snapshotObj = h.state := by
  unfold Host.snapshotObjs Host.snapshotObj
  cases hf : h.cls.snapshot with
  | none => rfl
  | some f => exact (Function.update_self _ _ _).trans (hsnap f hf _)

/-- The state is handed to the driver. -/
theorem Rested.flush (h : Rested cfg env x s) (hcls : cfg.registration.ctor.Steady)
    (hswm : cfg.registration.ctor.isEs = false) :
    Rested cfg env x { s with host := s.host.flushSnapshot } where
  shelved := h.shelved.flush hswm
  state := (Host.state_flushSnapshot _).trans h.state
  kept _ := Sys.Keeps.handed rfl <| .inr <| by
    refine (Host.val_snapshotObj fun f hf => hcls.snapshot f ?_).trans h.state
    rw [← h.shelved.cls]
    exact hf

/-- So it is in the middle of a turn. -/
theorem Turning.flush (h : Turning cfg env x b torn s)
    (hswm : cfg.registration.ctor.isEs = false) :
    Turning cfg env x b torn { s with host := s.host.flushSnapshot } where
  shelved := h.shelved.flush hswm
  before := h.before
  kept _ _ := Sys.Keeps.handed rfl (.inl trivial)

/-- A step of the turn, which may write the state. -/
theorem Turning.frame (h : Turning cfg env x b torn s) (hc : s'.host.cls = s.host.cls)
    (hv : s'.host.runningVersion = s.host.runningVersion)
    (hd : s'.host.snapshotDirty = s.host.snapshotDirty)
    (hs : s'.host.saves = s.host.saves) (hr : s'.store.row = s.store.row)
    (hp : s'.store.snapshots = s.store.snapshots) : Turning cfg env x b torn s' where
  shelved := h.shelved.frame hc hv hs hr hp
  before := h.before
  kept hd' ht := (h.kept (hd ▸ hd') ht).turning hs hp trivial

/-- A turn begins. -/
theorem Rested.turning (h : Rested cfg env x s) : Turning cfg env x s.host.state torn s where
  shelved := h.shelved
  before := h.state
  kept hd _ := (h.kept hd).mono False.elim

namespace Standing

/-- No turn is in progress while the worker that is alive is not in one. -/
theorem between (hl : Lifecycle s.flow.toLife) (hlive : (s.host.workers g).stage.alive = true)
    (hg : (s.host.workers g).busy = false) : s.Between := by
  intro g'
  by_cases hg' : (s.host.workers g').stage.alive = true
  · rw [hl.only hlive hg']
    exact hg
  · exact WorkerPc.busy_of_dead (by simpa using hg')

theorem rested (h : Standing cfg env x b torn s) (ha : s.host.activated = true)
    (hb : s.Between) : Rested cfg env x s where
  shelved := h.shelved
  state := h.serving ha hb
  kept hd := (h.kept hd (.inl hb)).mono (fun hn => hn hb)

theorem turn (h : Standing cfg env x b torn s) (hg : (s.host.workers g).busy = true) :
    Turning cfg env x b torn s := by
  have hn : ¬s.Between := fun hb => absurd (hb g) (by simp [hg])
  exact ⟨h.shelved, h.turning hn, fun hd ht => (h.kept hd (.inr ht)).mono (fun _ => trivial)⟩

/-- While a worker is alive, nothing is asked of the others, the activation and the
deactivation. -/
theorem attended (hl : Lifecycle s.flow.toLife)
    (hlive : (s.host.workers g).stage.alive = true) (h : Shelved cfg s)
    (hw : (s.host.workers g).Stands cfg.registration.ctor env x s)
    (hserving : s.Between → s.host.state = x) (hturning : ¬s.Between → b = x)
    (hkept : s.host.snapshotDirty = false → s.Between ∨ torn = false →
      s.Keeps cfg.registration.ctor env x (¬s.Between)) : Standing cfg env x b torn s where
  shelved := h
  opening pc hpc := .of_beside (hl.beside (hl.alive g hlive).1 hpc)
  working g' := by
    by_cases hg' : (s.host.workers g').stage.alive = true
    · rw [hl.only hlive hg']
      exact hw
    · exact .of_dead (by simpa using hg')
  ending d hd := by
    obtain ⟨g', he⟩ := hl.awaits hlive hd
    rw [he]
    trivial
  serving _ := hserving
  turning := hturning
  clean ha := absurd (hl.alive g hlive).1 (by
    show s.host.activated ≠ true
    simp [ha])
  kept := hkept

/-- **Between two turns the invariant holds.** -/
theorem of_rested (h : Rested cfg env x s) (hl : Lifecycle s.flow.toLife)
    (hlive : (s.host.workers g).stage.alive = true)
    (hg : (s.host.workers g).busy = false)
    (hw : (s.host.workers g).Stands cfg.registration.ctor env x s) :
    Standing cfg env x b torn s := by
  have hb := between hl hlive hg
  exact attended hl hlive h.shelved hw (fun _ => h.state) (fun hn => absurd hb hn)
    (fun hd _ => (h.kept hd).mono False.elim)

/-- **In the middle of a turn the invariant holds.** -/
theorem of_turning (h : Turning cfg env x b torn s) (hl : Lifecycle s.flow.toLife)
    (hg : (s.host.workers g).busy = true)
    (hw : (s.host.workers g).Stands cfg.registration.ctor env x s) :
    Standing cfg env x b torn s := by
  have hlive : (s.host.workers g).stage.alive = true := by
    by_contra hdead
    exact absurd (WorkerPc.busy_of_dead (by simpa using hdead)) (by simp [hg])
  have hn : ¬s.Between := fun hb => absurd (hb g) (by simp [hg])
  exact attended hl hlive h.shelved hw (fun hb => absurd hb hn) (fun _ => h.before)
    (fun hd ht => (h.kept hd (ht.resolve_left hn)).mono (fun _ => hn))

/-! ### A worker

During a turn the state is ahead of what is acked; what the write of the turn
before refers to may be, too. -/

/-- The handler runs up to its next await. -/
theorem of_runHandler {item : Item} {p : Script S Json} (h : Turning cfg env x b torn s)
    (hl : Lifecycle (s.runHandler g item p).flow.toLife)
    (hp : p.final s.host.state = cfg.registration.ctor.tell env x item.name item.input)
    (hr : ∃ r, p.result = .ok r) : Standing cfg env x b torn (s.runHandler g item p) := by
  have h' : Turning cfg env x b torn (s.runHandler g item p) :=
    h.frame rfl rfl rfl rfl rfl rfl
  have hw : (s.runHandler g item p).host.workers g = .after item p :=
    Function.update_self _ _ _
  have hx : (s.runHandler g item p).host.state = p.change.on s.host.state :=
    Objects.read_apply _ _
  refine of_turning (g := g) h' hl ?_ ?_ <;> rw [hw]
  · exact WorkerPc.busy_after item p
  · unfold WorkerPc.after
    rcases p.next_cases with ⟨rest, hn, hf, hres⟩ | ⟨hn, hf⟩ <;> rw [hn]
    · exact ⟨by rw [hx, hf, hp], by rw [hres]; exact hr⟩
    · exact ⟨by rw [hx, hf, hp], hr⟩

/-- **A segment of a worker** applies the tell it has in hand, or none. -/
theorem of_workerStep [DecidableEq S] {env' : Env} (h : Standing cfg env x b torn s)
    (hl : Lifecycle s.flow.toLife) (hl' : Lifecycle s'.flow.toLife) (hent : Entries s.flow)
    (hcls : cfg.registration.ctor.Steady) (hswm : cfg.registration.ctor.isEs = false)
    (hs : s.workerStep cfg g env' true = some s') :
    s.AppliesOne cfg.registration.ctor env g s' (fun x => Standing cfg env x
      (s.beganWith b (.worker g env' true)) (s.tears b torn (.worker g env' true)) s') x := by
  obtain ⟨pc, hpc, hseg⟩ := Sys.workerSegment hs
  have hlive := Sys.alive_of_workerStep hs
  have hstands : pc.Stands cfg.registration.ctor env x s := hpc ▸ h.working g
  have hswm' : s.host.cls.isEs = false := by rw [h.shelved.cls]; exact hswm
  have hrested : pc.busy = false → Rested cfg env x s := fun hb =>
    h.rested (hl.alive g hlive).1 (between hl hlive (hpc ▸ hb))
  have hgenuine : ∀ {item}, pc.stage.holding = some item →
      ∃ id e, s.store.inbox[id]? = some e ∧ item = .tell e.type e.payload id :=
    fun hi => hent.held g _ ((congrArg (fun pc => pc.stage.holding) hpc).trans hi)
  have hack : ∀ {id}, pc.stage.toAck = some id → (s.host.workers g).stage.toAck = some id :=
    fun hi => (congrArg (fun pc => pc.stage.toAck) hpc).trans hi
  -- a step that only moves the worker, and bookkeeping, between two turns
  have hmove : ∀ {pc' : WorkerPc S} {x' b' : S} {torn' : Bool}, s'.host.workers g = pc' →
      Rested cfg env x' s' → pc'.stage.alive = true → pc'.busy = false →
      pc'.Stands cfg.registration.ctor env x' s' → Standing cfg env x' b' torn' s' :=
    fun hw ht ha hb hp => of_rested ht hl' (hw ▸ ha) (hw ▸ hb) (hw ▸ hp)
  unfold Sys.beganWith Sys.tears
  dsimp only
  rw [hpc]
  cases hseg with
  | appended | resolveEs | ackEs | flushed => exact hstands.elim
  | dequeue =>
    refine .still (.of_errors rfl rfl rfl rfl) (hmove (Function.update_self _ _ _)
      ((hrested rfl).frame rfl rfl rfl rfl rfl rfl rfl) ?_ ?_ ?_) <;>
      cases (s.host.mailbox.dequeue g).result <;> trivial
  | exit =>
    have hb : s.Between := between hl hlive (by rw [hpc]; rfl)
    refine .still (.of_errors rfl rfl rfl rfl) ?_
    have hb' : (s.setWorker g .done).Between := by
      intro g'
      show (update s.host.workers g .done g').busy = false
      rw [Function.update_apply]
      split
      · rfl
      · exact hb g'
    have h' : Rested cfg env x (s.setWorker g .done) :=
      (hrested rfl).frame rfl rfl rfl rfl rfl rfl rfl
    refine ⟨h'.shelved, h.opening, fun g' => ?_, h.ending, fun _ _ => h'.state,
      fun hn => absurd hb' hn, h.clean, fun hd _ => (h'.kept hd).mono False.elim⟩
    show (update s.host.workers g .done g').Stands _ _ _ _
    rw [Function.update_apply]
    split
    · trivial
    · exact h.working g'
  | refuse =>
    obtain ⟨id, e, he, hi⟩ := hgenuine rfl
    exact absurd hi (by simp)
  | ignore hh =>
    obtain ⟨id, e, he, hi⟩ := hgenuine rfl
    obtain ⟨rfl, rfl, rfl⟩ := Item.tell.inj hi
    exact .still (.of_errors rfl rfl rfl rfl) (hmove (Function.update_self _ _ _)
      ((hrested rfl).frame rfl rfl rfl rfl rfl rfl rfl) rfl rfl
      ⟨e, he, h.shelved.cls ▸ hh⟩)
  | @start item handler hh =>
    obtain ⟨id, e, he, rfl⟩ := hgenuine rfl
    have hR := hrested rfl
    rw [h.shelved.cls] at hh
    refine .still (.of_errors rfl rfl rfl rfl) ?_
    refine of_runHandler (s := s.starting _) (hR.turning.frame rfl rfl rfl rfl rfl rfl) hl' ?_
      (hcls.returns _ handler hh _ _ _)
    show _ = cfg.registration.ctor.tell env x (Item.tell e.type e.payload id).name e.payload
    rw [hcls.tell_of_handler hswm hh env env', ← hR.state]
    rfl
  | run =>
    exact .still (.of_errors rfl rfl rfl rfl)
      (of_runHandler (h.turn (g := g) (by rw [hpc]; rfl)) hl' hstands.1 hstands.2)
  | failed e hf =>
    -- no handler throws, and no storage operation fails
    cases pc with
    | returned item result =>
      obtain ⟨-, r, rfl⟩ := hstands
      exact absurd (hswm'.symm.trans (hf.2 r rfl).1) (by simp)
    | acking item id after => exact absurd hf.2 (by simp)
    | appending | appended | flushing => exact hstands.elim
    | _ => exact hf.elim
  | resolveSwm =>
    obtain ⟨id, e, he, hi⟩ := hgenuine rfl
    exact absurd hi (by simp)
  | resolveEmpty hes | ackEmpty hes | append hes =>
    exact absurd (hswm'.symm.trans hes) (by simp)
  | @ackSwm type payload r id =>
    have hT := h.turn (g := g) (by rw [hpc]; rfl)
    have hw : (s.issueAck g (.tell type payload id) id .swm).host.workers g
        = .acking (.tell type payload id) id .swm := Function.update_self _ _ _
    exact .still (.of_errors rfl rfl rfl rfl)
      (of_turning (g := g) (hT.frame rfl rfl rfl rfl rfl rfl) hl' (by rw [hw]; rfl)
        (by rw [hw]; exact ⟨hstands.1, rfl⟩))
  | @swmAcked item id =>
    have hid : item.inboxId? = some id := hent.acking g item id (congrArg WorkerPc.stage hpc)
    obtain ⟨id', e, he, rfl⟩ := hgenuine rfl
    obtain rfl : id' = id := Option.some.inj hid
    have hT := h.turn (g := g) (by rw [hpc]; rfl)
    have hR : Rested cfg env (cfg.registration.ctor.tell env x e.type e.payload)
        (Sys.commitSwmTail cfg (s.afterAck id')) :=
      .dirty (hT.shelved.frame rfl rfl rfl rfl rfl) hstands.1 rfl
    exact .ack he (hack rfl) (.of_errors rfl rfl rfl rfl)
      (hmove (Function.update_self _ _ _) (hR.frame rfl rfl rfl rfl rfl rfl rfl) rfl rfl
        trivial)
  | emptyAcked | esAcked => exact absurd hstands.2 (by simp)
  | ignored =>
    obtain ⟨e, he, hn⟩ := hstands
    refine .ack he (hack rfl) ⟨rfl, rfl, rfl, fun item hc => ?_⟩ ?_
    · exact absurd (List.cons.inj hc).1 (by simp)
    · rw [ActorClass.tell_of_none hn]
      exact hmove (Function.update_self _ _ _)
        ((hrested rfl).frame rfl rfl rfl rfl rfl rfl rfl) rfl rfl trivial
  | finish =>
    exact .still (.of_errors rfl rfl rfl rfl) (hmove (Function.update_self _ _ _)
      ((hrested rfl).frame rfl rfl rfl rfl rfl rfl rfl) rfl rfl trivial)

/-- A step beside the state. -/
theorem of_beside (h : Standing cfg env x b torn s) (hb : Beside s s')
    (hi : s.store.inbox <+: s'.store.inbox) : Standing cfg env x b torn s' := by
  have hx : s'.host.state = s.host.state := congrArg Objects.read hb.objs
  have hbusy : ∀ g, (s'.host.workers g).busy = true ↔ (s.host.workers g).busy = true :=
    hb.workers_iff (P := fun pc => pc.busy = true) (by simp [WorkerPc.busy])
      (by simp [WorkerPc.busy]) (by simp [WorkerPc.busy])
  have hbetween : s'.Between ↔ s.Between := by
    refine forall_congr' (fun g => ?_)
    rw [← Bool.not_eq_true, ← Bool.not_eq_true]
    exact not_congr (hbusy g)
  refine ⟨h.shelved.frame hb.cls hb.runningVersion hb.saves hb.row hb.snapshots,
    fun pc hpc => ?_, fun g => ?_, fun d hd => ?_, fun ha hn => ?_,
    fun hn => h.turning (fun hn' => hn (hbetween.mpr hn')), fun ha => ?_, fun hd ht => ?_⟩
  · cases hpb : pc.beside with
    | true => exact .of_beside hpb
    | false =>
      exact (h.opening pc (hb.activating_eq hpc hpb)).congr hx
        (fun he => (Host.lastEnded_eq (congrArg List.getLast? hb.saves)).trans he)
  · rcases hb.workers g with he | ⟨-, ⟨item, he⟩ | he⟩ <;> rw [he]
    · exact (h.working g).congr hx hi
    · trivial
    · trivial
  · rcases hb.deactivating with he | ⟨-, g, idle, he⟩
    · exact h.ending d (he ▸ hd)
    · obtain rfl := Option.some.inj (he.symm.trans hd)
      trivial
  · rw [hx]
    exact h.serving (hb.activated ▸ ha) (hbetween.mp hn)
  · rw [hb.snapshotDirty]
    exact h.clean (hb.activated ▸ ha)
  · rw [hbetween] at ht ⊢
    exact (h.kept (hb.snapshotDirty ▸ hd) ht).frame hb.objs
      (congrArg List.getLast? hb.saves) hb.snapshots

/-! ### Before there is a worker -/

/-- **Before the host is activated** nothing is asked of workers and deactivations. -/
theorem early (hl : Lifecycle s.flow.toLife) (ha : s.host.activated = false)
    (h : Shelved cfg s) (hd : s.host.snapshotDirty = false)
    (hk : s.Keeps cfg.registration.ctor env x False)
    (hopen : ∀ pc, s.host.activating = some pc → pc.Stands cfg env x s) :
    Standing cfg env x b torn s := by
  have hdead : ∀ g, (s.host.workers g).stage.alive = false := hl.not_alive ha
  have hb : s.Between := fun g => WorkerPc.busy_of_dead (hdead g)
  refine ⟨h, hopen, fun g => .of_dead (hdead g), fun d hd' => ?_,
    fun ha' => absurd (ha.symm.trans ha') (by simp), fun hn => absurd hb hn, fun _ => hd,
    fun _ _ => hk.mono False.elim⟩
  have hne : s.flow.deact ≠ none := by
    rw [Sys.flow_deact hd']
    simp
  exact absurd ((hl.closed hne).1) (by
    show s.host.activated ≠ true
    simp [ha])

/-- The activation moves on. -/
theorem opened {pc : ActPc S Env} (hl : Lifecycle (s.setActivating pc).flow.toLife)
    (ha : s.host.activated = false) (h : Shelved cfg s)
    (hd : s.host.snapshotDirty = false) (hk : s.Keeps cfg.registration.ctor env x False)
    (hpc : pc.Stands cfg env x s) : Standing cfg env x b torn (s.setActivating pc) := by
  refine early hl ha (h.frame rfl rfl rfl rfl rfl) hd (hk.frame rfl rfl rfl)
    (fun pc' hpc' => ?_)
  obtain rfl := Option.some.inj hpc'
  exact hpc.congr rfl id

theorem of_becomeActivated (h : Rested cfg env x s)
    (hl : Lifecycle s.becomeActivated.flow.toLife) :
    Standing cfg env x b torn s.becomeActivated := by
  have h' : Rested cfg env x s.becomeActivated := h.frame rfl rfl rfl rfl rfl rfl rfl
  have hw : s.becomeActivated.host.workers s.host.activation
      = Sys.dequeuedPc (s.host.mailbox.dequeue s.host.activation).result :=
    Function.update_self _ _ _
  refine of_rested (g := s.host.activation) h' hl ?_ ?_ ?_ <;> rw [hw] <;>
    cases (s.host.mailbox.dequeue s.host.activation).result <;> trivial

theorem of_beginOnActivate {env' : Env} (h : Rested cfg env x s)
    (hcls : cfg.registration.ctor.Steady)
    (hl : Lifecycle (s.beginOnActivate env').flow.toLife)
    (ha : s.host.activated = false) (hd : s.host.snapshotDirty = false) :
    Standing cfg env x b torn (s.beginOnActivate env') := by
  unfold Sys.beginOnActivate at hl ⊢
  split at hl
  · exact of_becomeActivated h hl
  · next f hf =>
    have hp : (f env' s.host.state).Keeps := hcls.onActivate f (h.shelved.cls ▸ hf) _ _
    have h' := h.runSegment hp
    exact opened hl ha h'.shelved hd (h'.kept hd) ⟨h'.state, hp.hook⟩

theorem of_beginReplay {env' : Env} (h : Rested cfg env x s)
    (hcls : cfg.registration.ctor.Steady) (hswm : cfg.registration.ctor.isEs = false)
    (hl : Lifecycle (s.beginReplay env').flow.toLife)
    (ha : s.host.activated = false) (hd : s.host.snapshotDirty = false) :
    Standing cfg env x b torn (s.beginReplay env') := by
  have hswm' : s.host.cls.isEs = false := by rw [h.shelved.cls]; exact hswm
  unfold Sys.beginReplay at hl ⊢
  rw [if_neg (by simp [hswm'])] at hl ⊢
  exact of_beginOnActivate h hcls hl ha hd

/-- A segment of `onInit`, which has the rest of the state to make. -/
theorem of_onInit {p : Script S Unit} (h : Shelved cfg s)
    (hl : Lifecycle ((s.runSegment p).setActivating (.onInit (.after p))).flow.toLife)
    (ha : s.host.activated = false) (hd : s.host.snapshotDirty = false)
    (hk : s.Keeps cfg.registration.ctor env x False) (he : s.host.lastEnded = true)
    (hp : p.final s.host.state = x) :
    Standing cfg env x b torn ((s.runSegment p).setActivating (.onInit (.after p))) := by
  have hx : (s.runSegment p).host.state = p.change.on s.host.state := Objects.read_apply _ _
  refine opened hl ha (h.frame rfl rfl rfl rfl rfl) hd (hk.ended he rfl rfl) ?_
  unfold HookPc.after
  rcases p.next_cases with ⟨rest, hn, hf, -⟩ | ⟨hn, hf⟩ <;> rw [hn]
  · exact ⟨he, by rw [hx, hf, hp]⟩
  · have hx' : (s.runSegment p).host.state = x := by rw [hx, hf, hp]
    cases p.result with
    | error e => trivial
    | ok u => exact hx'

/-- **A segment of an activation**, which loads the snapshot only once the last write has
ended. -/
theorem of_actStep {env' : Env} (h : Standing cfg env x b torn s)
    (hl : Lifecycle s.flow.toLife) (hl' : Lifecycle s'.flow.toLife)
    (hcls : cfg.registration.ctor.Steady) (hswm : cfg.registration.ctor.isEs = false)
    (hload : s.host.activating = some .loadSnapshot → s.host.lastEnded = true)
    (hs : s.actStep cfg env' true = some s') : Standing cfg env x b torn s' := by
  have hinbox : s.store.inbox <+: s'.store.inbox :=
    (HostFlow.Still.of_activating [] (Sys.flow_actStep hs)).inbox
  rcases Sys.beside_or_opens hl hs with hb | ⟨ha, pc, hpc, ht, hseg⟩
  · exact h.of_beside hb hinbox
  have hstands := h.opening pc hpc
  have hswm' : s.host.cls.isEs = false := by rw [h.shelved.cls]; exact hswm
  have hd : s.host.snapshotDirty = false := h.clean ha
  have hk : s.Keeps cfg.registration.ctor env x False := by
    have hb : s.Between := fun g => WorkerPc.busy_of_dead (hl.not_alive ha g)
    exact (h.kept hd (.inl hb)).mono (fun hn => hn hb)
  have hrested : s.host.state = x → Rested cfg env x s :=
    fun hx => ⟨h.shelved, hx, fun _ => hk⟩
  -- the instance is constructed with the state `y`
  have hcons : ∀ y, Shelved cfg (s.construct
      ⟨cfg.registration.ctor, cfg.registration.version, false⟩ y) :=
    fun y => h.shelved.frame h.shelved.cls.symm rfl rfl rfl rfl
  cases hseg with
  | failed e => exact opened hl' ha h.shelved hd hk trivial
  | noMigrate | retained | migrated | migrateFlushed | audited | upToDate | behind | replayed
  | replayFlushed => exact hstands.elim
  | inboxFailed | readInbox | replayInbox | settled =>
    exact absurd ht (by simp [ActPc.through])
  | loadSnapshot =>
    have he := hload hpc
    exact opened hl' ha h.shelved hd hk ⟨he, hk.base he ▸ h.shelved.load env⟩
  | @resolveCtor snap r hr =>
    obtain ⟨he, hx⟩ := hstands
    have hver : ∀ sn, snap = some sn → sn.version = cfg.registration.version := by
      rintro sn rfl
      exact hx.1
    rw [EventSourcing.resolveCtor_eq hver] at hr
    obtain rfl := Except.ok.inj hr
    exact opened hl' ha (h.shelved.frame rfl h.shelved.version.symm rfl rfl rfl) hd
      (hk.frame rfl rfl rfl) ⟨he, hx, rfl⟩
  | blank =>
    obtain ⟨he, hx, rfl⟩ := hstands
    exact opened hl' ha (hcons _) hd (hk.ended he rfl rfl)
      ⟨he, Objects.read_assign _ _, hx⟩
  | migrates _ hm =>
    obtain ⟨-, -, rfl⟩ := hstands
    exact absurd hm (by simp)
  | @loaded sn =>
    obtain ⟨he, hx, rfl⟩ := hstands
    refine of_beginReplay (x := x) ⟨(hcons sn.state).frame rfl rfl rfl rfl rfl, ?_,
      fun _ => hk.ended he rfl rfl⟩ hcls hswm hl' ha hd
    exact (Objects.read_assign _ _).trans hx.2
  | registerEs _ hes => exact absurd (hswm'.symm.trans hes) (by simp)
  | register =>
    obtain ⟨he, hblank, hfresh⟩ := hstands
    have hreg : Shelved cfg (s.withRow cfg) :=
      ⟨h.shelved.cls, h.shelved.version, h.shelved.stored,
        fun _ => by simp [Sys.withRow, ActorStore.registerActor], h.shelved.saves⟩
    unfold Sys.beginOnInit at hl' ⊢
    split at hl'
    · next hf =>
      refine of_beginReplay ⟨hreg.frame rfl rfl rfl rfl rfl, ?_,
        fun _ => hk.frame rfl rfl rfl⟩ hcls hswm hl' ha hd
      have hf : s.host.cls.onInit = none := hf
      rw [hfresh, ActorClass.fresh_of_none hswm (h.shelved.cls ▸ hf)]
      exact hblank
    · next f hf =>
      have hf : s.host.cls.onInit = some f := hf
      refine of_onInit hreg hl' ha hd (hk.frame rfl rfl rfl) he ?_
      rw [hfresh, hcls.fresh_of_some hswm (h.shelved.cls ▸ hf) env env', ← hblank]
      rfl
  | onInit => exact of_onInit h.shelved hl' ha hd hk hstands.1 hstands.2
  | initialized => exact of_beginReplay (hrested hstands) hcls hswm hl' ha hd
  | onActivate =>
    obtain ⟨hx, hp⟩ := hstands
    have h' := (hrested hx).runSegment hp
    exact opened hl' ha h'.shelved hd (h'.kept hd) ⟨h'.state, Script.Keeps.hook hp⟩
  | activated => exact of_becomeActivated (hrested hstands.1) hl'

/-! ### After the worker -/

/-- **Once the worker has returned** only the deactivation is left. -/
theorem late (h : Rested cfg env x s) (hl : Lifecycle s.flow.toLife) {d : Deactivation S}
    (hd : s.host.deactivating = some d) (hne : ∀ g, d.pc ≠ .awaitWorker g)
    (hk : d.pc.Keeps) : Standing cfg env x b torn s := by
  have ha := hl.activated_of_deact hd
  have hdead := hl.dead_of_deact hd hne
  have hb : s.Between := fun g => WorkerPc.busy_of_dead (hdead g)
  refine ⟨h.shelved, fun pc hpc => .of_beside (hl.beside ha hpc), fun g => .of_dead (hdead g),
    fun d' hd' => ?_, fun _ _ => h.state, fun hn => absurd hb hn,
    fun ha' => absurd (ha.symm.trans ha') (by simp), fun hc _ => (h.kept hc).mono False.elim⟩
  obtain rfl := Option.some.inj (hd.symm.trans hd')
  exact hk

theorem of_beginOnDeactivate {env' : Env} (h : Rested cfg env x s)
    (hcls : cfg.registration.ctor.Steady) {idle : Bool} (hl : Lifecycle s'.flow.toLife)
    (hs : s.beginOnDeactivate env' idle = s') : Standing cfg env x b torn s' := by
  unfold Sys.beginOnDeactivate at hs
  split at hs
  · next i f hi hf =>
    subst hs
    have hp : (f env' s.host.state).Keeps :=
      hcls.onDeactivate f (h.shelved.cls ▸ hf) _ _
    exact late ((h.runSegment hp).frame rfl rfl rfl rfl rfl rfl rfl) hl rfl (by simp) hp.hook
  · subst hs
    exact late (h.frame rfl rfl rfl rfl rfl rfl rfl) hl rfl (by simp) trivial

/-- **A segment of a deactivation.** -/
theorem of_deactStep {env' : Env} (h : Standing cfg env x b torn s)
    (hl : Lifecycle s.flow.toLife) (hl' : Lifecycle s'.flow.toLife) (hf : Flushable s)
    (hcls : cfg.registration.ctor.Steady) (hswm : cfg.registration.ctor.isEs = false)
    (hs : s.deactStep env' = some s') : Standing cfg env x b torn s' := by
  obtain ⟨pc, idle, hd, hseg⟩ := Sys.deactSegment hs
  have ha := hl.activated_of_deact hd
  have hrested : (∀ g, (s.host.workers g).stage.alive = false) → Rested cfg env x s :=
    fun hdead => h.rested ha (fun g => WorkerPc.busy_of_dead (hdead g))
  have hlate : (∀ g, pc ≠ .awaitWorker g) → Rested cfg env x s := fun hne =>
    hrested (hl.dead_of_deact hd hne)
  have hk := h.ending _ hd
  cases hseg with
  | flush hw =>
    exact late (((hrested (hl.dead_of_done hd hw)).flush hcls hswm).frame rfl rfl rfl rfl
      rfl rfl rfl) hl' rfl (by simp) trivial
  | unflushed hw =>
    exact of_beginOnDeactivate (s := { s with host := { s.host with snapshotTimer := false } })
      ((hrested (hl.dead_of_done hd hw)).frame rfl rfl rfl rfl rfl rfl rfl) hcls hl' rfl
  | flushed =>
    exact of_beginOnDeactivate (s := s.afterFlush)
      ((hlate (by simp)).frame rfl rfl rfl rfl rfl rfl rfl) hcls hl' rfl
  | flushFailed | threw | dropped =>
    exact late ((hlate (by simp)).frame rfl rfl rfl rfl rfl rfl rfl) hl' rfl (by simp)
      trivial
  | onDeactivate =>
    exact late (((hlate (by simp)).runSegment hk).frame rfl rfl rfl rfl rfl rfl rfl) hl' rfl
      (by simp) (Script.Keeps.hook hk)
  | settled =>
    have hdirty := hf.clean _ hd (by simp)
    have hR := hlate (by simp)
    refine early hl' rfl (hR.shelved.frame rfl rfl rfl rfl rfl) hdirty
      ((hR.kept hdirty).frame rfl rfl rfl) (fun pc hpc => ?_)
    exact .of_beside (hl.beside ha hpc)

/-! ### The driver -/

/-- The debounce timer fires, which may be in the middle of a turn. -/
theorem of_snapshotFire (h : Standing cfg env x b torn s) (hl : Lifecycle s.flow.toLife)
    (hf : Flushable s) (hcls : cfg.registration.ctor.Steady)
    (hswm : cfg.registration.ctor.isEs = false) (hs : s.snapshotFire = some s') :
    Standing cfg env x b torn s' := by
  unfold Sys.snapshotFire at hs
  split at hs
  · next ht =>
    have ha := (hf.timer ht).1
    have hopen : ∀ pc, s.host.activating = some pc → pc.beside = true :=
      fun pc hpc => hl.beside ha hpc
    dsimp only at hs
    split at hs
    · obtain rfl := Option.some.inj hs
      have hx : ({ s.host with snapshotTimer := false } : Host S Env).flushSnapshot.state
          = s.host.state := Host.state_flushSnapshot _
      refine ⟨(h.shelved.flush hswm).frame rfl rfl rfl rfl rfl,
        fun pc hpc => .of_beside (hopen pc hpc),
        fun g => (h.working g).congr hx (List.prefix_refl _), h.ending,
        fun ha' hb => hx.trans (h.serving ha' hb), h.turning,
        fun ha' => absurd (ha.symm.trans ha') (by simp), fun _ _ => ?_⟩
      by_cases hb : s.Between
      · exact (((h.rested ha hb).flush hcls hswm).kept rfl).mono False.elim |>.frame rfl rfl rfl
      · exact Sys.Keeps.handed rfl (.inl hb)
    · obtain rfl := Option.some.inj hs
      exact ⟨h.shelved.frame rfl rfl rfl rfl rfl,
        fun pc hpc => (h.opening pc hpc).congr rfl id,
        fun g => (h.working g).congr rfl (List.prefix_refl _), h.ending, h.serving, h.turning,
        h.clean, h.kept⟩
  · exact absurd hs (by simp)

/-- **The driver moves on with a write**, which is not the last one if that has ended. -/
theorem of_setSave {k : ℕ} {seq : ℤ} {version : Version} {pc pc' : SavePc S} {torn' : Bool}
    (store : ActorStore S) (h : Standing cfg env x b torn s)
    (hk : s.host.saves[k]? = some ⟨seq, version, pc⟩) (hpc : pc.isEnded = false)
    (hpc' : pc' ≠ .ended false) (hi : store.inbox = s.store.inbox)
    (hstored : ∀ p ∈ store.snapshots, p.1 = 0 ∧ p.2.classVersion = cfg.registration.version)
    (hrow : store.snapshots ≠ [] → store.row ≠ none)
    (hlast : k + 1 = s.host.saves.length → s.host.snapshotDirty = false →
      s.Between ∨ torn' = false →
      ({ s with store := store }.setSave k ⟨seq, version, pc'⟩).Keeps
        cfg.registration.ctor env x (¬s.Between))
    (hother : k + 1 ≠ s.host.saves.length → s.Keeps cfg.registration.ctor env x (¬s.Between) →
      ({ s with store := store }.setSave k ⟨seq, version, pc'⟩).Keeps
        cfg.registration.ctor env x (¬s.Between))
    (htorn : torn' = false → torn = false) :
    Standing cfg env x b torn' ({ s with store := store }.setSave k ⟨seq, version, pc'⟩) := by
  have hlt := (List.getElem?_eq_some_iff.mp hk).1
  have hsame : k + 1 ≠ s.host.saves.length →
      (s.host.saves.set k ⟨seq, version, pc'⟩).getLast? = s.host.saves.getLast? :=
    fun hne => (getLast?_set hlt _).trans (if_neg hne)
  have hended : s.host.lastEnded = true →
      ({ s with store := store }.setSave k ⟨seq, version, pc'⟩).host.lastEnded = true := by
    intro he
    have hne : k + 1 ≠ s.host.saves.length := by
      intro hlen
      unfold Host.lastEnded at he
      rw [List.getLast?_eq_getElem?, ← hlen, Nat.add_sub_cancel, hk] at he
      exact absurd (hpc.symm.trans he) (by simp)
    exact (Host.lastEnded_eq (hsame hne)).trans he
  have hsv := h.shelved.saves _ (List.mem_of_getElem? hk)
  refine ⟨⟨h.shelved.cls, h.shelved.version, hstored, hrow, fun sv hmem => ?_⟩,
    fun pc hpc => (h.opening pc hpc).congr rfl hended,
    fun g => (h.working g).congr rfl (hi ▸ List.prefix_refl _), h.ending, h.serving, h.turning,
    h.clean, fun hd ht => ?_⟩
  · rcases List.mem_or_eq_of_mem_set hmem with hmem | rfl
    · exact h.shelved.saves sv hmem
    · exact ⟨hsv.1, hsv.2.1, hpc'⟩
  · by_cases hlen : k + 1 = s.host.saves.length
    · exact hlast hlen hd ht
    · exact hother hlen (h.kept hd (ht.imp_right htorn))

/-- A write that has landed, or is the last. -/
theorem keeps_set_last {k : ℕ} {sv : Save S} {store : ActorStore S} {p : Prop}
    (hlen : k + 1 = s.host.saves.length) :
    ({ s with store := store }.setSave k sv).Keeps cfg.registration.ctor env x p
      ↔ match sv with
        | ⟨_, _, .toEncode obj⟩ => p ∨ s.host.objs.val obj = x
        | ⟨_, _, .toLand y⟩ => y = x
        | _ => store.base cfg.registration.ctor env = x := by
  have hset : (s.host.saves.set k sv).getLast? = some sv :=
    (getLast?_set (by omega) sv).trans (if_pos hlen)
  unfold Sys.Keeps
  show (match (s.host.saves.set k sv).getLast? with
    | some ⟨_, _, .toEncode obj⟩ => p ∨ s.host.objs.val obj = x
    | some ⟨_, _, .toLand y⟩ => y = x
    | _ => store.base cfg.registration.ctor env = x) ↔ _
  rw [hset]
  rcases sv with ⟨seq, version, obj | y | ok⟩ <;> exact Iff.rfl

/-- What the last write is, the others have nothing to do with while it has not ended. -/
theorem keeps_set_other {k : ℕ} {sv : Save S} {store : ActorStore S} {p : Prop}
    (hlt : k < s.host.saves.length) (hlen : k + 1 ≠ s.host.saves.length)
    (hstore : s.host.lastEnded = true → store.snapshots = s.store.snapshots)
    (h : s.Keeps cfg.registration.ctor env x p) :
    ({ s with store := store }.setSave k sv).Keeps cfg.registration.ctor env x p := by
  have hset : (s.host.saves.set k sv).getLast? = s.host.saves.getLast? :=
    (getLast?_set hlt sv).trans (if_neg hlen)
  cases he : s.host.lastEnded with
  | true => exact h.frame rfl hset (hstore he)
  | false =>
    unfold Sys.Keeps at h ⊢
    unfold Host.lastEnded at he
    show match (s.host.saves.set k sv).getLast? with
      | some ⟨_, _, .toEncode obj⟩ => p ∨ s.host.objs.val obj = x
      | some ⟨_, _, .toLand y⟩ => y = x
      | _ => store.base cfg.registration.ctor env = x
    rw [hset]
    revert h he
    rcases s.host.saves.getLast? with _ | ⟨seq, version, obj | y | ok⟩ <;>
      simp [SavePc.isEnded]

/-- **The driver moves on with a write**, in the order of the writes. -/
theorem of_saveStep [DecidableEq S] {k : ℕ} (h : Standing cfg env x b torn s)
    (hf : Flushable s)
    (hG : ∀ seq version y, s.host.saves[k]? = some ⟨seq, version, .toLand y⟩ →
      s.LandsInOrder k seq)
    (hs : s.saveStep k true = some s') :
    Standing cfg env x b (s.tears b torn (.save k true)) s' := by
  unfold Sys.saveStep at hs
  split at hs
  · next seq version obj hk =>
    have hlt := (List.getElem?_eq_some_iff.mp hk).1
    rw [if_pos rfl] at hs
    obtain rfl := Option.some.inj hs
    have htears : s.tears b torn (.save k true : Act Env)
        = (torn || decide (k + 1 = s.host.saves.length ∧ s.host.objs.val obj ≠ b)) := by
      simp only [Sys.tears, hk, Bool.true_and]
    rw [htears]
    refine of_setSave s.store h hk rfl (by simp) rfl h.shelved.stored
      h.shelved.known (fun hlen hd ht => ?_)
      (fun hlen hkeeps => keeps_set_other hlt hlen (fun _ => rfl) hkeeps)
      (fun ht => (Bool.or_eq_false_iff.mp ht).1)
    refine (keeps_set_last hlen).mpr ?_
    by_cases hb : s.Between
    · have hkept := h.kept hd (.inl hb)
      unfold Sys.Keeps at hkept
      rw [List.getLast?_eq_getElem?, ← hlen, Nat.add_sub_cancel, hk] at hkept
      exact hkept.resolve_left (fun hn => hn hb)
    · obtain ⟨-, hval⟩ := Bool.or_eq_false_iff.mp (ht.resolve_left hb)
      rw [decide_eq_false_iff_not, not_and, not_not] at hval
      exact (hval hlen).trans (h.turning hb)
  · next seq version y hk =>
    have hlt := (List.getElem?_eq_some_iff.mp hk).1
    rw [if_pos rfl] at hs
    obtain rfl := Option.some.inj hs
    have htears : s.tears b torn (.save k true : Act Env) = torn := by
      simp only [Sys.tears, hk]
    rw [htears]
    obtain ⟨rfl, rfl, -⟩ := h.shelved.saves _ (List.mem_of_getElem? hk)
    have hrow : s.store.row ≠ none :=
      hf.row (.inr (.inr (.inl (List.ne_nil_of_mem (List.mem_of_getElem? hk)))))
    have hbase := ActorStore.base_saveSnapshot cfg.registration.ctor env
      (fun p hp => (h.shelved.stored p hp).1) cfg.registration.version y
    refine of_setSave _ h hk rfl (by simp) rfl (fun p hp => ?_) (fun _ => hrow)
      (fun hlen hd ht => ?_) (fun hlen hkeeps => keeps_set_other hlt hlen (fun he => ?_) hkeeps)
      id
    · rcases List.mem_append.mp hp with hp | hp
      · exact h.shelved.stored p (List.mem_filter.mp hp).1
      · obtain rfl := List.mem_singleton.mp hp
        exact ⟨rfl, rfl⟩
    · have hkept := h.kept hd ht
      unfold Sys.Keeps at hkept
      rw [List.getLast?_eq_getElem?, ← hlen, Nat.add_sub_cancel, hk] at hkept
      exact (keeps_set_last hlen).mpr (hbase.trans hkept)
    · -- the last write has ended, and this one would land over it
      have hG := hG 0 cfg.registration.version y hk
      unfold Sys.LandsInOrder at hG
      unfold Host.lastEnded at he
      revert hG he
      cases hg : s.host.saves.getLast? with
      | none =>
        rw [List.getLast?_eq_none_iff] at hg
        rw [hg] at hlt
        exact absurd hlt (Nat.not_lt_zero _)
      | some sv =>
        have h0 := (h.shelved.saves sv (List.mem_of_getLast? hg)).1
        rcases sv with ⟨q, v, obj | z | ok⟩
        · simp [SavePc.isEnded]
        · simp [SavePc.isEnded]
        · obtain rfl : q = 0 := h0
          simp
  · exact absurd hs (by simp)

/-! ### Runs -/

/-- A new host over storage in which `x` is stored. -/
theorem init (h : ∀ p ∈ s.store.snapshots,
      p.1 = 0 ∧ p.2.classVersion = cfg.registration.version)
    (hrow : s.store.snapshots ≠ [] → s.store.row ≠ none)
    (hx : s.store.base cfg.registration.ctor env = x) :
    Standing cfg env x b torn (.init cfg s.store) where
  shelved := ⟨rfl, rfl, h, hrow, fun sv hsv => absurd hsv (by simp [Sys.init, Host.init])⟩
  opening pc hpc := absurd hpc (by simp [Sys.init, Host.init])
  working g := trivial
  ending d hd := absurd hd (by simp [Sys.init, Host.init])
  serving ha := absurd ha (by simp [Sys.init, Host.init])
  turning hn := absurd (fun _ => rfl) hn
  clean _ := rfl
  kept _ _ := hx

/-- A step that touches only what is sent to subscribers. -/
theorem of_subscribers (h : Standing cfg env x b torn s) (ls : List ℕ)
    (hist : History S Op) :
    Standing cfg env x b torn
      { s with host := { s.host with commitListeners := ls }, hist := hist } :=
  ⟨h.shelved.frame rfl rfl rfl rfl rfl, fun pc hpc => (h.opening pc hpc).congr rfl id,
    fun g => (h.working g).congr rfl (List.prefix_refl _), h.ending, h.serving, h.turning,
    h.clean, h.kept⟩

/-- **One step of anyone but a worker** leaves what the tells have made what it is. -/
theorem step [DecidableEq S] {a : Act Env} (h : Standing cfg env x b torn s)
    (hl : Lifecycle s.flow.toLife) (hf : Flushable s)
    (hcls : cfg.registration.ctor.Steady) (hswm : cfg.registration.ctor.isEs = false)
    (hu : a.undisturbed = true) (hG : s.keepsWrites a = true)
    (hi : s.store.inbox <+: s'.store.inbox) (ha : ∀ g env ok, a ≠ .worker g env ok)
    (hs : s.step cfg a = some s') :
    Standing cfg env x (s.beganWith b a) (s.tears b torn a) s' := by
  have hl' : Lifecycle s'.flow.toLife := hl.of_moves (Sys.flow_step hs)
  cases a with
  | worker g env' ok => exact absurd rfl (ha g env' ok)
  | activation env' ok =>
    obtain rfl : ok = true := hu
    refine h.of_actStep hl hl' hcls hswm (fun hpc => ?_) hs
    simpa only [Sys.keepsWrites, hpc] using hG
  | deactivation env' => exact h.of_deactStep hl hl' hf hcls hswm hs
  | snapshotFire => exact h.of_snapshotFire hl hf hcls hswm hs
  | save k ok =>
    obtain rfl : ok = true := hu
    refine h.of_saveStep hf (fun seq version y hk => ?_) hs
    simpa only [Sys.keepsWrites, hk, decide_eq_true_eq] using hG
  | subscribe l =>
    rw [Sys.step, Sys.subscribe] at hs
    split at hs
    · exact absurd hs (by simp)
    · obtain rfl := Option.some.inj hs
      exact h.of_subscribers _ _
  | unsubscribe l =>
    obtain rfl := Option.some.inj hs
    exact h.of_subscribers _ s.hist
  | notifyTombstone =>
    obtain rfl := Option.some.inj hs
    exact h.of_subscribers _ _
  | _ => exact h.of_beside (Sys.beside_step hl rfl hs) hi

end Standing

end
