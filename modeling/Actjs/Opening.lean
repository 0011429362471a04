import Actjs.Subscribers

/-!
# What an activation leaves alone

An activation reads storage, constructs the instance and runs hooks. It
attaches no subscriber and sends nothing to any, it appends no event, and of
the workers it only hands items to those that wait, or starts one. `Opens` is
what its segments have in common.
-/

open Function (update)

variable {S Env Op : Type}

/-- A worker that has just been started, stopped or handed an item. -/
def WorkerPc.idle : WorkerPc S → Bool
  | waiting => true
  | received _ => true
  | exiting => true
  | _ => false

@[simp] theorem WorkerPc.idle_dequeuedPc (d : DequeueResult Item) :
    (Sys.dequeuedPc d : WorkerPc S).idle = true := by
  cases d <;> rfl

/-- **A part of a segment of an activation**, once the class is chosen. -/
structure Later (s s' : Sys S Env Op) : Prop where
  cls : s'.host.cls = s.host.cls
  commitListeners : s'.host.commitListeners = s.host.commitListeners
  deactivating : s'.host.deactivating = s.host.deactivating
  events : s'.store.events = s.store.events
  notifs : s'.hist.notifs = s.hist.notifs
  workers : ∀ g, s'.host.workers g = s.host.workers g
    ∨ (s'.host.workers g).idle = true
  activating : ∀ snap r, s'.host.activating = some (.loadFence snap r) →
    s.host.activating = some (.loadFence snap r)

/-- **A segment of an activation.** It may choose a class. -/
structure Opens (cfg : HostConfig S Env Op) (s s' : Sys S Env Op) : Prop where
  cls : s'.host.cls = s.host.cls
    ∨ ∃ snap r, s.host.activating = some (.loadFence snap r)
      ∧ s'.host.cls = r.ctor
  commitListeners : s'.host.commitListeners = s.host.commitListeners
  deactivating : s'.host.deactivating = s.host.deactivating
  events : s'.store.events = s.store.events
  notifs : s'.hist.notifs = s.hist.notifs
  workers : ∀ g, s'.host.workers g = s.host.workers g
    ∨ (s'.host.workers g).idle = true
  resolved : ∀ snap r, s'.host.activating = some (.loadFence snap r) →
    s.host.activating = some (.loadFence snap r)
      ∨ ∃ persisted ok, cfg.resolveCtor persisted ok = .ok r
  /-- Only some of the segments install a state. -/
  objs : ∀ pc, s.host.activating = some pc → pc.installs = false →
    s'.host.objs = s.host.objs

namespace Later

variable {cfg : HostConfig S Env Op} {s s' t : Sys S Env Op} {env : Env}

theorem refl (s : Sys S Env Op) : Later s s :=
  ⟨rfl, rfl, rfl, rfl, rfl, fun _ => .inl rfl, fun _ _ h => h⟩

theorem trans (h : Later s t) (h' : Later t s') : Later s s' where
  cls := h'.cls.trans h.cls
  commitListeners := h'.commitListeners.trans h.commitListeners
  deactivating := h'.deactivating.trans h.deactivating
  events := h'.events.trans h.events
  notifs := h'.notifs.trans h.notifs
  workers g := by
    rcases h'.workers g with he | he
    · rw [he]
      exact h.workers g
    · exact .inr he
  activating snap r hr := h.activating snap r (h'.activating snap r hr)

/-- The activation moves on to an await that is not the one after which the
instance is constructed. -/
theorem moved (h : Later s t) {pc : ActPc S Env}
    (hpc : ∀ snap r, pc ≠ .loadFence snap r) : Later s (t.setActivating pc) :=
  { h with
    activating := fun snap r hr => absurd (Option.some.inj hr) (hpc snap r) }

/-- A segment of a hook. -/
theorem runSegment {R : Type} (s : Sys S Env Op) (p : Script S R) :
    Later s (s.runSegment p) := { refl s with }

theorem becomeActivated (s : Sys S Env Op) : Later s s.becomeActivated :=
  { refl s with
    workers := fun g => by
      show update s.host.workers s.host.activation _ g = _
        ∨ (update s.host.workers s.host.activation _ g).idle = true
      rw [Function.update_apply]
      split
      · exact .inr (WorkerPc.idle_dequeuedPc _)
      · exact .inl rfl
    activating := fun snap r hr => absurd (Option.some.inj hr) (by simp) }

theorem beginOnActivate (s : Sys S Env Op) (env : Env) :
    Later s (s.beginOnActivate env) := by
  unfold Sys.beginOnActivate
  split
  · exact becomeActivated s
  · exact (runSegment s _).moved (by simp)

theorem beginReplay (s : Sys S Env Op) (env : Env) :
    Later s (s.beginReplay env) := by
  unfold Sys.beginReplay
  split
  · exact (refl s).moved (by simp)
  · exact beginOnActivate s env

theorem beginOnInit (s : Sys S Env Op) (env : Env) :
    Later s (s.beginOnInit env) := by
  unfold Sys.beginOnInit
  split
  · exact trans (t := s.boundary) { refl s with } (beginReplay _ env)
  · exact (runSegment s _).moved (by simp)

theorem beginMigrate (s : Sys S Env Op) (prev : SnapshotRead S) :
    Later s (s.beginMigrate prev) := by
  unfold Sys.beginMigrate
  split
  · exact moved (by exact { refl s with }) (by simp)
  · exact moved (by exact { refl s with }) (by simp)

theorem migrated (s : Sys S Env Op) (x : S) : Later s (s.migrated x) := by
  unfold Sys.migrated
  dsimp only
  split
  · exact moved (by exact { refl s with }) (by simp)
  · exact moved (by exact { refl s with }) (by simp)

theorem replay (s : Sys S Env Op) (env : Env) : Later s (s.replay cfg env) := by
  unfold Sys.replay
  dsimp only
  split
  · exact moved (by exact { refl s with }) (by simp)
  · split
    · exact moved (by exact { refl s with }) (by simp)
    · refine trans ?_ (beginOnActivate _ env)
      exact { refl s with }

/-- A worker that waits is handed the item. -/
theorem enqueue (s : Sys S Env Op) (item : Item) : Later s (s.enqueue item) :=
  { refl s with
    workers := fun g => by
      unfold Sys.enqueue Sys.wake
      dsimp only
      cases (s.host.mailbox.enqueue item).woken with
      | none => exact .inl rfl
      | some w =>
        dsimp only
        rw [Function.update_apply]
        split
        · exact .inr rfl
        · exact .inl rfl }

theorem enqueueAll (s : Sys S Env Op) (rs : List InboxRecord) :
    Later s (s.enqueueAll rs).2 := by
  induction rs generalizing s with
  | nil => exact refl s
  | cons r rs ih =>
    rw [Sys.enqueueAll]
    split
    · exact refl s
    · exact (enqueue s _).trans (ih _)

theorem objs_enqueueAll (s : Sys S Env Op) (rs : List InboxRecord) :
    (s.enqueueAll rs).2.host.objs = s.host.objs := by
  induction rs generalizing s with
  | nil => rfl
  | cons r rs ih =>
    rw [Sys.enqueueAll]
    split
    · rfl
    · rw [ih]
      rfl

/-- Nothing but the state, and the class that runs, has changed before it. -/
theorem opens (h : Later t s') (hc : t.host.cls = s.host.cls
      ∨ ∃ snap r, s.host.activating = some (.loadFence snap r)
        ∧ t.host.cls = r.ctor)
    (hl : t.host.commitListeners = s.host.commitListeners)
    (hd : t.host.deactivating = s.host.deactivating)
    (he : t.store.events = s.store.events) (hn : t.hist.notifs = s.hist.notifs)
    (hw : t.host.workers = s.host.workers)
    (ha : t.host.activating = s.host.activating) {pc : ActPc S Env}
    (hpc : s.host.activating = some pc)
    (ho : pc.installs = false → s'.host.objs = s.host.objs) :
    Opens cfg s s' where
  cls := by rw [h.cls]; exact hc
  commitListeners := h.commitListeners.trans hl
  deactivating := h.deactivating.trans hd
  events := h.events.trans he
  notifs := h.notifs.trans hn
  workers g := by rw [← hw]; exact h.workers g
  resolved snap r hr := .inl (by rw [← ha]; exact h.activating snap r hr)
  objs pc' hpc' hi := by
    obtain rfl := Option.some.inj (hpc.symm.trans hpc')
    exact ho hi

end Later

/-- **What every segment of an activation leaves alone.** -/
theorem Sys.opens_actStep {cfg : HostConfig S Env Op} {s s' : Sys S Env Op}
    {env : Env} {ok : Bool} (hs : s.actStep cfg env ok = some s') :
    Opens cfg s s' := by
  obtain ⟨pc, hpc, hseg⟩ := Sys.actSegment hs
  -- nothing but bookkeeping
  have haside : Later s s' → s'.host.objs = s.host.objs → Opens cfg s s' :=
    fun h ho => h.opens (.inl rfl) rfl rfl rfl rfl rfl rfl hpc (fun _ => ho)
  -- a part that may install a state, after `t`
  have hpart : ∀ t : Sys S Env Op, pc.installs = true → Later t s' →
      t.host.cls = s.host.cls →
      t.host.commitListeners = s.host.commitListeners →
      t.host.deactivating = s.host.deactivating →
      t.store.events = s.store.events → t.hist.notifs = s.hist.notifs →
      t.host.workers = s.host.workers →
      t.host.activating = s.host.activating → Opens cfg s s' :=
    fun t hi h hc hn hd he hm hw ha => h.opens (.inl hc) hn hd he hm hw ha hpc
      (fun hi' => absurd hi (by simp [hi']))
  -- a part after the instance is constructed
  have hcons : ∀ {snap r} (t : Sys S Env Op), pc = .loadFence snap r → Later t s' →
      t.host.cls = r.ctor → t.host.commitListeners = s.host.commitListeners →
      t.host.deactivating = s.host.deactivating →
      t.store.events = s.store.events → t.hist.notifs = s.hist.notifs →
      t.host.workers = s.host.workers →
      t.host.activating = s.host.activating → Opens cfg s s' :=
    fun t he h hc hn hd hv hm hw ha => h.opens (.inr ⟨_, _, he ▸ hpc, hc⟩) hn hd hv
      hm hw ha hpc (fun hi => absurd hi (by simp [he, ActPc.installs]))
  cases hseg with
  | failed | loadSnapshot | retained | behind | inboxFailed | readInbox =>
    exact haside (.moved (.refl s) (by simp)) rfl
  | migrateFlushed => exact haside (.moved (by exact { Later.refl s with }) (by simp)) rfl
  | @resolveCtor snap r hr =>
    refine ⟨.inl rfl, rfl, rfl, rfl, rfl, fun _ => .inl rfl,
      fun snap' r' hr' => .inr ⟨snap.map SnapshotRead.version, ok, ?_⟩,
      fun _ _ _ => rfl⟩
    obtain ⟨rfl, rfl⟩ := ActPc.loadFence.inj (Option.some.inj hr')
    exact hr
  | @blank r =>
    exact hcons (s.construct r r.ctor.blank) rfl (.moved (.refl _) (by simp)) rfl rfl rfl
      rfl rfl rfl rfl
  | @migrates snap r =>
    exact hcons (s.loaded r snap) rfl (.beginMigrate _ snap) rfl rfl rfl rfl rfl rfl rfl
  | @loaded snap r =>
    exact hcons (s.loaded r snap) rfl (.beginReplay _ env) rfl rfl rfl rfl rfl rfl rfl
  | registerEs | register =>
    exact hpart _ rfl (.beginOnInit _ env) rfl rfl rfl rfl rfl rfl rfl
  | onInit | onActivate =>
    exact hpart _ rfl (.moved (.runSegment s _) (by simp)) rfl rfl rfl rfl rfl rfl rfl
  | initialized | noMigrate | audited =>
    exact hpart _ rfl (.beginReplay s env) rfl rfl rfl rfl rfl rfl rfl
  | migrated => exact hpart _ rfl (.migrated s _) rfl rfl rfl rfl rfl rfl rfl
  | upToDate | replayFlushed =>
    exact hpart _ rfl (.beginOnActivate _ env) rfl rfl rfl rfl rfl rfl rfl
  | replayed => exact hpart _ rfl (.replay s env) rfl rfl rfl rfl rfl rfl rfl
  | activated => exact hpart _ rfl (.becomeActivated s) rfl rfl rfl rfl rfl rfl rfl
  | replayInbox =>
    exact haside ((Later.enqueueAll s _).moved (by simp)) (Later.objs_enqueueAll s _)
  | settled =>
    exact ⟨.inl rfl, rfl, rfl, rfl, rfl, fun _ => .inl rfl,
      fun _ _ hr => absurd hr (by simp), fun _ _ _ => rfl⟩
