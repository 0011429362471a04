import Actjs.Snapshots

/-!
# The steps that keep snapshots at turn boundaries

What `Snapshots` says is kept by every step of a host, under the condition
`Sys.keepsSnapshots`. The steps of the worker are in the module before this
one; here are those of an activation, of a deactivation, and the others.

## Activations

An activation installs a state several times: what it has loaded, what the
user's `migrate` makes of it, what the events of the log are folded into. Each
is a new object, to which nothing refers yet, and each is installed at a
boundary. The hooks `onInit` and `onActivate` are user code like a handler, and
mutate the object that was installed. No write of the host refers to it then,
since an activation awaits the ones it hands over; but the driver may hold it,
if it holds on to what it was given, and if what it gave to the activation is
an object of its own.

`Sys.activationSegment` is the segment of a hook that an activation is about to
run, and `Sys.activationObj` the object it runs on.
-/

open Function (update)

variable {S Env Op : Type}

/-! ## The steps of an activation -/

namespace Sys

/-- The activation is about to construct an instance from what it has loaded. -/
def constructs (s : Sys S Env Op) (ok : Bool) : Bool :=
  match s.host.activating with
  | some (.loadFence (some _) _) => ok
  | _ => false

/-- The hook that a new actor of a class that is not event-sourced begins with. -/
def firstHook (cls : ActorClass S Env) (env : Env) (x : S) : Option (Script S Unit) :=
  match cls.onInit with
  | some f => some (f env x)
  | none => cls.onActivate.map (fun f => f env x)

/-- **The segment of a hook that an activation is about to run**, unless it is on
an object that nothing can refer to: a blank one, or what a log was folded
into. -/
def activationSegment (s : Sys S Env Op) (env : Env) (ok : Bool) :
    Option (Script S Unit) :=
  let onActivate := s.host.cls.onActivate.map (fun f => f env s.host.state)
  match s.host.activating with
  | some (.loadFence (some snap) r) =>
    if ok = true ∧ r.willMigrateSnap = false ∧ r.ctor.isEs = false then
      r.ctor.onActivate.map (fun f => f env snap.state)
    else none
  | some .register =>
    if ok = true ∧ s.host.cls.isEs = false then
      firstHook s.host.cls env s.host.state
    else none
  | some (.onInit (.running rest)) => some rest
  | some (.onInit (.returned (.ok _))) =>
    if s.host.cls.isEs = false then onActivate else none
  | some .noMigrate => if s.host.cls.isEs = false then onActivate else none
  | some .audit => if ok = true ∧ s.host.cls.isEs = false then onActivate else none
  | some .headSeq =>
    if ok = true ∧ s.store.headEventSeq ≤ s.host.currentSeq then onActivate else none
  | some (.replayFlush k) =>
    if s.host.saveResult k = some true then onActivate else none
  | some (.onActivate (.running rest)) => some rest
  | _ => none

/-- The object it runs on: the one that is constructed in this step, or the one
that was installed before. -/
def activationObj (s : Sys S Env Op) : ℕ :=
  match s.host.activating with
  | some (.loadFence (some _) _) => s.host.objs.next
  | _ => s.host.objs.cur

end Sys

namespace Snapshots

variable {cfg : HostConfig S Env Op} {old : List S}
  {held held' : Holdings S} {s s' : Sys S Env Op} {env : Env}

/-- **The driver has something else.** -/
theorem hold (h : Snapshots old held s)
    (hobjs : ∀ obj ∈ held'.objs, obj ∈ held.objs ∨ obj < s.host.objs.next
      ∧ s.host.objs.val obj ∈ s.hist.boundaries)
    (hstates : ∀ x, held'.states x → held.states x ∨ s.Settled old x) :
    Snapshots old held' s :=
  ⟨h.kept.hold hobjs hstates, h.opening, h.serving⟩

/-- It has less. -/
theorem mono (h : Snapshots old held s) (hobjs : ∀ obj ∈ held'.objs, obj ∈ held.objs)
    (hstates : ∀ x, held'.states x → held.states x) : Snapshots old held' s :=
  h.hold (fun obj hobj => .inl (hobjs obj hobj)) (fun x hx => .inl (hstates x hx))

/-- A hook begins, or goes on. -/
theorem of_hook (pc : HookPc S → ActPc S Env) (h : Kept old held s)
    (hu : ∀ k, ¬s.Unencoded k) (ha : s.host.activated = false)
    (hpc : ∀ hook, (pc hook).installed = true → hook.isRunning = false)
    {p : Script S Unit} (hG : p.tears = true → s.host.objs.cur ∉ held.objs) :
    Snapshots old held ((s.runSegment p).setActivating (pc (.after p))) := by
  have hk : Kept old held (s.runSegment p) :=
    h.runSegment (fun ht => ⟨hu, hG ht⟩)
  refine opened (hk.of_still ⟨rfl, rfl, rfl, rfl, rfl, rfl⟩) ha rfl
    (fun hi => ?_) (fun k hk' => absurd hk' (h.not_unencoded_runSegment hu p k))
  have hr := hpc _ hi
  rw [HookPc.isRunning_after, Bool.not_eq_false'] at hr
  exact Sys.whole_runSegment (s := s) hr

theorem of_becomeActivated (h : Sound old held s) :
    Snapshots old held s.becomeActivated := by
  have h' : Sound old held s.becomeActivated :=
    h.of_still ⟨rfl, rfl, rfl, rfl, rfl, rfl⟩
  refine later h'.1 (fun pc hpc => ?_) (fun _ _ => h'.2)
  obtain rfl := Option.some.inj hpc
  simp [ActPc.phase]

theorem of_beginOnActivate (h : Sound old held s) (hu : ∀ k, ¬s.Unencoded k)
    (ha : s.host.activated = false)
    (hG : ∀ f, s.host.cls.onActivate = some f →
      (f env s.host.state).tears = true → s.host.objs.cur ∉ held.objs) :
    Snapshots old held (s.beginOnActivate env) := by
  unfold Sys.beginOnActivate
  split
  · exact of_becomeActivated h
  · next f hf =>
    exact of_hook .onActivate h.1 hu ha
      (fun hook hi => by simpa [ActPc.installed] using hi) (hG f hf)

theorem of_beginReplay (h : Sound old held s) (hu : ∀ k, ¬s.Unencoded k)
    (ha : s.host.activated = false)
    (hG : s.host.cls.isEs = false → ∀ f, s.host.cls.onActivate = some f →
      (f env s.host.state).tears = true → s.host.objs.cur ∉ held.objs) :
    Snapshots old held (s.beginReplay env) := by
  unfold Sys.beginReplay
  split
  · exact opened (h.1.of_still ⟨rfl, rfl, rfl, rfl, rfl, rfl⟩) ha rfl
      (fun _ => h.2) (fun k hk => absurd hk (hu k))
  · next hes => exact of_beginOnActivate h hu ha (hG (Bool.eq_false_iff.mpr hes))

theorem of_beginOnInit (h : Kept old held s) (hu : ∀ k, ¬s.Unencoded k)
    (ha : s.host.activated = false)
    (hG : ∀ f, s.host.cls.onInit = some f →
      (f env s.host.state).tears = true → s.host.objs.cur ∉ held.objs)
    (hG' : s.host.cls.onInit = none → s.host.cls.isEs = false →
      ∀ f, s.host.cls.onActivate = some f →
        (f env s.host.state).tears = true → s.host.objs.cur ∉ held.objs) :
    Snapshots old held (s.beginOnInit env) := by
  unfold Sys.beginOnInit
  split
  · next hf =>
    exact of_beginReplay ⟨h.boundary, Sys.whole_boundary s⟩ hu ha (hG' hf)
  · next f hf =>
    exact of_hook .onInit h hu ha
      (fun hook hi => by simpa [ActPc.installed] using hi) (hG f hf)

theorem of_beginMigrate (h : Sound old held s) (hu : ∀ k, ¬s.Unencoded k)
    (ha : s.host.activated = false) (prev : SnapshotRead S) :
    Snapshots old held (s.beginMigrate prev) := by
  unfold Sys.beginMigrate
  split
  · exact opened (h.1.of_still ⟨rfl, rfl, rfl, rfl, rfl, rfl⟩) ha rfl
      (fun _ => h.2) (fun k hk => absurd hk (hu k))
  · have hk := h.1.saveSnapshot h.2 (-1) prev.version
    refine opened (hk.of_still ⟨rfl, rfl, rfl, rfl, rfl, rfl⟩) ha rfl
      (fun _ => h.2) (fun k hk' => ?_)
    have hor : s.Unencoded k ∨ k = s.host.saves.length :=
      Sys.unencoded_append hk' rfl rfl
    rcases hor with hk' | rfl
    · exact absurd hk' (hu k)
    · rfl

/-- A state is installed, at a boundary, and then written if need be. -/
theorem of_installed (h : Sound old held s) (hu : ∀ k, ¬s.Unencoded k)
    (ha : s.host.activated = false) {pc : ActPc S Env}
    (hpc : pc.awaits = some s.host.saves.length) :
    Snapshots old held (Sys.setActivating { s with host := s.host.flushSnapshot }
      pc) := by
  refine opened (h.flush.1.of_still ⟨rfl, rfl, rfl, rfl, rfl, rfl⟩) ha rfl
    (fun _ => h.flush.2) (fun k hk => ?_)
  rcases Sys.unencoded_flush hk with hk | rfl
  · exact absurd hk (hu k)
  · exact hpc

theorem of_migrated (h : Kept old held s) (ha : s.host.activated = false) (x : S) :
    Snapshots old held (s.migrated x) := by
  unfold Sys.migrated
  dsimp only
  split
  · refine of_installed ⟨?_, Sys.whole_boundary _⟩ ?_ ?_ rfl
    · exact h.assign rfl rfl rfl (List.subset_append_right _ _) rfl
    · exact fun k hk => h.not_unencoded hk rfl rfl
    · exact ha
  · refine opened ?_ ha rfl (fun _ => Sys.whole_boundary _) (fun k hk => ?_)
    · exact h.assign rfl rfl rfl (List.subset_append_right _ _) rfl
    · exact (h.not_unencoded hk rfl rfl).elim

theorem of_activationFailed (h : Kept old held s) (ha : s.host.activated = false)
    (e : HostError) : Snapshots old held (s.activationFailed e) := by
  refine later (h.of_still ⟨rfl, rfl, rfl, rfl, rfl, rfl⟩) (fun pc hpc => ?_)
    (fun ha' => absurd (ha.symm.trans ha') Bool.false_ne_true)
  obtain rfl := Option.some.inj hpc
  simp [ActPc.phase]

/-- The events are folded into a new object. -/
theorem of_replay (h : Kept old held s) (ha : s.host.activated = false) :
    Snapshots old held (s.replay cfg env) := by
  unfold Sys.replay
  dsimp only
  split
  · refine of_activationFailed ?_ ?_ _
    · exact h.frame rfl rfl rfl (List.Subset.refl _) rfl
    · exact ha
  · split
    · refine of_installed ⟨?_, Sys.whole_boundary _⟩ ?_ ?_ rfl
      · exact h.assign rfl rfl rfl (List.subset_append_right _ _) rfl
      · exact fun k hk => h.not_unencoded hk rfl rfl
      · exact ha
    · refine of_beginOnActivate ⟨?_, Sys.whole_boundary _⟩ ?_ ?_ ?_
      · exact h.assign rfl rfl rfl (List.subset_append_right _ _) rfl
      · exact fun k hk => h.not_unencoded hk rfl rfl
      · exact ha
      · exact fun _ _ _ => h.not_holds rfl

/-! ### One await at a time

The segments of `doActivate`, grouped by what they do: load, register, run a
hook, await a write. -/

section Awaits

variable {ok : Bool}

/-- **The host before it is activated**, where an activation is at `pc`. -/
theorem early (hl : Lifecycle s.flow.toLife) {pc : ActPc S Env}
    (hpc : s.host.activating = some pc) (hp : pc.phase = .loading ∨ pc.phase = .opening) :
    s.host.activated = false :=
  (hl.early (by rw [show s.flow.phase = pc.phase from Sys.flow_phase hpc]; exact hp)).1

/-- No write refers to the state while the activation awaits none. -/
theorem not_unencoded_of_awaits (h : Snapshots old held s) {pc : ActPc S Env}
    (hpc : s.host.activating = some pc) (hp : pc.phase = .opening)
    (ha : pc.awaits = none) (k : ℕ) : ¬s.Unencoded k := fun hk =>
  absurd ((h.opening pc hpc hp).2 k hk) (by rw [ha]; simp)

/-- Nor once the write it has awaited is done. -/
theorem not_unencoded_of_saved (h : Snapshots old held s) {pc : ActPc S Env} {k : ℕ} {b : Bool}
    (hpc : s.host.activating = some pc) (hp : pc.phase = .opening)
    (ha : pc.awaits = some k) (hr : s.host.saveResult k = some b) (k' : ℕ) :
    ¬s.Unencoded k' := by
  intro hk'
  obtain rfl := Option.some.inj (ha.symm.trans ((h.opening pc hpc hp).2 k' hk'))
  exact Sys.not_unencoded_of_saveResult hr hk'

/-- The activation goes on to a stage at which no state is installed. -/
theorem of_loading (h : Snapshots old held s) {pc : ActPc S Env}
    (hst : Still s s') (hpc : s'.host.activating = some pc) (hp : pc.phase ≠ .opening)
    (hq : s'.host.activated = true → s'.Quiet → s.host.activated = true ∧ s.Quiet) :
    Snapshots old held s' := by
  refine h.aside hst (fun pc' hpc' hp' => ?_) hq
  obtain rfl := Option.some.inj (hpc.symm.trans hpc')
  exact absurd hp' hp

/-- It has read storage, whatever it was that it read. -/
theorem of_resolveCtor (h : Snapshots old held s) (snap : Option (SnapshotRead S)) :
    Snapshots old held (s.setActivating (.resolveCtor snap)) :=
  h.of_loading ⟨rfl, rfl, rfl, rfl, rfl, rfl⟩ rfl (by simp [ActPc.phase])
    (fun h₁ h₂ => ⟨h₁, h₂.worker, h₂.deactivation⟩)

/-- **The snapshot that was read becomes the state**, and can be read at a
boundary. The object is new to the host; from here on the driver may hold it. -/
theorem kept_loaded (h : Snapshots old held s) {snap : SnapshotRead S} {r : Resolved S Env}
    (hobjs : ∀ obj ∈ held'.objs,
      obj ∈ held.objs ∨ s.constructs true = true ∧ obj = s.host.objs.next)
    (hstates : ∀ x, held'.states x → held.states x) :
    Sound old held' (s.loaded r snap) ∧ ∀ k, ¬(s.loaded r snap).Unencoded k := by
  have hw : (s.loaded r snap).Whole := Sys.whole_boundary _
  have hk : Kept old held (s.loaded r snap) :=
    h.kept.assign rfl rfl rfl (List.subset_append_right _ _) rfl
  refine ⟨⟨hk.hold (fun obj hobj => (hobjs obj hobj).imp_right ?_)
    (fun x hx => .inl (hstates x hx)), hw⟩, fun k hk => h.kept.not_unencoded hk rfl rfl⟩
  rintro ⟨-, rfl⟩
  exact ⟨Nat.lt_succ_self _, hw List.mem_cons_self⟩

/-- It is of this version, and what follows is the log, or a hook. -/
theorem of_loaded (h : Snapshots old held s) {snap : SnapshotRead S} {r : Resolved S Env}
    (hpc : s.host.activating = some (.loadFence (some snap) r))
    (ha : s.host.activated = false) (hm : r.willMigrateSnap = false)
    (hobjs : ∀ obj ∈ held'.objs,
      obj ∈ held.objs ∨ s.constructs true = true ∧ obj = s.host.objs.next)
    (hstates : ∀ x, held'.states x → held.states x)
    (hG : ∀ p, s.activationSegment env true = some p → p.tears = true →
      s.activationObj ∉ held'.objs) :
    Snapshots old held' ((s.loaded r snap).beginReplay env) := by
  obtain ⟨hk, hu⟩ : Sound old held' (s.loaded r snap) ∧ _ := h.kept_loaded hobjs hstates
  refine of_beginReplay hk hu ha (fun hes f hf ht => ?_)
  have hread : (s.loaded r snap).host.state = snap.state := Objects.read_assign _ _
  rw [hread] at ht
  have hf : r.ctor.onActivate = some f := hf
  have hseg : s.activationSegment env true = some (f env snap.state) := by
    rw [Sys.activationSegment, hpc]
    simp only [hm, hf, Option.map_some]
    exact if_pos ⟨trivial, trivial, hes⟩
  have := hG _ hseg ht
  rwa [Sys.activationObj, hpc] at this

/-- The actor is registered. -/
theorem of_register (h : Snapshots old held s) (hpc : s.host.activating = some .register)
    (ha : s.host.activated = false) (hes : s.host.cls.isEs = false)
    (hG : ∀ p, s.activationSegment env true = some p → p.tears = true →
      s.host.objs.cur ∉ held.objs) :
    Snapshots old held ((s.withRow cfg).beginOnInit env) := by
  have hseg : s.activationSegment env true = Sys.firstHook s.host.cls env s.host.state := by
    rw [Sys.activationSegment, hpc]
    exact if_pos ⟨rfl, hes⟩
  have hk : Kept old held (s.withRow cfg) :=
    h.kept.frame rfl rfl rfl (List.Subset.refl _) rfl
  refine of_beginOnInit hk (h.not_unencoded_of_awaits hpc rfl rfl) ha
    (fun f hf ht => hG _ ?_ ht) (fun hi _ f hf ht => hG _ ?_ ht)
  · rw [hseg, Sys.firstHook, show s.host.cls.onInit = some f from hf]
    rfl
  · rw [hseg, Sys.firstHook, show s.host.cls.onInit = none from hi,
      show s.host.cls.onActivate = some f from hf]
    rfl

/-- **The segments that construct no instance** from what was loaded: what the driver
holds, it held before. -/
theorem of_segment (h : Snapshots old held s) (hl : Lifecycle s.flow.toLife)
    (hc : s.constructs ok = false)
    (hG : ∀ p, s.activationSegment env ok = some p → p.tears = true →
      s.host.objs.cur ∉ held.objs)
    (hs : s.actStep cfg env ok = some s') : Snapshots old held s' := by
  obtain ⟨pc, hpc, hseg⟩ := Sys.actSegment hs
  have hthrough : pc.through = true → Snapshots old held s' := fun ht =>
    h.of_beside (Sys.beside_actStep hl hpc ht hs)
  have ha : pc.phase = .loading ∨ pc.phase = .opening → s.host.activated = false :=
    early hl hpc
  -- a state that is installed is at a boundary, and no write refers to it
  have hsound : pc.phase = .opening → pc.installed = true → Sound old held s :=
    fun hp hi => ⟨h.kept, (h.opening pc hpc hp).1 hi⟩
  have hu : pc.phase = .opening → pc.awaits = none → ∀ k, ¬s.Unencoded k :=
    h.not_unencoded_of_awaits hpc
  have hG' := hG
  rw [Sys.activationSegment, hpc] at hG'
  cases hseg with
  | failed e ht =>
    exact of_activationFailed h.kept (ha (ActPc.phase_of_through ht.through)) e
  | migrates hok | loaded hok => exact absurd hc (by rw [Sys.constructs, hpc, hok]; simp)
  | inboxFailed | readInbox | replayInbox | settled => exact hthrough rfl
  | loadSnapshot => exact h.of_resolveCtor _
  | resolveCtor =>
    exact h.of_loading ⟨rfl, rfl, rfl, rfl, rfl, rfl⟩ rfl (by simp [ActPc.phase])
      (fun h₁ h₂ => ⟨h₁, h₂.worker, h₂.deactivation⟩)
  | blank =>
    exact opened (h.kept.assign rfl rfl rfl (List.Subset.refl _) rfl) (ha (.inl rfl)) rfl
      (fun hi => absurd hi (by simp [ActPc.installed]))
      (fun k hk => (h.kept.not_unencoded hk rfl rfl).elim)
  | registerEs =>
    refine of_beginOnInit ?_ (fun k hk => ?_) (ha (.inr rfl))
      (fun _ _ _ => h.kept.not_holds rfl) (fun _ _ _ _ _ => h.kept.not_holds rfl)
    · exact h.kept.assign rfl rfl rfl (List.Subset.refl _) rfl
    · exact h.kept.not_unencoded hk rfl rfl
  | register hok hes => exact h.of_register hpc (ha (.inr rfl)) hes (hok ▸ hG)
  | onInit =>
    exact of_hook .onInit h.kept (hu rfl rfl) (ha (.inr rfl))
      (fun hook hi => by simpa [ActPc.installed] using hi) (hG' _ rfl)
  | onActivate =>
    exact of_hook .onActivate h.kept (hu rfl rfl) (ha (.inr rfl))
      (fun hook hi => by simpa [ActPc.installed] using hi) (hG' _ rfl)
  | initialized | noMigrate =>
    refine of_beginReplay (hsound rfl rfl) (hu rfl rfl) (ha (.inr rfl))
      (fun hes f hf => hG' _ ?_)
    simp [hes, hf]
  | audited hok =>
    refine of_beginReplay (hsound rfl rfl) (hu rfl rfl) (ha (.inr rfl))
      (fun hes f hf => hG' _ ?_)
    simp [hok, hes, hf]
  | retained hr | migrateFlushed hr =>
    exact opened (h.kept.of_still ⟨rfl, rfl, rfl, rfl, rfl, rfl⟩) (ha (.inr rfl)) rfl
      (fun _ => (hsound rfl rfl).2)
      (fun k' hk' => absurd hk' (h.not_unencoded_of_saved hpc rfl rfl hr k'))
  | migrated => exact of_migrated h.kept (ha (.inr rfl)) _
  | upToDate hok hle =>
    refine of_beginOnActivate (hsound rfl rfl) (hu rfl rfl) (ha (.inr rfl))
      (fun f hf => hG' _ ?_)
    simp [hok, hle, hf]
  | behind =>
    exact opened (h.kept.of_still ⟨rfl, rfl, rfl, rfl, rfl, rfl⟩) (ha (.inr rfl)) rfl
      (fun _ => (hsound rfl rfl).2) (fun k hk => absurd hk (hu rfl rfl k))
  | replayed => exact of_replay h.kept (ha (.inr rfl))
  | replayFlushed hr =>
    have hs' : Sound old held s.afterFlush :=
      (hsound rfl rfl).of_still ⟨rfl, rfl, rfl, rfl, rfl, rfl⟩
    refine of_beginOnActivate hs' (fun k' => h.not_unencoded_of_saved hpc rfl rfl hr k')
      (ha (.inr rfl)) (fun f hf => hG' (f env s.host.state) ?_)
    have hf : s.host.cls.onActivate = some f := hf
    simp [hr, hf]
  | activated => exact of_becomeActivated (hsound rfl rfl)

end Awaits

/-- **A segment of an activation** installs a state only at a boundary, and
does not go on from one whose write it awaits before that is encoded. What the
driver holds afterwards it held before, or it is the object that this step
constructs from what was loaded. -/
theorem of_actStep {ok : Bool} (h : Snapshots old held s) (hl : Lifecycle s.flow.toLife)
    (hobjs : ∀ obj ∈ held'.objs,
      obj ∈ held.objs ∨ s.constructs ok = true ∧ obj = s.host.objs.next)
    (hstates : ∀ x, held'.states x → held.states x)
    (hG : ∀ p, s.activationSegment env ok = some p → p.tears = true →
      s.activationObj ∉ held'.objs)
    (hs : s.actStep cfg env ok = some s') : Snapshots old held' s' := by
  obtain ⟨pc, hpc, hseg⟩ := Sys.actSegment hs
  -- where none is constructed, the driver holds no more than before
  have hsub : s.constructs ok = false → Snapshots old held' s := fun hc =>
    h.mono (fun obj hobj => (hobjs obj hobj).resolve_right (by simp [hc])) hstates
  have hrest : s.constructs ok = false → s.activationObj = s.host.objs.cur →
      Snapshots old held' s' := fun hc ho =>
    (hsub hc).of_segment hl hc (ho ▸ hG) hs
  cases hseg with
  | @migrates snap r hok =>
    subst hok
    have ha := early hl hpc (.inl rfl)
    obtain ⟨hk, hu⟩ : Sound old held' (s.loaded r snap) ∧ _ := h.kept_loaded hobjs hstates
    exact of_beginMigrate hk hu ha snap
  | loaded hok hm =>
    subst hok
    exact h.of_loaded hpc (early hl hpc (.inl rfl)) hm hobjs hstates hG
  | failed e ht =>
    have hc : s.constructs ok = false := by
      rw [Sys.constructs, hpc]
      split
      · next he =>
        obtain rfl := Option.some.inj he
        exact ht
      · rfl
    exact of_activationFailed (hsub hc).kept
      (early hl hpc (ActPc.phase_of_through ht.through)) e
  | _ => exact hrest (by rw [Sys.constructs, hpc]) (by rw [Sys.activationObj, hpc])

end Snapshots

/-! ## The steps of a deactivation -/

/-- The segment of `onDeactivate` that a deactivation is about to run. -/
def Sys.hookSegment (s : Sys S Env Op) (env : Env) : Option (Script S Unit) :=
  let first :=
    if s.host.inst.isSome = true then
      s.host.cls.onDeactivate.map (fun hook => hook env s.host.state)
    else none
  match s.host.deactivating with
  | some ⟨.awaitWorker _, _⟩ => if s.host.flushes = true then none else first
  | some ⟨.flush _, _⟩ => first
  | some ⟨.onDeactivate (.running rest), _⟩ => some rest
  | _ => none

namespace Snapshots

variable {cfg : HostConfig S Env Op} {old : List S} {held : Holdings S}
  {s s' : Sys S Env Op} {env : Env}

theorem deact_of_deactivating {d : Deactivation S} (hd : s.host.deactivating = some d) :
    s.flow.deact = some d.pc.stage := by
  show s.host.deactivating.map _ = _
  rw [hd]
  rfl

/-- A host that is deactivating is activated. -/
theorem activated_of_deactivating (hl : Lifecycle s.flow.toLife) {d : Deactivation S}
    (hd : s.host.deactivating = some d) : s.host.activated = true :=
  (hl.closed (by rw [deact_of_deactivating hd]; simp)).1

/-- A segment of `onDeactivate`. -/
theorem of_onDeactivate (h : Kept old held s)
    (hact : ∀ pc, s.host.activating = some pc → pc.phase ≠ .opening)
    {p : Script S Unit} (hp : p.tears = true → s.Free held)
    (idle : Bool) :
    Snapshots old held ((s.runSegment p).setDeactivating
      ⟨.onDeactivate (.after p), idle⟩) := by
  refine later ((h.runSegment hp).of_still ⟨rfl, rfl, rfl, rfl, rfl, rfl⟩) hact
    (fun _ hq => ?_)
  have hd := hq.deactivation _ rfl
  change (HookPc.after p).isRunning = false at hd
  rw [HookPc.isRunning_after, Bool.not_eq_false'] at hd
  exact Sys.whole_runSegment (s := s) hd

theorem of_beginOnDeactivate (h : Sound old held s)
    (hact : ∀ pc, s.host.activating = some pc → pc.phase ≠ .opening)
    (hG : ∀ hook, s.host.inst.isSome = true →
      s.host.cls.onDeactivate = some hook →
      (hook env s.host.state).tears = true → s.Free held)
    (idle : Bool) : Snapshots old held (s.beginOnDeactivate env idle) := by
  unfold Sys.beginOnDeactivate
  split
  · next i f hi hf =>
    exact of_onDeactivate h.1 hact (hG f (by rw [hi]; rfl) hf) idle
  · have h' : Sound old held (s.dropInstance idle) :=
      h.of_still ⟨rfl, rfl, rfl, rfl, rfl, rfl⟩
    exact later h'.1 hact (fun _ _ => h'.2)

/-- **Once the worker has returned**, only the hook can be halfway. -/
theorem Sound.of_dead (h : Snapshots old held s) (hl : Lifecycle s.flow.toLife)
    {d : Deactivation S} (hd : s.host.deactivating = some d)
    (hdead : ∀ g, (s.host.workers g).stage.alive = false) (hrun : d.pc.isRunning = false) :
    Sound old held s := by
  refine ⟨h.kept, h.serving (activated_of_deactivating hl hd) ⟨fun g => ?_, fun d' hd' => ?_⟩⟩
  · have := hdead g
    revert this
    cases s.host.workers g <;>
      simp [WorkerPc.stage, WorkerStage.alive, WorkerPc.isRunning]
  · obtain rfl := Option.some.inj (hd.symm.trans hd')
    exact hrun

/-- **A segment of a deactivation** flushes, and calls the hook, at a
boundary. -/
theorem of_deactStep (h : Snapshots old held s) (hl : Lifecycle s.flow.toLife)
    (hG : ∀ p, s.hookSegment env = some p → p.tears = true → s.Free held)
    (hs : s.deactStep env = some s') : Snapshots old held s' := by
  obtain ⟨pc, idle, hd, hseg⟩ := Sys.deactSegment hs
  have hact := hl.not_opening (activated_of_deactivating hl hd)
  rw [Sys.hookSegment, hd] at hG
  cases hseg with
  | flush hw =>
    have hS : Sound old held { s with host := { s.host with snapshotTimer := false } } :=
      (Sound.of_dead h hl hd (hl.dead_of_done hd hw) rfl).of_still
        ⟨rfl, rfl, rfl, rfl, rfl, rfl⟩
    exact later (hS.flush.1.of_still ⟨rfl, rfl, rfl, rfl, rfl, rfl⟩) hact
      (fun _ _ => hS.flush.2)
  | unflushed hw hf =>
    have hS : Sound old held { s with host := { s.host with snapshotTimer := false } } :=
      (Sound.of_dead h hl hd (hl.dead_of_done hd hw) rfl).of_still
        ⟨rfl, rfl, rfl, rfl, rfl, rfl⟩
    refine of_beginOnDeactivate hS hact (fun hook hi hh => hG _ ?_) idle
    have hi : s.host.inst.isSome = true := hi
    have hh : s.host.cls.onDeactivate = some hook := hh
    simp only [hf, hi, hh, if_true]
    rfl
  | flushed =>
    have hS : Sound old held s.afterFlush :=
      (Sound.of_dead h hl hd (hl.dead_of_deact hd (by simp)) rfl).of_still
        ⟨rfl, rfl, rfl, rfl, rfl, rfl⟩
    refine of_beginOnDeactivate hS hact (fun hook hi hh => hG _ ?_) idle
    have hi : s.host.inst.isSome = true := hi
    have hh : s.host.cls.onDeactivate = some hook := hh
    simp only [hi, hh, if_true]
    rfl
  | flushFailed | threw | dropped =>
    have hS := Sound.of_dead h hl hd (hl.dead_of_deact hd (by simp)) rfl
    exact later (hS.1.of_still ⟨rfl, rfl, rfl, rfl, rfl, rfl⟩) hact (fun _ _ => hS.2)
  | onDeactivate => exact of_onDeactivate h.kept hact (hG _ rfl) idle
  | settled =>
    exact later (h.kept.of_still ⟨rfl, rfl, rfl, rfl, rfl, rfl⟩) hact
      (fun ha' => absurd ha' (by simp))

end Snapshots

/-! ## Runs

The condition, as a test on the state before the step, and the step lemma over
every label of a host. -/

namespace Sys

/-- The host is activated, and no user code is at an await. -/
def quiet (s : Sys S Env Op) : Bool :=
  s.host.activated
    && (match s.host.workerPromise with
      | none => true
      | some g => !(s.host.workers g).isRunning)
    && (match s.host.deactivating with
      | none => true
      | some d => !d.pc.isRunning)

/-- Nothing refers to the object of the state: no snapshot write that is not encoded
yet, and nothing that the driver holds. -/
def free (s : Sys S Env Op) (held : Holdings S) : Bool :=
  s.host.saves.all (fun sv =>
    match sv.pc with
    | .toEncode obj => obj != s.host.objs.cur
    | _ => true)
    && !held.objs.contains s.host.objs.cur

/-- **When no snapshot is torn**, where the driver has `held`: the debounce timer
finds nothing to flush, or no user code at an await; a subscriber attaches to
an activated host with an instance, while no user code is at an await; and no
handler or hook mutates the state and then awaits while something refers to
it. -/
def keepsSnapshots (held : Holdings S) (s : Sys S Env Op) : Act Env → Bool
  | .snapshotFire => !s.host.flushes || s.quiet
  | .subscribe _ => s.host.inst.isSome && s.quiet
  | .worker g env _ => (s.handlerSegment g env).all (fun p => !p.tears || s.free held)
  | .deactivation env => (s.hookSegment env).all (fun p => !p.tears || s.free held)
  | .activation env ok =>
    (s.activationSegment env ok).all (fun p => !p.tears || !held.objs.contains s.activationObj)
  | _ => true

/-- The step constructs an instance from what was loaded. -/
def constructing (s : Sys S Env Op) : Act Env → Bool
  | .activation _ ok => s.constructs ok
  | _ => false

end Sys

namespace Snapshots

variable {cfg : HostConfig S Env Op} {old : List S}
  {held held' : Holdings S} {s s' : Sys S Env Op}

theorem quiet_iff (hl : Lifecycle s.flow.toLife) (h : s.quiet = true) :
    s.host.activated = true ∧ s.Quiet := by
  simp only [Sys.quiet, Bool.and_eq_true] at h
  obtain ⟨⟨ha, hw⟩, hd⟩ := h
  refine ⟨ha, fun g => ?_, fun d hd' => ?_⟩
  · by_contra hr
    have halive : (s.host.workers g).stage.alive = true := by
      revert hr
      cases s.host.workers g <;>
        simp [WorkerPc.isRunning, WorkerPc.stage, WorkerStage.alive]
    have hp : s.host.workerPromise = some g := (hl.alive g halive).2
    rw [hp] at hw
    exact hr (by simpa using hw)
  · rw [hd'] at hd
    simpa using hd

theorem free_of (h : s.free held = true) : s.Free held := by
  rw [Sys.free, Bool.and_eq_true, List.all_eq_true] at h
  refine ⟨?_, by simpa using h.2⟩
  rintro k ⟨sv, hk, hpc⟩
  have := h.1 sv (List.mem_of_getElem? hk)
  rw [hpc] at this
  exact absurd rfl (bne_iff_ne.mp this)

/-- The debounce timer fires. -/
theorem of_snapshotFire (h : Snapshots old held s) (hl : Lifecycle s.flow.toLife)
    (hG : s.host.flushes = true → s.quiet = true)
    (hs : s.snapshotFire = some s') : Snapshots old held s' := by
  unfold Sys.snapshotFire at hs
  split at hs
  · dsimp only at hs
    split at hs
    · next hf =>
      obtain rfl := Option.some.inj hs
      obtain ⟨ha, hq⟩ := quiet_iff hl (hG hf)
      have hS : Sound old held { s with
          host := { s.host with snapshotTimer := false } } :=
        Sound.of_still ⟨h.kept, h.serving ha hq⟩ ⟨rfl, rfl, rfl, rfl, rfl, rfl⟩
      exact later (hS.flush.1.of_still ⟨rfl, rfl, rfl, rfl, rfl, rfl⟩)
        (hl.not_opening ha) (fun _ _ => hS.flush.2)
    · obtain rfl := Option.some.inj hs
      exact h.aside ⟨rfl, rfl, rfl, rfl, rfl, rfl⟩ (fun _ hpc _ => hpc)
        (fun h₁ h₂ => ⟨h₁, h₂.worker, h₂.deactivation⟩)
  · exact absurd hs (by simp)

/-- The driver is done with encoding a write. -/
theorem of_setSave (h : Snapshots old held s) (k : ℕ) {sv : Save S}
    (he : ∀ obj, sv.pc ≠ .toEncode obj) : Snapshots old held (s.setSave k sv) where
  kept := h.kept.setSave k he
  opening pc hpc hp := by
    obtain ⟨hw, hu⟩ := h.opening pc hpc hp
    refine ⟨hw, fun k' ⟨sv', hk', hsv⟩ => hu k' ?_⟩
    change (s.host.saves.set k sv)[k']? = some sv' at hk'
    rw [List.getElem?_set] at hk'
    split at hk'
    · split at hk'
      · obtain rfl := Option.some.inj hk'
        exact absurd hsv (he _)
      · exact absurd hk' (by simp)
    · exact ⟨sv', hk', hsv⟩
  serving ha hq := h.serving ha ⟨hq.worker, hq.deactivation⟩

/-- **One step of a host keeps snapshots at turn boundaries**, under its
condition. -/
theorem step {a : Act Env} (h : Snapshots old held s) (hl : Lifecycle s.flow.toLife)
    (hobjs : ∀ obj ∈ held'.objs,
      obj ∈ held.objs ∨ s.constructing a = true ∧ obj = s.host.objs.next)
    (hstates : ∀ x, held'.states x → held.states x)
    (hG : s.keepsSnapshots held' a = true) (hsave : ∀ k ok, a ≠ .save k ok)
    (hs : s.step cfg a = some s') : Snapshots old held' s' := by
  by_cases hact : ∃ env ok, a = .activation env ok
  · obtain ⟨env, ok, rfl⟩ := hact
    refine h.of_actStep hl hobjs hstates (fun p hp ht hmem => ?_) hs
    rw [Sys.keepsSnapshots, hp, Option.all_some, ht] at hG
    simp [hmem] at hG
  -- the driver holds no more than before
  replace h : Snapshots old held' s := by
    refine h.mono (fun obj hobj => (hobjs obj hobj).resolve_right (fun hc => ?_)) hstates
    have hc := hc.1
    cases a with
    | activation env ok => exact hact ⟨env, ok, rfl⟩
    | _ => exact absurd hc (by simp [Sys.constructing])
  have htears : ∀ {R : Type} {p : Script S R},
      (!p.tears || s.free held') = true → p.tears = true → s.Free held' := by
    intro R p hp ht
    rw [ht, Bool.not_true, Bool.false_or] at hp
    exact free_of hp
  cases a with
  | activation env ok => exact absurd ⟨env, ok, rfl⟩ hact
  | worker g env ok =>
    have hs' : s.workerStep cfg g env ok = some s' := hs
    have ha : s.host.activated = true := (hl.alive g (Sys.alive_of_workerStep hs')).1
    obtain ⟨hk, hw⟩ := h.of_workerStep hl (fun p hp => htears (by
      rw [Sys.keepsSnapshots, hp] at hG
      exact hG)) hs'
    have hphase : s'.flow.phase = s.flow.phase := (Sys.flow_step hs).phase_eq
    refine later hk (fun pc hpc hp => ?_) (fun _ => hw)
    have hp' : s.flow.phase = .opening := by
      rw [← hphase, Sys.flow_phase hpc, hp]
    exact absurd (show s.host.activated = false from (hl.early (.inr hp')).1)
      (by rw [ha]; simp)
  | deactivation env =>
    refine h.of_deactStep hl (fun p hp => htears ?_) hs
    rw [Sys.keepsSnapshots, hp] at hG
    exact hG
  | snapshotFire =>
    refine h.of_snapshotFire hl (fun hf => ?_) hs
    rw [Sys.keepsSnapshots, hf] at hG
    exact hG
  | save k ok => exact absurd rfl (hsave k ok)
  | subscribe l =>
    rw [Sys.keepsSnapshots, Bool.and_eq_true] at hG
    obtain ⟨ha, hq⟩ := quiet_iff hl hG.2
    have hw := h.serving ha hq
    have hk := h.kept.subscribe hw hG.1 hs
    rw [Sys.step, Sys.subscribe] at hs
    split at hs
    · exact absurd hs (by simp)
    · obtain rfl := Option.some.inj hs
      exact later hk (hl.not_opening ha) (fun _ _ => hw)
  | unsubscribe l =>
    obtain rfl := Option.some.inj hs
    exact h.aside ⟨rfl, rfl, rfl, rfl, rfl, rfl⟩ (fun _ hpc _ => hpc)
      (fun h₁ h₂ => ⟨h₁, h₂.worker, h₂.deactivation⟩)
  | notifyTombstone =>
    obtain rfl := Option.some.inj hs
    have hk : Kept old held' (s.emit [.tombstone]) := h.kept.emit (by simp)
    exact ⟨hk.frame rfl rfl rfl (List.Subset.refl _) rfl, h.opening,
      fun ha hq => h.serving ha ⟨hq.worker, hq.deactivation⟩⟩
  | _ => exact h.of_beside (Sys.beside_step hl rfl hs)

end Snapshots

