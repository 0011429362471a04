import Actjs.Upgrades

/-!
# Sticky versions

An activation decides which version it runs from the version of the live
snapshot alone. The row and the log tell more: which version an actor was
created by that has no snapshot yet, and which versions have written events
since the snapshot was taken. `Upgrades.decides` is what is left to ask of the
two, and with it an actor of a class that never floats runs the version it was
created by, and nothing is run on what a newer version wrote.

## How it is proved

A host decides on a version in one await of its activation, and copies it from
then on. So the steps fall in two. For all but the deciding ones `Versions`
says where each version that is there afterwards was before, and
`Versioned.of_versions` carries the invariant over from that alone. For the
deciding one `Versioned.of_decided` is the argument, and it is the only place
at which the condition is used.

The events that are still to be read have to be asked about at that moment
too, since the replay does not look at who emitted them: `Host.origin` is the
seq after which they begin.
-/

variable {S Env Op : Type}

/-! ## What a step does to versions

A host runs one version from the moment it has decided. What a step can still
do is to write it to the row, or into a snapshot. -/

/-- The seq after which an activation is going to read the log, if it has decided
on a version and has not read the log yet. -/
def ActPc.origin (currentSeq : ℤ) : ActPc S Env → Option ℤ
  | loadFence none _ => some 0
  | loadFence (some snap) _ => some snap.seq
  | register => some 0
  | onInit _ => some currentSeq
  | noMigrate => some currentSeq
  | retain _ _ => some currentSeq
  | migrate _ => some currentSeq
  | migrateFlush _ => some currentSeq
  | audit => some currentSeq
  | headSeq => some currentSeq
  | readEvents => some currentSeq
  | _ => none

/-- The same, of a host. -/
def Host.origin (h : Host S Env) : Option ℤ :=
  h.activating.bind (ActPc.origin h.currentSeq)

/-- **What a step does to versions**, if it does not decide on one.

Of the places a version can be in – the host, the row, the snapshots, the
writes under way – a step copies one to another, and makes none up. So
whatever is asked of versions has to be asked where they are decided on. -/
structure Versions (s s' : Sys S Env Op) : Prop where
  running : s'.host.runningVersion = s.host.runningVersion
  /-- The row is written once, by the activation that finds none, with the
  version that runs. -/
  row : s'.store.row = s.store.row ∨ s.host.activating = some .register
    ∧ ∃ row, s'.store.row = some row ∧ row.version = s.host.runningVersion
  /-- What is stored was handed to the driver. -/
  snapshots : ∀ p ∈ s'.store.snapshots, p ∈ s.store.snapshots
    ∨ ∃ sv ∈ s.host.saves, sv.seq = p.fst ∧ sv.version = p.snd.classVersion
  /-- What is handed to the driver is of the version that runs, or is retained. -/
  saves : ∀ sv ∈ s'.host.saves,
    (∃ sv₀ ∈ s.host.saves, sv₀.seq = sv.seq ∧ sv₀.version = sv.version)
      ∨ sv.seq < 0 ∨ s.host.inst ≠ none ∧ sv.version = s.host.runningVersion
  inst : s'.host.inst ≠ none → s.host.inst ≠ none ∨ s.host.origin ≠ none
  /-- What is read of the log begins at the snapshot that was loaded, or
  later. -/
  origin : ∀ q', s'.host.origin = some q' → ∃ q, s.host.origin = some q
    ∧ (0 ≤ s'.host.currentSeq → q ≤ q')
  fence : ∀ snap r, s'.host.activating = some (.loadFence snap r) →
    s.host.activating = some (.loadFence snap r)
  loading : ∀ snap, s'.host.loading = some snap →
    s.host.loading = some snap ∨ s.store.loadSnapshot = some snap

/-- **A part of an activation** that reads the log next, if it does. -/
structure Tail (t s' : Sys S Env Op) : Prop where
  running : s'.host.runningVersion = t.host.runningVersion
  store : s'.store = t.store
  saves : s'.host.saves = t.host.saves
  inst : s'.host.inst = t.host.inst
  currentSeq : s'.host.currentSeq = t.host.currentSeq
  pc : ∃ pc, s'.host.activating = some pc ∧ pc.plain = true
    ∧ (pc.origin s'.host.currentSeq = none
      ∨ pc.origin s'.host.currentSeq = some t.host.currentSeq)

namespace Tail

variable {s s' t : Sys S Env Op} {env : Env}

/-- Bookkeeping that leads to such a point. -/
theorem moved (s : Sys S Env Op) {pc : ActPc S Env} (hp : pc.plain = true)
    (ho : pc.origin s.host.currentSeq = none
      ∨ pc.origin s.host.currentSeq = some s.host.currentSeq) :
    Tail s (s.setActivating pc) :=
  ⟨rfl, rfl, rfl, rfl, rfl, pc, rfl, hp, ho⟩

theorem beginOnActivate (s : Sys S Env Op) (env : Env) :
    Tail s (s.beginOnActivate env) := by
  unfold Sys.beginOnActivate
  split
  · exact ⟨rfl, rfl, rfl, rfl, rfl, _, rfl, rfl, .inl rfl⟩
  · exact ⟨rfl, rfl, rfl, rfl, rfl, _, rfl, rfl, .inl rfl⟩

theorem beginReplay (s : Sys S Env Op) (env : Env) :
    Tail s (s.beginReplay env) := by
  unfold Sys.beginReplay
  split
  · exact moved s rfl (.inr rfl)
  · exact beginOnActivate s env

theorem beginOnInit (s : Sys S Env Op) (env : Env) :
    Tail s (s.beginOnInit env) := by
  unfold Sys.beginOnInit
  split
  · exact { beginReplay s.boundary env with }
  · exact ⟨rfl, rfl, rfl, rfl, rfl, _, rfl, rfl, .inr rfl⟩

/-- It reads the log from where the part before it has got. -/
theorem origin_eq (h : Tail t s') {q : ℤ} (hq : s'.host.origin = some q) :
    q = t.host.currentSeq := by
  obtain ⟨pc, hpc, -, ho⟩ := h.pc
  have hq' : pc.origin s'.host.currentSeq = some q := by
    rw [← hq, Host.origin, hpc, Option.bind_some]
  obtain ho | ho := ho
  · exact absurd (hq'.symm.trans ho) (by simp)
  · exact Option.some.inj (hq'.symm.trans ho)

/-- Such a part, after one that leaves alone what versions are kept in, or
writes the row. -/
theorem versions (h : Tail t s')
    (running : t.host.runningVersion = s.host.runningVersion)
    (row : t.store.row = s.store.row ∨ s.host.activating = some .register
      ∧ ∃ row, t.store.row = some row ∧ row.version = s.host.runningVersion)
    (snapshots : t.store.snapshots = s.store.snapshots)
    (saves : t.host.saves = s.host.saves)
    (inst : t.host.inst ≠ none → s.host.inst ≠ none ∨ s.host.origin ≠ none)
    (origin : s'.host.origin = none ∨ ∃ q, s.host.origin = some q
      ∧ (0 ≤ t.host.currentSeq → q ≤ t.host.currentSeq)) :
    Versions s s' where
  running := h.running.trans running
  row := by rw [h.store]; exact row
  snapshots p hp := .inl (by rwa [h.store, snapshots] at hp)
  saves sv hsv := .inl ⟨sv, by rwa [h.saves, saves] at hsv, rfl, rfl⟩
  inst hi := inst (h.inst ▸ hi)
  origin q' hq' := by
    obtain hn | ⟨q, hq, hle⟩ := origin
    · exact absurd hq' (by rw [hn]; simp)
    · refine ⟨q, hq, fun h0 => ?_⟩
      rw [h.origin_eq hq']
      exact hle (h.currentSeq ▸ h0)
  fence snap r hf := by
    obtain ⟨pc, hpc, hp, -⟩ := h.pc
    obtain rfl := Option.some.inj (hpc.symm.trans hf)
    exact absurd hp (by simp [ActPc.plain])
  loading snap hl := by
    obtain ⟨pc, hpc, hp, -⟩ := h.pc
    exact absurd hl (by rw [Host.loading_of_plain hpc hp]; simp)

end Tail

namespace Versions

variable {cfg : HostConfig S Env Op} {s s' t : Sys S Env Op} {env : Env}

/-- A step that hands at most one write to the driver, and stays where it is in
its activation or comes to a point where it has read the log. -/
theorem aside (running : s'.host.runningVersion = s.host.runningVersion)
    (row : s'.store.row = s.store.row)
    (snapshots : s'.store.snapshots = s.store.snapshots)
    (saves : s'.host.saves = s.host.saves ∨ s.host.inst ≠ none
      ∧ ∃ seq pc, s'.host.saves = s.host.saves ++ [⟨seq, s.host.runningVersion, pc⟩])
    (inst : s'.host.inst = s.host.inst ∨ s'.host.inst = none)
    (origin : s'.host.origin = none ∨ s'.host.origin = s.host.origin)
    (fence : ∀ snap r, s'.host.activating = some (.loadFence snap r) →
      s.host.activating = some (.loadFence snap r))
    (loading : s'.host.loading = none ∨ s'.host.loading = s.host.loading) :
    Versions s s' where
  running := running
  row := .inl row
  snapshots p hp := .inl (snapshots ▸ hp)
  saves sv hsv := by
    obtain he | ⟨hi, seq, pc, he⟩ := saves
    · exact .inl ⟨sv, he ▸ hsv, rfl, rfl⟩
    · rw [he] at hsv
      obtain hsv | hsv := List.mem_append.mp hsv
      · exact .inl ⟨sv, hsv, rfl, rfl⟩
      · rw [List.mem_singleton.mp hsv]
        exact .inr (.inr ⟨hi, rfl⟩)
  inst hi := by
    obtain he | he := inst
    · exact .inl (he ▸ hi)
    · exact absurd he hi
  origin q hq := by
    obtain he | he := origin
    · exact absurd hq (by rw [he]; simp)
    · exact ⟨q, he ▸ hq, fun _ => le_rfl⟩
  fence := fence
  loading snap hl := by
    obtain he | he := loading
    · exact absurd hl (by rw [he]; simp)
    · exact .inl (he ▸ hl)

theorem beside (h : Beside s s') : Versions s s' := by
  have hnone : ∀ h : Host S Env,
      (∀ pc, h.activating = some pc → pc.beside = true) → h.origin = none := by
    intro h hb
    unfold Host.origin
    cases hpc : h.activating with
    | none => rfl
    | some pc =>
      have hb := hb pc hpc
      cases pc with
      | loadSnapshot => rfl
      | readInbox => rfl
      | replayInbox pending => rfl
      | finishing o => rfl
      | _ => exact absurd hb (by simp [ActPc.beside])
  refine .aside h.runningVersion h.row h.snapshots (.inl h.saves) (.inl h.inst) ?_
    (fun snap r hf => h.activating_eq hf rfl) (.inr h.awaited_eq.2)
  obtain he | ⟨-, hb⟩ := h.activating
  · exact .inr (by rw [Host.origin, Host.origin, he, h.currentSeq])
  · exact .inl (hnone _ hb)

end Versions

namespace Sys

variable {cfg : HostConfig S Env Op} {s s' : Sys S Env Op} {env : Env}

theorem origin_beginOnActivate (s : Sys S Env Op) (env : Env) :
    (s.beginOnActivate env).host.origin = none := by
  unfold beginOnActivate
  split <;> rfl

theorem versions_migrated {prev : SnapshotRead S}
    (hpc : s.host.activating = some (.migrate prev)) (x : S) :
    Versions s (s.migrated x) := by
  have horigin : s.host.origin = some s.host.currentSeq := by
    rw [Host.origin, hpc]
    rfl
  unfold migrated
  dsimp only
  split
  · next hf =>
    have hi : s.host.inst ≠ none :=
      Option.isSome_iff_ne_none.mp (Bool.and_eq_true_iff.mp hf).2
    exact .aside rfl rfl rfl (.inr ⟨hi, _, _, rfl⟩) (.inl rfl) (.inr horigin.symm)
      (fun snap r hf => absurd (Option.some.inj hf) (by simp)) (.inl rfl)
  · exact .aside rfl rfl rfl (.inl rfl) (.inl rfl) (.inr horigin.symm)
      (fun snap r hf => absurd (Option.some.inj hf) (by simp)) (.inl rfl)

theorem versions_replay (s : Sys S Env Op) : Versions s (s.replay cfg env) := by
  unfold replay
  dsimp only
  split
  · exact .aside rfl rfl rfl (.inl rfl) (.inl rfl) (.inl rfl)
      (fun snap r hf => absurd (Option.some.inj hf) (by simp)) (.inl rfl)
  · split
    · next hf =>
      have hi : s.host.inst ≠ none :=
        Option.isSome_iff_ne_none.mp (Bool.and_eq_true_iff.mp hf.2).2
      exact .aside rfl rfl rfl (.inr ⟨hi, _, _, rfl⟩) (.inl rfl) (.inl rfl)
        (fun snap r hf => absurd (Option.some.inj hf) (by simp)) (.inl rfl)
    · exact (Tail.beginOnActivate _ env).versions rfl (.inl rfl) rfl rfl .inl
        (.inl (origin_beginOnActivate _ env))

/-- A segment of an activation that does not decide on a version. -/
theorem versions_actStep {ok : Bool} (hl : Lifecycle s.flow.toLife)
    (hs : s.actStep cfg env ok = some s')
    (hne : ∀ snap, s.host.activating ≠ some (.resolveCtor snap)) :
    Versions s s' := by
  obtain ⟨pc, hpc, hseg⟩ := actSegment hs
  have horigin : s.host.origin = pc.origin s.host.currentSeq := by
    rw [Host.origin, hpc, Option.bind_some]
  have hfrom : ∀ {q}, pc.origin s.host.currentSeq = some q → s.host.origin ≠ none := by
    rintro q hq
    rw [horigin, hq]
    exact Option.some_ne_none _
  have hstill : Versions s s := .aside rfl rfl rfl (.inl rfl) (.inl rfl) (.inr rfl)
    (fun _ _ h => h) (.inr rfl)
  -- a part that goes on from where the log was to be read
  have htail : Tail s s' → pc.origin s.host.currentSeq = some s.host.currentSeq →
      Versions s s' := fun h ho =>
    h.versions rfl (.inl rfl) rfl rfl .inl
      (.inr ⟨_, horigin.trans ho, fun _ => le_rfl⟩)
  -- a part that comes after the log was read
  have hread : ∀ {t : Sys S Env Op}, Tail t s' → s'.host.origin = none →
      t.host.runningVersion = s.host.runningVersion → t.store = s.store →
      t.host.saves = s.host.saves → t.host.inst = s.host.inst →
      Versions s s' := fun h ho hr hst hsv hi =>
    h.versions hr (.inl (by rw [hst])) (by rw [hst]) hsv (fun h => .inl (hi ▸ h))
      (.inl ho)
  cases hseg with
  | failed e =>
    exact .aside rfl rfl rfl (.inl rfl) (.inl rfl) (.inl rfl)
      (fun snap r hf => absurd (Option.some.inj hf) (by simp)) (.inl rfl)
  | @resolveCtor snap => exact absurd hpc (hne snap)
  | inboxFailed | readInbox | replayInbox | settled =>
    exact .beside (beside_actStep hl hpc rfl hs)
  | loadSnapshot =>
    exact { hstill with
      origin := fun q hq => absurd hq (by simp [Host.origin, setActivating, ActPc.origin])
      fence := fun snap r hf => absurd (Option.some.inj hf) (by simp)
      loading := fun snap hl => .inr hl }
  | blank =>
    exact { hstill with
      inst := fun _ => .inr (hfrom rfl)
      origin := fun q hq => ⟨0, horigin, fun _ => (Option.some.inj hq).le⟩
      fence := fun snap r hf => absurd (Option.some.inj hf) (by simp)
      loading := fun snap hl => absurd hl (by simp [Host.loading, setActivating]) }
  | @migrates snap r =>
    unfold beginMigrate
    split
    · refine Tail.versions (t := s.loaded r snap)
        ⟨rfl, rfl, rfl, rfl, rfl, .noMigrate, rfl, rfl, .inr rfl⟩ rfl (.inl rfl)
        rfl rfl (fun _ => .inr (hfrom rfl)) (.inr ⟨snap.seq, horigin, fun _ => le_rfl⟩)
    · exact
        { running := rfl
          row := .inl rfl
          snapshots := fun p hp => .inl hp
          saves := fun sv hsv => by
            obtain hsv | hsv := List.mem_append.mp hsv
            · exact .inl ⟨sv, hsv, rfl, rfl⟩
            · rw [List.mem_singleton.mp hsv]
              exact .inr (.inl (by simp))
          inst := fun _ => .inr (hfrom rfl)
          origin := fun q hq => ⟨snap.seq, horigin, fun _ => (Option.some.inj hq).le⟩
          fence := fun snap r hf => absurd (Option.some.inj hf) (by simp)
          loading := fun snap hl => absurd hl (by simp [Host.loading, setActivating]) }
  | @loaded snap =>
    exact (Tail.beginReplay _ env).versions rfl (.inl rfl) rfl rfl
      (fun _ => .inr (hfrom rfl)) (.inr ⟨snap.seq, horigin, fun _ => le_rfl⟩)
  | registerEs | register =>
    exact (Tail.beginOnInit _ env).versions rfl (.inr ⟨hpc, _, rfl, rfl⟩) rfl rfl
      .inl (.inr ⟨0, horigin, id⟩)
  | onInit => exact htail ⟨rfl, rfl, rfl, rfl, rfl, _, rfl, rfl, .inr rfl⟩ rfl
  | initialized | noMigrate | audited => exact htail (.beginReplay s env) rfl
  | retained | behind => exact htail (.moved s rfl (.inr rfl)) rfl
  | migrated => exact versions_migrated hpc _
  | migrateFlushed => exact htail ⟨rfl, rfl, rfl, rfl, rfl, .audit, rfl, rfl, .inr rfl⟩ rfl
  | upToDate => exact htail (.beginOnActivate s env) rfl
  | replayed => exact versions_replay s
  | replayFlushed =>
    exact hread (.beginOnActivate s.afterFlush env) (origin_beginOnActivate _ env)
      rfl rfl rfl rfl
  | onActivate | activated =>
    exact hread (t := s) ⟨rfl, rfl, rfl, rfl, rfl, _, rfl, rfl, .inl rfl⟩ rfl rfl rfl rfl
      rfl

/-- **What a turn keeps versions in**: the version that runs, the row, and
what is handed to the driver. A turn decides on no version, and what it
flushes is of the one that runs. -/
structure Works (s s' : Sys S Env Op) : Prop where
  running : s'.host.runningVersion = s.host.runningVersion
  row : s'.store.row = s.store.row
  saves : s'.host.saves = s.host.saves ∨ s.host.inst ≠ none
    ∧ ∃ seq pc, s'.host.saves = s.host.saves ++ [⟨seq, s.host.runningVersion, pc⟩]

theorem works_commitEsTail (s : Sys S Env Op) (g : ℕ) (item : Item)
    (events : List Json) : Works s (s.commitEsTail cfg g item events) := by
  unfold commitEsTail
  dsimp only
  split
  · next hf =>
    have hi : s.host.inst ≠ none :=
      Option.isSome_iff_ne_none.mp (Bool.and_eq_true_iff.mp hf.2).2
    exact ⟨rfl, rfl, .inr ⟨hi, _, _, rfl⟩⟩
  · exact ⟨rfl, rfl, .inl rfl⟩

theorem works_workerStep {g : ℕ} {ok : Bool}
    (hs : s.workerStep cfg g env ok = some s') : Works s s' := by
  obtain ⟨pc, hpc, hseg⟩ := workerSegment hs
  cases hseg with
  | appended _ ha => exact ⟨rfl, (ActorStore.appendEvents_spec ha).2.2.1, .inl rfl⟩
  | @resolveEs method args c events seq x =>
    exact { works_commitEsTail ((s.afterFold events seq x).resolveCall
      (.call method args c) c (.arr events)) g _ events with }
  | @esAcked item id events =>
    exact { works_commitEsTail (s.afterAck id) g item events with }
  | ignored => cases ok <;> exact ⟨rfl, rfl, .inl rfl⟩
  | _ => exact ⟨rfl, rfl, .inl rfl⟩

/-- An activated host has read the log. -/
theorem origin_of_activated (hl : Lifecycle s.flow.toLife)
    (ha : s.host.activated = true) : s.host.origin = none := by
  unfold Host.origin
  cases hpc : s.host.activating with
  | none => rfl
  | some pc =>
    have ht := hl.through ha hpc
    cases pc <;> first | rfl | exact absurd ht (by simp [ActPc.through])

theorem loading_of_activated (hl : Lifecycle s.flow.toLife)
    (ha : s.host.activated = true) : s.host.loading = none := by
  unfold Host.loading
  cases hpc : s.host.activating with
  | none => rfl
  | some pc =>
    have ht := hl.through ha hpc
    cases pc <;> first | rfl | exact absurd ht (by simp [ActPc.through])

/-- A step of an activated host that is not one of its activation. -/
theorem versions_of_activated (hl : Lifecycle s.flow.toLife)
    (ha : s.host.activated = true) (hw : Works s s')
    (snapshots : s'.store.snapshots = s.store.snapshots)
    (inst : s'.host.inst = s.host.inst ∨ s'.host.inst = none)
    (activating : s'.host.activating = s.host.activating) : Versions s s' := by
  have ho := origin_of_activated hl ha
  have horigin : s'.host.origin = none := by
    unfold Host.origin at ho ⊢
    rw [activating]
    cases hpc : s.host.activating with
    | none => rfl
    | some pc =>
      have ht := hl.through ha hpc
      cases pc <;> first | rfl | exact absurd ht (by simp [ActPc.through])
  refine .aside hw.running hw.row snapshots hw.saves inst (.inl horigin)
    (fun snap r hf => activating ▸ hf) (.inl ?_)
  rw [← loading_of_activated hl ha]
  unfold Host.loading
  rw [activating]

theorem works_beginOnDeactivate (s : Sys S Env Op) (env : Env) (idle : Bool) :
    Works s (s.beginOnDeactivate env idle)
      ∧ ((s.beginOnDeactivate env idle).host.inst = s.host.inst
        ∨ (s.beginOnDeactivate env idle).host.inst = none) := by
  unfold beginOnDeactivate
  split
  · exact ⟨⟨rfl, rfl, .inl rfl⟩, .inl rfl⟩
  · exact ⟨⟨rfl, rfl, .inl rfl⟩, .inr rfl⟩

theorem works_deactStep (hs : s.deactStep env = some s') :
    Works s s' ∧ (s'.host.inst = s.host.inst ∨ s'.host.inst = none) := by
  obtain ⟨pc, idle, hd, hseg⟩ := deactSegment hs
  cases hseg with
  | flush _ hf =>
    have hi : s.host.inst ≠ none :=
      Option.isSome_iff_ne_none.mp (Bool.and_eq_true_iff.mp hf).2
    exact ⟨⟨rfl, rfl, .inr ⟨hi, _, _, rfl⟩⟩, .inl rfl⟩
  | unflushed =>
    have h := works_beginOnDeactivate
      { s with host := { s.host with snapshotTimer := false } } env idle
    exact ⟨{ h.1 with }, h.2⟩
  | flushed =>
    have h := works_beginOnDeactivate s.afterFlush env idle
    exact ⟨{ h.1 with }, h.2⟩
  | threw | dropped => exact ⟨⟨rfl, rfl, .inl rfl⟩, .inr rfl⟩
  | flushFailed | onDeactivate | settled => exact ⟨⟨rfl, rfl, .inl rfl⟩, .inl rfl⟩

/-- The driver moves on with a write. -/
theorem versions_saveStep {k : ℕ} {ok : Bool} (hs : s.saveStep k ok = some s') :
    Versions s s' := by
  have hset : ∀ {seq : ℤ} {version : Version} {pc pc' : SavePc S},
      s.host.saves[k]? = some ⟨seq, version, pc⟩ →
      ∀ w ∈ s.host.saves.set k ⟨seq, version, pc'⟩,
      ∃ w₀ ∈ s.host.saves, w₀.seq = w.seq ∧ w₀.version = w.version := by
    intro seq version pc pc' hk w hw
    obtain hw | rfl := List.mem_or_eq_of_mem_set hw
    · exact ⟨w, hw, rfl, rfl⟩
    · exact ⟨_, List.mem_of_getElem? hk, rfl, rfl⟩
  have h : Versions s s := .aside rfl rfl rfl (.inl rfl) (.inl rfl) (.inr rfl)
    (fun _ _ h => h) (.inr rfl)
  unfold saveStep at hs
  split at hs
  · next seq version obj hk =>
    split at hs <;> obtain rfl := Option.some.inj hs <;>
      exact { h with saves := fun w hw => .inl (hset hk w hw) }
  · next seq version x hk =>
    split at hs <;> obtain rfl := Option.some.inj hs
    · exact { h with
        saves := fun w hw => .inl (hset hk w hw)
        snapshots := fun p hp => by
          obtain hp | hp := List.mem_append.mp hp
          · exact .inl (List.mem_filter.mp hp).1
          · rw [List.mem_singleton.mp hp]
            exact .inr ⟨_, List.mem_of_getElem? hk, rfl, rfl⟩ }
    · exact { h with saves := fun w hw => .inl (hset hk w hw) }
  · exact absurd hs (by simp)

/-- **What every step does to versions that does not decide on one.** -/
theorem versions_step {a : Act Env} (hl : Lifecycle s.flow.toLife)
    (hf : Flushable s) (hs : s.step cfg a = some s')
    (hne : ∀ snap, s.host.activating = some (.resolveCtor snap) →
      ∀ env ok, a ≠ .activation env ok) : Versions s s' := by
  by_cases hb : a.beside = true
  · exact .beside (beside_step hl hb hs)
  have hattach : ∀ t : Sys S Env Op, t = s' → t.store = s.store →
      t.host.runningVersion = s.host.runningVersion → t.host.saves = s.host.saves →
      t.host.inst = s.host.inst → t.host.activating = s.host.activating →
      t.host.currentSeq = s.host.currentSeq → Versions s s' := by
    rintro t rfl hst hr hsv hi ha hseq
    refine .aside hr (by rw [hst]) (by rw [hst]) (.inl hsv) (.inl hi) (.inr ?_)
      (fun snap r h => ha ▸ h) (.inr ?_)
    · rw [Host.origin, Host.origin, ha, hseq]
    · unfold Host.loading
      rw [ha]
  cases a with
  | activation env ok =>
    exact versions_actStep hl hs (fun snap hpc => hne snap hpc env ok rfl)
  | worker g env ok =>
    have ht := turnPart_workerStep hs
    have ha : s.host.activated = true := (hl.alive g (alive_of_workerStep hs)).1
    exact versions_of_activated hl ha (works_workerStep hs)
      (writes_workerStep hs).snapshots (.inl ht.inst) ht.activating
  | deactivation env =>
    obtain ⟨hw, hi⟩ := works_deactStep hs
    obtain ⟨pc, idle, hd, -⟩ := deactSegment hs
    exact versions_of_activated hl (hl.activated_of_deact hd) hw (by rw [store_deactStep hs]) hi
      (ends_deactStep hs).activating
  | snapshotFire =>
    rw [step, snapshotFire] at hs
    split at hs
    · next ht =>
      dsimp only at hs
      have ha := (hf.timer ht).1
      split at hs <;> obtain rfl := Option.some.inj hs
      · next hfl =>
        have hi : s.host.inst ≠ none :=
          Option.isSome_iff_ne_none.mp (Bool.and_eq_true_iff.mp hfl).2
        exact versions_of_activated hl ha ⟨rfl, rfl, .inr ⟨hi, _, _, rfl⟩⟩ rfl
          (.inl rfl) rfl
      · exact versions_of_activated hl ha ⟨rfl, rfl, .inl rfl⟩ rfl (.inl rfl) rfl
    · exact absurd hs (by simp)
  | save k ok => exact versions_saveStep hs
  | subscribe l =>
    rw [step, subscribe] at hs
    split at hs
    · exact absurd hs (by simp)
    · exact hattach _ (Option.some.inj hs) rfl rfl rfl rfl rfl rfl
  | unsubscribe l => exact hattach _ (Option.some.inj hs) rfl rfl rfl rfl rfl rfl
  | notifyTombstone => exact hattach _ (Option.some.inj hs) rfl rfl rfl rfl rfl rfl
  | _ => exact absurd rfl hb

end Sys

/-! ## Deciding on a version

The one step that matters. Under the condition, what `resolveCtor` returns is
not older than the snapshot, the row or any event after it. -/

namespace HostConfig

variable {cfg : HostConfig S Env Op} {ok : Bool} {r : Resolved S Env}

theorem resolveCtor_none (h : cfg.resolveCtor none ok = .ok r) :
    r.runningVersion = cfg.registration.version := by
  obtain rfl := Except.ok.inj h
  rfl

/-- A floating actor runs the registered version, any other that of its
snapshot, and neither if that is the newer one. -/
theorem resolveCtor_some {p : Version} (h : cfg.resolveCtor (some p) ok = .ok r) :
    r.runningVersion
        = (if cfg.registration.floating = true then cfg.registration.version else p)
      ∧ (p = cfg.registration.version
        ∨ cfg.gt p cfg.registration.version = false) := by
  unfold resolveCtor at h
  dsimp only at h
  by_cases hp : p = cfg.registration.version
  · rw [if_pos hp] at h
    obtain rfl := Except.ok.inj h
    exact ⟨by rw [hp, ite_self], .inl hp⟩
  rw [if_neg hp] at h
  by_cases hgt : cfg.gt p cfg.registration.version = true
  · rw [if_pos hgt] at h
    cases h
  rw [if_neg hgt] at h
  refine ⟨?_, .inr (Bool.eq_false_iff.mpr hgt)⟩
  by_cases hfl : cfg.registration.floating = true
  · rw [if_pos hfl] at h ⊢
    obtain rfl := Except.ok.inj h
    rfl
  rw [if_neg hfl] at h ⊢
  cases hload : cfg.loader with
  | none => rw [hload] at h; cases h
  | some load =>
    rw [hload] at h
    dsimp only at h
    split at h
    · cases hc : load cfg.registration.name p with
      | error e => rw [hc] at h; cases h
      | ok c =>
        rw [hc] at h
        obtain rfl := Except.ok.inj h
        rfl
    · cases h

/-- A snapshot of a newer version than the registered one is refused. -/
theorem resolveCtor_regression {p : Version}
    (hgt : cfg.gt p cfg.registration.version = true)
    (hne : p ≠ cfg.registration.version) :
    cfg.resolveCtor (some p) ok
      = .error (.manifestRegression cfg.id cfg.registration.name p
          cfg.registration.version) := by
  unfold resolveCtor
  dsimp only
  rw [if_neg hne, if_pos hgt]

end HostConfig

namespace Upgrades

variable {u u' : Upgrades S Env Op}

/-- **The condition on a decision**: an actor of a class that never floated has,
if it has no snapshot, at most a row of the registered version. And no event
since the snapshot was emitted by a version newer than the one the actor is due
to run. -/
def decides (u : Upgrades S Env Op) : Option (SnapshotRead S) → Bool
  | none =>
    (u.floated || u.sys.store.row.all (fun row => row.version == u.registered))
      && u.emitters.all (fun w => !u.cfg.gt w u.registered)
  | some snap =>
    u.cfg.gt snap.version u.registered
      || (u.emitters.drop snap.seq.toNat).all (fun w => !u.cfg.gt w
          (if u.cfg.registration.floating then u.registered else snap.version))

/-- The condition on a step. -/
def keepsVersion (u : Upgrades S Env Op) : Upgrade S Env → Bool
  | .act (.activation _ _) =>
    match u.sys.host.activating with
    | some (.resolveCtor snap) => u.decides snap
    | _ => true
  | _ => true

/-- **Versions are sticky.** The three parts of the claim: which version runs,
what it runs on, and what becomes of an activation that would run an older
one. -/
structure Sticky (u : Upgrades S Env Op) : Prop where
  /-- An actor of a class that never floated runs the version it was created
  by. -/
  sticky : u.floated = false → u.sys.host.inst ≠ none →
    ∀ v, u.created = some v → u.running = v
  /-- What the instance was made of was not written by a newer version. -/
  newest : ∀ w ∈ u.sources, u.cfg.gt w u.running = false
  /-- An activation that finds a snapshot of a newer version fails. -/
  regression : ∀ (snap : SnapshotRead S) (env : Env) (ok : Bool),
    u.sys.host.activating = some (.resolveCtor (some snap)) →
    u.cfg.gt snap.version u.registered = true →
    ∃ s, u.sys.step u.cfg (.activation env ok) = some s
      ∧ s.host.activating = some (.finishing (.error (.manifestRegression u.cfg.id
          u.cfg.registration.name snap.version u.registered)))

/-- **What holds of every reachable state.**

The first fields are about an actor whose class has never floated: its row,
its live snapshots, what is on the way to storage and what runs are all of the
version it was created by. The others hold of every actor: what is run is not
older than anything it was made of, or is going to be made of. -/
structure Versioned (u : Upgrades S Env Op) : Prop where
  stays : u.floated = false → u.cfg.registration.floating = false
  created : u.floated = false → u.created = u.sys.store.row.map ActorRow.version
  live : u.floated = false → ∀ p ∈ u.sys.store.snapshots, 0 ≤ p.fst →
    u.created = some p.snd.classVersion
  saves : u.floated = false → ∀ sv ∈ u.sys.host.saves, 0 ≤ sv.seq →
    u.created = some sv.version
  loaded : u.floated = false → ∀ snap, u.sys.host.loading = some snap →
    u.created = some snap.version
  runs : u.floated = false → u.sys.host.inst ≠ none ∨ u.sys.host.origin ≠ none →
    ∀ v, u.created = some v → u.running = v
  /-- Nothing the state was made of was written by a newer version. -/
  sources : ∀ w ∈ u.sources, u.cfg.gt w u.running = false
  fence : ∀ snap r, u.sys.host.activating = some (.loadFence (some snap) r) →
    u.cfg.gt snap.version u.running = false
  /-- Nor was anything in the log that is still to be read. -/
  ahead : ∀ q, u.sys.host.origin = some q →
    ∀ w ∈ u.emitters.drop q.toNat, u.cfg.gt w u.running = false
  /-- Every event in the log has the code that emitted it on record. -/
  counted : u.emitters.length = u.sys.store.events.length

/-- The log is recorded event by event. -/
theorem length_emitters_record {a : Act Env} {s : Sys S Env Op}
    (h : u.emitters.length = u.sys.store.events.length)
    (hs : u.sys.step u.cfg a = some s) :
    (u.record a s).emitters.length = s.store.events.length := by
  obtain ⟨new, hnew⟩ := Sys.log_step hs
  show (u.emitters ++ _).length = _
  rw [List.length_append, List.length_replicate, h, hnew, List.length_append,
    Nat.add_sub_cancel_left]

/-- What is recorded of the emitters after a place in the log. -/
theorem mem_drop_record {a : Act Env} {s : Sys S Env Op} {n m : ℕ} (hnm : n ≤ m)
    {w : Version} (hw : w ∈ (u.record a s).emitters.drop m) :
    w ∈ u.emitters.drop n ∨ w = u.running := by
  have hw : w ∈ (u.emitters ++ List.replicate
      (s.store.events.length - u.sys.store.events.length) u.running).drop m := hw
  rw [List.drop_append] at hw
  obtain hw | hw := List.mem_append.mp hw
  · refine .inl ?_
    obtain ⟨k, rfl⟩ := Nat.exists_eq_add_of_le hnm
    rw [← List.drop_drop] at hw
    exact List.mem_of_mem_drop hw
  · exact .inr (List.eq_of_mem_replicate (List.mem_of_mem_drop hw))

/-- The log is read from where the snapshot was taken. -/
theorem origin_of_reading {a : Act Env} {p : ℤ × EventRow} (hp : p ∈ u.reading a) :
    u.sys.host.origin = some u.sys.host.currentSeq := by
  unfold reading at hp
  split at hp
  · next hpc =>
    rw [Host.origin, hpc]
    rfl
  · exact absurd hp List.not_mem_nil

/-- The emitter of a record that is read is one of those after the seq from which
the log is read. -/
theorem emitter_mem (h : u.emitters.length = u.sys.store.events.length)
    {a : Act Env} {p : ℤ × EventRow} (hp : p ∈ u.reading a) :
    u.emitter p.fst ∈ u.emitters.drop u.sys.host.currentSeq.toNat := by
  have hget := getElem?_of_mem_reading hp
  obtain ⟨hlt, -⟩ := List.getElem?_eq_some_iff.mp hget
  have hge : u.sys.host.currentSeq.toNat ≤ (p.fst - 1).toNat := by
    have hp := mem_readEvents_of_mem_reading hp
    rw [ActorStore.readEvents] at hp
    split at hp
    · exact absurd hp List.not_mem_nil
    · have := of_decide_eq_true (List.mem_filter.mp hp).2
      omega
  rw [← h] at hlt
  unfold emitter
  rw [List.getD_eq_getElem?_getD, List.getElem?_eq_getElem hlt, Option.getD_some]
  refine List.mem_of_getElem? (i := (p.fst - 1).toNat - u.sys.host.currentSeq.toNat) ?_
  rw [List.getElem?_drop, Nat.add_sub_cancel' hge, List.getElem?_eq_getElem hlt]

namespace Versioned

/-- An actor that storage has never heard of. -/
theorem init (cfg : HostConfig S Env Op) : (Upgrades.init cfg).Versioned where
  stays h := h
  created _ := rfl
  live _ p hp := absurd hp List.not_mem_nil
  saves _ sv hsv := absurd hsv List.not_mem_nil
  loaded _ snap h := absurd h (by simp [Upgrades.init, Sys.init, Host.init, Host.loading])
  runs _ _ v h := absurd h (by simp [Upgrades.init])
  sources w hw := absurd hw List.not_mem_nil
  fence snap r h := absurd h (by simp [Upgrades.init, Sys.init, Host.init])
  ahead q h := absurd h (by simp [Upgrades.init, Sys.init, Host.init, Host.origin])
  counted := rfl

theorem restart (h : u.Versioned) (registration : Registration S Env) :
    (u.restart registration).Versioned where
  stays hf := (Bool.or_eq_false_iff.mp hf).2
  created hf := h.created (Bool.or_eq_false_iff.mp hf).1
  live hf := h.live (Bool.or_eq_false_iff.mp hf).1
  saves _ sv hsv := absurd hsv List.not_mem_nil
  loaded _ snap h := absurd h (by simp [Upgrades.restart, Sys.init, Host.init, Host.loading])
  runs _ ho v h := absurd ho
    (by simp [Upgrades.restart, Sys.init, Host.init, Host.origin])
  sources w hw := absurd hw List.not_mem_nil
  fence snap r h := absurd h (by simp [Upgrades.restart, Sys.init, Host.init])
  ahead q h := absurd h (by simp [Upgrades.restart, Sys.init, Host.init, Host.origin])
  counted := h.counted

/-- Once the actor was created, it stays created by that version. -/
theorem created_record (h : u.Versioned) (hf : u.floated = false) {a : Act Env}
    {s : Sys S Env Op} {v : Version} (hv : u.created = some v) :
    (u.record a s).created = some v := by
  have hrow := (h.created hf).symm.trans hv
  obtain ⟨row, hr, -⟩ := Option.map_eq_some_iff.mp hrow
  rw [created_record_eq, hr]
  exact hv

/-- **A step that does not decide on a version.** -/
theorem of_versions (h : u.Versioned) {a : Act Env} {s : Sys S Env Op}
    (hs : u.sys.step u.cfg a = some s) (hv : Versions u.sys s) (hf' : Flushable s)
    (hgt : ∀ v, u.cfg.gt v v = false)
    (hsrc : ∀ w ∈ u.sourcesAfter a, u.cfg.gt w u.running = false) :
    (u.record a s).Versioned := by
  have hrun : (u.record a s).running = u.running := hv.running
  -- the row has the version the actor was created by
  have hcreated : u.floated = false →
      (u.record a s).created = s.store.row.map ActorRow.version := by
    intro hf
    rw [created_record_eq]
    have hc := h.created hf
    obtain he | ⟨hreg, row, hrow, hver⟩ := hv.row
    · rw [he]
      cases hr : u.sys.store.row with
      | none => rfl
      | some row => rw [hr] at hc; exact hc
    · rw [hrow]
      have horigin : u.sys.host.origin ≠ none := by
        rw [Host.origin, hreg]
        exact Option.some_ne_none _
      cases hr : u.sys.store.row with
      | none => exact congrArg some hver.symm
      | some row₀ =>
        rw [hr] at hc
        refine hc.trans (congrArg some ?_)
        rw [hver]
        exact (h.runs hf (.inr horigin) _ hc).symm
  have hruns : u.floated = false →
      u.sys.host.inst ≠ none ∨ u.sys.host.origin ≠ none →
      ∀ v, (u.record a s).created = some v → u.running = v := by
    intro hf hi v hc
    cases hr : u.sys.store.row with
    | some row =>
      have hold := (h.created hf).trans (by rw [hr, Option.map_some])
      rw [h.created_record hf hold] at hc
      exact h.runs hf hi v (hold.trans hc)
    | none =>
      rw [created_record_eq, hr] at hc
      obtain ⟨-, -, he⟩ := Option.map_eq_some_iff.mp hc
      exact he
  exact
    { stays := h.stays
      created := hcreated
      live := fun hf p hp h0 => by
        obtain hp | ⟨sv, hsv, hseq, hver⟩ := hv.snapshots p hp
        · exact h.created_record hf (h.live hf p hp h0)
        · rw [← hver]
          exact h.created_record hf (h.saves hf sv hsv (hseq ▸ h0))
      saves := fun hf sv hsv h0 => by
        obtain ⟨sv₀, hsv₀, hseq, hver⟩ | hneg | ⟨hi, hver⟩ := hv.saves sv hsv
        · rw [← hver]
          exact h.created_record hf (h.saves hf sv₀ hsv₀ (hseq ▸ h0))
        · exact absurd h0 (not_le.mpr hneg)
        · have hrow : s.store.row ≠ none :=
            hf'.row (.inr (.inr (.inl (List.ne_nil_of_mem hsv))))
          obtain ⟨row, hrow⟩ := Option.ne_none_iff_exists'.mp hrow
          have hc := (hcreated hf).trans (by rw [hrow, Option.map_some])
          rw [hver]
          exact hc.trans (congrArg some (hruns hf (.inl hi) _ hc).symm)
      loaded := fun hf snap hl => by
        obtain hl | hl := hv.loading snap hl
        · exact h.created_record hf (h.loaded hf snap hl)
        · obtain ⟨p, hp, h0, hver, -⟩ := ActorStore.mem_of_loadSnapshot hl
          rw [← hver]
          exact h.created_record hf (h.live hf p hp h0)
      runs := fun hf hi v hc => by
        rw [hrun]
        refine hruns hf ?_ v hc
        obtain hi | ho := hi
        · exact hv.inst hi
        · obtain ⟨q', hq'⟩ := Option.ne_none_iff_exists'.mp ho
          obtain ⟨q, hq, -⟩ := hv.origin q' hq'
          exact .inr (by rw [hq]; simp)
      sources := fun w hw => by rw [hrun]; exact hsrc w hw
      fence := fun snap r hp => by
        rw [hrun]
        exact h.fence snap r (hv.fence (some snap) r hp)
      ahead := fun q' hq' w hw => by
        rw [hrun]
        obtain ⟨q, hq, hle⟩ := hv.origin q' hq'
        obtain hw | rfl := mem_drop_record (Int.toNat_le_toNat (hle hf'.seq)) hw
        · exact h.ahead q hq w hw
        · exact hgt _
      counted := length_emitters_record h.counted hs }

/-- What the instance is made of, after a step that does not decide. -/
theorem sources_step (h : u.Versioned) (a : Act Env) :
    ∀ w ∈ u.sourcesAfter a, u.cfg.gt w u.running = false := by
  have hread : ∀ w ∈ u.sources ++ (u.reading a).map (fun p => u.emitter p.fst),
      u.cfg.gt w u.running = false := by
    intro w hw
    obtain hw | hw := List.mem_append.mp hw
    · exact h.sources w hw
    · obtain ⟨p, hp, rfl⟩ := List.mem_map.mp hw
      refine h.ahead u.sys.host.currentSeq ?_ _ (emitter_mem h.counted hp)
      exact origin_of_reading hp
  unfold sourcesAfter
  split
  · exact fun w hw => absurd hw List.not_mem_nil
  · next snap r env hpc =>
    intro w hw
    cases snap with
    | none => exact absurd hw List.not_mem_nil
    | some snap =>
      obtain rfl := List.mem_singleton.mp hw
      exact h.fence snap r hpc
  · exact hread

/-- **The step that decides on a version**, if it does. -/
theorem of_decided (h : u.Versioned) {snap : Option (SnapshotRead S)} {env : Env}
    {ok : Bool} {r : Resolved S Env} (hgt : ∀ v, u.cfg.gt v v = false)
    (hpc : u.sys.host.activating = some (.resolveCtor snap))
    (hr : u.cfg.resolveCtor (snap.map SnapshotRead.version) ok = .ok r)
    (hd : u.decides snap = true) :
    (u.record (.activation env ok) ({ u.sys with
      host := { u.sys.host with runningVersion := r.runningVersion } }.setActivating
        (.loadFence snap r))).Versioned := by
  generalize ha : Act.activation env ok = a
  generalize hs : ({ u.sys with
    host := { u.sys.host with runningVersion := r.runningVersion } }.setActivating
      (.loadFence snap r) : Sys S Env Op) = s
  have hstore : s.store = u.sys.store := by rw [← hs]; rfl
  have hrun : (u.record a s).running = r.runningVersion := by rw [← hs]; rfl
  have hactivating : s.host.activating = some (.loadFence snap r) := by rw [← hs]; rfl
  have hsaves : s.host.saves = u.sys.host.saves := by rw [← hs]; rfl
  have hsources : (u.record a s).sources = [] := by
    show u.sourcesAfter a = []
    unfold sourcesAfter
    rw [hpc, ← ha]
  have hemitters : (u.record a s).emitters = u.emitters := by
    show u.emitters ++ _ = _
    rw [hstore, Nat.sub_self, List.replicate_zero, List.append_nil]
  have hcreated : u.floated = false → (u.record a s).created = u.created := by
    intro hf
    rw [created_record_eq]
    have hc := h.created hf
    rw [hstore]
    cases hrow : u.sys.store.row with
    | none => rw [hrow] at hc; exact hc.symm
    | some row => rfl
  have hloading : ∀ snap', s.host.loading = some snap' →
      u.sys.host.loading = some snap' := by
    intro snap' hl
    unfold Host.loading at hl ⊢
    rw [hactivating] at hl
    rw [hpc]
    exact hl
  -- what it is due to run
  have hdue : ∀ w ∈ u.emitters.drop ((snap.map SnapshotRead.seq).getD 0).toNat,
      u.cfg.gt w r.runningVersion = false := by
    cases snap with
    | none =>
      rw [HostConfig.resolveCtor_none hr]
      intro w hw
      have hall := List.all_eq_true.mp (Bool.and_eq_true_iff.mp hd).2 w
        (List.mem_of_mem_drop hw)
      exact (Bool.not_eq_true' _).mp hall
    | some snap =>
      obtain ⟨hver, hp⟩ := HostConfig.resolveCtor_some hr
      have hnot : u.cfg.gt snap.version u.registered = false :=
        hp.elim (fun he => by rw [he]; exact hgt _) id
      intro w hw
      have hall := (Bool.or_eq_true_iff.mp hd).resolve_left (by rw [hnot]; simp)
      rw [hver]
      exact (Bool.not_eq_true' _).mp (List.all_eq_true.mp hall w hw)
  have hfence : ∀ snap', snap = some snap' →
      u.cfg.gt snap'.version r.runningVersion = false := by
    rintro snap' rfl
    obtain ⟨hver, hp⟩ := HostConfig.resolveCtor_some hr
    rw [hver]
    split
    · exact hp.elim (fun he => by rw [he]; exact hgt _) id
    · exact hgt _
  exact
    { stays := h.stays
      created := fun hf => by
        rw [hcreated hf]
        show _ = s.store.row.map _
        rw [hstore]
        exact h.created hf
      live := fun hf p hp h0 => by
        rw [hcreated hf]
        exact h.live hf p (hstore ▸ hp) h0
      saves := fun hf sv hsv h0 => by
        rw [hcreated hf]
        exact h.saves hf sv (hsaves ▸ hsv) h0
      loaded := fun hf snap' hl => by
        rw [hcreated hf]
        exact h.loaded hf snap' (hloading snap' hl)
      runs := fun hf _ v hc => by
        rw [hcreated hf] at hc
        rw [hrun]
        cases snap with
        | none =>
          obtain ⟨row, hrow, hv⟩ :=
            Option.map_eq_some_iff.mp ((h.created hf).symm.trans hc)
          have hf : u.floated = false := hf
          have hreg := (Bool.and_eq_true_iff.mp hd).1
          rw [hf, Bool.false_or, hrow] at hreg
          rw [HostConfig.resolveCtor_none hr, ← hv]
          exact (beq_iff_eq.mp hreg).symm
        | some snap =>
          have hl : u.sys.host.loading = some snap := by
            unfold Host.loading
            rw [hpc]
          have hv := Option.some.inj ((h.loaded hf snap hl).symm.trans hc)
          rw [(HostConfig.resolveCtor_some hr).1, if_neg (by rw [h.stays hf]; simp), hv]
      sources := fun w hw => absurd hw (by rw [hsources]; exact List.not_mem_nil)
      fence := fun snap' r' hp => by
        rw [hrun]
        obtain ⟨rfl, -⟩ := ActPc.loadFence.inj (Option.some.inj (hactivating.symm.trans hp))
        exact hfence snap' rfl
      ahead := fun q hq w hw => by
        rw [hrun]
        rw [hemitters] at hw
        refine hdue w ?_
        have hq : s.host.activating.bind (ActPc.origin s.host.currentSeq) = some q := hq
        rw [hactivating] at hq
        cases snap with
        | none => rw [← Option.some.inj hq] at hw; exact hw
        | some snap => rw [← Option.some.inj hq] at hw; exact hw
      counted := by
        rw [hemitters]
        show _ = s.store.events.length
        rw [hstore]
        exact h.counted }

/-- **One step.** -/
theorem step {x : Upgrade S Env} (h : u.Versioned) (hl : Lifecycle u.sys.flow.toLife)
    (hf : Flushable u.sys) (hgt : ∀ v, u.cfg.gt v v = false)
    (hG : u.keepsVersion x = true) (hs : u.step x = some u') : u'.Versioned := by
  obtain ⟨a, s, rfl, hs', rfl⟩ | ⟨registration, rfl, rfl⟩ := step_cases hs
  · have hf' := hf.step hl hs'
    by_cases hd : ∃ snap env ok, u.sys.host.activating = some (.resolveCtor snap)
        ∧ a = .activation env ok
    · obtain ⟨snap, env, ok, hpc, rfl⟩ := hd
      have hdec : u.decides snap = true := by
        simpa only [keepsVersion, hpc] using hG
      have hact : u.sys.actStep u.cfg env ok = some s := hs'
      simp only [Sys.actStep, hpc] at hact
      split at hact
      · next e he =>
        obtain rfl := Option.some.inj hact
        refine h.of_versions hs' (.aside rfl rfl rfl (.inl rfl) (.inl rfl) (.inl rfl)
          (fun snap r hf => absurd (Option.some.inj hf) (by simp)) (.inl rfl)) hf' hgt
          (h.sources_step _)
      · next r hr =>
        obtain rfl := Option.some.inj hact
        exact h.of_decided hgt hpc hr hdec
    · exact h.of_versions hs' (Sys.versions_step hl hf hs'
        (fun snap hpc env ok ha => hd ⟨snap, env, ok, hpc, ha⟩)) hf' hgt (h.sources_step a)
  · exact h.restart registration

/-- What the invariant is for. -/
theorem sticky (h : u.Versioned) (hgt : ∀ v, u.cfg.gt v v = false) : u.Sticky where
  sticky hf hi := h.runs hf (.inl hi)
  newest := h.sources
  regression snap env ok hpc hnew := by
    have hne : snap.version ≠ u.registered := by
      intro he
      rw [he, hgt] at hnew
      cases hnew
    have herr : u.cfg.resolveCtor (Option.map SnapshotRead.version (some snap)) ok
        = .error _ := HostConfig.resolveCtor_regression hnew hne
    refine ⟨u.sys.activationFailed (.manifestRegression u.cfg.id
      u.cfg.registration.name snap.version u.registered), ?_, rfl⟩
    show u.sys.actStep u.cfg env ok = _
    unfold Sys.actStep
    rw [hpc]
    dsimp only
    rw [herr]
    rfl

end Versioned

/-- **Versions are sticky**, in every history of crashes and restarts in which an
actor that has a row and no snapshot is activated only under the version of the
row, and none is activated that has logged events of a newer version than it is
due to run. -/
theorem sticky_versions (cfg : HostConfig S Env Op) (hgt : ∀ v, cfg.gt v v = false)
    {xs : List (Upgrade S Env)}
    (hG : TransitionSystem.Along step (fun u x => u.keepsVersion x = true)
      (init cfg) xs)
    (hrun : TransitionSystem.run step (init cfg) xs = some u) : u.Sticky := by
  have h := TransitionSystem.run_invariant step
    (P := fun u => Lifecycle u.sys.flow.toLife ∧ Flushable u.sys
      ∧ (∀ v, u.cfg.gt v v = false) ∧ u.Versioned)
    (fun u x u' h hG hs => by
      obtain ⟨hl, hf, hgt, hv⟩ := h
      refine ⟨lifecycle_step hl hs, ?_, ?_, hv.step hl hf hgt hG hs⟩
      · obtain ⟨a, s, rfl, hs', rfl⟩ | ⟨registration, rfl, rfl⟩ := step_cases hs
        · exact hf.step hl hs'
        · exact .init _ _
      · obtain ⟨a, s, rfl, hs', rfl⟩ | ⟨registration, rfl, rfl⟩ := step_cases hs
        · exact hgt
        · exact hgt)
    ⟨.init cfg .empty, .init cfg .empty, hgt, .init cfg⟩ hG hrun
  exact h.2.2.2.sticky h.2.2.1

end Upgrades

namespace Tally

/-- No version is newer than itself. -/
theorem gt_self (floating : Bool) (n : ℕ) (v : Version) :
    (cfg floating n).gt v v = false := by
  refine decide_eq_false ?_
  rintro ⟨rfl, h⟩
  exact absurd h (by decide)

end Tally

namespace Upgrades

open Tally

/-- The theorem applies to an actor with a snapshot, which runs on at its version
when a newer one is registered. -/
theorem sticky_versions_snapshot :
    ∃ u, TransitionSystem.run step (init (Tally.cfg false 1))
        (activating 8 ++ adding 0
          ++ [.act (.save 0 true), .act (.save 0 true),
            .restart (registration "2.0.0" false 1)] ++ activating 7) = some u
      ∧ u.registered = "2.0.0" ∧ u.running = "1.0.0" ∧ u.Sticky := by
  have hrun : (TransitionSystem.run step (init (Tally.cfg false 1))
      (activating 8 ++ adding 0
        ++ [.act (.save 0 true), .act (.save 0 true),
          .restart (registration "2.0.0" false 1)] ++ activating 7)).any
      (fun u => u.registered == "2.0.0" && u.running == "1.0.0") = true := by decide
  obtain ⟨u, hu, hv⟩ := (Option.any_eq_true _ _).mp hrun
  obtain ⟨hreg, hv⟩ := Bool.and_eq_true_iff.mp hv
  exact ⟨u, hu, beq_iff_eq.mp hreg, beq_iff_eq.mp hv,
    sticky_versions (Tally.cfg false 1) (gt_self false 1) (by decide) hu⟩

/-- **An actor that has no snapshot yet does not stick**: its row is of the first
version, and it runs the second. -/
theorem not_sticky_versions :
    ¬∀ (xs : List (Upgrade ℕ Unit)) (u : Upgrades ℕ Unit Unit),
      TransitionSystem.run step (init (Tally.cfg false 1)) xs = some u →
      u.Sticky := by
  intro h
  have hrun : (TransitionSystem.run step (init (Tally.cfg false 1))
      (activating 8 ++ [.restart (registration "2.0.0" false 1)]
        ++ activating 8)).any
      (fun u => u.floated == false && u.sys.host.inst == some 1
        && u.created == some "1.0.0" && u.running == "2.0.0") = true := by decide
  obtain ⟨u, hu, hv⟩ := (Option.any_eq_true _ _).mp hrun
  simp only [Bool.and_eq_true, beq_iff_eq] at hv
  obtain ⟨⟨⟨hf, hi⟩, hc⟩, hr⟩ := hv
  have hsame := (h _ u hu).sticky hf (by rw [hi]; simp) _ hc
  exact absurd (hr.symm.trans hsame) (by decide)

end Upgrades
