import Actjs.SnapshotSteps

/-!
# Torn snapshots, driver by driver

What a snapshot that is written holds depends on when the driver encodes the
object that it is given, and on how often. The hosts of the other modules write
through a driver that encodes it once. Neither of the two drivers does, and here
each of them stands beside a host as it is.

## The ValkeyPg driver

`saveSnapshot` reads the fence token, and encodes the object; it inserts the row,
touches the row of the actor, looks up its class – and encodes the object again,
for the cached snapshot, which `loadSnapshot` reads before it reads the table. So
the write refers to the object until the second encoding, three statements after
the first, and the row and the cached snapshot of one save may be of two states.

## The memory driver

`saveSnapshot` keeps the object itself, and `loadSnapshot` returns it: what is
stored reads what the object reads, from the save on and until another save
replaces it. An instance that was loaded goes on with the object in the slot. A
state that was saved is therefore torn during every turn that mutates it and
awaits, however long ago it was saved, and nothing but a new object ends that.

The condition is one for both, `Sys.keepsSnapshots`, over what each of them has of
the states it was given; what differs is what that is (`PgHost.held`,
`MemoryHost.held`).
-/

open Function (update)

variable {S Env Op : Type}

/-! ## What the drivers share -/

namespace Sys

/-- The step is one of the driver's: a snapshot write, or a load that succeeds. -/
def storageStep (s : Sys S Env Op) : Act Env → Bool
  | .save _ _ => true
  | .activation _ ok =>
    match s.host.activating with
    | some .loadSnapshot => ok
    | _ => false
  | _ => false

variable {s : Sys S Env Op}

theorem not_save_of_storageStep {a : Act Env} (h : s.storageStep a = false) (k : ℕ)
    (ok : Bool) : a ≠ .save k ok := by
  rintro rfl
  exact absurd h (by simp [storageStep])

/-- What a load has found does not show in the flow of the host. -/
theorem flow_resolveCtor (h : s.host.activating = some .loadSnapshot)
    (snap : Option (SnapshotRead S)) :
    (s.setActivating (.resolveCtor snap)).flow = s.flow := by
  have hphase : (s.setActivating (.resolveCtor snap)).flow.phase = s.flow.phase :=
    (Sys.flow_phase h).symm
  have hrest : (s.setActivating (.resolveCtor snap)).flow
      = { s.flow with phase := (s.setActivating (.resolveCtor snap)).flow.phase } := rfl
  rw [hrest, hphase]

end Sys

namespace Snapshots

variable {old : List S} {held : Holdings S} {s : Sys S Env Op}

/-- A row is written. -/
theorem saveSnapshot (h : Snapshots old held s) (seq : ℤ) (version : Version) {x : S}
    (hx : s.Settled old x) :
    Snapshots old held { s with store := s.store.saveSnapshot seq version x } := by
  refine ⟨⟨h.kept.encode, h.kept.holds, h.kept.has, fun p hp => ?_, h.kept.sent⟩,
    h.opening, fun ha hq => h.serving ha ⟨hq.worker, hq.deactivation⟩⟩
  rcases List.mem_append.mp hp with hp | hp
  · exact h.kept.written p (List.mem_of_mem_filter hp)
  · obtain rfl := List.mem_singleton.mp hp
    exact hx

/-- A host that has not begun. -/
theorem of_init (hsaves : s.host.saves = []) (hact : s.host.activating = none)
    (ha : s.host.activated = false) (hn : s.hist.notifs = fun _ => [])
    (hholds : ∀ obj ∈ held.objs, obj < s.host.objs.next ∧ s.Settled old (s.host.objs.val obj))
    (hhas : ∀ x, held.states x → s.Settled old x)
    (hwritten : ∀ p ∈ s.store.snapshots, s.Settled old p.2.state) :
    Snapshots old held s where
  kept := by
    refine ⟨fun sv hsv => absurd hsv ?_, hholds, hhas, hwritten,
      fun l data seq hm => absurd hm ?_⟩
    · rw [hsaves]
      exact List.not_mem_nil
    · rw [hn]
      exact List.not_mem_nil
  opening pc hpc := absurd hpc (by rw [hact]; simp)
  serving ha' := absurd ha' (by rw [ha]; simp)

end Snapshots

/-! ## The ValkeyPg driver -/

/-- **Where a `saveSnapshot` is**: the statement or command it is about to execute. -/
inductive PgSavePc (S : Type) where
  /-- `assertFence`. -/
  | fence
  | insert (encoded : S)
  | touch
  | lookupClass
  | set (cached : SnapshotRead S)

/-- Where a `loadSnapshot` is. -/
inductive PgLoadPc (S : Type) where
  | get
  | select
  | fill (snap : SnapshotRead S)

/-- **A host beside the ValkeyPg driver.** The table is that of the store; a write is
named as the host names it. -/
structure PgHost (S Env Op : Type) where
  sys : Sys S Env Op
  /-- The cached snapshot. -/
  hot : Option (SnapshotRead S)
  saving : ℕ → PgSavePc S
  loading : PgLoadPc S

/-- **What can happen to it.** -/
inductive PgHostAct (Env : Type) where
  | host (a : Act Env)
  | load
  /-- Write `k` executes its statement, which may fail. -/
  | save (k : ℕ) (ok : Bool)
  /-- The cached snapshot expires, or is deleted. -/
  | expire

namespace PgHost

/-- A new host, where the cache may still have a snapshot. -/
def init (cfg : HostConfig S Env Op) (store : ActorStore S) (hot : Option (SnapshotRead S)) :
    PgHost S Env Op :=
  ⟨.init cfg store, hot, fun _ => .fence, .get⟩

/-- Move write `k`. -/
def setSaving (p : PgHost S Env Op) (k : ℕ) (pc : PgSavePc S) : PgHost S Env Op :=
  { p with saving := update p.saving k pc }

/-- `saveSnapshot` settles. -/
def settle (p : PgHost S Env Op) (k : ℕ) (seq : ℤ) (version : Version) (ok : Bool) :
    PgHost S Env Op :=
  { p with sys := p.sys.setSave k ⟨seq, version, .ended ok⟩ }

/-- **One statement of `saveSnapshot`.** The object is encoded as soon as the token is
checked, and once more when the class is looked up. -/
def saveStep (p : PgHost S Env Op) (k : ℕ) (ok : Bool) : Option (PgHost S Env Op) :=
  match p.sys.host.saves[k]?, p.saving k with
  | some ⟨seq, version, .toEncode obj⟩, .fence =>
    if ok = true then some (p.setSaving k (.insert (p.sys.host.objs.val obj)))
    else some (p.settle k seq version false)
  | some ⟨seq, version, .toEncode _⟩, .insert x =>
    -- the row of the actor is what the foreign key refers to
    if ok = true ∧ p.sys.store.row.isSome = true then
      some ({ p with
        sys := { p.sys with store := p.sys.store.saveSnapshot seq version x } }.setSaving k
          .touch)
    else some (p.settle k seq version false)
  | some ⟨seq, version, .toEncode _⟩, .touch =>
    if ok = true then some (p.setSaving k .lookupClass)
    else some (p.settle k seq version false)
  | some ⟨seq, version, .toEncode obj⟩, .lookupClass =>
    if ok = true then
      let x := p.sys.host.objs.val obj
      let cls := (p.sys.store.row.map ActorRow.cls).getD version
      some ({ p with sys := p.sys.setSave k ⟨seq, version, .toLand x⟩ }.setSaving k
        (.set ⟨cls, version, seq, x⟩))
    else some (p.settle k seq version false)
  | some ⟨seq, version, .toLand _⟩, .set snap =>
    if ok = true then some ({ p with hot := some snap }.settle k seq version true)
    else some (p.settle k seq version false)
  | _, _ => none

/-- The activation goes on with what was loaded. -/
def loaded (p : PgHost S Env Op) (snap : Option (SnapshotRead S)) : PgHost S Env Op :=
  { p with sys := p.sys.setActivating (.resolveCtor snap), loading := .get }

/-- **One command or statement of `loadSnapshot`** that succeeds. -/
def loadStep (p : PgHost S Env Op) : Option (PgHost S Env Op) :=
  match p.sys.host.activating, p.loading with
  | some .loadSnapshot, .get =>
    match p.hot with
    | some snap => some (p.loaded (some snap))
    | none => some { p with loading := .select }
  | some .loadSnapshot, .select =>
    match p.sys.store.loadSnapshot with
    | some snap => some { p with loading := .fill snap }
    | none => some (p.loaded none)
  | some .loadSnapshot, .fill snap => some ({ p with hot := some snap }.loaded (some snap))
  | _, _ => none

/-- Where a `loadSnapshot` is, once the host has gone on. -/
def loadingAfter (p : PgHost S Env Op) : Act Env → PgLoadPc S
  | .activation _ _ => .get
  | _ => p.loading

/-- **One step.** A load that fails fails the activation. -/
def step (cfg : HostConfig S Env Op) (p : PgHost S Env Op) :
    PgHostAct Env → Option (PgHost S Env Op)
  | .host a =>
    if p.sys.storageStep a = true then none
    else
      (p.sys.step cfg a).map (fun s => { p with sys := s, loading := p.loadingAfter a })
  | .load => p.loadStep
  | .save k ok => p.saveStep k ok
  | .expire => some { p with hot := none }

/-- The state is in the table, or in the cached snapshot. -/
def Stored (p : PgHost S Env Op) (x : S) : Prop :=
  (∃ q ∈ p.sys.store.snapshots, q.2.state = x) ∨ ∃ snap, p.hot = some snap ∧ snap.state = x

/-- **What the driver has**: no object beside those of the writes that are not encoded
for the last time, and the states on their way to the table and to the cache. -/
def held (p : PgHost S Env Op) : Holdings S where
  objs := []
  states x :=
    (∃ k, p.saving k = .insert x) ∨ (∃ k snap, p.saving k = .set snap ∧ snap.state = x)
      ∨ (∃ snap, p.loading = .fill snap ∧ snap.state = x)
      ∨ ∃ snap, p.hot = some snap ∧ snap.state = x

/-- The condition on a step. -/
def keepsSnapshots (p : PgHost S Env Op) : PgHostAct Env → Bool
  | .host a => p.sys.keepsSnapshots p.held a
  | _ => true

/-- The states stored to begin with. -/
def oldStates (store : ActorStore S) (hot : Option (SnapshotRead S)) : List S :=
  store.snapshots.map (fun q => q.2.state) ++ (hot.map SnapshotRead.state).toList

/-! ### Every step -/

variable {cfg : HostConfig S Env Op} {old : List S} {p p' : PgHost S Env Op}

/-- A host beside the driver is in order. -/
structure InOrder (old : List S) (p : PgHost S Env Op) : Prop where
  life : Lifecycle p.sys.flow.toLife
  snapshots : Snapshots old p.held p.sys

theorem InOrder.init (cfg : HostConfig S Env Op) (store : ActorStore S)
    (hot : Option (SnapshotRead S)) :
    InOrder (oldStates store hot) (PgHost.init cfg store hot) where
  life := .init cfg store
  snapshots := by
    refine .of_init rfl rfl rfl rfl (fun obj hobj => absurd hobj List.not_mem_nil)
      (fun x hx => .inl ?_) (fun q hq => .inl (List.mem_append_left _ (List.mem_map_of_mem hq)))
    rcases hx with ⟨k, hk⟩ | ⟨k, snap, hk, -⟩ | ⟨snap, hk, -⟩ | ⟨snap, rfl, rfl⟩
    · cases hk
    · cases hk
    · cases hk
    · exact List.mem_append_right _ (List.mem_singleton_self _)

/-- **What a statement changes of what the driver has** is settled. -/
theorem InOrder.holds (h : p.InOrder old) {q : PgHost S Env Op} (hsys : q.sys = p.sys)
    (hstates : ∀ x, q.held.states x → p.held.states x ∨ p.sys.Settled old x) :
    q.InOrder old :=
  ⟨hsys ▸ h.life, hsys ▸ h.snapshots.hold (fun _ hobj => absurd hobj List.not_mem_nil) hstates⟩

/-- A write moves on, with an encoded state or without one. -/
theorem InOrder.setSaving (h : p.InOrder old) (k : ℕ) {pc : PgSavePc S}
    (hinsert : ∀ x, pc = .insert x → p.sys.Settled old x)
    (hset : ∀ snap, pc = .set snap → p.sys.Settled old snap.state) :
    (p.setSaving k pc).InOrder old := by
  refine h.holds rfl (fun x hx => ?_)
  rcases hx with ⟨j, hj⟩ | ⟨j, snap, hj, hx⟩ | hx | hx
  · change update p.saving k pc j = _ at hj
    rw [Function.update_apply] at hj
    split at hj
    · exact .inr (hinsert x hj)
    · exact .inl (.inl ⟨j, hj⟩)
  · change update p.saving k pc j = _ at hj
    rw [Function.update_apply] at hj
    split at hj
    · exact .inr (hx ▸ hset snap hj)
    · exact .inl (.inr (.inl ⟨j, snap, hj, hx⟩))
  · exact .inl (.inr (.inr (.inl hx)))
  · exact .inl (.inr (.inr (.inr hx)))

/-- A snapshot is cached. -/
theorem InOrder.cache (h : p.InOrder old) {snap : SnapshotRead S}
    (hsnap : p.sys.Settled old snap.state) :
    InOrder old { p with hot := some snap } := by
  refine h.holds rfl (fun x hx => ?_)
  rcases hx with hx | hx | hx | ⟨snap', hsnap', hx⟩
  · exact .inl (.inl hx)
  · exact .inl (.inr (.inl hx))
  · exact .inl (.inr (.inr (.inl hx)))
  · obtain rfl := Option.some.inj hsnap'
    exact .inr (hx ▸ hsnap)

/-- A write is not encoded any more. -/
theorem InOrder.setSave (h : p.InOrder old) (k : ℕ) {sv : Save S}
    (he : ∀ obj, sv.pc ≠ .toEncode obj) :
    InOrder old { p with sys := p.sys.setSave k sv } :=
  ⟨h.life, h.snapshots.of_setSave k he⟩

/-- **A statement of a save** encodes the object as at a boundary, or writes what was
encoded. -/
theorem InOrder.saveStep (h : p.InOrder old) {k : ℕ} {ok : Bool}
    (hs : p.saveStep k ok = some p') : p'.InOrder old := by
  have hsettle : ∀ seq version ok', (p.settle k seq version ok').InOrder old :=
    fun _ _ _ => h.setSave k (by simp)
  unfold PgHost.saveStep at hs
  split at hs
  · next seq version obj hk hpc =>
    split at hs <;> obtain rfl := Option.some.inj hs
    · refine h.setSaving k (fun x hx => ?_) (by simp)
      obtain rfl := PgSavePc.insert.inj hx
      exact .inr (h.snapshots.kept.encode _ (List.mem_of_getElem? hk) obj rfl).2
    · exact hsettle _ _ _
  · next seq version obj x hk hpc =>
    split at hs <;> obtain rfl := Option.some.inj hs
    · have hx := h.snapshots.kept.has x (.inl ⟨k, hpc⟩)
      have h' : InOrder old { p with
          sys := { p.sys with store := p.sys.store.saveSnapshot seq version x } } :=
        ⟨h.life, h.snapshots.saveSnapshot seq version hx⟩
      exact h'.setSaving k (by simp) (by simp)
    · exact hsettle _ _ _
  · split at hs <;> obtain rfl := Option.some.inj hs
    · exact h.setSaving k (by simp) (by simp)
    · exact hsettle _ _ _
  · next seq version obj hk hpc =>
    split at hs <;> obtain rfl := Option.some.inj hs
    · refine (h.setSave k (by simp)).setSaving k (by simp) (fun snap hsnap => ?_)
      obtain rfl := PgSavePc.set.inj hsnap
      exact .inr (h.snapshots.kept.encode _ (List.mem_of_getElem? hk) obj rfl).2
    · exact hsettle _ _ _
  · next seq version x snap hk hpc =>
    split at hs <;> obtain rfl := Option.some.inj hs
    · exact (h.cache (h.snapshots.kept.has _ (.inr (.inl ⟨k, snap, hpc, rfl⟩)))).setSave k
        (by simp)
    · exact hsettle _ _ _
  · exact absurd hs (by simp)

/-- The activation goes on with what was loaded. -/
theorem InOrder.loaded (h : p.InOrder old) (hact : p.sys.host.activating = some .loadSnapshot)
    (snap : Option (SnapshotRead S)) : (p.loaded snap).InOrder old := by
  have ha := Snapshots.early h.life hact (.inl rfl)
  refine ⟨?_, ?_⟩
  · show Lifecycle (p.sys.setActivating (.resolveCtor snap)).flow.toLife
    rw [Sys.flow_resolveCtor hact]
    exact h.life
  · refine (h.snapshots.of_resolveCtor snap).mono
      (fun _ hobj => absurd hobj List.not_mem_nil) (fun x hx => ?_)
    rcases hx with hx | hx | ⟨snap', hx, -⟩ | hx
    · exact .inl hx
    · exact .inr (.inl hx)
    · cases hx
    · exact .inr (.inr (.inr hx))

/-- **A command of a load** caches what the table has. -/
theorem InOrder.loadStep (h : p.InOrder old) (hs : p.loadStep = some p') : p'.InOrder old := by
  unfold PgHost.loadStep at hs
  split at hs
  · next hact hload =>
    split at hs <;> obtain rfl := Option.some.inj hs
    · exact h.loaded hact _
    · refine h.holds rfl (fun x hx => .inl ?_)
      rcases hx with hx | hx | ⟨snap', hx, -⟩ | hx
      · exact .inl hx
      · exact .inr (.inl hx)
      · cases hx
      · exact .inr (.inr (.inr hx))
  · next hact hload =>
    split at hs <;> obtain rfl := Option.some.inj hs
    · next snap hsnap =>
      refine h.holds rfl (fun x hx => ?_)
      rcases hx with hx | hx | ⟨snap', hsnap', rfl⟩ | hx
      · exact .inl (.inl hx)
      · exact .inl (.inr (.inl hx))
      · obtain rfl := PgLoadPc.fill.inj hsnap'
        obtain ⟨q, hq, -, -, hstate⟩ := ActorStore.mem_of_loadSnapshot hsnap
        exact .inr (hstate ▸ h.snapshots.kept.written q hq)
      · exact .inl (.inr (.inr (.inr hx)))
    · exact h.loaded hact _
  · next snap hact hload =>
    obtain rfl := Option.some.inj hs
    exact (h.cache (h.snapshots.kept.has _ (.inr (.inr (.inl ⟨snap, hload, rfl⟩))))).loaded hact _
  · exact absurd hs (by simp)

/-- **Every step keeps the order**, under its condition. -/
theorem InOrder.step {a : PgHostAct Env} (h : p.InOrder old)
    (hG : p.keepsSnapshots a = true) (hs : p.step cfg a = some p') : p'.InOrder old := by
  cases a with
  | host a =>
    rw [PgHost.step] at hs
    split at hs
    · exact absurd hs (by simp)
    · next hstorage =>
      obtain ⟨s, hstep, rfl⟩ := Option.map_eq_some_iff.mp hs
      have h' := h.snapshots.step h.life (fun _ hobj => absurd hobj List.not_mem_nil)
        (fun _ => id) hG (Sys.not_save_of_storageStep (Bool.eq_false_iff.mpr hstorage)) hstep
      refine ⟨h.life.of_moves (Sys.flow_step hstep), h'.mono
        (fun _ hobj => absurd hobj List.not_mem_nil) (fun x hx => ?_)⟩
      rcases hx with hx | hx | ⟨snap, hx, hstate⟩ | hx
      · exact .inl hx
      · exact .inr (.inl hx)
      · refine .inr (.inr (.inl ⟨snap, ?_, hstate⟩))
        change p.loadingAfter a = _ at hx
        cases a with
        | activation env ok => cases hx
        | _ => exact hx
      · exact .inr (.inr (.inr hx))
  | load => exact h.loadStep hs
  | save k ok => exact h.saveStep hs
  | expire =>
    obtain rfl := Option.some.inj hs
    refine h.holds rfl (fun x hx => .inl ?_)
    rcases hx with hx | hx | hx | ⟨snap, hx, -⟩
    · exact .inl hx
    · exact .inr (.inl hx)
    · exact .inr (.inr (.inl hx))
    · cases hx

end PgHost

/-! ## The memory driver

A slot of the driver refers to an object of the host. What the driver was
constructed with are objects too, which no instance refers to until it is
loaded. -/

/-- A blank object, which is the state to begin with, and one for each state in `xs`. -/
def Objects.holding (blank : S) (xs : List S) : Objects S where
  val := fun obj => (blank :: xs).getD obj blank
  cur := 0
  next := xs.length + 1
  cur_lt := Nat.succ_pos _

/-- **A host beside the memory driver.** -/
structure MemoryHost (S Env Op : Type) where
  sys : Sys S Env Op
  /-- The slots by seq, each with an object. -/
  slots : List (ℤ × SnapshotRow ℕ)
  /-- The object that was loaded. -/
  loaded : Option ℕ

/-- **What can happen to it.** A write is handed over with the token of the row, or
with another. -/
inductive MemoryHostAct (Env : Type) where
  | host (a : Act Env) (fence : Bool)
  | load

namespace MemoryHost

/-- A new host, where the driver has the snapshots of the store. -/
def init (cfg : HostConfig S Env Op) (store : ActorStore S) : MemoryHost S Env Op where
  sys :=
    { Sys.init cfg { store with snapshots := [] } with
      host :=
        { Host.init cfg with
          objs := .holding cfg.registration.ctor.blank
            (store.snapshots.map (fun q => q.2.state)) } }
  slots := store.snapshots.mapIdx (fun i q => (q.1, ⟨q.2.classVersion, i + 1⟩))
  loaded := none

/-- The slots, once step `a` has assigned what was loaded to an instance: the object of
the slot is the state of the instance from here on. -/
def slotsAt (m : MemoryHost S Env Op) (a : Act Env) : List (ℤ × SnapshotRow ℕ) :=
  if m.sys.constructing a = true then
    m.slots.map (fun q =>
      if m.loaded = some q.2.state then (q.1, ⟨q.2.classVersion, m.sys.host.objs.next⟩)
      else q)
  else m.slots

/-- **`saveSnapshot`** of write `k`, if there is one: it runs through without an await,
and keeps the object it is given. -/
def handOver (m : MemoryHost S Env Op) (k : ℕ) (fence : Bool) : MemoryHost S Env Op :=
  match m.sys.host.saves[k]? with
  | some ⟨seq, version, .toEncode obj⟩ =>
    if fence = true then
      { m with
        sys := m.sys.setSave k ⟨seq, version, .ended true⟩
        slots := m.slots.filter (fun q => q.1 != seq) ++ [(seq, ⟨version, obj⟩)] }
    else { m with sys := m.sys.setSave k ⟨seq, version, .ended false⟩ }
  | _ => m

/-- The slot that `loadSnapshot` returns. -/
def best (m : MemoryHost S Env Op) : Option (ActorRow × ℤ × SnapshotRow ℕ) :=
  match m.sys.store.row, bestSnapshot m.slots with
  | some row, some slot => some (row, slot)
  | _, _ => none

/-- **`loadSnapshot`** returns the object of the live slot. -/
def loadStep (m : MemoryHost S Env Op) : Option (MemoryHost S Env Op) :=
  match m.sys.host.activating, m.best with
  | some .loadSnapshot, some (row, seq, slot) =>
    some { m with
      sys := m.sys.setActivating
        (.resolveCtor (some ⟨row.cls, slot.classVersion, seq, m.sys.host.objs.val slot.state⟩))
      loaded := some slot.state }
  | some .loadSnapshot, none =>
    some { m with sys := m.sys.setActivating (.resolveCtor none), loaded := none }
  | _, _ => none

/-- **One step.** A step of the host hands over one write at most, which comes after
those it has handed over before. -/
def step (cfg : HostConfig S Env Op) (m : MemoryHost S Env Op) :
    MemoryHostAct Env → Option (MemoryHost S Env Op)
  | .host a fence =>
    if m.sys.storageStep a = true then none
    else
      (m.sys.step cfg a).map (fun s =>
        handOver { m with sys := s, slots := m.slotsAt a } m.sys.host.saves.length fence)
  | .load => m.loadStep

/-- The state is what a slot reads now. -/
def Stored (m : MemoryHost S Env Op) (x : S) : Prop :=
  ∃ q ∈ m.slots, m.sys.host.objs.val q.2.state = x

/-- **What the driver has**, with these slots: their objects. It encodes nothing. -/
def held (slots : List (ℤ × SnapshotRow ℕ)) : Holdings S where
  objs := slots.map (fun q => q.2.state)
  states := fun _ => False

/-- The condition on a step. What is constructed in it counts as held. -/
def keepsSnapshots (m : MemoryHost S Env Op) : MemoryHostAct Env → Bool
  | .host a _ => m.sys.keepsSnapshots (held (m.slotsAt a)) a
  | .load => true

/-! ### Every step -/

variable {cfg : HostConfig S Env Op} {old : List S} {m m' : MemoryHost S Env Op}

/-- A host beside the driver is in order. -/
structure InOrder (old : List S) (m : MemoryHost S Env Op) : Prop where
  life : Lifecycle m.sys.flow.toLife
  snapshots : Snapshots old (held m.slots) m.sys

theorem InOrder.init (cfg : HostConfig S Env Op) (store : ActorStore S) :
    InOrder (store.snapshots.map (fun q => q.2.state)) (MemoryHost.init cfg store) where
  life := .init cfg { store with snapshots := [] }
  snapshots := by
    refine .of_init rfl rfl rfl rfl (fun obj hobj => ?_) (fun x hx => hx.elim)
      (fun q hq => absurd hq List.not_mem_nil)
    obtain ⟨slot, hslot, rfl⟩ := List.mem_map.mp hobj
    obtain ⟨i, hi, rfl⟩ := List.mem_mapIdx.mp hslot
    have hi' : i < (store.snapshots.map (fun q => q.2.state)).length := by
      rwa [List.length_map]
    refine ⟨Nat.succ_lt_succ hi', .inl ?_⟩
    show (cfg.registration.ctor.blank :: store.snapshots.map (fun q => q.2.state)).getD (i + 1) _
      ∈ _
    rw [List.getD_cons_succ, List.getD_eq_getElem?_getD, List.getElem?_eq_getElem hi']
    exact List.getElem_mem hi'

/-- **A write that is handed over** is kept as the object it refers to, which reads as at
a boundary. -/
theorem InOrder.handOver (h : m.InOrder old) (k : ℕ) (fence : Bool) :
    (m.handOver k fence).InOrder old := by
  unfold MemoryHost.handOver
  split
  · next seq version obj hk =>
    split
    · have h' : Snapshots old
          (held (m.slots.filter (fun q => q.1 != seq) ++ [(seq, ⟨version, obj⟩)])) m.sys := by
        refine h.snapshots.hold (fun o ho => ?_) (fun _ => .inl)
        obtain ⟨q, hq, rfl⟩ := List.mem_map.mp ho
        rcases List.mem_append.mp hq with hq | hq
        · exact .inl (List.mem_map_of_mem (List.mem_of_mem_filter hq))
        · obtain rfl := List.mem_singleton.mp hq
          exact .inr (h.snapshots.kept.encode _ (List.mem_of_getElem? hk) obj rfl)
      exact ⟨h.life, h'.of_setSave k (by simp)⟩
    · exact ⟨h.life, h.snapshots.of_setSave k (by simp)⟩
  · exact h

/-- **A load** changes nothing that can be read. -/
theorem InOrder.loadStep (h : m.InOrder old) (hs : m.loadStep = some m') : m'.InOrder old := by
  have hload : ∀ snap, m.sys.host.activating = some .loadSnapshot →
      Lifecycle (m.sys.setActivating (.resolveCtor snap)).flow.toLife
        ∧ Snapshots old (held m.slots) (m.sys.setActivating (.resolveCtor snap)) := by
    intro snap hact
    refine ⟨?_, h.snapshots.of_resolveCtor snap⟩
    rw [Sys.flow_resolveCtor hact]
    exact h.life
  unfold MemoryHost.loadStep at hs
  split at hs
  · next hact hbest =>
    obtain rfl := Option.some.inj hs
    exact ⟨(hload _ hact).1, (hload _ hact).2⟩
  · next hact hbest =>
    obtain rfl := Option.some.inj hs
    exact ⟨(hload _ hact).1, (hload _ hact).2⟩
  · exact absurd hs (by simp)

/-- What the slots refer to they referred to before, but for the object that is
constructed. -/
theorem mem_held_slotsAt {a : Act Env} {obj : ℕ}
    (h : obj ∈ (held (m.slotsAt a) : Holdings S).objs) :
    obj ∈ (held m.slots : Holdings S).objs
      ∨ m.sys.constructing a = true ∧ obj = m.sys.host.objs.next := by
  obtain ⟨q, hq, rfl⟩ := List.mem_map.mp h
  unfold slotsAt at hq
  split at hq
  · next hc =>
    obtain ⟨q', hq', rfl⟩ := List.mem_map.mp hq
    split
    · exact .inr ⟨hc, rfl⟩
    · exact .inl (List.mem_map_of_mem hq')
  · exact .inl (List.mem_map_of_mem hq)

/-- **Every step keeps the order**, under its condition. -/
theorem InOrder.step {a : MemoryHostAct Env} (h : m.InOrder old)
    (hG : m.keepsSnapshots a = true) (hs : m.step cfg a = some m') : m'.InOrder old := by
  cases a with
  | host a fence =>
    rw [MemoryHost.step] at hs
    split at hs
    · exact absurd hs (by simp)
    · next hstorage =>
      obtain ⟨s, hstep, rfl⟩ := Option.map_eq_some_iff.mp hs
      have h' : InOrder old { m with sys := s, slots := m.slotsAt a } :=
        ⟨h.life.of_moves (Sys.flow_step hstep),
          h.snapshots.step h.life (fun _ => mem_held_slotsAt) (fun _ => id) hG
            (Sys.not_save_of_storageStep (Bool.eq_false_iff.mpr hstorage)) hstep⟩
      exact h'.handOver _ fence
  | load => exact h.loadStep hs

end MemoryHost

/-! ## Runs -/

namespace Counter

/-- Call number `c`, of which the worker runs `n` segments. -/
def calling (c : ℕ) (method : String) (n : ℕ) : List (Act Bool) :=
  [.callStart c method .null] ++ working 1 n

end Counter
