import Actjs.Beside
import Actjs.Lives

/-!
# Replaying the log

The state of an event-sourced actor is what its log folds to. A turn folds
the events its handler returned; an activation starts from a snapshot and
folds the payloads that were logged after it. `Reaches` says that the log
folds to a state at a seq, and the invariant `EventSourcing` says it of
everything there is of the state: what the host has in memory, the snapshots
stored, and those on their way to storage.

The two folds are not of the same values. `normalizeEvent` takes the `type`
of an event away, and its envelope if it has one, so a `reduce` that looks
at either makes one thing of an event and another of its payload. The
theorem is about the runs in which it makes the same of both.

## How it is proved

`Sourced` is what holds at every await, whoever is suspended there, and `Fits`
what holds at one of them in particular. A step of a worker is followed along
the turn: before the append the state is that of the whole log, after it the
log is ahead, and the fold makes up for it. An activation goes from a snapshot
forward, by `replayLoop_folds`.

User code cannot write the state of such an actor, which is `Script.Keeps`; so
the hooks need no condition. A crash drops what is in memory, and `Logged`,
which speaks of storage only, is what the next host begins with.
-/

open Function (update)

variable {S Env Op : Type}

/-! ## User code that leaves the state alone

An event-sourced actor is to change its state by `reduce` alone. The source
does not enforce it; it is what the claim says of the class. -/

/-- No segment of a script writes the state. -/
def Script.Keeps {R : Type} : Script S R → Prop
  | .await c rest => c = .keep ∧ rest.Keeps
  | .ret c _ => c = .keep
  | .throw c _ => c = .keep

/-- What is left of a hook leaves the state alone. -/
def HookPc.Keeps : HookPc S → Prop
  | running rest => rest.Keeps
  | returned _ => True

/-- What is left of a deactivation leaves the state alone. -/
def DeactPc.Keeps : DeactPc S → Prop
  | onDeactivate pc => pc.Keeps
  | _ => True

/-- **A class whose state is what `reduce` makes of its events**: handlers
and hooks never write the state themselves, and `snapshot()` returns it as it
is. -/
structure ActorClass.Evented (cls : ActorClass S Env) : Prop where
  isEs : cls.isEs = true
  handlers : ∀ name handler, cls.handlers name = some handler →
    ∀ env x input, (handler env x input).Keeps
  onInit : ∀ hook, cls.onInit = some hook → ∀ env x, (hook env x).Keeps
  onActivate : ∀ hook, cls.onActivate = some hook →
    ∀ env x, (hook env x).Keeps
  onDeactivate : ∀ hook, cls.onDeactivate = some hook →
    ∀ env x, (hook env x).Keeps
  snapshot : ∀ f, cls.snapshot = some f → ∀ x, f x = x

namespace Script.Keeps

variable {R : Type} {p : Script S R}

theorem change (h : p.Keeps) : p.change = .keep := by
  cases p with
  | await c rest => exact h.1
  | ret c r => exact h
  | throw c e => exact h

/-- A hook goes on leaving the state alone. -/
theorem hook {p : Script S Unit} (h : p.Keeps) : (HookPc.after p).Keeps := by
  cases p with
  | await c rest => exact h.2
  | ret c r => trivial
  | throw c e => trivial

/-- A segment that leaves the state alone leaves the objects alone. -/
theorem objs (h : p.Keeps) (s : Sys S Env Op) :
    (s.runSegment p).host.objs = s.host.objs := by
  show s.host.objs.apply p.change = _
  rw [h.change]
  rfl

end Script.Keeps

/-! ## The log

`Reaches` is about a prefix of the log, so it survives every append; `foldLog`
is the fold of all of it. -/

/-- What a log folds to. -/
def foldLog (cls : ActorClass S Env) (es : List EventRow) : Except Json S :=
  foldEvents cls cls.initialState (es.map EventRow.payload)

/-- **The log folds to `x` at seq `n`.** -/
def Reaches (cls : ActorClass S Env) (es : List EventRow) (n : ℤ) (x : S) :
    Prop :=
  ∃ m : ℕ, n = m ∧ m ≤ es.length ∧ foldLog cls (es.take m) = .ok x

namespace Reaches

variable {cls : ActorClass S Env} {es fs : List EventRow} {n : ℤ} {x y : S}

/-- The initial state is reached before any event. -/
theorem zero : Reaches cls es 0 cls.initialState :=
  ⟨0, rfl, Nat.zero_le _, rfl⟩

/-- What was reached stays reached. -/
theorem append (h : Reaches cls es n x) : Reaches cls (es ++ fs) n x := by
  obtain ⟨m, hn, hm, hx⟩ := h
  refine ⟨m, hn, ?_, ?_⟩
  · rw [List.length_append]
    exact Nat.le_add_right_of_le hm
  · rw [List.take_append_of_le_length hm]
    exact hx

/-- What the whole log folds to is reached at its head. -/
theorem head (h : foldLog cls es = .ok x) : Reaches cls es es.length x :=
  ⟨es.length, rfl, Nat.le_refl _, by rw [List.take_length]; exact h⟩

/-- What is reached at the head is what the whole log folds to. -/
theorem fold (h : Reaches cls es n x) (hn : n = es.length) :
    foldLog cls es = .ok x := by
  obtain ⟨m, hm, -, hx⟩ := h
  obtain rfl : m = es.length := by omega
  rwa [List.take_length] at hx

end Reaches

/-- **The loop of the replay** folds the payloads, if all of them were logged
under the version that runs. -/
theorem replayLoop_folds (cls : ActorClass S Env) {version : Version}
    {es : List EventRow} (hv : ∀ e ∈ es, e.classVersion = version)
    {x y : S} (h : foldEvents cls x (es.map EventRow.payload) = .ok y)
    (n : ℤ) (c : ℕ) :
    Sys.replayLoop cls version ⟨x, n, c, none⟩ (numberedFrom n es)
      = ⟨y, n + es.length, c + es.length, none⟩ := by
  induction es generalizing x n c with
  | nil =>
    obtain rfl : x = y := by simpa [foldEvents] using h
    simp [numberedFrom, Sys.replayLoop]
  | cons e es ih =>
    have hpay : Sys.replayedEvent cls version e = .ok e.payload := by
      unfold Sys.replayedEvent
      split
      · rfl
      · rw [if_pos (hv e List.mem_cons_self)]
    rw [List.map_cons, foldEvents] at h
    cases hr : cls.reduce x e.payload with
    | error z => rw [hr] at h; exact absurd h (by simp [Except.bind])
    | ok z =>
      rw [hr] at h
      have hfold : (Sys.replayedEvent cls version e).bind (cls.reduce x) = .ok z := by
        rw [hpay]
        exact hr
      rw [numberedFrom, Sys.replayLoop, hfold]
      dsimp only
      rw [ih (fun e' he' => hv e' (List.mem_cons_of_mem _ he')) h,
        List.length_cons]
      congr 1
      · push_cast
        omega
      · omega

/-- **What storage holds of an event-sourced actor.** -/
structure Logged (reg : Registration S Env) (st : ActorStore S) : Prop where
  row : ∀ r, st.row = some r → r.version = reg.version
  unheard : st.row = none → st.events = []
  stamped : ∀ e ∈ st.events, e.classVersion = reg.version
  folds : ∃ x, foldLog reg.ctor st.events = .ok x
  snapshots : ∀ p ∈ st.snapshots, p.2.classVersion = reg.version
    ∧ Reaches reg.ctor st.events p.1 p.2.state

namespace Logged

variable {reg : Registration S Env} {st st' : ActorStore S}

theorem empty (reg : Registration S Env) : Logged reg ActorStore.empty where
  row _ h := absurd h (by simp [ActorStore.empty])
  unheard _ := rfl
  stamped _ h := absurd h (by simp [ActorStore.empty])
  folds := ⟨reg.ctor.initialState, rfl⟩
  snapshots _ h := absurd h (by simp [ActorStore.empty])

theorem frame (h : Logged reg st) (hr : st'.row = st.row)
    (hs : st'.snapshots = st.snapshots) (he : st'.events = st.events) :
    Logged reg st' := by
  constructor
  · rw [hr]; exact h.row
  · rw [hr, he]; exact h.unheard
  · rw [he]; exact h.stamped
  · rw [he]; exact h.folds
  · rw [hs, he]; exact h.snapshots

theorem register (h : Logged reg st) (name : ClassName) :
    Logged reg (st.registerActor name reg.version) where
  row r hr := by
    obtain rfl := Option.some.inj hr
    rfl
  unheard hr := absurd hr (by simp [ActorStore.registerActor])
  stamped := h.stamped
  folds := h.folds
  snapshots := h.snapshots

/-- The snapshot an activation loads. -/
theorem load (h : Logged reg st) {snap : SnapshotRead S}
    (hs : st.loadSnapshot = some snap) :
    snap.version = reg.version
      ∧ Reaches reg.ctor st.events snap.seq snap.state := by
  unfold ActorStore.loadSnapshot at hs
  split at hs
  · next r seq row hr hb =>
    obtain rfl := Option.some.inj hs
    exact h.snapshots _ (bestSnapshot_mem hb).1
  · exact absurd hs (by simp)

/-- A snapshot of what the log folds to is written. -/
theorem save (h : Logged reg st) {seq : ℤ} {x : S}
    (hx : Reaches reg.ctor st.events seq x) :
    Logged reg (st.saveSnapshot seq reg.version x) where
  row := h.row
  unheard := h.unheard
  stamped := h.stamped
  folds := h.folds
  snapshots p hp := by
    rcases List.mem_append.mp hp with hp | hp
    · exact h.snapshots p (List.mem_filter.mp hp).1
    · obtain rfl := List.mem_singleton.mp hp
      exact ⟨rfl, hx⟩

/-- **A batch is appended** whose payloads can be folded. -/
theorem append (h : Logged reg st) {writes : List EventWrite} {seq : ℤ}
    (ha : st.appendEvents writes = some (st', seq)) {x y : S}
    (hx : foldLog reg.ctor st.events = .ok x)
    (hy : foldEvents reg.ctor x (writes.map EventWrite.payload) = .ok y) :
    Logged reg st' ∧ seq = st'.headEventSeq
      ∧ (∃ new, st'.events = st.events ++ new)
      ∧ foldLog reg.ctor st'.events = .ok y := by
  obtain ⟨hs, hseq, hrow, new, hev, hpay, hver⟩ := ActorStore.appendEvents_spec ha
  have hfold : foldLog reg.ctor st'.events = .ok y := by
    unfold foldLog at hx ⊢
    rw [hev, List.map_append, foldEvents_append, hx, hpay]
    exact hy
  refine ⟨⟨?_, fun hn => ?_, fun e he => ?_, ⟨y, hfold⟩, fun p hp => ?_⟩,
    hseq, ⟨new, hev⟩, hfold⟩
  · rw [hrow]
    exact h.row
  · rw [hrow] at hn
    cases new with
    | nil => rw [hev, List.append_nil]; exact h.unheard hn
    | cons e new =>
      obtain ⟨r, hr, -⟩ := hver e List.mem_cons_self
      exact absurd (hr.symm.trans hn) (by simp)
  · rw [hev] at he
    rcases List.mem_append.mp he with he | he
    · exact h.stamped e he
    · obtain ⟨r, hr, hv⟩ := hver e he
      exact hv.trans (h.row r hr)
  · rw [hs] at hp
    obtain ⟨hv, hr⟩ := h.snapshots p hp
    rw [hev]
    exact ⟨hv, hr.append⟩

end Logged

/-! ## The invariant

By suspended function, and in each by await: what is known of the state there,
and of what it has read or is about to write. -/

namespace Sys

/-- The state is what the log folds to at `currentSeq`. -/
def AtSeq (cfg : HostConfig S Env Op) (s : Sys S Env Op) : Prop :=
  Reaches cfg.registration.ctor s.store.events s.host.currentSeq s.host.state

/-- `currentSeq` is the head of the log. -/
def AtHead (s : Sys S Env Op) : Prop :=
  s.host.currentSeq = s.store.headEventSeq

/-- A snapshot write is of what the log folds to. -/
def Sourcing (cfg : HostConfig S Env Op) (s : Sys S Env Op) (sv : Save S) :
    Prop :=
  sv.version = cfg.registration.version
    ∧ match sv.pc with
      | .toEncode obj => obj < s.host.objs.next
          ∧ Reaches cfg.registration.ctor s.store.events sv.seq
            (s.host.objs.val obj)
      | .toLand x => Reaches cfg.registration.ctor s.store.events sv.seq x
      | .ended _ => True

end Sys

/-- A snapshot read is of what the log folds to. -/
def SnapshotRead.Fits (cfg : HostConfig S Env Op) (s : Sys S Env Op)
    (snap : SnapshotRead S) : Prop :=
  snap.version = cfg.registration.version
    ∧ Reaches cfg.registration.ctor s.store.events snap.seq snap.state

/-- What holds of the state at each await of `doActivate`. -/
def ActPc.Fits (cfg : HostConfig S Env Op) (s : Sys S Env Op) :
    ActPc S Env → Prop
  | resolveCtor snap => ∀ sn, snap = some sn → sn.Fits cfg s
  | loadFence snap r => (∀ sn, snap = some sn → sn.Fits cfg s)
    ∧ r = ⟨cfg.registration.ctor, cfg.registration.version, false⟩
  | onInit pc => s.AtSeq cfg ∧ pc.Keeps
  | headSeq => s.AtSeq cfg
  | readEvents => s.AtSeq cfg
  | replayFlush _ => s.AtSeq cfg ∧ s.AtHead
  | onActivate pc => s.AtSeq cfg ∧ s.AtHead ∧ pc.Keeps
  | noMigrate => False
  | retain _ _ => False
  | migrate _ => False
  | migrateFlush _ => False
  | audit => False
  | _ => True

/-- What holds of the state at each await of a worker: between the append of
a batch and its fold the log is ahead, by what the fold will make of it. -/
def WorkerPc.Fits (cfg : HostConfig S Env Op) (s : Sys S Env Op) :
    WorkerPc S → Prop
  | running _ rest => rest.Keeps
  | appended _ events seq => seq = s.store.headEventSeq
    ∧ foldEvents cfg.registration.ctor s.host.state events
      = foldLog cfg.registration.ctor s.store.events
  | acking _ _ .swm => False
  | _ => True

/-- A batch is in the log, and not in the state. -/
def WorkerPc.isAppended : WorkerPc S → Bool
  | appended _ _ _ => true
  | _ => false

/-- **What there is of the state comes from the log**, apart from what a
suspended function holds: the code that runs, what is stored and what is on
its way there. -/
structure Sourced (cfg : HostConfig S Env Op) (s : Sys S Env Op) : Prop where
  cls : s.host.cls = cfg.registration.ctor
  version : s.host.runningVersion = cfg.registration.version
  /-- An event-sourced actor never arms the debounce timer. -/
  timer : s.host.snapshotTimer = false
  logged : Logged cfg.registration s.store
  saves : ∀ sv ∈ s.host.saves, s.Sourcing cfg sv

/-- **The state is what the log folds to**, at every await of every suspended
function. `AtSeq` is the weak form, for a state that is behind the log while a
batch waits to be folded; `AtHead` is the strong one, and holds at all other
times. -/
structure EventSourcing (cfg : HostConfig S Env Op) (s : Sys S Env Op) :
    Prop where
  sourced : Sourced cfg s
  opening : ∀ pc, s.host.activating = some pc → pc.Fits cfg s
  working : ∀ g, (s.host.workers g).Fits cfg s
  ending : ∀ d, s.host.deactivating = some d → d.pc.Keeps
  /-- An activated host is at the seq it says. -/
  serving : s.host.activated = true → s.AtSeq cfg
  /-- It is at the head of the log, except between an append and its
  fold. -/
  head : s.host.activated = true →
    (∀ g, (s.host.workers g).isAppended = false) → s.AtHead

namespace Sourced

variable {cfg : HostConfig S Env Op} {s s' : Sys S Env Op}

/-- A step that leaves the state and the log as they are. -/
theorem frame (h : Sourced cfg s) (hc : s'.host.cls = s.host.cls)
    (hv : s'.host.runningVersion = s.host.runningVersion)
    (ht : s'.host.snapshotTimer = s.host.snapshotTimer)
    (ho : s'.host.objs = s.host.objs) (hs : s'.host.saves = s.host.saves)
    (hr : s'.store.row = s.store.row)
    (hp : s'.store.snapshots = s.store.snapshots)
    (he : s'.store.events = s.store.events) : Sourced cfg s' where
  cls := hc.trans h.cls
  version := hv.trans h.version
  timer := ht.trans h.timer
  logged := h.logged.frame hr hp he
  saves sv hsv := by
    rw [hs] at hsv
    unfold Sys.Sourcing
    rw [ho, he]
    exact h.saves sv hsv

/-- **A new object is assigned**, or one allocated: those that writes refer
to stay as they are. -/
theorem assign (h : Sourced cfg s) (hc : s'.host.cls = s.host.cls)
    (hv : s'.host.runningVersion = s.host.runningVersion)
    (ht : s'.host.snapshotTimer = s.host.snapshotTimer)
    {x : S} (hn : s'.host.objs.next = s.host.objs.next + 1)
    (ho : s'.host.objs.val = update s.host.objs.val s.host.objs.next x)
    (hs : s'.host.saves = s.host.saves)
    (hst : s'.store = s.store) : Sourced cfg s' where
  cls := hc.trans h.cls
  version := hv.trans h.version
  timer := ht.trans h.timer
  logged := by rw [hst]; exact h.logged
  saves sv hsv := by
    rw [hs] at hsv
    have hsv := h.saves sv hsv
    unfold Sys.Sourcing at hsv ⊢
    rw [hst]
    refine ⟨hsv.1, ?_⟩
    cases hpc : sv.pc with
    | toEncode obj =>
      rw [hpc] at hsv
      obtain ⟨-, hlt, hx⟩ := hsv
      refine ⟨by rw [hn]; exact Nat.lt_succ_of_lt hlt, ?_⟩
      rw [ho, Function.update_of_ne (Nat.ne_of_lt hlt)]
      exact hx
    | toLand x => rw [hpc] at hsv; exact hsv.2
    | ended ok => trivial

/-- The state is handed to the driver. -/
theorem flush (h : Sourced cfg s) (hev : cfg.registration.ctor.Evented)
    (hx : s.AtSeq cfg) :
    Sourced cfg { s with host := s.host.flushSnapshot } := by
  have hes : s.host.cls.isEs = true := by rw [h.cls]; exact hev.isEs
  have hobjs : Sourced cfg
      { s with host := { s.host with objs := s.host.snapshotObjs } } := by
    unfold Host.snapshotObjs
    cases hf : s.host.cls.snapshot with
    | none => exact h.frame rfl rfl rfl rfl rfl rfl rfl rfl
    | some f => exact h.assign rfl rfl rfl rfl rfl rfl rfl
  refine ⟨hobjs.cls, hobjs.version, hobjs.timer, hobjs.logged, fun sv hsv => ?_⟩
  rcases List.mem_append.mp hsv with hsv | hsv
  · exact hobjs.saves sv hsv
  obtain rfl := List.mem_singleton.mp hsv
  refine ⟨h.version, ?_⟩
  show s.host.snapshotObj < s.host.snapshotObjs.next
    ∧ Reaches _ _ (if s.host.cls.isEs = true then s.host.currentSeq else 0)
      (s.host.snapshotObjs.val s.host.snapshotObj)
  rw [if_pos hes]
  unfold Host.snapshotObj Host.snapshotObjs
  cases hf : s.host.cls.snapshot with
  | none => exact ⟨s.host.objs.cur_lt, hx⟩
  | some f =>
    refine ⟨Nat.lt_succ_self _, ?_⟩
    show Reaches _ _ _ (update s.host.objs.val s.host.objs.next
      (f s.host.state) s.host.objs.next)
    rw [Function.update_self, hev.snapshot f (h.cls ▸ hf)]
    exact hx

/-- The log grows. -/
theorem grow (h : Sourced cfg s) {store : ActorStore S}
    (hl : Logged cfg.registration store) {new : List EventRow}
    (he : store.events = s.store.events ++ new) :
    Sourced cfg { s with store := store } where
  cls := h.cls
  version := h.version
  timer := h.timer
  logged := hl
  saves sv hsv := by
    have hsv := h.saves sv hsv
    unfold Sys.Sourcing at hsv ⊢
    refine ⟨hsv.1, ?_⟩
    show match sv.pc with
      | .toEncode obj => obj < s.host.objs.next
          ∧ Reaches cfg.registration.ctor store.events sv.seq
            (s.host.objs.val obj)
      | .toLand x => Reaches cfg.registration.ctor store.events sv.seq x
      | .ended _ => True
    rw [he]
    cases hpc : sv.pc with
    | toEncode obj => rw [hpc] at hsv; exact ⟨hsv.2.1, hsv.2.2.append⟩
    | toLand x => rw [hpc] at hsv; exact hsv.2.append
    | ended ok => trivial

/-- The driver moves on with a write. -/
theorem saveStep (h : Sourced cfg s) {k : ℕ} {ok : Bool}
    (hs : s.saveStep k ok = some s') : Sourced cfg s' := by
  have hset : ∀ sv', s.Sourcing cfg sv' → Sourced cfg (s.setSave k sv') :=
    fun sv' hsv' => ⟨h.cls, h.version, h.timer, h.logged, fun sv hsv => by
      rcases List.mem_or_eq_of_mem_set hsv with hsv | rfl
      · exact h.saves sv hsv
      · exact hsv'⟩
  unfold Sys.saveStep at hs
  split at hs
  · next seq version obj hk =>
    have hsv := h.saves _ (List.mem_of_getElem? hk)
    split at hs <;> obtain rfl := Option.some.inj hs
    · exact hset _ ⟨hsv.1, hsv.2.2⟩
    · exact hset _ ⟨hsv.1, trivial⟩
  · next seq version x hk =>
    have hsv := h.saves _ (List.mem_of_getElem? hk)
    split at hs <;> obtain rfl := Option.some.inj hs
    · obtain rfl : version = _ := hsv.1
      have h' := hset ⟨seq, cfg.registration.version, .ended true⟩
        ⟨rfl, trivial⟩
      exact ⟨h'.cls, h'.version, h'.timer, h.logged.save hsv.2, h'.saves⟩
    · exact hset _ ⟨hsv.1, trivial⟩
  · exact absurd hs (by simp)

/-- **What the replay comes to**, from any seq the state is at: it folds the
rest of the log, and nothing is thrown. -/
theorem replayLoop_eq (h : Sourced cfg s) (hx : s.AtSeq cfg) :
    ∃ y, foldLog cfg.registration.ctor s.store.events = .ok y
      ∧ ∃ c, Sys.replayLoop s.host.cls cfg.registration.version
          ⟨s.host.state, s.host.currentSeq, 0, none⟩
          (s.store.readEvents (s.host.currentSeq + 1))
        = ⟨y, s.store.headEventSeq, c, none⟩ := by
  obtain ⟨m, hm, hle, hfold⟩ := hx
  obtain ⟨y, hy⟩ := h.logged.folds
  have hsplit : s.store.events
      = s.store.events.take m ++ s.store.events.drop m :=
    (List.take_append_drop m _).symm
  have hlen : (s.store.events.take m).length = m := by
    rw [List.length_take]
    exact Nat.min_eq_left hle
  -- the rest of the log is folded from where the state is
  have hrest : foldEvents cfg.registration.ctor s.host.state
      ((s.store.events.drop m).map EventRow.payload) = .ok y := by
    unfold foldLog at hfold hy
    rw [hsplit, List.map_append, foldEvents_append, hfold] at hy
    exact hy
  have hread : s.store.readEvents (s.host.currentSeq + 1)
      = numberedFrom m (s.store.events.drop m) := by
    cases hrow : s.store.row with
    | none =>
      have hnil := h.logged.unheard hrow
      rw [ActorStore.readEvents, hrow, hnil, List.drop_nil]
      rfl
    | some r =>
      have hread := ActorStore.readEvents_after hrow hsplit
      rw [hlen] at hread
      rw [hm]
      exact hread
  refine ⟨y, hy, (s.store.events.drop m).length, ?_⟩
  rw [hread, hm, h.cls, replayLoop_folds cfg.registration.ctor
    (fun e he => h.logged.stamped e (List.mem_of_mem_drop he)) hrest]
  congr 1
  · rw [ActorStore.headEventSeq, List.length_drop]
    push_cast [hle]
    omega
  · omega

end Sourced

/-! ## Between two turns

Once no worker is between its append and its fold, the state is what the whole
log folds to. -/

/-- **The state is what the whole log folds to.** -/
structure Settled (cfg : HostConfig S Env Op) (s : Sys S Env Op) : Prop where
  sourced : Sourced cfg s
  atSeq : s.AtSeq cfg
  atHead : s.AtHead

namespace Settled

variable {cfg : HostConfig S Env Op} {s s' : Sys S Env Op} {g : ℕ}

/-- A step that leaves the state and the log as they are. -/
theorem frame (h : Settled cfg s) (hc : s'.host.cls = s.host.cls)
    (hv : s'.host.runningVersion = s.host.runningVersion)
    (ht : s'.host.snapshotTimer = s.host.snapshotTimer)
    (ho : s'.host.objs = s.host.objs) (hs : s'.host.saves = s.host.saves)
    (hq : s'.host.currentSeq = s.host.currentSeq)
    (hr : s'.store.row = s.store.row)
    (hp : s'.store.snapshots = s.store.snapshots)
    (he : s'.store.events = s.store.events) : Settled cfg s' := by
  refine ⟨h.sourced.frame hc hv ht ho hs hr hp he, ?_, ?_⟩
  · unfold Sys.AtSeq Host.state
    rw [he, hq, ho]
    exact h.atSeq
  · unfold Sys.AtHead ActorStore.headEventSeq
    rw [hq, he]
    exact h.atHead

theorem flush (h : Settled cfg s) (hev : cfg.registration.ctor.Evented) :
    Settled cfg { s with host := s.host.flushSnapshot } := by
  refine ⟨h.sourced.flush hev h.atSeq, ?_, h.atHead⟩
  show Reaches _ _ _ s.host.flushSnapshot.state
  rw [Host.state_flushSnapshot]
  exact h.atSeq

/-- A segment that leaves the state alone. -/
theorem runSegment {R : Type} {p : Script S R} (h : Settled cfg s)
    (hp : p.Keeps) : Settled cfg (s.runSegment p) :=
  h.frame rfl rfl rfl (hp.objs s) rfl rfl rfl rfl rfl

/-- The fold of the log is the state. -/
theorem fold (h : Settled cfg s) :
    foldLog cfg.registration.ctor s.store.events = .ok s.host.state :=
  h.atSeq.fold h.atHead

/-- What the replay leaves: the state that the whole log folds to. -/
theorem of_replayed (h : Sourced cfg s) {y : S}
    (hy : foldLog cfg.registration.ctor s.store.events = .ok y) (m : Metrics)
    (n : ℕ) (d : Bool) :
    Settled cfg (Sys.boundary
      { s with
        host :=
          { s.host with
            objs := s.host.objs.assign y
            currentSeq := s.store.headEventSeq
            metrics := m
            eventsSinceSnapshot := n
            snapshotDirty := d } }) := by
  refine ⟨h.assign rfl rfl rfl rfl rfl rfl rfl, ?_, rfl⟩
  show Reaches _ s.store.events s.store.headEventSeq
    (s.host.objs.assign y).read
  rw [Objects.read_assign]
  exact Reaches.head hy

/-- **Between two turns the invariant holds.** The worker is at an await that
asks for nothing, and a deactivation awaits the worker. -/
theorem turned (h : Settled cfg s) (hl : Lifecycle s.flow.toLife)
    (hlive : (s.host.workers g).stage.alive = true)
    (hfits : (s.host.workers g).Fits cfg s) : EventSourcing cfg s where
  sourced := h.sourced
  opening pc hpc := by
    have hb := hl.beside (hl.alive g hlive).1 hpc
    revert hb
    cases pc <;> simp [ActPc.beside, ActPc.Fits]
  working g' := by
    by_cases hg' : (s.host.workers g').stage.alive = true
    · rw [hl.only hlive hg']
      exact hfits
    · revert hg'
      cases s.host.workers g' <;>
        simp [WorkerPc.stage, WorkerStage.alive, WorkerPc.Fits]
  ending d hd := by
    obtain ⟨g', he⟩ := hl.awaits hlive hd
    rw [he]
    trivial
  serving _ := h.atSeq
  head _ _ := h.atHead

/-- After the acknowledgement of a batch: it is emitted, and the state may be
flushed. -/
theorem commitEsTail (h : Settled cfg s) (hev : cfg.registration.ctor.Evented)
    (g : ℕ) (item : Item) (events : List Json) :
    Settled cfg (s.commitEsTail cfg g item events)
      ∧ ((s.commitEsTail cfg g item events).host.workers g).stage.alive = true
      ∧ ((s.commitEsTail cfg g item events).host.workers g).Fits cfg
        (s.commitEsTail cfg g item events) := by
  have h₁ : Settled cfg (s.emit [.event events s.host.currentSeq]) :=
    h.frame rfl rfl rfl rfl rfl rfl rfl rfl rfl
  unfold Sys.commitEsTail
  dsimp only
  split
  · refine ⟨(h₁.flush hev).frame rfl rfl rfl rfl rfl rfl rfl rfl rfl, ?_, ?_⟩ <;>
      simp [Sys.setWorker, WorkerPc.stage, WorkerStage.alive, WorkerPc.Fits]
  · refine ⟨h₁.frame rfl rfl rfl rfl rfl rfl rfl rfl rfl, ?_, ?_⟩ <;>
      simp [Sys.setWorker, WorkerPc.stage, WorkerStage.alive, WorkerPc.Fits]

/-- **The fold of a batch** brings the state to the head of the log. -/
theorem afterFold (h : Sourced cfg s) {events : List Json} {seq : ℤ} {x : S}
    (hseq : seq = s.store.headEventSeq)
    (hfold : foldEvents cfg.registration.ctor s.host.state events
      = foldLog cfg.registration.ctor s.store.events)
    (hx : foldEvents s.host.cls s.host.state events = .ok x) :
    Settled cfg (s.afterFold events seq x) := by
  refine ⟨h.assign rfl rfl rfl rfl rfl rfl rfl, ?_, hseq⟩
  show Reaches _ s.store.events seq (s.host.objs.assign x).read
  rw [Objects.read_assign, hseq]
  exact Reaches.head (hfold.symm.trans (h.cls ▸ hx))

end Settled

/-! ## The condition

That `reduce` makes the same of an event as a handler returned it and of its
payload as it was logged, in the state at hand. -/

namespace Sys

variable [DecidableEq S]

/-- **The log keeps the state**: when a batch is appended, `reduce` folds the
events the handler returned, and makes the same state of the payloads that are
logged. -/
def keepsLog (s : Sys S Env Op) : Act Env → Bool
  | .worker g _ ok =>
    match s.host.workers g with
    | .appending _ events writes =>
      !ok ||
        match foldEvents s.host.cls s.host.state events,
          foldEvents s.host.cls s.host.state
            (writes.map EventWrite.payload) with
        | .ok x, .ok y => decide (x = y)
        | _, _ => false
    | _ => true
  | _ => true

/-- What the condition says of an append that takes effect. -/
theorem keepsLog_append {s : Sys S Env Op} {g : ℕ} {env : Env} {item : Item}
    {events : List Json} {writes : List EventWrite}
    (hpc : s.host.workers g = .appending item events writes)
    (h : s.keepsLog (.worker g env true) = true) :
    ∃ x, foldEvents s.host.cls s.host.state events = .ok x
      ∧ foldEvents s.host.cls s.host.state (writes.map EventWrite.payload)
        = .ok x := by
  simp only [keepsLog, hpc, Bool.not_true, Bool.false_or] at h
  split at h
  · next x y hx hy =>
    obtain rfl : x = y := by simpa using h
    exact ⟨x, hx, hy⟩
  · exact absurd h (by simp)

end Sys

/-! ## The steps of a worker -/

namespace EventSourcing

variable {cfg : HostConfig S Env Op} {s s' : Sys S Env Op} {g : ℕ} {env : Env}

/-- While no batch is between its append and its fold, an activated host is
at the head of its log. -/
theorem settled (h : EventSourcing cfg s) (ha : s.host.activated = true)
    (hn : ∀ g, (s.host.workers g).isAppended = false) : Settled cfg s :=
  ⟨h.sourced, h.serving ha, h.head ha hn⟩

/-- Only the worker that is alive can be between the two. -/
theorem settled_of_worker (h : EventSourcing cfg s)
    (hl : Lifecycle s.flow.toLife)
    (hlive : (s.host.workers g).stage.alive = true)
    (hg : (s.host.workers g).isAppended = false) : Settled cfg s := by
  refine h.settled (hl.alive g hlive).1 (fun g' => ?_)
  by_cases hg' : (s.host.workers g').stage.alive = true
  · rw [hl.only hlive hg']
    exact hg
  · revert hg'
    cases s.host.workers g' <;>
      simp [WorkerPc.stage, WorkerStage.alive, WorkerPc.isAppended]

/-- The handler runs up to its next await. -/
theorem of_runHandler (h : Settled cfg s) {item : Item} {p : Script S Json}
    (hl : Lifecycle (s.runHandler g item p).flow.toLife) (hp : p.Keeps) :
    EventSourcing cfg (s.runHandler g item p) := by
  have h' : Settled cfg (s.runHandler g item p) :=
    (h.runSegment hp).frame rfl rfl rfl rfl rfl rfl rfl rfl rfl
  have hw : (s.runHandler g item p).host.workers g = .after item p :=
    Function.update_self _ _ _
  refine h'.turned (g := g) hl ?_ ?_ <;> rw [hw]
  · rw [WorkerPc.stage_after]
    rfl
  · cases p with
    | await c rest => exact hp.2
    | ret c r => trivial
    | throw c e => trivial

/-- **A batch is appended**: the log is ahead of the state, by what the fold
makes of the batch. -/
theorem of_append (h : Settled cfg s) {item : Item} {events : List Json}
    {writes : List EventWrite} {store : ActorStore S} {seq : ℤ} {x : S}
    (hl : Lifecycle (Sys.setWorker { s with store := store } g
      (.appended item events seq)).flow.toLife)
    (hraw : foldEvents s.host.cls s.host.state events = .ok x)
    (hpay : foldEvents s.host.cls s.host.state
      (writes.map EventWrite.payload) = .ok x)
    (ha : s.store.appendEvents writes = some (store, seq)) :
    EventSourcing cfg (Sys.setWorker { s with store := store } g
      (.appended item events seq)) := by
  rw [h.sourced.cls] at hraw hpay
  obtain ⟨hlog, hseq, ⟨new, hnew⟩, hfold⟩ :=
    h.sourced.logged.append ha h.fold hpay
  have hw : (Sys.setWorker { s with store := store } g
      (.appended item events seq)).host.workers g
        = .appended item events seq := Function.update_self _ _ _
  have hlive : ((Sys.setWorker { s with store := store } g
      (.appended item events seq)).host.workers g).stage.alive = true := by
    rw [hw]
    rfl
  have hsrc := h.sourced.grow hlog hnew
  refine ⟨hsrc.frame rfl rfl rfl rfl rfl rfl rfl rfl, fun pc hpc => ?_,
    fun g' => ?_, fun d hd => ?_, fun _ => ?_, fun _ hn => ?_⟩
  · have hb := hl.beside (hl.alive g hlive).1 hpc
    revert hb
    cases pc <;> simp [ActPc.beside, ActPc.Fits]
  · by_cases hg' : ((Sys.setWorker { s with store := store } g
      (.appended item events seq)).host.workers g').stage.alive = true
    · rw [hl.only hlive hg', hw]
      exact ⟨hseq, hraw.trans hfold.symm⟩
    · revert hg'
      cases (Sys.setWorker { s with store := store } g
        (.appended item events seq)).host.workers g' <;>
        simp [WorkerPc.stage, WorkerStage.alive, WorkerPc.Fits]
  · obtain ⟨g', he⟩ := hl.awaits hlive hd
    rw [he]
    trivial
  · show Reaches _ store.events s.host.currentSeq s.host.state
    rw [hnew]
    exact h.atSeq.append
  · have := hn g
    rw [hw] at this
    exact absurd this (by simp [WorkerPc.isAppended])

/-- **A segment of a worker.** -/
theorem of_workerStep {ok : Bool} [DecidableEq S] (h : EventSourcing cfg s)
    (hl : Lifecycle s.flow.toLife) (hl' : Lifecycle s'.flow.toLife)
    (hev : cfg.registration.ctor.Evented)
    (hG : s.keepsLog (.worker g env ok) = true)
    (hs : s.workerStep cfg g env ok = some s') : EventSourcing cfg s' := by
  obtain ⟨pc, hpc, hseg⟩ := Sys.workerSegment hs
  have hes : s.host.cls.isEs = true := by rw [h.sourced.cls]; exact hev.isEs
  have hfits : pc.Fits cfg s := hpc ▸ h.working g
  have hsettled : pc.isAppended = false → Settled cfg s := fun hn =>
    h.settled_of_worker hl (Sys.alive_of_workerStep hs) (hpc ▸ hn)
  -- the worker moves to an await that asks for nothing
  have hmove : ∀ {pc' : WorkerPc S}, Settled cfg s' → s'.host.workers g = pc' →
      pc'.stage.alive = true → pc'.Fits cfg s' → EventSourcing cfg s' :=
    fun h' hw ha hf => h'.turned hl' (hw ▸ ha) (hw ▸ hf)
  cases hseg with
  | dequeue =>
    refine hmove ((hsettled rfl).frame rfl rfl rfl rfl rfl rfl rfl rfl rfl)
      (Function.update_self _ _ _) ?_ ?_ <;>
      cases (s.host.mailbox.dequeue g).result <;>
      simp [Sys.dequeuedPc, WorkerPc.stage, WorkerStage.alive, WorkerPc.Fits]
  | exit =>
    have hS := hsettled rfl
    refine ⟨hS.sourced.frame rfl rfl rfl rfl rfl rfl rfl rfl, h.opening,
      fun g' => ?_, h.ending, h.serving, fun _ _ => hS.atHead⟩
    show WorkerPc.Fits cfg _ (update s.host.workers g .done g')
    rw [Function.update_apply]
    split
    · trivial
    · exact h.working g'
  | @start item handler hh =>
    have hS : Settled cfg (s.starting item) :=
      (hsettled rfl).frame rfl rfl rfl rfl rfl rfl rfl rfl rfl
    exact of_runHandler hS hl' (hev.handlers _ handler (h.sourced.cls ▸ hh) _ _ _)
  | run => exact of_runHandler (hsettled rfl) hl' hfits
  | failed e hf =>
    -- the fold of a batch that was appended has not failed
    have hn : pc.isAppended = false := by
      cases pc with
      | appended item events seq =>
        obtain ⟨x, hx⟩ := h.sourced.logged.folds
        have hfold := hf.2
        rw [h.sourced.cls, hfits.2, hx] at hfold
        exact absurd hfold (by simp [Except.isOk, Except.toBool])
      | _ => rfl
    exact hmove ((hsettled hn).frame rfl rfl rfl rfl rfl rfl rfl rfl rfl)
      (Function.update_self _ _ _) rfl trivial
  | resolveSwm hn | ackSwm hn => exact absurd (hes.symm.trans hn) (by simp)
  | refuse | ignore | resolveEmpty | ackEmpty | append | emptyAcked | flushed | finish =>
    exact hmove ((hsettled rfl).frame rfl rfl rfl rfl rfl rfl rfl rfl rfl)
      (Function.update_self _ _ _) rfl trivial
  | ignored =>
    refine hmove ((hsettled rfl).frame rfl rfl rfl rfl rfl rfl ?_ ?_ ?_)
      (Function.update_self _ _ _) rfl trivial <;> cases ok <;> rfl
  | appended hok ha =>
    obtain rfl := hok
    obtain ⟨x, hraw, hpay⟩ := Sys.keepsLog_append hpc hG
    exact of_append (hsettled rfl) hl' hraw hpay ha
  | @resolveEs method args c events seq x hx =>
    have hS : Settled cfg ((s.afterFold events seq x).resolveCall (.call method args c) c
        (.arr events)) :=
      (Settled.afterFold h.sourced hfits.1 hfits.2 hx).frame rfl rfl rfl rfl rfl rfl rfl
        rfl rfl
    obtain ⟨h', hlive, hfits'⟩ := hS.commitEsTail hev g _ events
    exact h'.turned hl' hlive hfits'
  | ackEs hx =>
    exact hmove ((Settled.afterFold h.sourced hfits.1 hfits.2 hx).frame rfl rfl rfl rfl rfl
      rfl rfl rfl rfl) (Function.update_self _ _ _) rfl trivial
  | swmAcked => exact hfits.elim
  | @esAcked item id events =>
    have hS : Settled cfg (s.afterAck id) :=
      (hsettled rfl).frame rfl rfl rfl rfl rfl rfl rfl rfl rfl
    obtain ⟨h', hlive, hfits'⟩ := hS.commitEsTail hev g item events
    exact h'.turned hl' hlive hfits'

end EventSourcing

/-! ## The steps of an activation -/

namespace EventSourcing

variable {cfg : HostConfig S Env Op} {s s' : Sys S Env Op} {env : Env}

/-- **Before the host is activated** nothing is asked of workers and
deactivations, of which there are none. -/
theorem early (hl : Lifecycle s.flow.toLife) (ha : s.host.activated = false)
    (hsrc : Sourced cfg s)
    (hfits : ∀ pc, s.host.activating = some pc → pc.Fits cfg s) :
    EventSourcing cfg s where
  sourced := hsrc
  opening := hfits
  working g := by
    have hdead : (s.host.workers g).stage.alive = false := hl.not_alive ha g
    revert hdead
    cases s.host.workers g <;>
      simp [WorkerPc.stage, WorkerStage.alive, WorkerPc.Fits]
  ending d hd := by
    have hne : s.flow.deact ≠ none := by
      show s.host.deactivating.map _ ≠ none
      rw [hd]
      simp
    have := (hl.closed hne).1
    exact absurd (show s.host.activated = true from this) (by simp [ha])
  serving ha' := absurd ha' (by simp [ha])
  head ha' := absurd ha' (by simp [ha])

/-- The activation moves on, to an await that finds the state as it is. -/
theorem opened {pc : ActPc S Env} (h : Sourced cfg s)
    (hl : Lifecycle (s.setActivating pc).flow.toLife)
    (ha : s.host.activated = false)
    (hfits : pc.Fits cfg (s.setActivating pc)) :
    EventSourcing cfg (s.setActivating pc) := by
  refine early hl ha (h.frame rfl rfl rfl rfl rfl rfl rfl rfl)
    (fun pc' hpc' => ?_)
  obtain rfl := Option.some.inj hpc'
  exact hfits

theorem of_becomeActivated (h : Settled cfg s)
    (hl : Lifecycle s.becomeActivated.flow.toLife) :
    EventSourcing cfg s.becomeActivated := by
  have h' : Settled cfg s.becomeActivated :=
    h.frame rfl rfl rfl rfl rfl rfl rfl rfl rfl
  have hw : s.becomeActivated.host.workers s.host.activation
      = Sys.dequeuedPc (s.host.mailbox.dequeue s.host.activation).result :=
    Function.update_self _ _ _
  refine h'.turned (g := s.host.activation) hl ?_ ?_ <;> rw [hw] <;>
    cases (s.host.mailbox.dequeue s.host.activation).result <;>
    simp [Sys.dequeuedPc, WorkerPc.stage, WorkerStage.alive, WorkerPc.Fits]

theorem of_beginOnActivate (h : Settled cfg s)
    (hev : cfg.registration.ctor.Evented)
    (hl : Lifecycle (s.beginOnActivate env).flow.toLife)
    (ha : s.host.activated = false) :
    EventSourcing cfg (s.beginOnActivate env) := by
  unfold Sys.beginOnActivate at hl ⊢
  split at hl
  · exact of_becomeActivated h hl
  · next f hf =>
    have hp : (f env s.host.state).Keeps :=
      hev.onActivate f (h.sourced.cls ▸ hf) _ _
    have h' := h.runSegment hp
    exact opened h'.sourced hl ha ⟨h'.atSeq, h'.atHead, hp.hook⟩

theorem of_beginReplay (h : Sourced cfg s) (hx : s.AtSeq cfg)
    (hev : cfg.registration.ctor.Evented)
    (hl : Lifecycle (s.beginReplay env).flow.toLife)
    (ha : s.host.activated = false) :
    EventSourcing cfg (s.beginReplay env) := by
  have hes : s.host.cls.isEs = true := by rw [h.cls]; exact hev.isEs
  unfold Sys.beginReplay at hl ⊢
  rw [if_pos hes] at hl ⊢
  exact opened h hl ha hx

theorem of_beginOnInit (h : Sourced cfg s) (hx : s.AtSeq cfg)
    (hev : cfg.registration.ctor.Evented)
    (hl : Lifecycle (s.beginOnInit env).flow.toLife)
    (ha : s.host.activated = false) :
    EventSourcing cfg (s.beginOnInit env) := by
  unfold Sys.beginOnInit at hl ⊢
  split at hl
  · exact of_beginReplay (s := s.boundary)
      (h.frame rfl rfl rfl rfl rfl rfl rfl rfl) hx hev hl ha
  · next f hf =>
    have hp : (f env s.host.state).Keeps :=
      hev.onInit f (h.cls ▸ hf) _ _
    have h' : Sourced cfg (s.runSegment (f env s.host.state)) :=
      h.frame rfl rfl rfl (hp.objs s) rfl rfl rfl rfl
    refine opened h' hl ha ⟨?_, hp.hook⟩
    show Reaches _ s.store.events s.host.currentSeq
      (s.runSegment (f env s.host.state)).host.objs.read
    rw [hp.objs s]
    exact hx

/-- A snapshot, or nothing, is what the version of the class is chosen
by. -/
theorem resolveCtor_eq {snap : Option (SnapshotRead S)} {ok : Bool}
    (h : ∀ sn, snap = some sn → sn.version = cfg.registration.version) :
    cfg.resolveCtor (snap.map SnapshotRead.version) ok
      = .ok ⟨cfg.registration.ctor, cfg.registration.version, false⟩ := by
  unfold HostConfig.resolveCtor
  cases snap with
  | none => rfl
  | some sn => simp only [Option.map_some, h sn rfl, if_true]

/-- **The replay brings the state to the head of the log.** -/
theorem of_replay (h : Sourced cfg s) (hx : s.AtSeq cfg)
    (hev : cfg.registration.ctor.Evented) (hl : Lifecycle s'.flow.toLife)
    (ha : s.host.activated = false) (hs : s.replay cfg env = s') :
    EventSourcing cfg s' := by
  obtain ⟨y, hy, c, hloop⟩ := h.replayLoop_eq hx
  have hS := Settled.of_replayed h hy { s.host.metrics with
    eventsReplayed := s.host.metrics.eventsReplayed + c } c
    (s.host.snapshotDirty
      || decide (cfg.registration.snapshotEveryNEvents ≤ c))
  unfold Sys.replay at hs
  rw [hloop] at hs
  dsimp only at hs
  split at hs
  · subst hs
    have h' := hS.flush hev
    exact opened h'.sourced hl ha ⟨h'.atSeq, h'.atHead⟩
  · subst hs
    exact of_beginOnActivate hS hev hl ha

/-- A step beside the state. -/
theorem of_beside (h : EventSourcing cfg s) (hb : Beside s s') :
    EventSourcing cfg s' := by
  have hsrc : Sourced cfg s' := h.sourced.frame hb.cls hb.runningVersion
    hb.snapshotTimer hb.objs hb.saves hb.row hb.snapshots hb.events
  have hhead : s'.store.headEventSeq = s.store.headEventSeq := by
    unfold ActorStore.headEventSeq
    rw [hb.events]
  have hseq : s'.AtSeq cfg ↔ s.AtSeq cfg := by
    unfold Sys.AtSeq Host.state
    rw [hb.events, hb.currentSeq, hb.objs]
  have hat : s'.AtHead ↔ s.AtHead := by
    unfold Sys.AtHead
    rw [hb.currentSeq, hhead]
  have happ : ∀ g, (s'.host.workers g).isAppended = true
      ↔ (s.host.workers g).isAppended = true :=
    hb.workers_iff (P := fun pc => pc.isAppended = true)
      (by simp [WorkerPc.isAppended]) (by simp [WorkerPc.isAppended])
      (by simp [WorkerPc.isAppended])
  refine ⟨hsrc, fun pc hpc => ?_, fun g => ?_, fun d hd => ?_,
    fun ha => hseq.mpr (h.serving (hb.activated ▸ ha)), fun ha hn => ?_⟩
  · cases hpb : pc.beside with
    | true =>
      revert hpb
      cases pc <;> simp [ActPc.beside, ActPc.Fits]
    | false =>
      have hfits := h.opening pc (hb.activating_eq hpc hpb)
      revert hfits
      unfold ActPc.Fits SnapshotRead.Fits
      rw [hb.events, hseq, hat]
      exact id
  · rcases hb.workers g with he | ⟨-, ⟨item, he⟩ | he⟩
    · rw [he]
      have hfits := h.working g
      revert hfits
      unfold WorkerPc.Fits Host.state
      rw [hhead, hb.objs, hb.events]
      exact id
    · rw [he]
      trivial
    · rw [he]
      trivial
  · rcases hb.deactivating with he | ⟨-, g, idle, he⟩
    · exact h.ending d (he ▸ hd)
    · obtain rfl := Option.some.inj (he.symm.trans hd)
      trivial
  · refine hat.mpr (h.head (hb.activated ▸ ha) (fun g => ?_))
    rw [Bool.eq_false_iff, Ne, ← happ g]
    exact Bool.eq_false_iff.mp (hn g)

/-- **A segment of an activation.** -/
theorem of_actStep {ok : Bool} (h : EventSourcing cfg s)
    (hl : Lifecycle s.flow.toLife) (hl' : Lifecycle s'.flow.toLife)
    (hev : cfg.registration.ctor.Evented)
    (hs : s.actStep cfg env ok = some s') : EventSourcing cfg s' := by
  rcases Sys.beside_or_opens hl hs with hb | ⟨ha, pc, hpc, ht, hseg⟩
  · exact h.of_beside hb
  have hfits := h.opening pc hpc
  have hsrc := h.sourced
  have hes : s.host.cls.isEs = true := by rw [hsrc.cls]; exact hev.isEs
  -- the instance is constructed with the state `x`
  have hcons : ∀ x, Sourced cfg (s.construct
      ⟨cfg.registration.ctor, cfg.registration.version, false⟩ x) :=
    fun x => hsrc.assign hsrc.cls.symm rfl rfl rfl rfl rfl rfl
  cases hseg with
  | failed e => exact opened hsrc hl' ha trivial
  | loadSnapshot => exact opened hsrc hl' ha (fun sn hsn => hsrc.logged.load hsn)
  | resolveCtor hr =>
    rw [resolveCtor_eq (fun sn hsn => (hfits sn hsn).1)] at hr
    obtain rfl := Except.ok.inj hr
    exact opened (hsrc.frame rfl hsrc.version.symm rfl rfl rfl rfl rfl rfl) hl' ha
      ⟨hfits, rfl⟩
  | blank =>
    obtain ⟨-, rfl⟩ := hfits
    exact opened (hcons _) hl' ha trivial
  | migrates _ hm =>
    obtain ⟨-, rfl⟩ := hfits
    exact absurd hm (by simp)
  | @loaded snap =>
    obtain ⟨hsnap, rfl⟩ := hfits
    refine of_beginReplay ((hcons snap.state).frame rfl rfl rfl rfl rfl rfl rfl rfl)
      ?_ hev hl' ha
    show Reaches _ s.store.events snap.seq (s.host.objs.assign snap.state).read
    rw [Objects.read_assign]
    exact (hsnap snap rfl).2
  | registerEs =>
    have hreg : Sourced cfg (s.withRow cfg) := by
      refine ⟨hsrc.cls, hsrc.version, hsrc.timer, ?_, hsrc.saves⟩
      show Logged _ (s.store.registerActor _ s.host.runningVersion)
      rw [hsrc.version]
      exact hsrc.logged.register _
    refine of_beginOnInit (hreg.assign rfl rfl rfl rfl rfl rfl rfl) ?_ hev hl' ha
    show Reaches _ s.store.events 0 (s.host.objs.assign s.host.cls.initialState).read
    rw [Objects.read_assign, hsrc.cls]
    exact Reaches.zero
  | register _ hn => exact absurd (hes.symm.trans hn) (by simp)
  | @onInit rest =>
    obtain ⟨hx, hp⟩ := hfits
    have hsrc' : Sourced cfg (s.runSegment rest) :=
      hsrc.frame rfl rfl rfl (Script.Keeps.objs hp s) rfl rfl rfl rfl
    refine opened hsrc' hl' ha ⟨?_, Script.Keeps.hook hp⟩
    show Reaches _ s.store.events s.host.currentSeq (s.runSegment rest).host.objs.read
    rw [Script.Keeps.objs hp s]
    exact hx
  | initialized => exact of_beginReplay hsrc hfits.1 hev hl' ha
  | noMigrate | retained | migrated | migrateFlushed | audited => exact hfits.elim
  | upToDate _ hle =>
    have hx : s.AtSeq cfg := hfits
    have hhead : s.AtHead := by
      obtain ⟨m, hm, hlen, -⟩ := hx
      unfold Sys.AtHead
      rw [ActorStore.headEventSeq] at hle ⊢
      omega
    exact of_beginOnActivate ⟨hsrc, hfits, hhead⟩ hev hl' ha
  | behind => exact opened hsrc hl' ha hfits
  | replayed => exact of_replay hsrc hfits hev hl' ha rfl
  | replayFlushed =>
    have hS : Settled cfg s.afterFlush :=
      Settled.frame ⟨hsrc, hfits.1, hfits.2⟩ rfl rfl rfl rfl rfl rfl rfl rfl rfl
    exact of_beginOnActivate hS hev hl' ha
  | onActivate =>
    obtain ⟨hx, hhead, hp⟩ := hfits
    have h' := Settled.runSegment ⟨hsrc, hx, hhead⟩ hp
    exact opened h'.sourced hl' ha ⟨h'.atSeq, h'.atHead, Script.Keeps.hook hp⟩
  | activated => exact of_becomeActivated ⟨hsrc, hfits.1, hfits.2.1⟩ hl'
  | inboxFailed | readInbox | replayInbox | settled =>
    exact absurd ht (by simp [ActPc.through])

end EventSourcing

/-! ## The steps of a deactivation -/

namespace EventSourcing

variable {cfg : HostConfig S Env Op} {s s' : Sys S Env Op} {env : Env}

/-- **Once the worker has returned** only the deactivation is left. -/
theorem late (h : Settled cfg s) (hl : Lifecycle s.flow.toLife)
    {d : Deactivation S} (hd : s.host.deactivating = some d)
    (hne : ∀ g, d.pc ≠ .awaitWorker g) (hk : d.pc.Keeps) :
    EventSourcing cfg s where
  sourced := h.sourced
  opening pc hpc := by
    have hb := hl.beside (hl.activated_of_deact hd) hpc
    revert hb
    cases pc <;> simp [ActPc.beside, ActPc.Fits]
  working g := by
    have hdead := hl.dead_of_deact hd hne g
    revert hdead
    cases s.host.workers g <;>
      simp [WorkerPc.stage, WorkerStage.alive, WorkerPc.Fits]
  ending d' hd' := by
    obtain rfl := Option.some.inj (hd.symm.trans hd')
    exact hk
  serving _ := h.atSeq
  head _ _ := h.atHead

theorem of_beginOnDeactivate (h : Settled cfg s)
    (hev : cfg.registration.ctor.Evented) {idle : Bool}
    (hl : Lifecycle s'.flow.toLife) (hs : s.beginOnDeactivate env idle = s') :
    EventSourcing cfg s' := by
  unfold Sys.beginOnDeactivate at hs
  split at hs
  · next i f hi hf =>
    subst hs
    have hp : (f env s.host.state).Keeps :=
      hev.onDeactivate f (h.sourced.cls ▸ hf) _ _
    exact late ((h.runSegment hp).frame rfl rfl rfl rfl rfl rfl rfl rfl rfl) hl
      rfl (by simp) hp.hook
  · subst hs
    exact late (h.frame rfl rfl rfl rfl rfl rfl rfl rfl rfl) hl rfl (by simp)
      trivial

/-- **A segment of a deactivation.** -/
theorem of_deactStep (h : EventSourcing cfg s) (hl : Lifecycle s.flow.toLife)
    (hl' : Lifecycle s'.flow.toLife) (hev : cfg.registration.ctor.Evented)
    (hs : s.deactStep env = some s') : EventSourcing cfg s' := by
  obtain ⟨pc, idle, hd, hseg⟩ := Sys.deactSegment hs
  have ha := hl.activated_of_deact hd
  have hsettled : (∀ g, (s.host.workers g).stage.alive = false) →
      Settled cfg s := fun hdead => h.settled ha (fun g => by
    have := hdead g
    revert this
    cases s.host.workers g <;>
      simp [WorkerPc.stage, WorkerStage.alive, WorkerPc.isAppended])
  have htimer : ∀ {g}, s.host.workers g = .done → pc = .awaitWorker g →
      Settled cfg { s with host := { s.host with snapshotTimer := false } } := by
    rintro g hw rfl
    have hS := hsettled (hl.dead_of_done hd hw)
    exact hS.frame rfl rfl hS.sourced.timer.symm rfl rfl rfl rfl rfl rfl
  have hlate : (∀ g, pc ≠ .awaitWorker g) → Settled cfg s := fun hne =>
    hsettled (hl.dead_of_deact hd hne)
  have hk := h.ending _ hd
  cases hseg with
  | flush hw =>
    exact late (((htimer hw rfl).flush hev).frame rfl rfl rfl rfl rfl rfl rfl rfl rfl)
      hl' rfl (by simp) trivial
  | unflushed hw => exact of_beginOnDeactivate (htimer hw rfl) hev hl' rfl
  | flushed =>
    have hS : Settled cfg s.afterFlush :=
      (hlate (by simp)).frame rfl rfl rfl rfl rfl rfl rfl rfl rfl
    exact of_beginOnDeactivate hS hev hl' rfl
  | flushFailed | threw | dropped =>
    exact late ((hlate (by simp)).frame rfl rfl rfl rfl rfl rfl rfl rfl rfl) hl' rfl
      (by simp) trivial
  | onDeactivate =>
    exact late (((hlate (by simp)).runSegment hk).frame rfl rfl rfl rfl rfl rfl rfl rfl rfl)
      hl' rfl (by simp) (Script.Keeps.hook hk)
  | settled =>
    refine early hl' rfl (h.sourced.frame rfl rfl rfl rfl rfl rfl rfl rfl)
      (fun pc hpc => ?_)
    have hb := hl.beside ha hpc
    revert hb
    cases pc <;> simp [ActPc.beside, ActPc.Fits]

/-! ## Runs -/

/-- A step that touches only what is sent to subscribers. -/
theorem of_subscribers (h : EventSourcing cfg s) (ls : List ℕ)
    (hist : History S Op) :
    EventSourcing cfg { s with
      host := { s.host with commitListeners := ls }
      hist := hist } where
  sourced := h.sourced.frame rfl rfl rfl rfl rfl rfl rfl rfl
  opening := h.opening
  working := h.working
  ending := h.ending
  serving := h.serving
  head := h.head

/-- The driver moves on with a snapshot write. -/
theorem of_saveStep {k : ℕ} {ok : Bool} (h : EventSourcing cfg s)
    (hs : s.saveStep k ok = some s') : EventSourcing cfg s' := by
  have hsrc := h.sourced.saveStep hs
  -- only the write, and the snapshots stored, are different
  have hframe : ∃ saves snapshots,
      s' = { s with
        host := { s.host with saves := saves }
        store := { s.store with snapshots := snapshots } } := by
    unfold Sys.saveStep at hs
    split at hs
    · split at hs <;> obtain rfl := Option.some.inj hs <;>
        exact ⟨_, s.store.snapshots, rfl⟩
    · split at hs <;> obtain rfl := Option.some.inj hs
      · exact ⟨_, _, rfl⟩
      · exact ⟨_, s.store.snapshots, rfl⟩
    · exact absurd hs (by simp)
  obtain ⟨saves, snapshots, rfl⟩ := hframe
  exact ⟨hsrc, h.opening, h.working, h.ending, h.serving, h.head⟩

/-- **One step of a host keeps the state what the log folds to**, under its
condition. -/
theorem step [DecidableEq S] {a : Act Env} (h : EventSourcing cfg s)
    (hl : Lifecycle s.flow.toLife) (hev : cfg.registration.ctor.Evented)
    (hG : s.keepsLog a = true) (hs : s.step cfg a = some s') :
    EventSourcing cfg s' := by
  have hl' : Lifecycle s'.flow.toLife := hl.of_moves (Sys.flow_step hs)
  cases a with
  | activation env ok => exact h.of_actStep hl hl' hev hs
  | worker g env ok => exact h.of_workerStep hl hl' hev hG hs
  | deactivation env => exact h.of_deactStep hl hl' hev hs
  | snapshotFire =>
    -- the debounce timer is never armed
    rw [Sys.step, Sys.snapshotFire, h.sourced.timer] at hs
    exact absurd hs (by simp)
  | save k ok => exact h.of_saveStep hs
  | subscribe l =>
    rw [Sys.step] at hs
    unfold Sys.subscribe at hs
    split at hs
    · exact absurd hs (by simp)
    · obtain rfl := Option.some.inj hs
      exact h.of_subscribers _ _
  | unsubscribe l =>
    obtain rfl := Option.some.inj hs
    exact h.of_subscribers _ s.hist
  | notifyTombstone =>
    obtain rfl := Option.some.inj hs
    exact h.of_subscribers _ _
  | _ => exact h.of_beside (Sys.beside_step hl rfl hs)

/-- A host that was just constructed. -/
theorem init (cfg : HostConfig S Env Op) {store : ActorStore S}
    (h : Logged cfg.registration store) :
    EventSourcing cfg (.init cfg store) where
  sourced := ⟨rfl, rfl, rfl, h,
    fun sv hsv => absurd hsv (by simp [Sys.init, Host.init])⟩
  opening pc hpc := absurd hpc (by simp [Sys.init, Host.init])
  working g := trivial
  ending d hd := absurd hd (by simp [Sys.init, Host.init])
  serving ha := absurd ha (by simp [Sys.init, Host.init])
  head ha := absurd ha (by simp [Sys.init, Host.init])

/-- **A run of a host** over what storage holds of an event-sourced actor. -/
theorem run [DecidableEq S] (hev : cfg.registration.ctor.Evented)
    {store : ActorStore S} (h : Logged cfg.registration store)
    {as : List (Act Env)}
    (hG : TransitionSystem.Along (Sys.step cfg)
      (fun s a => s.keepsLog a = true) (.init cfg store) as)
    (hs : TransitionSystem.run (Sys.step cfg) (.init cfg store) as = some s) :
    EventSourcing cfg s :=
  (TransitionSystem.run_invariant (Sys.step cfg)
    (P := fun s => Lifecycle s.flow.toLife ∧ EventSourcing cfg s)
    (fun _ _ _ h hG hs => ⟨h.1.of_moves (Sys.flow_step hs),
      h.2.step h.1 hev hG hs⟩)
    ⟨.init cfg store, .init cfg h⟩ hG hs).2

end EventSourcing

/-! ## Rebuilding the state

A crash keeps the log. What a replay makes of it is what the host that crashed
had, or would have had once its fold was done. -/

/-- No batch is between its append and its fold. -/
def Sys.folded (s : Sys S Env Op) : Bool :=
  match s.host.workerPromise with
  | none => true
  | some g => !(s.host.workers g).isAppended

/-- The condition, of a step in the lives of an actor. -/
def Lives.keepsLog [DecidableEq S] (l : Lives S Env Op) : Fate Env → Bool
  | .act a => l.sys.keepsLog a
  | .crash => true

/-- **Replay equals live execution**, of one state of an activated host. -/
structure ReplayEqualsLive [DecidableEq S] (cfg : HostConfig S Env Op)
    (s : Sys S Env Op) : Prop where
  /-- `currentSeq` is the head of the log. -/
  head : s.host.currentSeq = s.store.headEventSeq
  /-- A new host over the same storage, once it is activated and before it
  has appended anything, has the same state. -/
  rebuilt : ∀ (as : List (Act Env)) (t : Sys S Env Op),
    TransitionSystem.Along (Sys.step cfg) (fun s a => s.keepsLog a = true)
      (.init cfg s.store) as →
    TransitionSystem.run (Sys.step cfg) (.init cfg s.store) as = some t →
    t.host.activated = true → t.folded = true →
    t.store.events = s.store.events →
    t.host.state = s.host.state ∧ t.host.currentSeq = s.host.currentSeq
  /-- No replay of a new host throws. -/
  replays : ∀ (as : List (Act Env)) (t : Sys S Env Op),
    TransitionSystem.Along (Sys.step cfg) (fun s a => s.keepsLog a = true)
      (.init cfg s.store) as →
    TransitionSystem.run (Sys.step cfg) (.init cfg s.store) as = some t →
    t.host.activating = some .readEvents →
    (Sys.replayLoop t.host.cls cfg.registration.version
      ⟨t.host.state, t.host.currentSeq, 0, none⟩
      (t.store.readEvents (t.host.currentSeq + 1))).thrown = none

namespace EventSourcing

variable {cfg : HostConfig S Env Op} {s : Sys S Env Op}

/-- The worker of the current activation is the only one that can have
appended a batch. -/
theorem settled_of_folded (h : EventSourcing cfg s)
    (hl : Lifecycle s.flow.toLife) (ha : s.host.activated = true)
    (hf : s.folded = true) : Settled cfg s := by
  refine h.settled ha (fun g => ?_)
  by_contra happ
  have hlive : (s.host.workers g).stage.alive = true := by
    revert happ
    cases s.host.workers g <;>
      simp [WorkerPc.stage, WorkerStage.alive, WorkerPc.isAppended]
  have hp : s.host.workerPromise = some g := (hl.alive g hlive).2
  rw [Sys.folded, hp] at hf
  exact happ (by simpa using hf)

end EventSourcing

/-- **Replay equals live execution** in all lives of an actor whose class
writes its state by `reduce` alone, as long as `reduce` makes the same of the
payloads logged as of the events its handlers returned. -/
theorem replay_equals_live [DecidableEq S] (cfg : HostConfig S Env Op)
    (hev : cfg.registration.ctor.Evented) {xs : List (Fate Env)}
    {l : Lives S Env Op}
    (hG : TransitionSystem.Along (Lives.step cfg)
      (fun l x => l.keepsLog x = true) (.init cfg) xs)
    (hs : TransitionSystem.run (Lives.step cfg) (.init cfg) xs = some l)
    (ha : l.sys.host.activated = true) (hf : l.sys.folded = true) :
    ReplayEqualsLive cfg l.sys := by
  obtain ⟨hl, h⟩ := Lives.run_invariant
    (P := fun s => Lifecycle s.flow.toLife ∧ EventSourcing cfg s)
    (fun _ _ _ h hG hs => ⟨h.1.of_moves (Sys.flow_step hs),
      h.2.step h.1 hev hG hs⟩)
    (fun s h => ⟨.init cfg s.store, .init cfg h.2.sourced.logged⟩)
    ⟨.init cfg .empty, .init cfg (.empty cfg.registration)⟩ hG hs
  have hS := h.settled_of_folded hl ha hf
  refine ⟨hS.atHead, fun as t hGt ht hta htf hte => ?_,
    fun as t hGt ht hpc => ?_⟩
  · have hT := (EventSourcing.run hev h.sourced.logged hGt ht).settled_of_folded
      (Sys.lifecycle_run ht) hta htf
    have hfold := hT.fold
    rw [hte, hS.fold] at hfold
    refine ⟨(Except.ok.inj hfold).symm, ?_⟩
    rw [show t.host.currentSeq = _ from hT.atHead,
      show l.sys.host.currentSeq = _ from hS.atHead,
      ActorStore.headEventSeq, ActorStore.headEventSeq, hte]
  · have hT := EventSourcing.run hev h.sourced.logged hGt ht
    obtain ⟨y, -, c, hloop⟩ := hT.sourced.replayLoop_eq (hT.opening _ hpc)
    rw [hloop]

/-! ## A ledger -/

namespace Ledger

/-- The amount an event, or its payload, names. -/
def amount (e : Json) : ℤ :=
  match e.get? "amount" with
  | some (.num n) => n
  | _ => 0

/-- A `reduce` that adds the amount. -/
def byAmount (balance : ℤ) (e : Json) : Except Json ℤ := .ok (balance + amount e)

/-- A `reduce` that switches on the type of the event. -/
def byType (balance : ℤ) (e : Json) : Except Json ℤ :=
  match e.get? "type" with
  | some (.str type) =>
    if type = "Deposited" then .ok (balance + amount e)
    else if type = "Withdrawn" then .ok (balance - amount e)
    else .ok balance
  | _ => .ok balance

/-- A ledger to which one can be deposited. -/
def cls (reduce : ℤ → Json → Except Json ℤ) : ActorClass ℤ Unit where
  isEs := true
  blank := 0
  initialState := 0
  reduce := reduce
  migrateEvent := none
  handlers := fun name =>
    if name = "deposit" then
      some (fun _ _ _ => .ret .keep
        (.arr [.obj [("type", .str "Deposited"), ("amount", .num 1)]]))
    else none
  onInit := none
  onActivate := none
  onDeactivate := none
  migrate := none
  snapshot := none

/-- A host of the ledger. -/
def cfg (reduce : ℤ → Json → Except Json ℤ) : HostConfig ℤ Unit Unit where
  id := "ledger-1"
  registration :=
    { name := "Ledger"
      version := "1.0.0"
      ctor := cls reduce }
  loader := none
  gt := fun _ _ => false
  compare := fun _ _ => []

theorem evented (reduce : ℤ → Json → Except Json ℤ) :
    (cfg reduce).registration.ctor.Evented where
  isEs := rfl
  handlers name handler h env x input := by
    change (if name = "deposit" then _ else _) = some handler at h
    split at h
    · obtain rfl := Option.some.inj h
      exact rfl
    · exact absurd h (by simp)
  onInit _ h := absurd h (by simp [cfg, cls])
  onActivate _ h := absurd h (by simp [cfg, cls])
  onDeactivate _ h := absurd h (by simp [cfg, cls])
  snapshot _ h := absurd h (by simp [cfg, cls])

/-- `n` segments of `doActivate`, in all of which everything goes well. -/
def activating (n : ℕ) : List (Act Unit) :=
  .activate :: List.replicate n (.activation () true)

/-- An activation of an actor that storage has never heard of, and one
deposit. -/
def deposited : List (Act Unit) :=
  activating 8 ++ [.callStart 0 "deposit" .null]
    ++ List.replicate 6 (.worker 1 () true)

/-- What storage holds after that deposit. -/
def store : ActorStore ℤ where
  row := some ⟨"Ledger", "1.0.0", false⟩
  snapshots := []
  events := [⟨"1.0.0", "Deposited", .obj [("amount", .num 1)]⟩]
  inbox := []
  acked := []

end Ledger

/-- The theorem applies to a deposit that a crash, and another activation,
follow: the balance is there again. -/
theorem replay_equals_live_deposited :
    ∃ l, TransitionSystem.run (Lives.step (Ledger.cfg Ledger.byAmount))
        (.init (Ledger.cfg Ledger.byAmount))
        (Ledger.deposited.map .act ++ [.crash]
          ++ (Ledger.activating 9).map .act) = some l
      ∧ l.sys.host.state = 1 ∧ ReplayEqualsLive (Ledger.cfg Ledger.byAmount) l.sys := by
  have hrun : (TransitionSystem.run (Lives.step (Ledger.cfg Ledger.byAmount))
      (.init (Ledger.cfg Ledger.byAmount))
      (Ledger.deposited.map .act ++ [.crash]
        ++ (Ledger.activating 9).map .act)).any
        (fun l => l.sys.host.activated && l.sys.folded
          && l.sys.host.state == 1) = true := by decide
  obtain ⟨l, hl, hr⟩ := (Option.any_eq_true _ _).mp hrun
  simp only [Bool.and_eq_true, beq_iff_eq] at hr
  exact ⟨l, hl, hr.2, replay_equals_live _ (Ledger.evented _) (by decide) hl
    hr.1.1 hr.1.2⟩

/-- **A `reduce` that looks at the type of an event** makes nothing of its
payload, and what was deposited is gone after a cold start. -/
theorem not_replay_equals_live :
    ¬∀ (xs : List (Fate Unit)) (l : Lives ℤ Unit Unit),
      TransitionSystem.run (Lives.step (Ledger.cfg Ledger.byType))
        (.init (Ledger.cfg Ledger.byType)) xs = some l →
      l.sys.host.activated = true → l.sys.folded = true →
      ReplayEqualsLive (Ledger.cfg Ledger.byType) l.sys := by
  intro h
  have hrun : (TransitionSystem.run (Lives.step (Ledger.cfg Ledger.byType))
      (.init (Ledger.cfg Ledger.byType)) (Ledger.deposited.map .act)).any
      (fun l => l.sys.host.activated && l.sys.folded
        && l.sys.host.state == 1) = true := by decide
  obtain ⟨l, hl, hr⟩ := (Option.any_eq_true _ _).mp hrun
  simp only [Bool.and_eq_true, beq_iff_eq] at hr
  obtain ⟨⟨ha, hf⟩, hone⟩ := hr
  -- what the deposit left in storage
  have hstore : (TransitionSystem.run (Lives.step (Ledger.cfg Ledger.byType))
      (.init (Ledger.cfg Ledger.byType)) (Ledger.deposited.map .act)).map
        (fun l => l.sys.store) = some Ledger.store := rfl
  rw [hl] at hstore
  have hstore : l.sys.store = Ledger.store := Option.some.inj hstore
  have hcold : (TransitionSystem.run (Sys.step (Ledger.cfg Ledger.byType))
      (.init (Ledger.cfg Ledger.byType) Ledger.store)
      (Ledger.activating 9)).any (fun t => t.host.activated && t.folded
        && t.host.state == 0) = true := by decide
  obtain ⟨t, ht, hr⟩ := (Option.any_eq_true _ _).mp hcold
  simp only [Bool.and_eq_true, beq_iff_eq] at hr
  obtain ⟨⟨hta, htf⟩, hzero⟩ := hr
  have hevents : (TransitionSystem.run (Sys.step (Ledger.cfg Ledger.byType))
      (.init (Ledger.cfg Ledger.byType) Ledger.store)
      (Ledger.activating 9)).map (fun t => t.store.events)
        = some Ledger.store.events := rfl
  rw [ht] at hevents
  have hsame := ((h _ l hl ha hf).rebuilt (Ledger.activating 9) t
    (by rw [hstore]; decide) (by rw [hstore]; exact ht) hta htf
    (by rw [hstore]; exact Option.some.inj hevents)).1
  rw [hzero, hone] at hsame
  exact absurd hsame (by decide)
