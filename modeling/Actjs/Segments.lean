import Actjs.HostStep

/-!
# What a segment comes to

`actStep`, `workerStep` and `deactStep` are written the way the source is: a
match on the await that a function is suspended at, and below it what the
function goes on to do, with the tests it makes on the way. A proof that
something survives every step would have to make all these tests again, and
so would the next one.

Here they are made once. `ActSegment`, `WorkerSegment` and `DeactSegment` list,
await by await, the states that a segment can end in, each with what it was
decided by: that the storage operation has succeeded, what was thrown, how a
snapshot write has ended. `Sys.actSegment`, `Sys.workerSegment` and
`Sys.deactSegment` say that the list is complete. An invariant then has one case
for each way a segment can end, and no case that is ruled out.

## Failure

Most awaits can end badly in the same way. `doActivate` throws, whatever it
was at, and a turn is caught in `handle`. Each list has one entry for all of
these, `failed`, which keeps the one thing that differs: where it was a
snapshot write that was awaited, that one has ended in a failure.
-/

open Function (update)

variable {S Env Op : Type}

/-! ## An activation -/

/-- The snapshot write the activation awaits. -/
def ActPc.awaits : ActPc S Env → Option ℕ
  | retain _ k => some k
  | migrateFlush k => some k
  | replayFlush k => some k
  | _ => none

/-- The activation is through with the state: it reads the inbox, or ends. -/
def ActPc.through : ActPc S Env → Bool
  | readInbox => true
  | replayInbox _ => true
  | finishing _ => true
  | _ => false

/-- **What makes `doActivate` throw**, by the await it is at. -/
def ActPc.Throws (s : Sys S Env Op) (ok : Bool) : ActPc S Env → Prop
  | resolveCtor _ | onInit _ | migrate _ | onActivate _ => True
  | retain _ k | migrateFlush k | replayFlush k => s.host.saveResult k = some false
  | noMigrate | readInbox | replayInbox _ | finishing _ => False
  | _ => ok = false

theorem ActPc.Throws.through {s : Sys S Env Op} {ok : Bool} {pc : ActPc S Env}
    (h : pc.Throws s ok) : pc.through = false := by
  cases pc <;> first | rfl | exact h.elim

theorem ActPc.Throws.saveResult {s : Sys S Env Op} {ok : Bool} {pc : ActPc S Env} {k : ℕ}
    (h : pc.Throws s ok) (hk : pc.awaits = some k) : s.host.saveResult k = some false := by
  cases pc <;> first | exact Option.some.inj hk ▸ h | exact absurd hk (by simp [awaits])

namespace Sys

/-- The host once a snapshot is loaded: a new instance over the state that was
read, at the seq it was written at. -/
def loaded (s : Sys S Env Op) (r : Resolved S Env) (snap : SnapshotRead S) :
    Sys S Env Op :=
  let s := s.construct r snap.state
  { s with host := { s.host with currentSeq := snap.seq } }.boundary

/-- The host once a snapshot write it has awaited is done. -/
def afterFlush (s : Sys S Env Op) : Sys S Env Op := { s with host := s.host.flushed }

/-- The host once its actor has a row. -/
def withRow (cfg : HostConfig S Env Op) (s : Sys S Env Op) : Sys S Env Op :=
  { s with
    store := s.store.registerActor cfg.registration.name s.host.runningVersion }

/-- **What a segment of `doActivate` comes to**, by the await it goes on from. -/
inductive ActSegment (cfg : HostConfig S Env Op) (s : Sys S Env Op) (env : Env)
    (ok : Bool) : ActPc S Env → Sys S Env Op → Prop
  /-- What was awaited has failed, or user code has thrown. -/
  | failed {pc : ActPc S Env} (e : HostError) : pc.Throws s ok →
      ActSegment cfg s env ok pc (s.activationFailed e)
  | loadSnapshot : ok = true → ActSegment cfg s env ok .loadSnapshot
      (s.setActivating (.resolveCtor s.store.loadSnapshot))
  | resolveCtor {snap : Option (SnapshotRead S)} {r : Resolved S Env} :
      cfg.resolveCtor (snap.map SnapshotRead.version) ok = .ok r →
      ActSegment cfg s env ok (.resolveCtor snap)
        ({ s with
          host := { s.host with runningVersion := r.runningVersion } }.setActivating
            (.loadFence snap r))
  /-- There is no snapshot. -/
  | blank {r : Resolved S Env} : ok = true → ActSegment cfg s env ok (.loadFence none r)
      ((s.construct r r.ctor.blank).setActivating .register)
  /-- There is one, of another version. -/
  | migrates {snap : SnapshotRead S} {r : Resolved S Env} : ok = true →
      r.willMigrateSnap = true → ActSegment cfg s env ok (.loadFence (some snap) r)
        ((s.loaded r snap).beginMigrate snap)
  | loaded {snap : SnapshotRead S} {r : Resolved S Env} : ok = true →
      r.willMigrateSnap = false → ActSegment cfg s env ok (.loadFence (some snap) r)
        ((s.loaded r snap).beginReplay env)
  | registerEs : ok = true → s.host.cls.isEs = true → ActSegment cfg s env ok .register
      ({ s.withRow cfg with
        host :=
          { s.host with
            objs := s.host.objs.assign s.host.cls.initialState
            currentSeq := 0 } }.beginOnInit env)
  | register : ok = true → s.host.cls.isEs = false →
      ActSegment cfg s env ok .register ((s.withRow cfg).beginOnInit env)
  | onInit {rest : Script S Unit} : ActSegment cfg s env ok (.onInit (.running rest))
      ((s.runSegment rest).setActivating (.onInit (.after rest)))
  | initialized {u : Unit} : ActSegment cfg s env ok (.onInit (.returned (.ok u)))
      (s.beginReplay env)
  | noMigrate : ActSegment cfg s env ok .noMigrate (s.beginReplay env)
  | retained {prev : SnapshotRead S} {k : ℕ} : s.host.saveResult k = some true →
      ActSegment cfg s env ok (.retain prev k) (s.setActivating (.migrate prev))
  | migrated {prev : SnapshotRead S} {f : Env → S → Version → Except Json S} {x : S} :
      s.host.cls.migrate = some f → f env prev.state prev.version = .ok x →
      ActSegment cfg s env ok (.migrate prev) (s.migrated x)
  | migrateFlushed {k : ℕ} : s.host.saveResult k = some true →
      ActSegment cfg s env ok (.migrateFlush k)
        (s.afterFlush.setActivating .audit)
  | audited : ok = true → ActSegment cfg s env ok .audit (s.beginReplay env)
  /-- The log has nothing that the snapshot has not. -/
  | upToDate : ok = true → s.store.headEventSeq ≤ s.host.currentSeq →
      ActSegment cfg s env ok .headSeq (s.beginOnActivate env)
  | behind : ok = true → ¬s.store.headEventSeq ≤ s.host.currentSeq →
      ActSegment cfg s env ok .headSeq (s.setActivating .readEvents)
  | replayed : ok = true → ActSegment cfg s env ok .readEvents (s.replay cfg env)
  | replayFlushed {k : ℕ} : s.host.saveResult k = some true →
      ActSegment cfg s env ok (.replayFlush k)
        (s.afterFlush.beginOnActivate env)
  | onActivate {rest : Script S Unit} :
      ActSegment cfg s env ok (.onActivate (.running rest))
        ((s.runSegment rest).setActivating (.onActivate (.after rest)))
  | activated {u : Unit} : ActSegment cfg s env ok (.onActivate (.returned (.ok u)))
      s.becomeActivated
  | inboxFailed : ok = false → ActSegment cfg s env ok .readInbox
      (s.activationFailed .storage)
  | readInbox : ok = true → ActSegment cfg s env ok .readInbox
      (s.setActivating (.replayInbox s.store.readPendingInbox))
  | replayInbox {pending : List InboxRecord} :
      ActSegment cfg s env ok (.replayInbox pending)
        ((s.enqueueAll pending).2.setActivating (.finishing (s.enqueueAll pending).1))
  | settled {o : Except HostError Unit} : ActSegment cfg s env ok (.finishing o)
      { s with
        host :=
          { s.host with
            activating := none
            outcome := update s.host.outcome s.host.activation (some o) } }

/-- The list is complete. -/
theorem actSegment {cfg : HostConfig S Env Op} {s s' : Sys S Env Op} {env : Env} {ok : Bool}
    (hs : s.actStep cfg env ok = some s') :
    ∃ pc, s.host.activating = some pc ∧ ActSegment cfg s env ok pc s' := by
  cases hpc : s.host.activating with
  | none => rw [actStep, hpc] at hs; exact absurd hs (by simp)
  | some pc =>
  refine ⟨pc, rfl, ?_⟩
  have hfail : ∀ {e}, some (s.activationFailed e) = some s' → pc.Throws s ok →
      ActSegment cfg s env ok pc s' := fun he ht => Option.some.inj he ▸ .failed _ ht
  unfold actStep at hs
  rw [hpc] at hs
  cases pc with
  | loadSnapshot =>
    dsimp only at hs
    split at hs
    · next hok => exact Option.some.inj hs ▸ .loadSnapshot hok
    · next hok => exact hfail hs (Bool.eq_false_iff.mpr hok)
  | resolveCtor snap =>
    dsimp only at hs
    split at hs
    · exact hfail hs trivial
    · next r hr => exact Option.some.inj hs ▸ .resolveCtor hr
  | loadFence snap r =>
    cases snap with
    | none =>
      dsimp only at hs
      split at hs
      · next hok => exact Option.some.inj hs ▸ .blank hok
      · next hok => exact hfail hs (Bool.eq_false_iff.mpr hok)
    | some snap =>
      dsimp only at hs
      split at hs
      · next hok =>
        split at hs
        · next hm => exact Option.some.inj hs ▸ .migrates hok hm
        · next hm => exact Option.some.inj hs ▸ .loaded hok (Bool.eq_false_iff.mpr hm)
      · next hok => exact hfail hs (Bool.eq_false_iff.mpr hok)
  | register =>
    dsimp only at hs
    split at hs
    · next hok =>
      split at hs
      · next hes => exact Option.some.inj hs ▸ .registerEs hok hes
      · next hes => exact Option.some.inj hs ▸ .register hok (Bool.eq_false_iff.mpr hes)
    · next hok => exact hfail hs (Bool.eq_false_iff.mpr hok)
  | onInit hook =>
    cases hook with
    | running rest => exact Option.some.inj hs ▸ .onInit
    | returned result =>
      cases result with
      | error e => exact hfail hs trivial
      | ok u => exact Option.some.inj hs ▸ .initialized
  | noMigrate => exact Option.some.inj hs ▸ .noMigrate
  | retain prev k =>
    dsimp only at hs
    split at hs
    · exact absurd hs (by simp)
    · next hr => exact Option.some.inj hs ▸ .retained hr
    · next hr => exact hfail hs hr
  | migrate prev =>
    dsimp only at hs
    split at hs
    · exact absurd hs (by simp)
    · next f hf =>
      split at hs
      · exact hfail hs trivial
      · next x hx => exact Option.some.inj hs ▸ .migrated hf hx
  | migrateFlush k =>
    dsimp only at hs
    split at hs
    · exact absurd hs (by simp)
    · next hr => exact Option.some.inj hs ▸ .migrateFlushed hr
    · next hr => exact hfail hs hr
  | audit =>
    dsimp only at hs
    split at hs
    · next hok => exact Option.some.inj hs ▸ .audited hok
    · next hok => exact hfail hs (Bool.eq_false_iff.mpr hok)
  | headSeq =>
    dsimp only at hs
    split at hs
    · next hok =>
      split at hs
      · next hle => exact Option.some.inj hs ▸ .upToDate hok hle
      · next hle => exact Option.some.inj hs ▸ .behind hok hle
    · next hok => exact hfail hs (Bool.eq_false_iff.mpr hok)
  | readEvents =>
    dsimp only at hs
    split at hs
    · next hok => exact Option.some.inj hs ▸ .replayed hok
    · next hok => exact hfail hs (Bool.eq_false_iff.mpr hok)
  | replayFlush k =>
    dsimp only at hs
    split at hs
    · exact absurd hs (by simp)
    · next hr => exact Option.some.inj hs ▸ .replayFlushed hr
    · next hr => exact hfail hs hr
  | onActivate hook =>
    cases hook with
    | running rest => exact Option.some.inj hs ▸ .onActivate
    | returned result =>
      cases result with
      | error e => exact hfail hs trivial
      | ok u => exact Option.some.inj hs ▸ .activated
  | readInbox =>
    dsimp only at hs
    split at hs
    · next hok => exact Option.some.inj hs ▸ .readInbox hok
    · next hok => exact Option.some.inj hs ▸ .inboxFailed (Bool.eq_false_iff.mpr hok)
  | replayInbox pending => exact Option.some.inj hs ▸ .replayInbox
  | finishing o => exact Option.some.inj hs ▸ .settled

/-! ## A turn -/

/-- The host once an item is handed out. -/
def taking (s : Sys S Env Op) (item : Item) : Sys S Env Op :=
  { s with hist := { s.hist with taken := s.hist.taken ++ [item] } }

/-- And its handler is about to run. -/
def starting (s : Sys S Env Op) (item : Item) : Sys S Env Op :=
  { s.taking item with host := { s.host with prevStateCapture := capture s.host } }

/-- The host once an inbox entry is acked. -/
def afterAck (s : Sys S Env Op) (id : ℕ) : Sys S Env Op :=
  { s with store := s.store.ackInbox id }

/-- The host once the events of a turn are folded into the state. -/
def afterFold (s : Sys S Env Op) (events : List Json) (seq : ℤ) (state : S) : Sys S Env Op :=
  { s with host := foldedHost s.host events seq state }.boundary

/-- **What makes a turn fail**, by the point it is at. -/
def Fails (s : Sys S Env Op) (ok : Bool) : WorkerPc S → Item → Prop
  | .returned item result, item' => item' = item ∧ ∀ r, result = .ok r →
    s.host.cls.isEs = true ∧ ∀ events writes, r = .arr events →
      normalizeEvents events ≠ .ok writes
  | .appending item _ writes, item' => item' = item
    ∧ (ok = true → s.store.appendEvents writes = none)
  | .appended item events _, item' => item' = item
    ∧ (foldEvents s.host.cls s.host.state events).isOk = false
  | .acking item _ _, item' => item' = item ∧ ok = false
  | .flushing item k, item' => item' = item ∧ s.host.saveResult k = some false
  | _, _ => False

/-- **What a segment of worker `g` comes to**, by the point it goes on from. -/
inductive WorkerSegment (cfg : HostConfig S Env Op) (s : Sys S Env Op) (g : ℕ) (env : Env)
    (ok : Bool) : WorkerPc S → Sys S Env Op → Prop
  | dequeue : WorkerSegment cfg s g env ok .looping (s.dequeue g)
  | exit : WorkerSegment cfg s g env ok .exiting (s.setWorker g .done)
  /-- A call of a method without a handler. -/
  | refuse {method : String} {args : Json} {c : ℕ} : s.host.cls.handlers method = none →
      WorkerSegment cfg s g env ok (.received (.call method args c))
        ({ s.taking (.call method args c) with
          host :=
            { s.host with
              calls := settleItem s.host.calls (.call method args c)
                (.error (.noHandler method cfg.registration.name)) } }.setWorker g .looping)
  /-- A tell without one. -/
  | ignore {type : String} {payload : Json} {id : ℕ} : s.host.cls.handlers type = none →
      WorkerSegment cfg s g env ok (.received (.tell type payload id))
        ((s.taking (.tell type payload id)).setWorker g (.unhandled id))
  | start {item : Item} {handler : Env → S → Json → Script S Json} :
      s.host.cls.handlers item.name = some handler →
      WorkerSegment cfg s g env ok (.received item)
        ((s.starting item).runHandler g item (handler env s.host.state item.input))
  | run {item : Item} {rest : Script S Json} :
      WorkerSegment cfg s g env ok (.running item rest) (s.runHandler g item rest)
  /-- The turn has failed, and `handle` has caught it. -/
  | failed {pc : WorkerPc S} {item : Item} (e : HostError) : s.Fails ok pc item →
      WorkerSegment cfg s g env ok pc (s.turnFailed g item e)
  | resolveSwm {method : String} {args r : Json} {c : ℕ} : s.host.cls.isEs = false →
      WorkerSegment cfg s g env ok (.returned (.call method args c) (.ok r))
        (((s.resolveCall (.call method args c) c r).commitSwmTail cfg).setWorker g
          (.committed (.call method args c)))
  | ackSwm {type : String} {payload r : Json} {id : ℕ} : s.host.cls.isEs = false →
      WorkerSegment cfg s g env ok (.returned (.tell type payload id) (.ok r))
        (s.issueAck g (.tell type payload id) id .swm)
  /-- A turn of an event-sourced actor that returns no event. -/
  | resolveEmpty {method : String} {args : Json} {c : ℕ} : s.host.cls.isEs = true →
      WorkerSegment cfg s g env ok (.returned (.call method args c) (.ok (.arr [])))
        ((s.resolveCall (.call method args c) c (.arr [])).setWorker g
          (.committed (.call method args c)))
  | ackEmpty {type : String} {payload : Json} {id : ℕ} : s.host.cls.isEs = true →
      WorkerSegment cfg s g env ok (.returned (.tell type payload id) (.ok (.arr [])))
        (s.issueAck g (.tell type payload id) id .esEmpty)
  | append {item : Item} {event : Json} {events : List Json} {writes : List EventWrite} :
      s.host.cls.isEs = true → normalizeEvents (event :: events) = .ok writes →
      WorkerSegment cfg s g env ok (.returned item (.ok (.arr (event :: events))))
        (s.setWorker g (.appending item (event :: events) writes))
  | appended {item : Item} {events : List Json} {writes : List EventWrite}
      {store : ActorStore S} {seq : ℤ} : ok = true →
      s.store.appendEvents writes = some (store, seq) →
      WorkerSegment cfg s g env ok (.appending item events writes)
        ({ s with store := store }.setWorker g (.appended item events seq))
  | resolveEs {method : String} {args : Json} {c : ℕ} {events : List Json} {seq : ℤ}
      {state : S} : foldEvents s.host.cls s.host.state events = .ok state →
      WorkerSegment cfg s g env ok (.appended (.call method args c) events seq)
        (((s.afterFold events seq state).resolveCall (.call method args c) c
          (.arr events)).commitEsTail cfg g (.call method args c) events)
  | ackEs {type : String} {payload : Json} {id : ℕ} {events : List Json} {seq : ℤ}
      {state : S} : foldEvents s.host.cls s.host.state events = .ok state →
      WorkerSegment cfg s g env ok (.appended (.tell type payload id) events seq)
        ((s.afterFold events seq state).issueAck g (.tell type payload id) id (.es events))
  | swmAcked {item : Item} {id : ℕ} : ok = true →
      WorkerSegment cfg s g env ok (.acking item id .swm)
        (((s.afterAck id).commitSwmTail cfg).setWorker g (.committed item))
  | emptyAcked {item : Item} {id : ℕ} : ok = true →
      WorkerSegment cfg s g env ok (.acking item id .esEmpty)
        ((s.afterAck id).setWorker g (.committed item))
  | esAcked {item : Item} {id : ℕ} {events : List Json} : ok = true →
      WorkerSegment cfg s g env ok (.acking item id (.es events))
        ((s.afterAck id).commitEsTail cfg g item events)
  | flushed {item : Item} {k : ℕ} : s.host.saveResult k = some true →
      WorkerSegment cfg s g env ok (.flushing item k)
        (s.afterFlush.setWorker g (.committed item))
  | ignored {id : ℕ} : WorkerSegment cfg s g env ok (.unhandled id)
      ({ s with
        host := s.host.countError (.unhandled id)
        store := if ok then s.store.ackInbox id else s.store }.setWorker g .looping)
  | finish {item : Item} : WorkerSegment cfg s g env ok (.committed item)
      ({ s with host := s.host.touch }.setWorker g .looping)

/-- The list is complete. -/
theorem workerSegment {cfg : HostConfig S Env Op} {s s' : Sys S Env Op} {g : ℕ} {env : Env}
    {ok : Bool} (hs : s.workerStep cfg g env ok = some s') :
    ∃ pc, s.host.workers g = pc ∧ WorkerSegment cfg s g env ok pc s' := by
  refine ⟨_, rfl, ?_⟩
  unfold workerStep at hs
  cases hpc : s.host.workers g with
  | absent => rw [hpc] at hs; exact absurd hs (by simp)
  | waiting => rw [hpc] at hs; exact absurd hs (by simp)
  | done => rw [hpc] at hs; exact absurd hs (by simp)
  | looping => rw [hpc] at hs; exact Option.some.inj hs ▸ .dequeue
  | exiting => rw [hpc] at hs; exact Option.some.inj hs ▸ .exit
  | committed item => rw [hpc] at hs; exact Option.some.inj hs ▸ .finish
  | unhandled id => rw [hpc] at hs; exact Option.some.inj hs ▸ .ignored
  | running item rest => rw [hpc] at hs; exact Option.some.inj hs ▸ .run
  | received item =>
    rw [hpc] at hs
    obtain rfl := Option.some.inj hs
    unfold handle
    dsimp only
    cases hh : s.host.cls.handlers item.name with
    | some handler => exact .start hh
    | none =>
      cases item with
      | call method args c => exact .refuse hh
      | tell type payload id => exact .ignore hh
  | returned item result =>
    rw [hpc] at hs
    cases result with
    | error e => exact Option.some.inj hs ▸ .failed _ ⟨rfl, by simp⟩
    | ok r =>
      dsimp only at hs
      split at hs <;> obtain rfl := Option.some.inj hs
      · next hes =>
        unfold commitEs
        split
        · cases item with
          | call method args c => exact .resolveEmpty hes
          | tell type payload id => exact .ackEmpty hes
        · next e es =>
          split
          · next x hx =>
            refine .failed _ ⟨rfl, fun r hr => ⟨hes, fun events writes hev => ?_⟩⟩
            obtain rfl := Except.ok.inj hr
            obtain rfl := Json.arr.inj hev
            rw [hx]
            simp
          · next writes hw => exact .append hes hw
        · next hnil hcons =>
          refine .failed _ ⟨rfl, fun r' hr => ⟨hes, fun events writes hev => ?_⟩⟩
          obtain rfl := Except.ok.inj hr
          cases events with
          | nil => exact absurd hev hnil
          | cons event events => exact absurd hev (hcons event events)
      · next hes =>
        unfold commitSwm
        cases item with
        | call method args c => exact .resolveSwm (Bool.eq_false_iff.mpr hes)
        | tell type payload id => exact .ackSwm (Bool.eq_false_iff.mpr hes)
  | appending item events writes =>
    rw [hpc] at hs
    dsimp only at hs
    split at hs
    · next hok =>
      split at hs
      · next hn => exact Option.some.inj hs ▸ .failed _ ⟨rfl, fun _ => hn⟩
      · next store seq ha => exact Option.some.inj hs ▸ .appended hok ha
    · next hok => exact Option.some.inj hs ▸ .failed _ ⟨rfl, fun h => absurd h hok⟩
  | appended item events seq =>
    rw [hpc] at hs
    obtain rfl := Option.some.inj hs
    unfold commitEsFold
    split
    · next x hx => exact .failed _ ⟨rfl, by rw [hx]; rfl⟩
    · next state hf =>
      cases item with
      | call method args c => exact .resolveEs hf
      | tell type payload id => exact .ackEs hf
  | acking item id after =>
    rw [hpc] at hs
    dsimp only at hs
    split at hs
    · next hok =>
      cases after with
      | swm => exact Option.some.inj hs ▸ .swmAcked hok
      | esEmpty => exact Option.some.inj hs ▸ .emptyAcked hok
      | es events => exact Option.some.inj hs ▸ .esAcked hok
    · next hok => exact Option.some.inj hs ▸ .failed _ ⟨rfl, Bool.eq_false_iff.mpr hok⟩
  | flushing item k =>
    rw [hpc] at hs
    dsimp only at hs
    split at hs
    · exact absurd hs (by simp)
    · next hr => exact Option.some.inj hs ▸ .flushed hr
    · next hr => exact Option.some.inj hs ▸ .failed _ ⟨rfl, hr⟩

/-! ## A deactivation -/

/-- **What a segment of `doDeactivate` comes to**, by the await it goes on from. -/
inductive DeactSegment (s : Sys S Env Op) (env : Env) (idle : Bool) :
    DeactPc S → Sys S Env Op → Prop
  | flush {g : ℕ} : s.host.workers g = .done → s.host.flushes = true →
      DeactSegment s env idle (.awaitWorker g)
        (Sys.setDeactivating
          { s with host := { s.host with snapshotTimer := false }.flushSnapshot }
          ⟨.flush s.host.saves.length, idle⟩)
  | unflushed {g : ℕ} : s.host.workers g = .done → s.host.flushes = false →
      DeactSegment s env idle (.awaitWorker g)
        (Sys.beginOnDeactivate { s with host := { s.host with snapshotTimer := false } }
          env idle)
  | flushed {k : ℕ} : s.host.saveResult k = some true → DeactSegment s env idle (.flush k)
      (s.afterFlush.beginOnDeactivate env idle)
  | flushFailed {k : ℕ} : s.host.saveResult k = some false →
      DeactSegment s env idle (.flush k)
        (s.setDeactivating ⟨.finishing (.error .storage), idle⟩)
  | onDeactivate {rest : Script S Unit} :
      DeactSegment s env idle (.onDeactivate (.running rest))
        ((s.runSegment rest).setDeactivating ⟨.onDeactivate (.after rest), idle⟩)
  | threw {e : Json} : DeactSegment s env idle (.onDeactivate (.returned (.error e)))
      (Sys.dropInstance { s with host := s.host.countError .onDeactivate } idle)
  | dropped {u : Unit} : DeactSegment s env idle (.onDeactivate (.returned (.ok u)))
      (s.dropInstance idle)
  | settled {o : Except HostError Unit} : DeactSegment s env idle (.finishing o)
      { s with
        host :=
          { s.host with
            deactivating := none
            activated := false
            idleEvicts := s.host.idleEvicts + if idle && o.isOk then 1 else 0 } }

/-- The list is complete. -/
theorem deactSegment {s s' : Sys S Env Op} {env : Env} (hs : s.deactStep env = some s') :
    ∃ pc idle, s.host.deactivating = some ⟨pc, idle⟩ ∧ DeactSegment s env idle pc s' := by
  unfold deactStep at hs
  cases hd : s.host.deactivating with
  | none => rw [hd] at hs; exact absurd hs (by simp)
  | some d =>
  obtain ⟨pc, idle⟩ := d
  refine ⟨pc, idle, rfl, ?_⟩
  rw [hd] at hs
  cases pc with
  | awaitWorker g =>
    dsimp only at hs
    split at hs
    · next hdone =>
      obtain rfl := Option.some.inj hs
      unfold beginFinalFlush
      dsimp only
      split
      · next hf => exact .flush hdone hf
      · next hf => exact .unflushed hdone (Bool.eq_false_iff.mpr hf)
    · exact absurd hs (by simp)
  | flush k =>
    dsimp only at hs
    split at hs
    · exact absurd hs (by simp)
    · next hr => exact Option.some.inj hs ▸ .flushed hr
    · next hr => exact Option.some.inj hs ▸ .flushFailed hr
  | onDeactivate hook =>
    cases hook with
    | running rest => exact Option.some.inj hs ▸ .onDeactivate
    | returned result =>
      cases result with
      | error e => exact Option.some.inj hs ▸ .threw
      | ok u => exact Option.some.inj hs ▸ .dropped
  | finishing o => exact Option.some.inj hs ▸ .settled

end Sys
