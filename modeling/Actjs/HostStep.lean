import Actjs.Host

/-!
# The steps of an actor host

`Sys.step` executes one segment of one suspended function, from one await to
the next, or one event from outside: a `tell()` or `call()` being made, a
timer firing, a storage operation taking effect. A label that is not enabled
gives `none`. Labels carry what the code does not decide – whether the
storage operation at hand succeeds, and the outside world a piece of user
code observes.

The functions below are the segments, under the name of the method they are
part of.
-/

open Function (update)

variable {S Env Op : Type}

/-! ## State objects and snapshots

A flush takes the reference of `instance.snapshot()`, clears the mark and
hands the reference to the driver. What is written is what the object reads
when the driver encodes it. -/

/-- What can be read of the state: `state` itself, and `snapshot()` if the
class overrides it. -/
def Host.readable (h : Host S Env) : List S :=
  h.state :: (h.cls.snapshot.map (fun f => f h.state)).toList

/-- Hand a snapshot write of the object `obj` to the driver. -/
def Host.saveSnapshot (h : Host S Env) (seq : ℤ) (version : Version)
    (obj : ℕ) : Host S Env :=
  { h with saves := h.saves ++ [⟨seq, version, .toEncode obj⟩] }

/-- The objects once `instance.snapshot()` was called. -/
def Host.snapshotObjs (h : Host S Env) : Objects S :=
  match h.cls.snapshot with
  | none => h.objs
  | some f => h.objs.alloc (f h.state)

/-- The object `instance.snapshot()` returns: the state object itself, or a
new one if the class overrides it. -/
def Host.snapshotObj (h : Host S Env) : ℕ :=
  match h.cls.snapshot with
  | none => h.objs.cur
  | some _ => h.objs.next

/-- The condition under which `flushSnapshot` does anything. -/
def Host.flushes (h : Host S Env) : Bool := h.snapshotDirty && h.inst.isSome

/-- `flushSnapshot` up to its await, when it does anything. -/
def Host.flushSnapshot (h : Host S Env) : Host S Env :=
  { h with
    snapshotDirty := false
    objs := h.snapshotObjs
    saves := h.saves
      ++ [⟨if h.cls.isEs then h.currentSeq else 0, h.runningVersion,
        .toEncode h.snapshotObj⟩] }

/-- A flush only reads the state. -/
theorem Host.state_flushSnapshot (h : Host S Env) :
    h.flushSnapshot.state = h.state := by
  show h.snapshotObjs.read = h.objs.read
  unfold Host.snapshotObjs
  cases h.cls.snapshot with
  | none => rfl
  | some f => exact Objects.read_alloc _ _

/-- `flushSnapshot` after its await. -/
def Host.flushed (h : Host S Env) : Host S Env :=
  { h with
    metrics :=
      { h.metrics with snapshotsWritten := h.metrics.snapshotsWritten + 1 }
    eventsSinceSnapshot := if h.cls.isEs then 0 else h.eventsSinceSnapshot }

/-- The result of a snapshot write, once the driver has settled it. -/
def Host.saveResult (h : Host S Env) (k : ℕ) : Option Bool :=
  match h.saves[k]? with
  | some ⟨_, _, .ended ok⟩ => some ok
  | _ => none

/-- `scheduleSnapshot`. -/
def Host.scheduleSnapshot (h : Host S Env) : Host S Env :=
  { h with snapshotDirty := true, snapshotTimer := true }

/-- `touch`: arm the idle timer anew. -/
def Host.touch (h : Host S Env) : Host S Env := { h with idleTimer := true }

/-- `metrics.handlerErrors++`. -/
def Host.countError (h : Host S Env) (e : ErrorSource) : Host S Env :=
  { h with
    metrics := { h.metrics with handlerErrors := e :: h.metrics.handlerErrors } }

/-- Settle the promise of a call; a settled promise ignores it. -/
def CallTask.settle (r : Except HostError Json) (task : CallTask) : CallTask :=
  match task.pc with
  | .queued => { task with pc := .settled r }
  | _ => task

/-- Settle the promise of the call an item carries, if it carries one. -/
def settleItem (calls : ℕ → Option CallTask) (item : Item)
    (r : Except HostError Json) : ℕ → Option CallTask :=
  match item with
  | .call _ _ c => update calls c ((calls c).map (CallTask.settle r))
  | .tell _ _ _ => calls

namespace Sys

/-- Record what can be read of the state now. -/
def boundary (s : Sys S Env Op) : Sys S Env Op :=
  { s with
    hist :=
      { s.hist with boundaries := s.host.readable ++ s.hist.boundaries } }

/-- Run the next segment of a piece of user code. -/
def runSegment {R : Type} (s : Sys S Env Op) (p : Script S R) :
    Sys S Env Op :=
  let h := { s.host with objs := s.host.objs.apply p.change }
  { s with
    host := h
    hist :=
      { s.hist with
        boundaries :=
          if p.ends = true then h.readable ++ s.hist.boundaries
          else s.hist.boundaries } }

/-- `emitCommit`, through the subscription registry's `deliver`. -/
def emit (s : Sys S Env Op) (ns : List (Notification S Op)) : Sys S Env Op :=
  { s with
    hist :=
      { s.hist with
        notifs := fun l =>
          if l ∈ s.host.commitListeners then s.hist.notifs l ++ ns
          else s.hist.notifs l } }

/-- Move worker `g`. -/
def setWorker (s : Sys S Env Op) (g : ℕ) (pc : WorkerPc S) : Sys S Env Op :=
  { s with host := { s.host with workers := update s.host.workers g pc } }

/-! ## The mailbox

The mailbox names the consumer it hands an item to; here the worker of that
name goes on with it. -/

/-- The workers, after an item was handed to one of them or to none. -/
def wake (workers : ℕ → WorkerPc S) (item : Item) :
    Option ℕ → ℕ → WorkerPc S
  | none => workers
  | some g => update workers g (.received item)

/-- What `mailbox.enqueue(item)` comes to. -/
def enqueueResult (s : Sys S Env Op) (item : Item) : EnqueueResult :=
  (s.host.mailbox.enqueue item).result

/-- `mailbox.enqueue(item)`. A blocked worker is handed the item. -/
def enqueue (s : Sys S Env Op) (item : Item) : Sys S Env Op :=
  let e := s.host.mailbox.enqueue item
  { s with
    host :=
      { s.host with
        mailbox := e.mailbox
        workers := wake s.host.workers item e.woken }
    hist :=
      { s.hist with
        accepted :=
          if e.result = .accepted then s.hist.accepted ++ [item]
          else s.hist.accepted } }

/-- Where a worker is after its `dequeue()`. -/
def dequeuedPc : DequeueResult Item → WorkerPc S
  | .item x => .received x
  | .null => .exiting
  | .blocked => .waiting

/-- `mailbox.dequeue()` by worker `g`. -/
def dequeue (s : Sys S Env Op) (g : ℕ) : Sys S Env Op :=
  let d := s.host.mailbox.dequeue g
  { s with
    host :=
      { s.host with
        mailbox := d.mailbox
        workers := update s.host.workers g (dequeuedPc d.result) } }

/-! ## The worker loop

A turn is `handle`, then a commit, which depends on whether the class is
event-sourced; a throw anywhere in it settles the call and the loop goes on.
-/

/-- The `catch` of `handle`: count the error, reject a call, leave a tell
unacked. -/
def turnFailed (s : Sys S Env Op) (g : ℕ) (item : Item) (e : HostError) :
    Sys S Env Op :=
  { s with
    host :=
      { s.host.countError (.turn item) with
        calls := settleItem s.host.calls item (.error e) } }.setWorker g .looping

/-- The rest of `commitSwm` after the ack: schedule a snapshot, and emit a
patch if the pre-handler state was captured and the handler changed it. -/
def commitSwmTail (cfg : HostConfig S Env Op) (s : Sys S Env Op) :
    Sys S Env Op :=
  let h := { s.host.scheduleSnapshot with prevStateCapture := none }
  { s with host := h }.emit
    (match s.host.prevStateCapture with
      | none => []
      | some prev =>
        match cfg.compare prev s.host.state with
        | [] => []
        | op :: ops => [.patch (op :: ops)])

/-- The rest of `commitEs` after the ack: emit the events to whoever
listens, and snapshot every Nth event. -/
def commitEsTail (cfg : HostConfig S Env Op) (s : Sys S Env Op) (g : ℕ)
    (item : Item) (events : List Json) : Sys S Env Op :=
  let s := s.emit [.event events s.host.currentSeq]
  if cfg.registration.snapshotEveryNEvents ≤ s.host.eventsSinceSnapshot
      ∧ s.host.flushes = true then
    { s with host := s.host.flushSnapshot }.setWorker g
      (.flushing item s.host.saves.length)
  else s.setWorker g (.committed item)

/-- Acknowledge a call: resolve it with `r`. -/
def resolveCall (s : Sys S Env Op) (item : Item) (c : ℕ) (r : Json) :
    Sys S Env Op :=
  let m := s.host.metrics
  { s with
    host :=
      { s.host with
        metrics := { m with callsHandled := c :: m.callsHandled }
        calls := settleItem s.host.calls item (.ok r) } }

/-- Acknowledge a tell: count it as handled, and issue its `ackInbox`. -/
def issueAck (s : Sys S Env Op) (g : ℕ) (item : Item) (id : ℕ)
    (after : AfterAck) : Sys S Env Op :=
  let m := s.host.metrics
  { s with
    host :=
      { s.host with metrics := { m with tellsHandled := id :: m.tellsHandled } }
    hist := { s.hist with committed := id :: s.hist.committed } }.setWorker g
      (.acking item id after)

/-- `commitSwm`. -/
def commitSwm (cfg : HostConfig S Env Op) (s : Sys S Env Op) (g : ℕ)
    (item : Item) (r : Json) : Sys S Env Op :=
  match item with
  | .call _ _ c =>
    ((s.resolveCall item c r).commitSwmTail cfg).setWorker g (.committed item)
  | .tell _ _ id => s.issueAck g item id .swm

/-- `commitEs` up to its `appendEvents`. -/
def commitEs (cfg : HostConfig S Env Op) (s : Sys S Env Op) (g : ℕ)
    (item : Item) (r : Json) : Sys S Env Op :=
  match r with
  | .arr [] =>
    match item with
    | .call _ _ c => (s.resolveCall item c r).setWorker g (.committed item)
    | .tell _ _ id => s.issueAck g item id .esEmpty
  | .arr (e :: es) =>
    match normalizeEvents (e :: es) with
    | .error x => s.turnFailed g item x
    | .ok writes => s.setWorker g (.appending item (e :: es) writes)
  | v => s.turnFailed g item (.notEvents cfg.registration.name v.typeof)

/-- The host after an append: the events folded in, the head advanced. -/
def foldedHost (h : Host S Env) (events : List Json) (seq : ℤ) (state : S) :
    Host S Env :=
  { h with
    objs := h.objs.assign state
    currentSeq := seq
    metrics :=
      { h.metrics with
        eventsAppended := h.metrics.eventsAppended + events.length }
    eventsSinceSnapshot := h.eventsSinceSnapshot + events.length
    snapshotDirty := true }

/-- `commitEs` after its `appendEvents`. -/
def commitEsFold (cfg : HostConfig S Env Op) (s : Sys S Env Op) (g : ℕ)
    (item : Item) (events : List Json) (seq : ℤ) : Sys S Env Op :=
  match foldEvents s.host.cls s.host.state events with
  | .error x => s.turnFailed g item (.thrown x)
  | .ok state =>
    let s := { s with host := foldedHost s.host events seq state }.boundary
    match item with
    | .call _ _ c =>
      (s.resolveCall item c (.arr events)).commitEsTail cfg g item events
    | .tell _ _ id => s.issueAck g item id (.es events)

/-- Run the handler up to its next await. -/
def runHandler (s : Sys S Env Op) (g : ℕ) (item : Item)
    (p : Script S Json) : Sys S Env Op :=
  (s.runSegment p).setWorker g (.after item p)

/-- `prevStateCapture` as a turn starts with: the state, if someone
listens. -/
def capture (h : Host S Env) : Option S :=
  if h.cls.isEs = false ∧ h.commitListeners ≠ [] then some h.state
  else h.prevStateCapture

/-- `handle`: dispatch the item. -/
def handle (cfg : HostConfig S Env Op) (s : Sys S Env Op) (g : ℕ) (env : Env)
    (item : Item) : Sys S Env Op :=
  let s := { s with hist := { s.hist with taken := s.hist.taken ++ [item] } }
  match s.host.cls.handlers item.name with
  | none =>
    match item with
    | .call name _ _ =>
      let e := HostError.noHandler name cfg.registration.name
      { s with
        host :=
          { s.host with
            calls := settleItem s.host.calls item (.error e) } }.setWorker g
              .looping
    | .tell _ _ id => s.setWorker g (.unhandled id)
  | some handler =>
    { s with
      host := { s.host with prevStateCapture := capture s.host } }.runHandler g
        item (handler env s.host.state item.input)

/-- One segment of worker `g`. `ok` is the fate of the storage operation it
awaits, if it awaits one. -/
def workerStep (cfg : HostConfig S Env Op) (s : Sys S Env Op) (g : ℕ)
    (env : Env) (ok : Bool) : Option (Sys S Env Op) :=
  match s.host.workers g with
  | .absent => none
  | .waiting => none
  | .done => none
  | .looping => some (s.dequeue g)
  | .received item => some (s.handle cfg g env item)
  | .exiting => some (s.setWorker g .done)
  | .running item rest => some (s.runHandler g item rest)
  | .returned item (.error e) => some (s.turnFailed g item (.thrown e))
  | .returned item (.ok r) =>
    if s.host.cls.isEs = true then some (s.commitEs cfg g item r)
    else some (s.commitSwm cfg g item r)
  | .appending item events writes =>
    if ok = true then
      match s.store.appendEvents writes with
      | none => some (s.turnFailed g item (.unknownActor cfg.id))
      | some (store, seq) =>
        some ({ s with store := store }.setWorker g (.appended item events seq))
    else some (s.turnFailed g item .storage)
  | .appended item events seq => some (s.commitEsFold cfg g item events seq)
  | .acking item id after =>
    if ok = true then
      let s := { s with store := s.store.ackInbox id }
      match after with
      | .swm => some ((s.commitSwmTail cfg).setWorker g (.committed item))
      | .esEmpty => some (s.setWorker g (.committed item))
      | .es events => some (s.commitEsTail cfg g item events)
    else some (s.turnFailed g item .storage)
  | .flushing item k =>
    match s.host.saveResult k with
    | none => none
    | some true =>
      some ({ s with host := s.host.flushed }.setWorker g (.committed item))
    | some false => some (s.turnFailed g item .storage)
  | .unhandled id =>
    some ({ s with
      host := s.host.countError (.unhandled id)
      store := if ok then s.store.ackInbox id else s.store }.setWorker g .looping)
  | .committed _ => some ({ s with host := s.host.touch }.setWorker g .looping)

/-! ## Activation

`doActivate` from one await to the next. What follows an await is a definition
of its own where more than one branch of the source comes to it. -/

/-- Move `doActivate`. -/
def setActivating (s : Sys S Env Op) (pc : ActPc S Env) : Sys S Env Op :=
  { s with host := { s.host with activating := some pc } }

/-- `doActivate` up to its first await. -/
def beginActivation (cfg : HostConfig S Env Op) (s : Sys S Env Op) :
    Sys S Env Op :=
  let s := { s with host := { s.host with activation := s.host.activation + 1 } }
  if s.host.destroyed then
    s.setActivating (.finishing (.error (.destroyed cfg.id)))
  else
    { s with
      host :=
        { s.host with
          mailbox := .new cfg.registration.mailboxCapacity
            cfg.registration.mailboxCapacity_pos
          activating := some .loadSnapshot }
      hist :=
        { s.hist with
          accepted := []
          taken := []
          replayable := s.store.readPendingInbox.map InboxRecord.id } }

/-- `activate()`. -/
def activate (cfg : HostConfig S Env Op) (s : Sys S Env Op) : Sys S Env Op :=
  if s.host.activated = true then s
  else if s.host.activating.isSome = true then s
  else s.beginActivation cfg

/-- The end of activation proper: the host is activated, its worker loop
started, the inbox about to be read. -/
def becomeActivated (s : Sys S Env Op) : Sys S Env Op :=
  let g := s.host.activation
  ({ s with
    host :=
      { s.host.touch with
        activated := true
        workerPromise := some g } }.dequeue g).setActivating .readInbox

/-- The `onActivate` hook, or what follows it. -/
def beginOnActivate (s : Sys S Env Op) (env : Env) : Sys S Env Op :=
  match s.host.cls.onActivate with
  | none => s.becomeActivated
  | some f =>
    let p := f env s.host.state
    (s.runSegment p).setActivating (.onActivate (.after p))

/-- `replayEvents`, for an event-sourced class. -/
def beginReplay (s : Sys S Env Op) (env : Env) : Sys S Env Op :=
  if s.host.cls.isEs = true then s.setActivating .headSeq
  else s.beginOnActivate env

/-- The `onInit` hook, or what follows it. -/
def beginOnInit (s : Sys S Env Op) (env : Env) : Sys S Env Op :=
  match s.host.cls.onInit with
  | none => s.boundary.beginReplay env
  | some f =>
    let p := f env s.host.state
    (s.runSegment p).setActivating (.onInit (.after p))

/-- `doActivate` has thrown. -/
def activationFailed (s : Sys S Env Op) (e : HostError) : Sys S Env Op :=
  s.setActivating (.finishing (.error e))

/-- Construct the instance, as activation number `s.host.activation`, with
state `x`. -/
def construct (s : Sys S Env Op) (r : Resolved S Env) (x : S) : Sys S Env Op :=
  { s with
    host :=
      { s.host with
        inst := some s.host.activation
        cls := r.ctor
        objs := s.host.objs.assign x } }

/-- `migrateSnapshot` up to its first await. -/
def beginMigrate (s : Sys S Env Op) (prev : SnapshotRead S) : Sys S Env Op :=
  match s.host.cls.migrate with
  | none =>
    { s with host := { s.host with snapshotDirty := true } }.setActivating .noMigrate
  | some _ =>
    { s with
      host :=
        s.host.saveSnapshot (-1) prev.version s.host.objs.cur }.setActivating
          (.retain prev s.host.saves.length)

/-- `migrateSnapshot` once the user's `migrate` has returned `x`. -/
def migrated (s : Sys S Env Op) (x : S) : Sys S Env Op :=
  let m := s.host.metrics
  let s : Sys S Env Op :=
    { s with
      host :=
        { s.host with
          objs := s.host.objs.assign x
          metrics := { m with migrationsApplied := m.migrationsApplied + 1 }
          snapshotDirty := true } }.boundary
  if s.host.flushes = true then
    { s with host := s.host.flushSnapshot }.setActivating
      (.migrateFlush s.host.saves.length)
  else s.setActivating .audit

/-- What `replayEvents` makes of the records it reads: the state, the seq of
the last record folded and how many were, and what was thrown, if anything. -/
structure Replayed (S : Type) where
  state : S
  seq : ℤ
  count : ℕ
  thrown : Option Json

/-- The event of a record: its payload, through `migrateEvent` if it was
logged under another version. -/
def replayedEvent (cls : ActorClass S Env) (version : Version)
    (r : EventRow) : Except Json Json :=
  match cls.migrateEvent with
  | none => .ok r.payload
  | some f =>
    if r.classVersion = version then .ok r.payload
    else f r.payload r.classVersion

/-- The loop of `replayEvents`. -/
def replayLoop (cls : ActorClass S Env) (version : Version) :
    Replayed S → List (ℤ × EventRow) → Replayed S
  | acc, [] => acc
  | acc, (seq, r) :: rs =>
    match (replayedEvent cls version r).bind (cls.reduce acc.state) with
    | .error x => { acc with thrown := some x }
    | .ok state =>
      replayLoop cls version ⟨state, seq, acc.count + 1, none⟩ rs

/-- `replayEvents` after the events are read. -/
def replay (cfg : HostConfig S Env Op) (s : Sys S Env Op) (env : Env) :
    Sys S Env Op :=
  let acc : Replayed S := replayLoop s.host.cls cfg.registration.version
    ⟨s.host.state, s.host.currentSeq, 0, none⟩
    (s.store.readEvents (s.host.currentSeq + 1))
  match acc.thrown with
  | some x =>
    { s with host := { s.host with currentSeq := acc.seq } }.activationFailed
      (.thrown x)
  | none =>
    let m := s.host.metrics
    let s : Sys S Env Op :=
      { s with
        host :=
          { s.host with
            objs := s.host.objs.assign acc.state
            currentSeq := acc.seq
            metrics := { m with eventsReplayed := m.eventsReplayed + acc.count }
            eventsSinceSnapshot := acc.count
            snapshotDirty :=
              s.host.snapshotDirty
                || cfg.registration.snapshotEveryNEvents ≤ acc.count } }.boundary
    if cfg.registration.snapshotEveryNEvents ≤ acc.count
        ∧ s.host.flushes = true then
      { s with host := s.host.flushSnapshot }.setActivating
        (.replayFlush s.host.saves.length)
    else s.beginOnActivate env

/-- Enqueue the replayed entries, as tells; the answer of `enqueue` is
ignored, but a closed mailbox throws. -/
def enqueueAll (s : Sys S Env Op) :
    List InboxRecord → Except HostError Unit × Sys S Env Op
  | [] => (.ok (), s)
  | r :: rs =>
    let item := Item.tell r.entry.type r.entry.payload r.id
    match s.enqueueResult item with
    | .closed => (.error .mailboxClosed, s)
    | _ => (s.enqueue item).enqueueAll rs

/-- One segment of `doActivate`. `ok` is the fate of the operation it
awaits. -/
def actStep (cfg : HostConfig S Env Op) (s : Sys S Env Op) (env : Env)
    (ok : Bool) : Option (Sys S Env Op) :=
  match s.host.activating with
  | none => none
  | some .loadSnapshot =>
    if ok = true then
      some (s.setActivating (.resolveCtor s.store.loadSnapshot))
    else some (s.activationFailed .storage)
  | some (.resolveCtor snap) =>
    match cfg.resolveCtor (snap.map SnapshotRead.version) ok with
    | .error e => some (s.activationFailed e)
    | .ok r =>
      some ({ s with
        host := { s.host with runningVersion := r.runningVersion } }.setActivating
          (.loadFence snap r))
  | some (.loadFence none r) =>
    if ok = true then
      some ((s.construct r r.ctor.blank).setActivating .register)
    else some (s.activationFailed .storage)
  | some (.loadFence (some snap) r) =>
    if ok = true then
      let s := s.construct r snap.state
      let s : Sys S Env Op :=
        { s with host := { s.host with currentSeq := snap.seq } }.boundary
      if r.willMigrateSnap = true then some (s.beginMigrate snap)
      else some (s.beginReplay env)
    else some (s.activationFailed .storage)
  | some .register =>
    if ok = true then
      let s : Sys S Env Op :=
        { s with
          store := s.store.registerActor cfg.registration.name
            s.host.runningVersion }
      if s.host.cls.isEs = true then
        some ({ s with
          host :=
            { s.host with
              objs := s.host.objs.assign s.host.cls.initialState
              currentSeq := 0 } }.beginOnInit env)
      else some (s.beginOnInit env)
    else some (s.activationFailed .storage)
  | some (.onInit (.running rest)) =>
    some ((s.runSegment rest).setActivating (.onInit (.after rest)))
  | some (.onInit (.returned (.error e))) =>
    some (s.activationFailed (.thrown e))
  | some (.onInit (.returned (.ok _))) => some (s.beginReplay env)
  | some .noMigrate => some (s.beginReplay env)
  | some (.retain prev k) =>
    match s.host.saveResult k with
    | none => none
    | some true => some (s.setActivating (.migrate prev))
    | some false => some (s.activationFailed .storage)
  | some (.migrate prev) =>
    match s.host.cls.migrate with
    | none => none
    | some f =>
      match f env prev.state prev.version with
      | .error e => some (s.activationFailed (.thrown e))
      | .ok x => some (s.migrated x)
  | some (.migrateFlush k) =>
    match s.host.saveResult k with
    | none => none
    | some true => some ({ s with host := s.host.flushed }.setActivating .audit)
    | some false => some (s.activationFailed .storage)
  | some .audit =>
    if ok = true then some (s.beginReplay env)
    else some (s.activationFailed .storage)
  | some .headSeq =>
    if ok = true then
      if s.store.headEventSeq ≤ s.host.currentSeq then
        some (s.beginOnActivate env)
      else some (s.setActivating .readEvents)
    else some (s.activationFailed .storage)
  | some .readEvents =>
    if ok = true then some (s.replay cfg env)
    else some (s.activationFailed .storage)
  | some (.replayFlush k) =>
    match s.host.saveResult k with
    | none => none
    | some true => some ({ s with host := s.host.flushed }.beginOnActivate env)
    | some false => some (s.activationFailed .storage)
  | some (.onActivate (.running rest)) =>
    some ((s.runSegment rest).setActivating (.onActivate (.after rest)))
  | some (.onActivate (.returned (.error e))) =>
    some (s.activationFailed (.thrown e))
  | some (.onActivate (.returned (.ok _))) => some s.becomeActivated
  | some .readInbox =>
    if ok = true then
      some (s.setActivating (.replayInbox s.store.readPendingInbox))
    else some (s.activationFailed .storage)
  | some (.replayInbox pending) =>
    let (o, s) := s.enqueueAll pending
    some (s.setActivating (.finishing o))
  | some (.finishing o) =>
    some { s with
      host :=
        { s.host with
          activating := none
          outcome := update s.host.outcome s.host.activation (some o) } }

/-! ## Deactivation

`deactivate` closes the mailbox and waits for the worker; then `onDeactivate`,
the last flush, and the instance is dropped. -/

/-- Move `doDeactivate`. -/
def setDeactivating (s : Sys S Env Op) (d : Deactivation S) : Sys S Env Op :=
  { s with host := { s.host with deactivating := some d } }

/-- The workers, once a closed mailbox has woken those that waited. -/
def wakeAll (workers : ℕ → WorkerPc S) (waiters : List ℕ) : ℕ → WorkerPc S :=
  fun g => if g ∈ waiters then .exiting else workers g

/-- `mailbox.close()`, which wakes a blocked worker with `null`. -/
def closeMailbox (s : Sys S Env Op) : Sys S Env Op :=
  { s with
    host :=
      { s.host with
        mailbox := s.host.mailbox.close
        workers := wakeAll s.host.workers s.host.mailbox.waiters } }

/-- `doDeactivate` after `onDeactivate`: drop the instance. -/
def dropInstance (s : Sys S Env Op) (idle : Bool) : Sys S Env Op :=
  { s with
    host := { s.host with inst := none, workerPromise := none } }.setDeactivating
      ⟨.finishing (.ok ()), idle⟩

/-- The `onDeactivate` hook, or what follows it. -/
def beginOnDeactivate (s : Sys S Env Op) (env : Env) (idle : Bool) :
    Sys S Env Op :=
  match s.host.inst, s.host.cls.onDeactivate with
  | some _, some f =>
    let p := f env s.host.state
    (s.runSegment p).setDeactivating ⟨.onDeactivate (.after p), idle⟩
  | _, _ => s.dropInstance idle

/-- `doDeactivate` after the worker has ended. -/
def beginFinalFlush (s : Sys S Env Op) (env : Env) (idle : Bool) :
    Sys S Env Op :=
  let s : Sys S Env Op :=
    { s with host := { s.host with snapshotTimer := false } }
  if s.host.flushes = true then
    { s with host := s.host.flushSnapshot }.setDeactivating
      ⟨.flush s.host.saves.length, idle⟩
  else s.beginOnDeactivate env idle

/-- `deactivate()`; `idle` if `deactivateForIdle` awaits it. -/
def deactivate (s : Sys S Env Op) (env : Env) (idle : Bool) : Sys S Env Op :=
  if s.host.deactivating.isSome = true then s
  else if s.host.activated = false then s
  else
    let s := { s with host := { s.host with idleTimer := false } }.closeMailbox
    match s.host.workerPromise with
    | some g => s.setDeactivating ⟨.awaitWorker g, idle⟩
    | none => s.beginFinalFlush env idle

/-- One segment of `doDeactivate`, or its `finally`. -/
def deactStep (s : Sys S Env Op) (env : Env) : Option (Sys S Env Op) :=
  match s.host.deactivating with
  | none => none
  | some ⟨.awaitWorker g, idle⟩ =>
    match s.host.workers g with
    | .done => some (s.beginFinalFlush env idle)
    | _ => none
  | some ⟨.flush k, idle⟩ =>
    match s.host.saveResult k with
    | none => none
    | some true => some ({ s with host := s.host.flushed }.beginOnDeactivate env idle)
    | some false => some (s.setDeactivating ⟨.finishing (.error .storage), idle⟩)
  | some ⟨.onDeactivate (.running rest), idle⟩ =>
    some ((s.runSegment rest).setDeactivating ⟨.onDeactivate (.after rest), idle⟩)
  | some ⟨.onDeactivate (.returned (.error _)), idle⟩ =>
    some ({ s with host := s.host.countError .onDeactivate }.dropInstance idle)
  | some ⟨.onDeactivate (.returned (.ok _)), idle⟩ => some (s.dropInstance idle)
  | some ⟨.finishing o, idle⟩ =>
    some { s with
      host :=
        { s.host with
          deactivating := none
          activated := false
          idleEvicts := s.host.idleEvicts + if idle && o.isOk then 1 else 0 } }

/-- `deactivateForIdle` up to its await. -/
def deactivateForIdle (s : Sys S Env Op) (env : Env) : Sys S Env Op :=
  if s.host.deactivating.isSome = true ∨ s.host.activated = false then s
  else if 0 < s.host.mailbox.size then { s with host := s.host.touch }
  else s.deactivate env true

/-- `destroy()`. -/
def destroy (s : Sys S Env Op) (env : Env) : Sys S Env Op :=
  if s.host.destroyed = true then s
  else { s with host := { s.host with destroyed := true } }.deactivate env false

/-! ## Requests

`tell()` waits for an activation if the host has none, appends to the inbox
and enqueues; `call()` does so without the inbox, and its promise is kept
until the worker settles it. -/

/-- Move `tell()` number `t`. -/
def setTell (s : Sys S Env Op) (t : ℕ) (task : TellTask) : Sys S Env Op :=
  { s with host := { s.host with tells := update s.host.tells t (some task) } }

/-- Move `call()` number `c`. -/
def setCall (s : Sys S Env Op) (c : ℕ) (task : CallTask) : Sys S Env Op :=
  { s with host := { s.host with calls := update s.host.calls c (some task) } }

/-- `tell()` up to its first await. -/
def tellStart (cfg : HostConfig S Env Op) (s : Sys S Env Op) (t : ℕ)
    (type : String) (payload : Json) : Option (Sys S Env Op) :=
  if (s.host.tells t).isSome = true then none
  else if s.host.destroyed = true then
    some (s.setTell t ⟨type, payload, .rejected none (.destroyed cfg.id)⟩)
  else if s.host.activated = true then
    some (s.setTell t ⟨type, payload, .appending⟩)
  else
    let s := s.activate cfg
    some (s.setTell t ⟨type, payload, .awaitActivate s.host.activation⟩)

/-- The storage operation of a `tell()` settles: `appendInbox`, or the
`ackInbox` of an entry it dropped. -/
def tellLand (s : Sys S Env Op) (t : ℕ) (ok : Bool) : Option (Sys S Env Op) :=
  match s.host.tells t with
  | some ⟨type, payload, .appending⟩ =>
    if ok = true then
      let id := s.store.inbox.length
      some ({ s with
        store := s.store.appendInbox ⟨type, payload⟩
        hist := { s.hist with landed := id :: s.hist.landed } }.setTell t
          ⟨type, payload, .appended id⟩)
    else some (s.setTell t ⟨type, payload, .rejected none .storage⟩)
  | some ⟨type, payload, .dropAcking id⟩ =>
    let hist := { s.hist with landed := s.hist.landed.erase id }
    if ok = true then
      some ({ s with store := s.store.ackInbox id, hist := hist }.setTell t
        ⟨type, payload, .resolved id⟩)
    else
      some ({ s with hist := hist }.setTell t
        ⟨type, payload, .rejected (some id) .storage⟩)
  | _ => none

/-- `tell()` after its append: enqueue, and count and ack what the mailbox
refused. -/
def tellEnqueue (s : Sys S Env Op) (t : ℕ) (type : String) (payload : Json)
    (id : ℕ) : Sys S Env Op :=
  let hist := { s.hist with landed := s.hist.landed.erase id }
  let m := s.host.metrics
  match s.enqueueResult (.tell type payload id) with
  | .closed =>
    { s with hist := hist }.setTell t
      ⟨type, payload, .rejected (some id) .mailboxClosed⟩
  | .full =>
    { s with
      host :=
        { s.host with metrics := { m with tellsDropped := id :: m.tellsDropped } } }.setTell
          t ⟨type, payload, .dropAcking id⟩
  | .accepted =>
    { s with
      host := s.host.touch
      hist := hist }.enqueue (.tell type payload id) |>.setTell t
        ⟨type, payload, .resolved id⟩

/-- `tell()` after an await of its own: after the activation, or after the
append. -/
def tellResume (s : Sys S Env Op) (t : ℕ) : Option (Sys S Env Op) :=
  match s.host.tells t with
  | some ⟨type, payload, .awaitActivate a⟩ =>
    match s.host.outcome a with
    | none => none
    | some (.ok _) => some (s.setTell t ⟨type, payload, .appending⟩)
    | some (.error e) => some (s.setTell t ⟨type, payload, .rejected none e⟩)
  | some ⟨type, payload, .appended id⟩ => some (s.tellEnqueue t type payload id)
  | _ => none

/-- `call()` once the host is activated: enqueue, or refuse. -/
def callEnqueue (s : Sys S Env Op) (c : ℕ) (method : String) (args : Json) :
    Sys S Env Op :=
  if s.host.mailbox.isFull = true then
    s.setCall c ⟨method, args, .refused .mailboxFull⟩
  else
    match s.enqueueResult (.call method args c) with
    | .closed => s.setCall c ⟨method, args, .refused .mailboxClosed⟩
    | .full => s.setCall c ⟨method, args, .refused .mailboxFull⟩
    | .accepted =>
      { s with host := s.host.touch }.enqueue (.call method args c) |>.setCall c
        ⟨method, args, .queued⟩

/-- `call()` up to its first await. -/
def callStart (cfg : HostConfig S Env Op) (s : Sys S Env Op) (c : ℕ)
    (method : String) (args : Json) : Option (Sys S Env Op) :=
  if (s.host.calls c).isSome = true then none
  else if s.host.destroyed = true then
    some (s.setCall c ⟨method, args, .refused (.destroyed cfg.id)⟩)
  else if s.host.activated = true then some (s.callEnqueue c method args)
  else
    let s := s.activate cfg
    some (s.setCall c ⟨method, args, .awaitActivate s.host.activation⟩)

/-- `call()` after the activation it awaited. -/
def callResume (s : Sys S Env Op) (c : ℕ) : Option (Sys S Env Op) :=
  match s.host.calls c with
  | some ⟨method, args, .awaitActivate a⟩ =>
    match s.host.outcome a with
    | none => none
    | some (.ok _) => some (s.callEnqueue c method args)
    | some (.error e) => some (s.setCall c ⟨method, args, .refused e⟩)
  | _ => none

/-! ## Timers, snapshot writes, subscribers

The rest of what can happen: timers fire, the driver moves on with a write, a
subscriber comes or goes. `Sys.step` puts all of it together. -/

/-- The debounce timer fires. -/
def snapshotFire (s : Sys S Env Op) : Option (Sys S Env Op) :=
  if s.host.snapshotTimer = true then
    let h : Host S Env := { s.host with snapshotTimer := false }
    if h.flushes = true then
      some { s with
        host :=
          { h.flushSnapshot with
            timerFlushes := h.saves.length :: h.timerFlushes } }
    else some { s with host := h }
  else none

/-- The debounce timer's callback learns how its write went. -/
def flushResume (s : Sys S Env Op) (k : ℕ) : Option (Sys S Env Op) :=
  if k ∈ s.host.timerFlushes then
    let h := { s.host with timerFlushes := s.host.timerFlushes.erase k }
    match h.saveResult k with
    | none => none
    | some true => some { s with host := h.flushed }
    | some false => some { s with host := h.countError (.flush k) }
  else none

/-- Move snapshot write `k`. -/
def setSave (s : Sys S Env Op) (k : ℕ) (sv : Save S) : Sys S Env Op :=
  { s with host := { s.host with saves := s.host.saves.set k sv } }

/-- **The driver moves on with a snapshot write**: it encodes the object, and
then writes what it encoded; either may fail.

This is a driver that encodes once, for one place to write to. Of the two
drivers one encodes again for its cache and the other keeps the object itself;
the difference is in which of the states that the object goes through is
stored, and no other. What is written of those is settled with the drivers as
they are (`PgHost`, `MemoryHost`). -/
def saveStep (s : Sys S Env Op) (k : ℕ) (ok : Bool) : Option (Sys S Env Op) :=
  match s.host.saves[k]? with
  | some ⟨seq, version, .toEncode obj⟩ =>
    if ok = true then
      some (s.setSave k ⟨seq, version, .toLand (s.host.objs.val obj)⟩)
    else some (s.setSave k ⟨seq, version, .ended false⟩)
  | some ⟨seq, version, .toLand x⟩ =>
    if ok = true then
      some ({ s with store := s.store.saveSnapshot seq version x }.setSave k
        ⟨seq, version, .ended true⟩)
    else some (s.setSave k ⟨seq, version, .ended false⟩)
  | _ => none

/-- `SubscriptionRegistry.subscribe`, once it has the host: attach the
listener and send the state. -/
def subscribe (s : Sys S Env Op) (l : ℕ) : Option (Sys S Env Op) :=
  if l ∈ s.host.commitListeners then none
  else
    let data := s.host.inst.map (fun _ => s.host.state)
    some { s with
      host := { s.host with commitListeners := s.host.commitListeners ++ [l] }
      hist :=
        { s.hist with
          notifs := update s.hist.notifs l
            [.snapshot data s.host.currentSeq] } }

/-- Detach a subscriber. -/
def unsubscribe (s : Sys S Env Op) (l : ℕ) : Sys S Env Op :=
  { s with
    host :=
      { s.host with commitListeners := s.host.commitListeners.filter (· != l) } }

/-- `notifyTombstone`, which detaches every subscriber it reaches. -/
def notifyTombstone (s : Sys S Env Op) : Sys S Env Op :=
  { s.emit [.tombstone] with host := { s.host with commitListeners := [] } }

end Sys

/-- **What can happen to a host next.** -/
inductive Act (Env : Type) where
  | activate
  | tellStart (t : ℕ) (type : String) (payload : Json)
  | tellLand (t : ℕ) (ok : Bool)
  | tellResume (t : ℕ)
  | callStart (c : ℕ) (method : String) (args : Json)
  | callResume (c : ℕ)
  | activation (env : Env) (ok : Bool)
  | worker (g : ℕ) (env : Env) (ok : Bool)
  | deactivate (env : Env)
  | deactivation (env : Env)
  | destroy (env : Env)
  | idleFire (env : Env)
  | idleEvict
  | snapshotFire
  | flushResume (k : ℕ)
  | save (k : ℕ) (ok : Bool)
  | subscribe (l : ℕ)
  | unsubscribe (l : ℕ)
  | notifyTombstone

/-- **One step of a host.** -/
def Sys.step (cfg : HostConfig S Env Op) (s : Sys S Env Op) :
    Act Env → Option (Sys S Env Op)
  | .activate => some (s.activate cfg)
  | .tellStart t type payload => s.tellStart cfg t type payload
  | .tellLand t ok => s.tellLand t ok
  | .tellResume t => s.tellResume t
  | .callStart c method args => s.callStart cfg c method args
  | .callResume c => s.callResume c
  | .activation env ok => s.actStep cfg env ok
  | .worker g env ok => s.workerStep cfg g env ok
  | .deactivate env => some (s.deactivate env false)
  | .deactivation env => s.deactStep env
  | .destroy env => some (s.destroy env)
  | .idleFire env =>
    if s.host.idleTimer = true then
      some ({ s with
        host := { s.host with idleTimer := false } }.deactivateForIdle env)
    else none
  | .idleEvict =>
    if 0 < s.host.idleEvicts then
      some { s with host := { s.host with idleEvicts := s.host.idleEvicts - 1 } }
    else none
  | .snapshotFire => s.snapshotFire
  | .flushResume k => s.flushResume k
  | .save k ok => s.saveStep k ok
  | .subscribe l => s.subscribe l
  | .unsubscribe l => some (s.unsubscribe l)
  | .notifyTombstone => some s.notifyTombstone

/-! ## A counter

The class and the host that the runs exhibited later are runs of. -/

namespace Counter

/-- A counter with a synchronous handler, one that awaits between two
mutations, and one that throws after a mutation. Its `onActivate` may fail,
depending on the outside world. -/
def cls : ActorClass ℕ Bool where
  isEs := false
  blank := 0
  initialState := 0
  reduce := fun n _ => .ok n
  migrateEvent := none
  handlers := fun name =>
    if name = "inc" then some (fun _ n _ => .ret (.mutate (n + 1)) .null)
    else if name = "twice" then
      some (fun _ n _ => .await (.mutate (n + 1)) (.ret (.mutate (n + 2)) .null))
    else if name = "fail" then
      some (fun _ n _ => .throw (.mutate (n + 1)) .null)
    else none
  onInit := none
  onActivate := some (fun well _ =>
    if well then .ret .keep () else .throw .keep .null)
  onDeactivate := none
  migrate := none
  snapshot := none

/-- A host of the counter, whose mailbox holds one item. A patch is the
number to replace the state by. -/
def cfg : HostConfig ℕ Bool ℕ where
  id := "counter-1"
  registration :=
    { name := "Counter"
      version := "1.0.0"
      ctor := cls
      mailboxCapacity := 1 }
  loader := none
  gt := fun _ _ => false
  compare := fun a b => if a = b then [] else [b]

/-- `n` segments of `doActivate`, in all of which everything goes well. -/
def activating (n : ℕ) : List (Act Bool) :=
  List.replicate n (.activation true true)

/-- `n` segments of worker `g`, in all of which everything goes well. -/
def working (g n : ℕ) : List (Act Bool) :=
  List.replicate n (.worker g true true)

/-- The `tell()` number `t` of `type`, up to its enqueueing. -/
def telling (t : ℕ) (type : String) : List (Act Bool) :=
  [.tellStart t type .null, .tellLand t true, .tellResume t]

end Counter
