import Mathlib.Logic.Function.Basic
import Actjs.ActorClass
import Actjs.Mailbox

/-!
# The state of an actor host

The fields of `ActorHost`, together with what is in flight: the source
suspends at every `await`, and each suspended function is here a program
counter that says which await it is at and what it has in its local
variables. `activating` and `deactivating` are the two lifecycle promises;
`workers` are the worker loops, one per activation, of which `workerPromise`
names the last; `tells` and `calls` are the calls of `tell()` and `call()`
by name; `saves` are the snapshot writes handed to the driver.

## What is in flight

A storage operation is issued by one step and takes effect in a later one,
or fails there without effect. Where something else can happen between the
effect and the continuation that learns of it – the append of an inbox
entry, the read of the inbox, the append of events, a snapshot write – the
two are separate steps; elsewhere the effect and the continuation are one.

That an operation which rejects has had no effect is what the drivers'
contract says of each, one transaction or one command, and what the host
relies on. It is not all that can happen: a `COMMIT` or an `XADD` can take
effect and its reply be lost, and then the host rejects what is done. That
case is left out, and so are arrays with holes, where a handler's result or a
batch of events is meant: a list has a value at every index.

The state object of the instance is a cell of a small heap, `Objects`,
because a snapshot write holds a reference to it until the driver has encoded
it.

`Sys` puts the host beside the durable state of its actor and beside a
history of what happened, which no definition of the host reads.
-/

open Function (update)

/-- `MailboxItem`. The `resolve` and `reject` of a call are its name. -/
inductive Item where
  | tell (type : String) (payload : Json) (inboxId : ℕ)
  | call (method : String) (args : Json) (id : ℕ)

namespace Item

/-- The key an item is dispatched by. -/
def name : Item → String
  | tell type _ _ => type
  | call method _ _ => method

/-- What the handler is called with. -/
def input : Item → Json
  | tell _ payload _ => payload
  | call _ args _ => args

/-- The inbox entry of a tell. -/
def inboxId? : Item → Option ℕ
  | tell _ _ id => some id
  | call _ _ _ => none

/-- The name of a call. -/
def callId? : Item → Option ℕ
  | tell _ _ _ => none
  | call _ _ id => some id

end Item

/-! ## State objects

`this.state` is a reference. User code writes through it, or replaces it;
whoever got it before goes on reading the object, and not the state. -/

/-- **The objects that hold a state**: what each reads, which one
`this.state` refers to, and the first that was never allocated. -/
structure Objects (S : Type) where
  val : ℕ → S
  cur : ℕ
  next : ℕ
  cur_lt : cur < next

namespace Objects

variable {S : Type}

/-- One object, reading `x`. -/
def init (x : S) : Objects S := ⟨fun _ => x, 0, 1, Nat.one_pos⟩

/-- What `this.state` reads. -/
def read (o : Objects S) : S := o.val o.cur

/-- A new object reading `x`, which nothing refers to yet. -/
def alloc (o : Objects S) (x : S) : Objects S :=
  { o with
    val := update o.val o.next x
    next := o.next + 1
    cur_lt := Nat.lt_succ_of_lt o.cur_lt }

/-- `this.state = x`, with `x` a new object. -/
def assign (o : Objects S) (x : S) : Objects S where
  val := update o.val o.next x
  cur := o.next
  next := o.next + 1
  cur_lt := Nat.lt_succ_self _

/-- The object `this.state` refers to is mutated in place. -/
def mutate (o : Objects S) (x : S) : Objects S :=
  { o with val := update o.val o.cur x }

/-- What a segment of user code does. -/
def apply (o : Objects S) : Change S → Objects S
  | .keep => o
  | .mutate x => o.mutate x
  | .assign x => o.assign x

@[simp] theorem read_assign (o : Objects S) (x : S) :
    (o.assign x).read = x := Function.update_self _ _ _

@[simp] theorem read_mutate (o : Objects S) (x : S) :
    (o.mutate x).read = x := Function.update_self _ _ _

@[simp] theorem read_alloc (o : Objects S) (x : S) :
    (o.alloc x).read = o.read :=
  Function.update_of_ne (Nat.ne_of_lt o.cur_lt) _ _

end Objects

/-! ## Suspended functions

One type for each asynchronous method, with a constructor for each `await` in
it. What a constructor holds are the local variables that are read after that
await. -/

/-- What a commit still does once its `ackInbox` has landed. -/
inductive AfterAck where
  | swm
  | esEmpty
  | es (events : List Json)

/-- **Where a worker loop is suspended.** -/
inductive WorkerPc (S : Type) where
  | absent
  /-- Between two turns, about to dequeue. -/
  | looping
  /-- In `dequeue()`, blocked. -/
  | waiting
  /-- `dequeue()` resolved with an item. -/
  | received (item : Item)
  /-- `dequeue()` resolved with `null`. -/
  | exiting
  /-- The handler is at an await of its own. -/
  | running (item : Item) (rest : Script S Json)
  /-- The handler has settled. -/
  | returned (item : Item) (result : Except Json Json)
  | appending (item : Item) (events : List Json) (writes : List EventWrite)
  | appended (item : Item) (events : List Json) (seq : ℤ)
  | acking (item : Item) (inboxId : ℕ) (after : AfterAck)
  | flushing (item : Item) (save : ℕ)
  /-- In the `ackInbox` of a tell without a handler. -/
  | unhandled (inboxId : ℕ)
  /-- The commit has finished. -/
  | committed (item : Item)
  | done

/-- Where a worker is after the next segment of the handler `p`. -/
def WorkerPc.after {S : Type} (item : Item) (p : Script S Json) : WorkerPc S :=
  match p.next with
  | .inl rest => .running item rest
  | .inr r => .returned item r

/-- A lifecycle hook of the class, being awaited. -/
inductive HookPc (S : Type) where
  | running (rest : Script S Unit)
  | returned (result : Except Json Unit)

/-- Where a hook is after the next segment of `p`. -/
def HookPc.after {S : Type} (p : Script S Unit) : HookPc S :=
  match p.next with
  | .inl rest => .running rest
  | .inr r => .returned r

/-- **Where `doActivate` is suspended.** -/
inductive ActPc (S Env : Type) where
  | loadSnapshot
  | resolveCtor (snap : Option (SnapshotRead S))
  | loadFence (snap : Option (SnapshotRead S)) (r : Resolved S Env)
  | register
  | onInit (pc : HookPc S)
  /-- `migrateSnapshot` without a user `migrate` has returned. -/
  | noMigrate
  | retain (prev : SnapshotRead S) (save : ℕ)
  | migrate (prev : SnapshotRead S)
  | migrateFlush (save : ℕ)
  | audit
  | headSeq
  | readEvents
  | replayFlush (save : ℕ)
  | onActivate (pc : HookPc S)
  /-- `readPendingInbox` was issued; the host is activated. -/
  | readInbox
  | replayInbox (pending : List InboxRecord)
  /-- `doActivate` has settled, its `finally` has not run. -/
  | finishing (outcome : Except HostError Unit)

/-- **Where `doDeactivate` is suspended.** -/
inductive DeactPc (S : Type) where
  | awaitWorker (g : ℕ)
  | flush (save : ℕ)
  | onDeactivate (pc : HookPc S)
  | finishing (outcome : Except HostError Unit)

/-- A deactivation in progress; `idle` if `deactivateForIdle` awaits it. -/
structure Deactivation (S : Type) where
  pc : DeactPc S
  idle : Bool

/-- How far a `saveSnapshot` has got: the driver holds a reference to the
state object, has encoded it, or is done. -/
inductive SavePc (S : Type) where
  | toEncode (obj : ℕ)
  | toLand (s : S)
  | ended (ok : Bool)

/-- A `saveSnapshot` handed to the driver. -/
structure Save (S : Type) where
  seq : ℤ
  version : Version
  pc : SavePc S

/-- Where a `tell()` is suspended, or how it ended: resolved or rejected,
with the inbox entry it had appended. -/
inductive TellPc where
  | awaitActivate (a : ℕ)
  | appending
  | appended (id : ℕ)
  | dropAcking (id : ℕ)
  | resolved (id : ℕ)
  | rejected (entry : Option ℕ) (e : HostError)

/-- The inbox entry a `tell()` has appended. -/
def TellPc.entry? : TellPc → Option ℕ
  | awaitActivate _ => none
  | appending => none
  | appended id => some id
  | dropAcking id => some id
  | resolved id => some id
  | rejected entry _ => entry

/-- A `tell()` that was called. -/
structure TellTask where
  type : String
  payload : Json
  pc : TellPc

/-- Where a `call()` is suspended, or how it ended: `queued` if the mailbox
accepted it and its promise is pending, `refused` if it never got there. -/
inductive CallPc where
  | awaitActivate (a : ℕ)
  | queued
  | settled (result : Except HostError Json)
  | refused (e : HostError)

/-- The mailbox has accepted the call. -/
def CallPc.entered : CallPc → Bool
  | awaitActivate _ => false
  | queued => true
  | settled _ => true
  | refused _ => false

/-- A `call()` that was made. -/
structure CallTask where
  method : String
  args : Json
  pc : CallPc

/-! ## The host

The fields of the class, beside what is in flight; then storage and history,
which make it a system that can take a step. -/

/-- What `handlerErrors` counted. -/
inductive ErrorSource where
  | unhandled (inboxId : ℕ)
  | turn (item : Item)
  | onDeactivate
  | flush (save : ℕ)

/-- `metrics`. A counter of messages is kept as the list of what it counted,
so that the number the source has is its length. -/
structure Metrics where
  tellsHandled : List ℕ := []
  callsHandled : List ℕ := []
  tellsDropped : List ℕ := []
  handlerErrors : List ErrorSource := []
  snapshotsWritten : ℕ := 0
  eventsAppended : ℕ := 0
  eventsReplayed : ℕ := 0
  migrationsApplied : ℕ := 0

/-- **The state of an `ActorHost`.** -/
structure Host (S Env : Type) where
  /-- `instance`: the activation that constructed it, or `null`. -/
  inst : Option ℕ
  /-- The class of the instance, which is where `handlers` and `isEs` come
  from. -/
  cls : ActorClass S Env
  objs : Objects S
  mailbox : Mailbox ℕ Item
  workers : ℕ → WorkerPc S
  workerPromise : Option ℕ
  currentSeq : ℤ
  eventsSinceSnapshot : ℕ
  snapshotTimer : Bool
  snapshotDirty : Bool
  idleTimer : Bool
  activating : Option (ActPc S Env)
  /-- How many times `doActivate` was begun. -/
  activation : ℕ
  /-- How each `activating` promise settled. -/
  outcome : ℕ → Option (Except HostError Unit)
  deactivating : Option (Deactivation S)
  /-- Calls of `deactivateForIdle` about to run `onIdleEvict`. -/
  idleEvicts : ℕ
  activated : Bool
  destroyed : Bool
  runningVersion : Version
  metrics : Metrics
  commitListeners : List ℕ
  prevStateCapture : Option S
  tells : ℕ → Option TellTask
  calls : ℕ → Option CallTask
  /-- The snapshot writes handed to the driver; a write is named by its
  position. -/
  saves : List (Save S)
  /-- The snapshot writes a callback of the debounce timer awaits. -/
  timerFlushes : List ℕ

/-- What a subscriber is sent. -/
inductive Notification (S Op : Type) where
  | snapshot (data : Option S) (seq : ℤ)
  | patch (ops : List Op)
  | event (events : List Json) (seq : ℤ)
  | tombstone

/-- **What happened so far**, for the statements to refer to. -/
structure History (S Op : Type) where
  /-- The items the current mailbox accepted, in order. -/
  accepted : List Item
  /-- The items of the current mailbox `handle` was called on, in order. -/
  taken : List Item
  /-- The inbox entries pending when the current mailbox was created. -/
  replayable : List ℕ
  /-- The inbox entries appended by a `tell()` that has neither enqueued nor
  acked them yet. -/
  landed : List ℕ
  /-- The inbox entries whose turn has returned normally and, for an
  event-sourced actor, has its events in the log and in the state. -/
  committed : List ℕ
  /-- What `state` and `snapshot()` read each time a call of user code, or
  the code that installs a state, had finished. -/
  boundaries : List S
  /-- What each subscriber was sent, in order. -/
  notifs : ℕ → List (Notification S Op)

/-- **A host beside the durable state of its actor.** -/
structure Sys (S Env Op : Type) where
  host : Host S Env
  store : ActorStore S
  hist : History S Op

variable {S Env Op : Type}

/-- A host as the constructor leaves it. The mailbox, unset in the source
until the first activation, is closed. -/
def Host.init (cfg : HostConfig S Env Op) : Host S Env where
  inst := none
  cls := cfg.registration.ctor
  objs := .init cfg.registration.ctor.blank
  mailbox := (Mailbox.new 1 Nat.one_pos).close
  workers := fun _ => .absent
  workerPromise := none
  currentSeq := 0
  eventsSinceSnapshot := 0
  snapshotTimer := false
  snapshotDirty := false
  idleTimer := false
  activating := none
  activation := 0
  outcome := fun _ => none
  deactivating := none
  idleEvicts := 0
  activated := false
  destroyed := false
  runningVersion := cfg.registration.version
  metrics := {}
  commitListeners := []
  prevStateCapture := none
  tells := fun _ => none
  calls := fun _ => none
  saves := []
  timerFlushes := []

/-- Nothing has happened. -/
def History.init : History S Op := ⟨[], [], [], [], [], [], fun _ => []⟩

/-- A new host over what storage holds. -/
def Sys.init (cfg : HostConfig S Env Op) (store : ActorStore S) :
    Sys S Env Op :=
  ⟨Host.init cfg, store, .init⟩

/-- `instance.state`. -/
def Host.state (h : Host S Env) : S := h.objs.read
