import Actjs.Segments

/-!
# The flow of messages through a host

What a host does to its messages and to its own life depends on very little
of what it holds: not on the state of the actor, the snapshots or the log,
and of a suspended function only on the stage it is at. `HostFlow` is that part,
`Sys.flow` reads it off a host, and the theorems below say how each step of
a host moves it. `doActivate`, a worker and `doDeactivate`, which have many
program counters each, move it in the few ways that `HostFlow.Activating`,
`HostFlow.Working` and `HostFlow.Deactivating` list; an invariant of the flow is
proved against those lists and never against the program counters.
-/

open Function (update)

/-! ## Stages

Program counters up to what the flow of messages can tell apart: whether a
worker waits for an item, has one in hand, owes an ack, or has ended. -/

/-- The stage of `doActivate`. -/
inductive Phase where
  /-- None in progress. -/
  | idle
  /-- Before the instance is constructed. -/
  | loading
  /-- The instance is constructed, the host not yet activated. -/
  | opening
  /-- Activated, the inbox being read. -/
  | reading
  | replaying (pending : List InboxRecord)
  /-- Settled; the `finally` has not run. -/
  | finishing

/-- The stage of a worker loop. -/
inductive WorkerStage where
  | absent
  | looping
  | waiting
  | received (item : Item)
  | unhandled (inboxId : ℕ)
  /-- In the handler, or in the commit before the item is acknowledged. -/
  | turn (item : Item)
  | acking (item : Item) (inboxId : ℕ)
  /-- The item is acknowledged. -/
  | ended (item : Item)
  | exiting
  | done

/-- The stage of `doDeactivate`. -/
inductive DeactStage where
  | awaiting (g : ℕ)
  /-- Flushing, or in `onDeactivate`. -/
  | ending
  /-- The instance is dropped. -/
  | dropped
  | failed
deriving DecidableEq

variable {S Env Op : Type}

/-- The stage of an activation. -/
def ActPc.phase : ActPc S Env → Phase
  | loadSnapshot => .loading
  | resolveCtor _ => .loading
  | loadFence _ _ => .loading
  | readInbox => .reading
  | replayInbox pending => .replaying pending
  | finishing _ => .finishing
  | _ => .opening

theorem ActPc.phase_of_through {pc : ActPc S Env} (h : pc.through = false) :
    pc.phase = .loading ∨ pc.phase = .opening := by
  cases pc <;> simp_all [phase, through]

/-- The stage of a worker. -/
def WorkerPc.stage : WorkerPc S → WorkerStage
  | absent => .absent
  | looping => .looping
  | waiting => .waiting
  | received item => .received item
  | exiting => .exiting
  | running item _ => .turn item
  | returned item _ => .turn item
  | appending item _ _ => .turn item
  | appended item _ _ => .turn item
  | acking item id _ => .acking item id
  | flushing item _ => .ended item
  | unhandled id => .unhandled id
  | committed item => .ended item
  | done => .done

/-- The stage of a deactivation. -/
def DeactPc.stage : DeactPc S → DeactStage
  | awaitWorker g => .awaiting g
  | flush _ => .ending
  | onDeactivate _ => .ending
  | finishing (.ok _) => .dropped
  | finishing (.error _) => .failed

/-- A worker starting a handler, or going on with one, is in its turn. -/
@[simp] theorem WorkerPc.stage_after (item : Item) (p : Script S Json) :
    (WorkerPc.after item p).stage = .turn item := by
  unfold WorkerPc.after
  cases p.next <;> rfl

namespace WorkerStage

/-- The worker loop runs, and has not been told to stop. -/
def serving : WorkerStage → Bool
  | absent => false
  | exiting => false
  | done => false
  | _ => true

/-- The worker loop has begun and not returned. -/
def alive : WorkerStage → Bool
  | absent => false
  | done => false
  | _ => true

/-- The item is in the worker's hands. -/
def holding : WorkerStage → Option Item
  | received item => some item
  | turn item => some item
  | acking item _ => some item
  | ended item => some item
  | _ => none

end WorkerStage

/-! ## The flow

`Life` is what lives and dies, `HostFlow` what messages flow through besides.
Both keep lists of what has happened, so that an invariant can refer to it. -/

/-- The part of a host that lives and dies: its flags, its mailbox and its
workers. -/
structure Life where
  phase : Phase
  activation : ℕ
  activated : Bool
  deact : Option DeactStage
  inst : Option ℕ
  workerPromise : Option ℕ
  workers : ℕ → WorkerStage
  mailbox : Mailbox ℕ Item

/-- **The part of a host that messages flow through.** -/
structure HostFlow extends Life where
  tells : ℕ → Option TellTask
  calls : ℕ → Option CallTask
  inbox : List InboxEntry
  acked : List ℕ
  dropped : List ℕ
  errors : List ErrorSource
  accepted : List Item
  taken : List Item
  replayable : List ℕ
  landed : List ℕ
  committed : List ℕ

/-- The flow of a host. -/
def Sys.flow (s : Sys S Env Op) : HostFlow where
  phase := (s.host.activating.map ActPc.phase).getD .idle
  activation := s.host.activation
  activated := s.host.activated
  deact := s.host.deactivating.map (fun d => d.pc.stage)
  inst := s.host.inst
  workerPromise := s.host.workerPromise
  workers := fun g => (s.host.workers g).stage
  mailbox := s.host.mailbox
  tells := s.host.tells
  calls := s.host.calls
  inbox := s.store.inbox
  acked := s.store.acked
  dropped := s.host.metrics.tellsDropped
  errors := s.host.metrics.handlerErrors
  accepted := s.hist.accepted
  taken := s.hist.taken
  replayable := s.hist.replayable
  landed := s.hist.landed
  committed := s.hist.committed

namespace HostFlow

/-- Move worker `g`. -/
def setWorker (f : HostFlow) (g : ℕ) (w : WorkerStage) : HostFlow :=
  { f with workers := update f.workers g w }

@[grind =] theorem setWorker_workers (f : HostFlow) (g g' : ℕ)
    (w : WorkerStage) :
    (f.setWorker g w).workers g' = if g' = g then w else f.workers g' :=
  Function.update_apply _ _ _ _

@[simp, grind =] theorem setWorker_activated (f : HostFlow) (g : ℕ)
    (w : WorkerStage) : (f.setWorker g w).activated = f.activated := rfl
@[simp, grind =] theorem setWorker_workerPromise (f : HostFlow) (g : ℕ)
    (w : WorkerStage) : (f.setWorker g w).workerPromise = f.workerPromise := rfl
@[simp, grind =] theorem setWorker_phase (f : HostFlow) (g : ℕ)
    (w : WorkerStage) : (f.setWorker g w).phase = f.phase := rfl
@[simp, grind =] theorem setWorker_inst (f : HostFlow) (g : ℕ)
    (w : WorkerStage) : (f.setWorker g w).inst = f.inst := rfl
@[simp, grind =] theorem setWorker_mailbox (f : HostFlow) (g : ℕ)
    (w : WorkerStage) : (f.setWorker g w).mailbox = f.mailbox := rfl
@[simp, grind =] theorem setWorker_deact (f : HostFlow) (g : ℕ)
    (w : WorkerStage) : (f.setWorker g w).deact = f.deact := rfl
@[simp, grind =] theorem setWorker_activation (f : HostFlow) (g : ℕ)
    (w : WorkerStage) : (f.setWorker g w).activation = f.activation := rfl
@[simp, grind =] theorem setWorker_tells (f : HostFlow) (g : ℕ)
    (w : WorkerStage) : (f.setWorker g w).tells = f.tells := rfl
@[simp, grind =] theorem setWorker_calls (f : HostFlow) (g : ℕ)
    (w : WorkerStage) : (f.setWorker g w).calls = f.calls := rfl
@[simp, grind =] theorem setWorker_inbox (f : HostFlow) (g : ℕ)
    (w : WorkerStage) : (f.setWorker g w).inbox = f.inbox := rfl
@[simp, grind =] theorem setWorker_acked (f : HostFlow) (g : ℕ)
    (w : WorkerStage) : (f.setWorker g w).acked = f.acked := rfl
@[simp, grind =] theorem setWorker_dropped (f : HostFlow) (g : ℕ)
    (w : WorkerStage) : (f.setWorker g w).dropped = f.dropped := rfl
@[simp, grind =] theorem setWorker_errors (f : HostFlow) (g : ℕ)
    (w : WorkerStage) : (f.setWorker g w).errors = f.errors := rfl
@[simp, grind =] theorem setWorker_accepted (f : HostFlow) (g : ℕ)
    (w : WorkerStage) : (f.setWorker g w).accepted = f.accepted := rfl
@[simp, grind =] theorem setWorker_taken (f : HostFlow) (g : ℕ)
    (w : WorkerStage) : (f.setWorker g w).taken = f.taken := rfl
@[simp, grind =] theorem setWorker_replayable (f : HostFlow) (g : ℕ)
    (w : WorkerStage) : (f.setWorker g w).replayable = f.replayable := rfl
@[simp, grind =] theorem setWorker_landed (f : HostFlow) (g : ℕ)
    (w : WorkerStage) : (f.setWorker g w).landed = f.landed := rfl
@[simp, grind =] theorem setWorker_committed (f : HostFlow) (g : ℕ)
    (w : WorkerStage) : (f.setWorker g w).committed = f.committed := rfl

/-- A worker moved to where it is has not moved. -/
theorem setWorker_self {f : HostFlow} {g : ℕ} {w : WorkerStage}
    (h : f.workers g = w) : f.setWorker g w = f := by
  rw [setWorker, ← h, Function.update_eq_self]

theorem phase_self {f : HostFlow} {p : Phase} (h : f.phase = p) :
    { f with phase := p } = f := by
  rw [← h]

/-- `mailbox.enqueue(item)`. -/
def enqueue (f : HostFlow) (item : Item) : HostFlow :=
  let e := f.mailbox.enqueue item
  { f with
    mailbox := e.mailbox
    workers := match e.woken with
      | none => f.workers
      | some g => update f.workers g (.received item)
    accepted :=
      if e.result = .accepted then f.accepted ++ [item] else f.accepted }

/-- `mailbox.dequeue()` by worker `g`. -/
def dequeue (f : HostFlow) (g : ℕ) : HostFlow :=
  let d := f.mailbox.dequeue g
  { f.setWorker g (match d.result with
      | .item x => .received x
      | .null => .exiting
      | .blocked => .waiting) with mailbox := d.mailbox }

/-- Enqueue the entries read from the inbox, until the mailbox is closed. -/
def enqueueAll (f : HostFlow) : List InboxRecord → HostFlow
  | [] => f
  | r :: rs =>
    let item := Item.tell r.entry.type r.entry.payload r.id
    match (f.mailbox.enqueue item).result with
    | .closed => f
    | _ => (f.enqueue item).enqueueAll rs

/-- Enqueueing moves nothing but the mailbox, the workers and what was
accepted. -/
theorem enqueueAll_frame (f : HostFlow) (rs : List InboxRecord) :
    f.enqueueAll rs
      = { f with
          mailbox := (f.enqueueAll rs).mailbox
          workers := (f.enqueueAll rs).workers
          accepted := (f.enqueueAll rs).accepted } := by
  induction rs generalizing f with
  | nil => rfl
  | cons r rs ih =>
    rw [enqueueAll]
    split
    · rfl
    · exact ih (f.enqueue _)

/-- `mailbox.close()`. -/
def closeMailbox (f : HostFlow) : HostFlow :=
  { f with
    mailbox := f.mailbox.close
    workers := fun g =>
      if g ∈ f.mailbox.waiters then .exiting else f.workers g }

/-- Enqueueing an item moves no worker but the one it is handed to. -/
theorem enqueue_workers (f : HostFlow) (item : Item) (g : ℕ) :
    (f.enqueue item).workers g = f.workers g
      ∨ (f.enqueue item).workers g = .received item := by
  cases hw : (f.mailbox.enqueue item).woken with
  | none => exact .inl (by simp only [enqueue, hw])
  | some g' =>
    simp only [enqueue, hw, Function.update_apply]
    split
    · exact .inr rfl
    · exact .inl rfl

/-- Dequeueing moves no worker but the one that does. -/
theorem dequeue_workers (f : HostFlow) (g g' : ℕ) :
    (f.dequeue g).workers g' = f.workers g'
      ∨ (∃ item, (f.dequeue g).workers g' = .received item)
      ∨ (f.dequeue g).workers g' = .exiting
      ∨ (f.dequeue g).workers g' = .waiting := by
  by_cases h : g' = g
  · subst h
    refine .inr ?_
    unfold dequeue
    cases hr : (f.mailbox.dequeue g').result with
    | item x => exact .inl ⟨x, by simp only [hr, setWorker_workers, if_true]⟩
    | null => exact .inr (.inl (by simp only [hr, setWorker_workers, if_true]))
    | blocked =>
      exact .inr (.inr (by simp only [hr, setWorker_workers, if_true]))
  · exact .inl (Function.update_of_ne h _ _)

/-- Closing the mailbox moves no worker but those that wait. -/
theorem closeMailbox_workers (f : HostFlow) (g : ℕ) :
    f.closeMailbox.workers g = f.workers g
      ∨ f.closeMailbox.workers g = .exiting := by
  by_cases h : g ∈ f.mailbox.waiters
  · exact .inr (if_pos h)
  · exact .inl (if_neg h)

/-! ## How a host moves it

A relation for each function that is suspended somewhere, with one case for
each thing it can do to the flow. `Moves` says which of them a label makes. -/

/-- What `activate()` does: nothing, or begin an activation, which a
destroyed host refuses. -/
inductive Opening (f : HostFlow) : HostFlow → Prop
  | none : Opening f f
  | refuse : f.activated = false → f.phase = .idle →
      Opening f
        { f with phase := .finishing, activation := f.activation + 1 }
  | begin (capacity : ℕ) (h : 0 < capacity) : f.activated = false →
      f.phase = .idle →
      Opening f
        { f with
          phase := .loading
          activation := f.activation + 1
          mailbox := .new capacity h
          accepted := []
          taken := []
          replayable := (pendingInbox f.inbox f.acked).map InboxRecord.id }

/-- The instance `i` is there once the step at hand is over: it was before,
or the step constructed it. -/
inductive Constructs (f : HostFlow) : Option ℕ → Prop
  | earlier : f.phase = .opening → Constructs f f.inst
  | now : f.phase = .loading → Constructs f (some f.activation)

/-- **What a segment of `doActivate` does.** -/
inductive Activating (f : HostFlow) : HostFlow → Prop
  | load : f.phase = .loading → Activating f { f with phase := .loading }
  | opening {i : Option ℕ} : Constructs f i →
      Activating f { f with phase := .opening, inst := i }
  | activated {i : Option ℕ} : Constructs f i →
      Activating f
        { { f with
            inst := i
            activated := true
            workerPromise := some f.activation }.dequeue
              f.activation with phase := .reading }
  | failed : f.phase = .loading ∨ f.phase = .opening ∨ f.phase = .reading →
      Activating f { f with phase := .finishing }
  | read : f.phase = .reading →
      Activating f { f with phase := .replaying (pendingInbox f.inbox f.acked) }
  | replayed {pending : List InboxRecord} : f.phase = .replaying pending →
      Activating f { f.enqueueAll pending with phase := .finishing }
  | settled : f.phase = .finishing → Activating f { f with phase := .idle }

/-- **What a segment of worker `g` does.** -/
inductive Working (g : ℕ) (f : HostFlow) : HostFlow → Prop
  | dequeue : f.workers g = .looping → Working g f (f.dequeue g)
  | exit : f.workers g = .exiting → Working g f (f.setWorker g .done)
  | refuse {method : String} {args : Json} {c : ℕ} (e : HostError) :
      f.workers g = .received (.call method args c) →
      Working g f
        { f.setWorker g .looping with
          taken := f.taken ++ [.call method args c]
          calls := settleItem f.calls (.call method args c) (.error e) }
  | ignore {type : String} {payload : Json} {id : ℕ} :
      f.workers g = .received (.tell type payload id) →
      Working g f
        { f.setWorker g (.unhandled id) with
          taken := f.taken ++ [.tell type payload id] }
  | start {item : Item} : f.workers g = .received item →
      Working g f
        { f.setWorker g (.turn item) with taken := f.taken ++ [item] }
  | resolve {method : String} {args : Json} {c : ℕ} (r : Json) :
      f.workers g = .turn (.call method args c) →
      Working g f
        { f.setWorker g (.ended (.call method args c)) with
          calls := settleItem f.calls (.call method args c) (.ok r) }
  | commit {type : String} {payload : Json} {id : ℕ} :
      f.workers g = .turn (.tell type payload id) →
      Working g f
        { f.setWorker g (.acking (.tell type payload id) id) with
          committed := id :: f.committed }
  | ack {item : Item} {id : ℕ} : f.workers g = .acking item id →
      Working g f
        { f.setWorker g (.ended item) with acked := id :: f.acked }
  | turn {item : Item} : f.workers g = .turn item →
      Working g f (f.setWorker g (.turn item))
  | flush {item : Item} : f.workers g = .ended item →
      Working g f (f.setWorker g (.ended item))
  | fail {item : Item} (e : HostError) :
      f.workers g = .turn item ∨ (∃ id, f.workers g = .acking item id)
        ∨ f.workers g = .ended item →
      Working g f
        { f.setWorker g .looping with
          errors := .turn item :: f.errors
          calls := settleItem f.calls item (.error e) }
  | unhandled {id : ℕ} (ok : Bool) : f.workers g = .unhandled id →
      Working g f
        { f.setWorker g .looping with
          errors := .unhandled id :: f.errors
          acked := if ok = true then id :: f.acked else f.acked }
  | finish {item : Item} : f.workers g = .ended item →
      Working g f (f.setWorker g .looping)

/-- The worker that `doDeactivate` awaits, if any, has returned. -/
inductive Awaited (f : HostFlow) : Prop
  | worker {g : ℕ} : f.deact = some (.awaiting g) → f.workers g = .done →
      Awaited f
  | none : f.deact = some .ending → Awaited f

/-- **What a segment of `doDeactivate` does.** -/
inductive Deactivating (f : HostFlow) : HostFlow → Prop
  | ending : Awaited f → Deactivating f { f with deact := some .ending }
  | drop (errors : List ErrorSource) : Awaited f →
      Deactivating f
        { f with
          inst := none
          workerPromise := none
          deact := some .dropped
          errors := errors ++ f.errors }
  | fail : f.deact = some .ending →
      Deactivating f { f with deact := some .failed }
  | finish : f.deact = some .dropped ∨ f.deact = some .failed →
      Deactivating f { f with deact := none, activated := false }

/-- What `deactivate()` does: nothing, or close the mailbox and await the
worker. An activated host without a worker, for which `unattended` says
nothing, is one of those that never come about. -/
inductive Closing (f : HostFlow) : HostFlow → Prop
  | none : Closing f f
  | close {g : ℕ} : f.deact = .none → f.activated = true →
      f.workerPromise = some g →
      Closing f { f.closeMailbox with deact := some (.awaiting g) }
  | unattended (f' : HostFlow) : f.deact = .none → f.activated = true →
      f.workerPromise = .none → Closing f f'

/-- **What a `tell()` does** when its append or its drop ack settles, and
when it resumes. -/
inductive Telling (t : ℕ) (f : HostFlow) : HostFlow → Prop
  | move {task task' : TellTask} : f.tells t = some task →
      task.pc.entry? = .none → task'.pc.entry? = .none →
      Telling t f { f with tells := update f.tells t (some task') }
  | append {type : String} {payload : Json} :
      f.tells t = some ⟨type, payload, .appending⟩ →
      Telling t f
        { f with
          inbox := f.inbox ++ [⟨type, payload⟩]
          landed := f.inbox.length :: f.landed
          tells := update f.tells t
            (some ⟨type, payload, .appended f.inbox.length⟩) }
  | closed {type : String} {payload : Json} {id : ℕ} :
      f.tells t = some ⟨type, payload, .appended id⟩ →
      (f.mailbox.enqueue (.tell type payload id)).result = .closed →
      Telling t f
        { f with
          landed := f.landed.erase id
          tells := update f.tells t
            (some ⟨type, payload, .rejected (some id) .mailboxClosed⟩) }
  | drop {type : String} {payload : Json} {id : ℕ} :
      f.tells t = some ⟨type, payload, .appended id⟩ →
      (f.mailbox.enqueue (.tell type payload id)).result = .full →
      Telling t f
        { f with
          dropped := id :: f.dropped
          tells := update f.tells t (some ⟨type, payload, .dropAcking id⟩) }
  | accept {type : String} {payload : Json} {id : ℕ} :
      f.tells t = some ⟨type, payload, .appended id⟩ →
      (f.mailbox.enqueue (.tell type payload id)).result = .accepted →
      Telling t f
        { f.enqueue (.tell type payload id) with
          landed := f.landed.erase id
          tells := update f.tells t (some ⟨type, payload, .resolved id⟩) }
  | dropAcked {type : String} {payload : Json} {id : ℕ} :
      f.tells t = some ⟨type, payload, .dropAcking id⟩ →
      Telling t f
        { f with
          acked := id :: f.acked
          landed := f.landed.erase id
          tells := update f.tells t (some ⟨type, payload, .resolved id⟩) }
  | dropFailed {type : String} {payload : Json} {id : ℕ} :
      f.tells t = some ⟨type, payload, .dropAcking id⟩ →
      Telling t f
        { f with
          landed := f.landed.erase id
          tells := update f.tells t
            (some ⟨type, payload, .rejected (some id) .storage⟩) }

/-- **What a `call()` does** once it need not wait, or no longer: the mailbox
accepts it, or not. -/
inductive Calling (c : ℕ) (f : HostFlow) : HostFlow → Prop
  | move {task : CallTask} : task.pc.entered = false →
      Calling c f { f with calls := update f.calls c (some task) }
  | accept (method : String) (args : Json) : f.mailbox.isFull = false →
      (f.mailbox.enqueue (.call method args c)).result = .accepted →
      Calling c f
        { f.enqueue (.call method args c) with
          calls := update f.calls c (some ⟨method, args, .queued⟩) }

/-- **What each label does to the flow.** -/
def Moves {Env : Type} (f f' : HostFlow) : Act Env → Prop
  | .activate => f.Opening f'
  | .tellStart t _ _ =>
    f.tells t = .none ∧ ∃ f₁ task, f.Opening f₁ ∧ task.pc.entry? = .none
      ∧ f' = { f₁ with tells := update f₁.tells t (some task) }
  | .tellLand t _ => f.Telling t f'
  | .tellResume t => f.Telling t f'
  | .callStart c _ _ =>
    f.calls c = .none ∧ ((f.activated = true ∧ f.Calling c f')
      ∨ ∃ f₁ task, f.Opening f₁ ∧ task.pc.entered = false
          ∧ f' = { f₁ with calls := update f₁.calls c (some task) })
  | .callResume c =>
    (∃ task, f.calls c = some task ∧ task.pc.entered = false) ∧ f.Calling c f'
  | .activation _ _ => f.Activating f'
  | .worker g _ _ => f.Working g f'
  | .deactivation _ => f.Deactivating f'
  | .deactivate _ => f.Closing f'
  | .destroy _ => f.Closing f'
  | .idleFire _ => f.Closing f'
  | .flushResume _ => ∃ es, f' = { f with errors := es ++ f.errors }
  | _ => f' = f

/-- A worker leaves the activation where it is. -/
theorem Working.phase_eq {g : ℕ} {f f' : HostFlow} (h : f.Working g f') :
    f'.phase = f.phase := by
  cases h <;> rfl

end HostFlow

/-! ## The steps of a host

Each step of a host is one of these moves. The lemmas before `Sys.flow_step`
say what the helpers of the host do to the flow, most of them nothing. -/

namespace Sys

section Segments

variable (s : Sys S Env Op)

/-- Only its stage tells one program counter of a worker from another. -/
theorem stage_update (w : ℕ → WorkerPc S) (g : ℕ) (pc : WorkerPc S) :
    (fun g' => (update w g pc g').stage)
      = update (fun g' => (w g').stage) g pc.stage :=
  Function.comp_update WorkerPc.stage w g pc

@[simp] theorem flow_setWorker (g : ℕ) (pc : WorkerPc S) :
    (s.setWorker g pc).flow = s.flow.setWorker g pc.stage := by
  simp only [setWorker, flow, HostFlow.setWorker, stage_update]

@[simp] theorem flow_setActivating (pc : ActPc S Env) :
    (s.setActivating pc).flow = { s.flow with phase := pc.phase } := rfl

@[simp] theorem flow_setDeactivating (d : Deactivation S) :
    (s.setDeactivating d).flow = { s.flow with deact := some d.pc.stage } := rfl

@[simp] theorem flow_setTell (t : ℕ) (task : TellTask) :
    (s.setTell t task).flow
      = { s.flow with tells := update s.flow.tells t (some task) } := rfl

@[simp] theorem flow_setCall (c : ℕ) (task : CallTask) :
    (s.setCall c task).flow
      = { s.flow with calls := update s.flow.calls c (some task) } := rfl

@[simp] theorem flow_runSegment {R : Type} (p : Script S R) :
    (s.runSegment p).flow = s.flow := rfl

@[simp] theorem flow_boundary : s.boundary.flow = s.flow := rfl

@[simp] theorem flow_emit (ns : List (Notification S Op)) :
    (s.emit ns).flow = s.flow := rfl

@[simp] theorem flow_enqueue (item : Item) :
    (s.enqueue item).flow = s.flow.enqueue item := by
  unfold enqueue HostFlow.enqueue
  cases h : (s.host.mailbox.enqueue item).woken with
  | none => simp only [flow, wake, h]; rfl
  | some g => simp only [flow, wake, h, stage_update]; rfl

@[simp] theorem flow_dequeue (g : ℕ) :
    (s.dequeue g).flow = s.flow.dequeue g := by
  unfold dequeue HostFlow.dequeue
  cases h : (s.host.mailbox.dequeue g).result <;>
    simp only [flow, HostFlow.setWorker, dequeuedPc, h, stage_update] <;> rfl

theorem flow_enqueueAll (rs : List InboxRecord) :
    (s.enqueueAll rs).2.flow = s.flow.enqueueAll rs := by
  induction rs generalizing s with
  | nil => rfl
  | cons r rs ih =>
    rw [enqueueAll, HostFlow.enqueueAll]
    show _ = match (s.host.mailbox.enqueue _).result with
      | .closed => s.flow
      | _ => _
    dsimp only [enqueueResult]
    cases (s.host.mailbox.enqueue _).result with
    | closed => rfl
    | full => rw [← flow_enqueue]; exact ih _
    | accepted => rw [← flow_enqueue]; exact ih _

@[simp] theorem flow_closeMailbox :
    s.closeMailbox.flow = s.flow.closeMailbox := by
  have h : (fun g => (wakeAll s.host.workers s.host.mailbox.waiters g).stage)
      = fun g => if g ∈ s.flow.mailbox.waiters then .exiting
          else s.flow.workers g := funext (fun _ => apply_ite WorkerPc.stage _ _ _)
  unfold closeMailbox HostFlow.closeMailbox
  rw [← h]
  rfl

end Segments

/-- What `activate()` does to the flow. -/
theorem flow_activate (cfg : HostConfig S Env Op) (s : Sys S Env Op) :
    s.flow.Opening (s.activate cfg).flow := by
  unfold activate
  split
  · exact .none
  next ha =>
  split
  · exact .none
  next hb =>
  have hact : s.flow.activated = false := by simpa [flow] using ha
  have hidle : s.flow.phase = .idle := by
    have hn : s.host.activating = none := by simpa using hb
    simp [flow, hn]
  unfold beginActivation
  dsimp only
  split
  · exact .refuse hact hidle
  · exact .begin _ _ hact hidle

section Activation

variable {s : Sys S Env Op} {f : HostFlow} {i : Option ℕ}

theorem flow_becomeActivated (s : Sys S Env Op) :
    s.becomeActivated.flow
      = { { s.flow with
            activated := true
            workerPromise := some s.flow.activation }.dequeue
              s.flow.activation with phase := .reading } := by
  rw [becomeActivated, flow_setActivating, flow_dequeue]
  rfl

theorem flow_beginOnActivate (env : Env) (hs : s.flow = { f with inst := i })
    (hi : f.Constructs i) : f.Activating (s.beginOnActivate env).flow := by
  unfold beginOnActivate
  split
  · rw [flow_becomeActivated, hs]
    exact .activated hi
  · rw [flow_setActivating, flow_runSegment, hs]
    exact .opening hi

theorem flow_beginReplay (env : Env) (hs : s.flow = { f with inst := i })
    (hi : f.Constructs i) : f.Activating (s.beginReplay env).flow := by
  unfold beginReplay
  split
  · rw [flow_setActivating, hs]
    exact .opening hi
  · exact flow_beginOnActivate env hs hi

theorem flow_beginOnInit (env : Env) (hs : s.flow = { f with inst := i })
    (hi : f.Constructs i) : f.Activating (s.beginOnInit env).flow := by
  unfold beginOnInit
  split
  · exact flow_beginReplay env (by rw [flow_boundary, hs]) hi
  · rw [flow_setActivating, flow_runSegment, hs]
    exact .opening hi

end Activation

theorem flow_beginMigrate {s : Sys S Env Op} {f : HostFlow} {i : Option ℕ}
    (prev : SnapshotRead S) (hs : s.flow = { f with inst := i })
    (hi : f.Constructs i) : f.Activating (s.beginMigrate prev).flow := by
  have h : (s.beginMigrate prev).flow = { s.flow with phase := .opening } := by
    unfold beginMigrate
    split <;> rfl
  rw [h, hs]
  exact .opening hi

theorem flow_migrated (s : Sys S Env Op) (x : S) :
    (s.migrated x).flow = { s.flow with phase := .opening } := by
  unfold migrated
  dsimp only
  split <;> rfl

theorem flow_replay (cfg : HostConfig S Env Op) (s : Sys S Env Op) (env : Env)
    (h : s.flow.phase = .opening) :
    s.flow.Activating (s.replay cfg env).flow := by
  unfold replay
  dsimp only
  split
  · exact .failed (.inr (.inl h))
  · split
    · exact .opening (.earlier h)
    · exact flow_beginOnActivate env rfl (.earlier h)

theorem flow_phase {s : Sys S Env Op} {pc : ActPc S Env}
    (h : s.host.activating = some pc) : s.flow.phase = pc.phase := by
  simp only [flow, h, Option.map_some, Option.getD_some]

/-- **What a segment of `doActivate` does to the flow.** -/
theorem flow_actStep {cfg : HostConfig S Env Op} {s s' : Sys S Env Op}
    {env : Env} {ok : Bool} (h : s.actStep cfg env ok = some s') :
    s.flow.Activating s'.flow := by
  obtain ⟨pc, hpc, hseg⟩ := actSegment h
  have hp := flow_phase hpc
  cases hseg with
  | failed e ht =>
    exact .failed ((ActPc.phase_of_through ht.through).imp hp.trans
      (fun ho => .inl (hp.trans ho)))
  | loadSnapshot | resolveCtor => exact .load hp
  | blank => exact .opening (.now hp)
  | migrates => exact flow_beginMigrate _ rfl (.now hp)
  | loaded => exact flow_beginReplay env rfl (.now hp)
  | register | registerEs =>
    exact flow_beginOnInit env (by simp only [flow, withRow, hpc]; rfl) (.earlier hp)
  | onInit | retained | migrateFlushed | behind | onActivate => exact .opening (.earlier hp)
  | initialized | noMigrate | audited => exact flow_beginReplay env rfl (.earlier hp)
  | migrated =>
    rw [flow_migrated]
    exact .opening (.earlier hp)
  | upToDate | replayFlushed => exact flow_beginOnActivate env rfl (.earlier hp)
  | replayed => exact flow_replay cfg s env hp
  | activated =>
    rw [flow_becomeActivated]
    exact .activated (.earlier hp)
  | inboxFailed => exact .failed (.inr (.inr hp))
  | readInbox => exact .read hp
  | replayInbox =>
    rw [flow_setActivating, flow_enqueueAll]
    exact .replayed hp
  | settled => exact .settled hp

section Worker

variable {cfg : HostConfig S Env Op} {s : Sys S Env Op} {f : HostFlow} {g : ℕ}
  {item : Item}

theorem flow_workers {pc : WorkerPc S} (h : s.host.workers g = pc) :
    s.flow.workers g = pc.stage := by
  show (s.host.workers g).stage = _
  rw [h]

theorem flow_turnFailed (e : HostError) :
    (s.turnFailed g item e).flow
      = { s.flow.setWorker g .looping with
          errors := .turn item :: s.flow.errors
          calls := settleItem s.flow.calls item (.error e) } := by
  rw [turnFailed, flow_setWorker]
  rfl

theorem flow_commitEsTail (events : List Json) :
    (s.commitEsTail cfg g item events).flow
      = s.flow.setWorker g (.ended item) := by
  unfold commitEsTail
  dsimp only
  split <;> rw [flow_setWorker] <;> rfl

theorem flow_issueAck (id : ℕ) (after : AfterAck) :
    (s.issueAck g item id after).flow
      = { s.flow.setWorker g (.acking item id) with
          committed := id :: s.flow.committed } := by
  rw [issueAck, flow_setWorker]
  rfl

theorem flow_runHandler (p : Script S Json) :
    (s.runHandler g item p).flow = s.flow.setWorker g (.turn item) := by
  rw [runHandler, flow_setWorker, flow_runSegment, WorkerPc.stage_after]

theorem Fails.stage {ok : Bool} {pc : WorkerPc S} (h : s.Fails ok pc item) :
    pc.stage = .turn item ∨ (∃ id, pc.stage = .acking item id) ∨ pc.stage = .ended item := by
  cases pc <;> first | exact h.elim | obtain ⟨rfl, -⟩ := h
  case acking id after => exact .inr (.inl ⟨id, rfl⟩)
  case flushing k => exact .inr (.inr rfl)
  all_goals exact .inl rfl

theorem Fails.alive {ok : Bool} {pc : WorkerPc S} (h : s.Fails ok pc item) :
    pc.stage.alive = true := by
  rcases h.stage with h | ⟨id, h⟩ | h <;> rw [h] <;> rfl

/-- A worker that moves is alive. -/
theorem alive_of_workerStep {s' : Sys S Env Op} {env : Env} {ok : Bool}
    (h : s.workerStep cfg g env ok = some s') : (s.host.workers g).stage.alive = true := by
  obtain ⟨pc, hpc, hseg⟩ := workerSegment h
  rw [hpc]
  cases hseg with
  | failed e hf => exact hf.alive
  | _ => rfl

/-- **What a segment of a worker does to the flow.** -/
theorem flow_workerStep {s' : Sys S Env Op} {env : Env} {ok : Bool}
    (h : s.workerStep cfg g env ok = some s') : s.flow.Working g s'.flow := by
  obtain ⟨pc, hpc, hseg⟩ := workerSegment h
  have hw := flow_workers hpc
  cases hseg with
  | dequeue =>
    rw [flow_dequeue]
    exact .dequeue hw
  | exit =>
    rw [flow_setWorker]
    exact .exit hw
  | refuse =>
    rw [flow_setWorker]
    exact .refuse _ hw
  | ignore =>
    rw [flow_setWorker]
    exact .ignore hw
  | start =>
    rw [flow_runHandler]
    exact .start hw
  | run =>
    rw [flow_runHandler]
    exact .turn hw
  | failed e hf =>
    rw [flow_turnFailed]
    exact .fail _ (hf.stage.imp hw.trans (.imp (.imp fun _ => hw.trans) hw.trans))
  | resolveSwm | resolveEmpty =>
    rw [flow_setWorker]
    exact .resolve _ hw
  | ackSwm | ackEmpty | ackEs =>
    rw [flow_issueAck]
    exact .commit hw
  | append =>
    rw [flow_setWorker]
    exact .turn hw
  | @appended item _ _ store _ _ ha =>
    have hflow : Sys.flow { s with store := store } = s.flow := by
      simp only [flow, ActorStore.appendEvents_inbox ha, ActorStore.appendEvents_acked ha]
    rw [flow_setWorker, hflow]
    exact .turn hw
  | resolveEs =>
    rw [flow_commitEsTail]
    exact .resolve _ hw
  | esAcked =>
    rw [flow_commitEsTail]
    exact .ack hw
  | swmAcked | emptyAcked =>
    rw [flow_setWorker]
    exact .ack hw
  | flushed =>
    rw [flow_setWorker]
    exact .flush hw
  | ignored =>
    rw [flow_setWorker]
    cases ok
    · exact .unhandled false hw
    · exact .unhandled true hw
  | finish =>
    rw [flow_setWorker]
    exact .finish hw

end Worker

section Deactivation

variable (s : Sys S Env Op)

theorem flow_beginOnDeactivate (env : Env) (idle : Bool)
    {f : HostFlow} (hs : s.flow = f) (hf : f.Awaited) :
    f.Deactivating (s.beginOnDeactivate env idle).flow := by
  unfold beginOnDeactivate
  split
  · rw [flow_setDeactivating, flow_runSegment, hs]
    exact .ending hf
  · rw [← hs] at hf ⊢
    exact .drop [] hf

/-- **What a segment of `doDeactivate` does to the flow.** -/
theorem flow_deactStep {s s' : Sys S Env Op} {env : Env}
    (h : s.deactStep env = some s') : s.flow.Deactivating s'.flow := by
  obtain ⟨pc, idle, hd, hseg⟩ := deactSegment h
  have hstage : s.flow.deact = some pc.stage := by
    simp only [flow, hd, Option.map_some]
  cases hseg with
  | flush hw => exact .ending (.worker hstage (flow_workers hw))
  | unflushed hw =>
    exact flow_beginOnDeactivate _ env idle rfl (.worker hstage (flow_workers hw))
  | flushed => exact flow_beginOnDeactivate _ env idle rfl (.none hstage)
  | flushFailed => exact .fail hstage
  | onDeactivate => exact .ending (.none hstage)
  | threw => exact .drop [.onDeactivate] (.none hstage)
  | dropped => exact .drop [] (.none hstage)
  | @settled o =>
    cases o with
    | ok u => exact .finish (.inl hstage)
    | error e => exact .finish (.inr hstage)

/-- What `deactivate()` does to the flow. -/
theorem flow_deactivate (env : Env) (idle : Bool) :
    s.flow.Closing (s.deactivate env idle).flow := by
  unfold deactivate
  split
  · exact .none
  next hd =>
  split
  · exact .none
  next ha =>
  have hdeact : s.flow.deact = none := by
    have hn : s.host.deactivating = none := by simpa using hd
    simp only [flow, hn, Option.map_none]
  have hact : s.flow.activated = true := by simpa [flow] using ha
  dsimp only
  split
  · next g hg =>
    rw [flow_setDeactivating, flow_closeMailbox]
    exact .close hdeact hact hg
  · next hg => exact .unattended _ hdeact hact hg

end Deactivation

section Requests

variable {cfg : HostConfig S Env Op} {s s' : Sys S Env Op}

theorem flow_tellStart {t : ℕ} {type : String} {payload : Json}
    (h : s.tellStart cfg t type payload = some s') :
    s.flow.tells t = none ∧ ∃ f₁ task, s.flow.Opening f₁
      ∧ task.pc.entry? = none
      ∧ s'.flow = { f₁ with tells := update f₁.tells t (some task) } := by
  unfold tellStart at h
  split at h
  · exact absurd h (by simp)
  next ht =>
  refine ⟨Option.not_isSome_iff_eq_none.mp ht, ?_⟩
  split at h
  · obtain rfl := Option.some.inj h
    exact ⟨_, _, .none, by rfl, rfl⟩
  split at h
  · obtain rfl := Option.some.inj h
    exact ⟨_, _, .none, by rfl, rfl⟩
  · obtain rfl := Option.some.inj h
    exact ⟨_, _, flow_activate cfg s, by rfl, rfl⟩

theorem flow_tellLand {t : ℕ} {ok : Bool} (h : s.tellLand t ok = some s') :
    s.flow.Telling t s'.flow := by
  unfold tellLand at h
  split at h
  · next type payload ht =>
    split at h <;> obtain rfl := Option.some.inj h
    · exact .append ht
    · exact .move ht rfl rfl
  · next type payload id ht =>
    dsimp only at h
    split at h <;> obtain rfl := Option.some.inj h
    · exact .dropAcked ht
    · exact .dropFailed ht
  · exact absurd h (by simp)

theorem flow_tellResume {t : ℕ} (h : s.tellResume t = some s') :
    s.flow.Telling t s'.flow := by
  unfold tellResume at h
  split at h
  · next type payload a ht =>
    split at h
    · exact absurd h (by simp)
    · obtain rfl := Option.some.inj h
      exact .move ht rfl rfl
    · obtain rfl := Option.some.inj h
      exact .move ht rfl rfl
  · next type payload id ht =>
    obtain rfl := Option.some.inj h
    unfold tellEnqueue
    dsimp only
    split
    · next hr => exact .closed ht hr
    · next hr => exact .drop ht hr
    · next hr =>
      rw [flow_setTell, flow_enqueue]
      exact .accept ht hr
  · exact absurd h (by simp)

theorem flow_callEnqueue {c : ℕ} (method : String) (args : Json) :
    s.flow.Calling c (s.callEnqueue c method args).flow := by
  unfold callEnqueue
  split
  · exact .move rfl
  next hf =>
  split
  · exact .move rfl
  · exact .move rfl
  · next hr =>
    rw [flow_setCall, flow_enqueue]
    exact .accept method args (Bool.eq_false_iff.mpr hf) hr

theorem flow_callStart {c : ℕ} {method : String} {args : Json}
    (h : s.callStart cfg c method args = some s') :
    s.flow.calls c = none ∧ ((s.flow.activated = true ∧ s.flow.Calling c s'.flow)
      ∨ ∃ f₁ task, s.flow.Opening f₁ ∧ task.pc.entered = false
          ∧ s'.flow = { f₁ with calls := update f₁.calls c (some task) }) := by
  unfold callStart at h
  split at h
  · exact absurd h (by simp)
  next hc =>
  refine ⟨Option.not_isSome_iff_eq_none.mp hc, ?_⟩
  split at h
  · obtain rfl := Option.some.inj h
    exact .inr ⟨_, _, .none, by rfl, rfl⟩
  split at h
  · next ha =>
    obtain rfl := Option.some.inj h
    exact .inl ⟨ha, flow_callEnqueue _ _⟩
  · obtain rfl := Option.some.inj h
    exact .inr ⟨_, _, flow_activate cfg s, by rfl, rfl⟩

theorem flow_callResume {c : ℕ} (h : s.callResume c = some s') :
    (∃ task, s.flow.calls c = some task ∧ task.pc.entered = false)
      ∧ s.flow.Calling c s'.flow := by
  unfold callResume at h
  split at h
  · next method args a hc =>
    refine ⟨⟨_, hc, rfl⟩, ?_⟩
    split at h
    · exact absurd h (by simp)
    · obtain rfl := Option.some.inj h
      exact flow_callEnqueue _ _
    · obtain rfl := Option.some.inj h
      exact .move rfl
  · exact absurd h (by simp)

end Requests

/-- **Every step of a host moves its flow as its label says.** -/
theorem flow_step {cfg : HostConfig S Env Op} {s s' : Sys S Env Op}
    {a : Act Env} (h : s.step cfg a = some s') : s.flow.Moves s'.flow a := by
  cases a with
  | activate =>
    obtain rfl := Option.some.inj h
    exact flow_activate cfg s
  | tellStart t type payload => exact flow_tellStart h
  | tellLand t ok => exact flow_tellLand h
  | tellResume t => exact flow_tellResume h
  | callStart c method args => exact flow_callStart h
  | callResume c => exact flow_callResume h
  | activation env ok => exact flow_actStep h
  | worker g env ok => exact flow_workerStep h
  | deactivate env =>
    obtain rfl := Option.some.inj h
    exact flow_deactivate s env false
  | deactivation env => exact flow_deactStep h
  | destroy env =>
    obtain rfl := Option.some.inj h
    unfold destroy
    split
    · exact .none
    · exact flow_deactivate
        { s with host := { s.host with destroyed := true } } env false
  | idleFire env =>
    rw [step] at h
    split at h
    · obtain rfl := Option.some.inj h
      unfold deactivateForIdle
      split
      · exact .none
      · split
        · exact .none
        · exact flow_deactivate
            { s with host := { s.host with idleTimer := false } } env true
    · exact absurd h (by simp)
  | idleEvict =>
    rw [step] at h
    split at h
    · obtain rfl := Option.some.inj h
      rfl
    · exact absurd h (by simp)
  | snapshotFire =>
    rw [step, snapshotFire] at h
    split at h
    · dsimp only at h
      split at h <;> obtain rfl := Option.some.inj h <;> rfl
    · exact absurd h (by simp)
  | flushResume k =>
    rw [step, flushResume] at h
    split at h
    · dsimp only at h
      split at h
      · exact absurd h (by simp)
      · obtain rfl := Option.some.inj h
        exact ⟨[], rfl⟩
      · obtain rfl := Option.some.inj h
        exact ⟨[.flush k], rfl⟩
    · exact absurd h (by simp)
  | save k ok =>
    rw [step, saveStep] at h
    split at h
    · split at h <;> obtain rfl := Option.some.inj h <;> rfl
    · split at h <;> obtain rfl := Option.some.inj h <;> rfl
    · exact absurd h (by simp)
  | subscribe l =>
    rw [step, subscribe] at h
    split at h
    · exact absurd h (by simp)
    · obtain rfl := Option.some.inj h
      rfl
  | unsubscribe l =>
    obtain rfl := Option.some.inj h
    rfl
  | notifyTombstone =>
    obtain rfl := Option.some.inj h
    rfl

end Sys
