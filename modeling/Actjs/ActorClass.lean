import Actjs.Storage

/-!
# Actor classes

What the host knows of user code. A class is its handlers, its lifecycle
hooks and, for an event-sourced one, its `reduce`; all of it is arbitrary.

User code is asynchronous and may mutate `this.state` between two awaits,
so a call of it is a `Script`: the segments it runs, each with what it does
to the state, ending in a return or a throw. A handler is given the outside
world it observes (`Env`) besides the state and the payload, which leaves
its behaviour unrestricted; a deterministic one ignores it.

A segment either mutates the state object in place or assigns a new object
to `this.state`. The difference is visible to whoever holds a reference to
the old object – a snapshot write that has not been encoded yet.
-/

/-- What a segment of user code did to `this.state`. -/
inductive Change (S : Type) where
  | keep
  /-- The object was mutated and now reads `s`. -/
  | mutate (s : S)
  /-- A new object reading `s` was assigned. -/
  | assign (s : S)

/-- **A call of user code**: its segments between awaits, then a return or a
throw. -/
inductive Script (S R : Type) where
  | await (c : Change S) (rest : Script S R)
  | ret (c : Change S) (r : R)
  | throw (c : Change S) (e : Json)

namespace Script

variable {S R : Type}

/-- What the next segment does to the state. -/
def change : Script S R → Change S
  | await c _ => c
  | ret c _ => c
  | throw c _ => c

/-- What comes after the next segment: more segments, or the result. -/
def next : Script S R → Script S R ⊕ Except Json R
  | await _ rest => .inl rest
  | ret _ r => .inr (.ok r)
  | throw _ e => .inr (.error e)

/-- The next segment is the last. -/
def ends (p : Script S R) : Bool := p.next.isRight

end Script

/-- The errors the runtime raises or passes on. -/
inductive HostError where
  | destroyed (id : ActorId)
  | mailboxClosed
  | mailboxFull
  | noHandler (name : String) (cls : ClassName)
  | notEvents (cls : ClassName) (typeof : String)
  | eventNotObject
  | eventMissingType
  | manifestRegression (id : ActorId) (cls : ClassName) (persisted registered : Version)
  | noLoader (id : ActorId) (persisted registered : Version)
  | loader (message : String)
  | unknownActor (id : ActorId)
  /-- A rejection of the storage driver. -/
  | storage
  /-- Whatever user code threw. -/
  | thrown (e : Json)

/-- The text of an error; a driver's own text, and that of a thrown value,
are not the host's. -/
def HostError.message : HostError → String
  | destroyed id => "ActorHost " ++ id ++ " is destroyed"
  | mailboxClosed => "mailbox is closed"
  | mailboxFull => "mailbox is full"
  | noHandler name cls => "no handler for " ++ name ++ " on " ++ cls
  | notEvents cls t => "ES handler for " ++ cls ++ " must return E[]; got " ++ t
  | eventNotObject =>
    "ES event must be an object with a string `type` discriminant"
  | eventMissingType => "ES event missing string `type` discriminant"
  | manifestRegression id cls persisted registered =>
    "actor " ++ id ++ " (" ++ cls ++ ") is persisted at " ++ persisted
      ++ " which is newer than the registered " ++ registered
      ++ "; refusing to run older code against newer state"
  | noLoader id persisted registered =>
    "actor " ++ id ++ " is sticky at " ++ persisted
      ++ " but the runtime is registered for " ++ registered
      ++ " and no ClassLoader is configured"
  | loader message => message
  | unknownActor id => "appendEvents: unknown actor " ++ id
  | storage => ""
  | thrown _ => ""

/-- **An actor class**: `Actor<S>`, or `EventSourced<S, E>` if `isEs`. -/
structure ActorClass (S Env : Type) where
  /-- `instance instanceof EventSourced`. -/
  isEs : Bool
  /-- What `state` reads right after `new ctor()`. -/
  blank : S
  initialState : S
  reduce : S → Json → Except Json S
  migrateEvent : Option (Json → Version → Except Json Json)
  /-- The `@handler` registry. -/
  handlers : String → Option (Env → S → Json → Script S Json)
  onInit : Option (Env → S → Script S Unit)
  onActivate : Option (Env → S → Script S Unit)
  onDeactivate : Option (Env → S → Script S Unit)
  migrate : Option (Env → S → Version → Except Json S)
  /-- An override of `snapshot()`; the default returns `this.state`. -/
  snapshot : Option (S → S)

/-- `DEFAULT_MAILBOX_CAPACITY`. -/
def defaultMailboxCapacity : ℕ := 1024

theorem defaultMailboxCapacity_pos : 0 < defaultMailboxCapacity := by decide

/-- `DEFAULT_SNAPSHOT_EVERY_N_EVENTS`. -/
def defaultSnapshotEveryNEvents : ℕ := 100

/-- `ActorClassRegistration`. The timer intervals are left out: a timer that
is armed may fire at any moment. -/
structure Registration (S Env : Type) where
  name : ClassName
  version : Version
  ctor : ActorClass S Env
  mailboxCapacity : ℕ := defaultMailboxCapacity
  /-- The check of the `Mailbox` constructor. -/
  mailboxCapacity_pos : 0 < mailboxCapacity := by decide
  snapshotEveryNEvents : ℕ := defaultSnapshotEveryNEvents
  floating : Bool := false

/-- **What an `ActorHost` is constructed with**, and the third-party
functions it calls: `semver.gt` and the JSON Patch `compare`. -/
structure HostConfig (S Env Op : Type) where
  id : ActorId
  registration : Registration S Env
  /-- `ClassLoader.load`, if there is a loader. -/
  loader : Option (ClassName → Version → Except HostError (ActorClass S Env))
  gt : Version → Version → Bool
  compare : S → S → List Op

variable {S Env Op : Type}

/-- What `resolveCtor` decides. -/
structure Resolved (S Env : Type) where
  ctor : ActorClass S Env
  runningVersion : Version
  willMigrateSnap : Bool

/-- `resolveCtor`: which class version an activation runs. `ok` says whether
the loader's own storage reads succeed. -/
def HostConfig.resolveCtor (cfg : HostConfig S Env Op)
    (persisted : Option Version) (ok : Bool) :
    Except HostError (Resolved S Env) :=
  let registered := cfg.registration.version
  match persisted with
  | none => .ok ⟨cfg.registration.ctor, registered, false⟩
  | some p =>
    if p = registered then .ok ⟨cfg.registration.ctor, registered, false⟩
    else if cfg.gt p registered then
      .error (.manifestRegression cfg.id cfg.registration.name p registered)
    else if cfg.registration.floating then
      .ok ⟨cfg.registration.ctor, registered, true⟩
    else
      match cfg.loader with
      | none => .error (.noLoader cfg.id p registered)
      | some load =>
        if ok then (load cfg.registration.name p).map (fun c => ⟨c, p, false⟩)
        else .error .storage

/-- `normalizeEvent`: a handler's event as `appendEvents` wants it. A record
with a `payload` property is taken as it is; otherwise the payload is the
record without its `type`. -/
def normalizeEvent (e : Json) : Except HostError EventWrite :=
  if e.truthy = false ∨ e.typeof ≠ "object" then .error .eventNotObject
  else
    match e.get? "type" with
    | some (.str type) =>
      match e.get? "payload" with
      | some payload => .ok ⟨type, payload⟩
      | none => .ok ⟨type, e.without "type"⟩
    | _ => .error .eventMissingType

/-- `events.map(normalizeEvent)`, stopping at the first that throws. -/
def normalizeEvents : List Json → Except HostError (List EventWrite)
  | [] => .ok []
  | e :: es => do
    let w ← normalizeEvent e
    let ws ← normalizeEvents es
    return w :: ws

/-- `for (const e of events) state = reduce(state, e)`. -/
def foldEvents (cls : ActorClass S Env) : S → List Json → Except Json S
  | s, [] => .ok s
  | s, e :: es => (cls.reduce s e).bind (fun s' => foldEvents cls s' es)

/-- Folding a concatenation folds one part after the other. -/
theorem foldEvents_append (cls : ActorClass S Env) (s : S)
    (es fs : List Json) :
    foldEvents cls s (es ++ fs)
      = (foldEvents cls s es).bind (fun s' => foldEvents cls s' fs) := by
  induction es generalizing s with
  | nil => rfl
  | cons e es ih =>
    rw [List.cons_append, foldEvents, foldEvents]
    cases cls.reduce s e with
    | error x => rfl
    | ok s' => exact ih s'

/-- Normalizing a batch normalizes each of its events. -/
theorem normalizeEvents_length {es : List Json} {ws : List EventWrite}
    (h : normalizeEvents es = .ok ws) : ws.length = es.length := by
  induction es generalizing ws with
  | nil =>
    rw [normalizeEvents, Except.ok.injEq] at h
    rw [← h]
    rfl
  | cons e es ih =>
    rw [normalizeEvents] at h
    cases hw : normalizeEvent e with
    | error x => rw [hw] at h; exact absurd h (by simp [bind, Except.bind])
    | ok w =>
      cases hws : normalizeEvents es with
      | error x =>
        rw [hw, hws] at h
        exact absurd h (by simp [bind, Except.bind])
      | ok ws' =>
        rw [hw, hws] at h
        obtain rfl : w :: ws' = ws := by
          simpa [bind, Except.bind, pure, Except.pure] using h
        rw [List.length_cons, List.length_cons, ih hws]
