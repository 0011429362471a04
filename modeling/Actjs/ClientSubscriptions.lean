import Actjs.ClientRpc
import Actjs.Host

/-!
# The subscriptions of a client

`subscribe` makes a request, and with the id that it is answered with a record in
`SubscriptionState`, which has the listener. What the server sends for an id that has no
record is kept for the one that comes. `activeSubs` has what `handleOpen` subscribes to
again; the record of the listener it leaves alone.

The server is modelled as far as the client can see it: a request is handled some time
after it arrived, an actor sends its notifications to every subscription that there is of
it, and a connection that closes takes everything with it. An actor sends nothing after
its tombstone.

## What throws

The state a patch leads to and the reducers are parameters, and both may throw: a patch
does on a record that has no state yet, for one, since its path does not exist. `apply`
throws then before it has changed the record, and before any listener is told. Where that
is a frame that arrived, nothing else comes of it; but where it is one that was kept,
`flushBuffered` ends there, what was kept after it is lost, and `subscribe()` is rejected,
which leaves its record behind with the listener in it.

The listeners themselves do not throw. `lastSeq`, which nothing reads, and `close` are
left out.
-/

open Function (update)

variable {S Op : Type}

/-! ## The records

The client finds a record by the id of a notification. What comes for an id
without a record waits for one, up to a limit of time. -/

/-- A record of the client. `listeners` are numbered as the `subscribe()` they are of. -/
structure ClientRecord (S : Type) where
  subscriptionId : ℕ
  state : Option S
  reducer : Option (Option S → Json → Option (Option S))
  listeners : List ℕ
  tombstoned : Bool

namespace ClientRecord

/-- What `apply` does to a record that is not tombstoned, unless it throws. -/
def apply (applyPatch : Option S → List Op → Option (Option S)) (rec : ClientRecord S) :
    Notification S Op → Option (ClientRecord S)
  | .snapshot data _ => some { rec with state := data }
  | .patch ops => (applyPatch rec.state ops).map (fun state => { rec with state := state })
  | .event events _ =>
    match rec.reducer with
    | none => some rec
    | some reducer =>
      (events.foldlM reducer rec.state).map (fun state => { rec with state := state })
  | .tombstone => some { rec with tombstoned := true }

/-- The record after a notification. -/
def receive (applyPatch : Option S → List Op → Option (Option S)) (rec : ClientRecord S)
    (n : Notification S Op) : Option (ClientRecord S) :=
  if rec.tombstoned = true then some rec else rec.apply applyPatch n

/-- **The record after these notifications, and the states that its listeners are given
for them**, unless one of them throws. -/
def follow (applyPatch : Option S → List Op → Option (Option S)) (rec : ClientRecord S) :
    List (Notification S Op) → Option (ClientRecord S × List (Option S))
  | [] => some (rec, [])
  | n :: ns =>
    (rec.receive applyPatch n).bind (fun rec' =>
      (rec'.follow applyPatch ns).map (fun last =>
        (last.1, (if rec.tombstoned = true then [] else [rec'.state]) ++ last.2)))

end ClientRecord

/-- **`SubscriptionState`**, and what its listeners have heard. A record is numbered as
the `subscribe()` that made it. -/
structure SubscriptionState (S Op : Type) where
  records : ℕ → Option (ClientRecord S)
  subs : ℕ → Option ℕ
  pending : ℕ → List (Notification S Op)
  heard : ℕ → List (Option S)

namespace SubscriptionState

def init : SubscriptionState S Op where
  records := fun _ => none
  subs := fun _ => none
  pending := fun _ => []
  heard := fun _ => []

/-- `bufferEarly`. `expired` are the ids whose notifications have waited for too long. -/
def bufferEarly (m : SubscriptionState S Op) (expired : List ℕ) (subscriptionId : ℕ)
    (n : Notification S Op) : SubscriptionState S Op :=
  let pending := fun i => if i ∈ expired then [] else m.pending i
  { m with pending := update pending subscriptionId (pending subscriptionId ++ [n]) }

/-- The listeners of a record are given its state. -/
def tell (m : SubscriptionState S Op) (rec : ClientRecord S) : SubscriptionState S Op :=
  { m with heard := fun l => if l ∈ rec.listeners then m.heard l ++ [rec.state] else m.heard l }

/-- `apply`, unless it throws. -/
def apply (applyPatch : Option S → List Op → Option (Option S)) (expired : List ℕ)
    (m : SubscriptionState S Op) (subscriptionId : ℕ) (n : Notification S Op) :
    Option (SubscriptionState S Op) :=
  match m.subs subscriptionId with
  | none => some (m.bufferEarly expired subscriptionId n)
  | some k =>
    match m.records k with
    | none => some m
    | some rec =>
      if rec.tombstoned = true then some m
      else (rec.apply applyPatch n).map (fun rec' =>
        { m with records := update m.records k (some rec') }.tell rec')

/-- What was kept for an id is applied up to the first that throws. Whether none did comes
with it. -/
def applyAll (applyPatch : Option S → List Op → Option (Option S)) (subscriptionId : ℕ) :
    List (Notification S Op) → SubscriptionState S Op → SubscriptionState S Op × Bool
  | [], m => (m, true)
  | n :: ns, m =>
    match m.apply applyPatch [] subscriptionId n with
    | none => (m, false)
    | some m' => applyAll applyPatch subscriptionId ns m'

/-- `preRegister`, by `subscribe()` number `k`. -/
def preRegister (m : SubscriptionState S Op) (k subscriptionId : ℕ)
    (reducer : Option (Option S → Json → Option (Option S))) : SubscriptionState S Op :=
  { m with
    records := update m.records k (some ⟨subscriptionId, none, reducer, [], false⟩)
    subs := update m.subs subscriptionId (some k) }

/-- `rec.listeners.add`. -/
def addListener (m : SubscriptionState S Op) (k : ℕ) : SubscriptionState S Op :=
  { m with
    records := update m.records k
      ((m.records k).map (fun rec => { rec with listeners := rec.listeners ++ [k] })) }

/-- `rec.listeners.delete`. -/
def deleteListener (m : SubscriptionState S Op) (k : ℕ) : SubscriptionState S Op :=
  { m with
    records := update m.records k
      ((m.records k).map (fun rec =>
        { rec with listeners := rec.listeners.filter (fun l => l ≠ k) })) }

/-- `flushBuffered`, and whether it did not throw. -/
def flushBuffered (applyPatch : Option S → List Op → Option (Option S))
    (m : SubscriptionState S Op) (subscriptionId : ℕ) : SubscriptionState S Op × Bool :=
  applyAll applyPatch subscriptionId (m.pending subscriptionId)
    { m with pending := update m.pending subscriptionId [] }

def unregister (m : SubscriptionState S Op) (subscriptionId : ℕ) : SubscriptionState S Op :=
  { m with subs := update m.subs subscriptionId none }

end SubscriptionState

/-! ## The server

Only what a client can observe of it: ids that are granted, notifications in
order, and that all is forgotten with the connection. -/

/-- What a request asks for. -/
inductive SubscriptionParams where
  | subscribe (className : ClassName) (actorId : ActorId)
  | unsubscribe (subscriptionId : ℕ)
  /-- A call. -/
  | other

/-- A frame of the server. Only what answers a `subscribe` has a `subscriptionId`. -/
inductive ServerFrame (S Op : Type) where
  | response (id : ℕ) (answer : RpcAnswer (Option ℕ))
  | notification (subscriptionId : ℕ) (n : Notification S Op)

/-- The notification, of a frame for this id. -/
def ServerFrame.notification? (subscriptionId : ℕ) : ServerFrame S Op → Option (Notification S Op)
  | response _ _ => none
  | notification i n => if i = subscriptionId then some n else none

/-- A subscription of the connection. -/
structure ServedSubscription where
  id : ℕ
  className : ClassName
  actorId : ActorId
deriving DecidableEq

/-- The subscription is to the actor. -/
def ServedSubscription.of (sub : ServedSubscription) (className : ClassName)
    (actorId : ActorId) : Bool :=
  sub.className == className && sub.actorId == actorId

def Notification.isTombstone : Notification S Op → Bool
  | tombstone => true
  | _ => false

/-- **The server**, as the one connection sees it. -/
structure SubscriptionServer (S Op : Type) where
  /-- What arrived, or is on its way, and is not handled. -/
  up : List (RpcRequest SubscriptionParams)
  /-- The responses that are not sent yet. -/
  answering : List (ℕ × RpcAnswer (Option ℕ))
  /-- What was sent, and has not arrived. -/
  down : List (ServerFrame S Op)
  served : List ServedSubscription
  /-- How many ids `randomUUID` has given out. -/
  issued : ℕ
  /-- What each actor has sent to its subscribers. -/
  published : ClassName → ActorId → List (Notification S Op)

namespace SubscriptionServer

def init : SubscriptionServer S Op := ⟨[], [], [], [], 0, fun _ _ => []⟩

/-- A request is handled. The host of an actor that is subscribed to is in this state. -/
def handle (v : SubscriptionServer S Op) (i : ℕ) (data : Option S) (seq : ℤ) :
    Option (SubscriptionServer S Op) :=
  match v.up[i]? with
  | none => none
  | some ⟨id, .subscribe className actorId⟩ =>
    some { v with
      up := v.up.eraseIdx i
      served := v.served ++ [⟨v.issued, className, actorId⟩]
      down := v.down ++ [.notification v.issued (.snapshot data seq)]
      answering := v.answering ++ [(id, .result (some v.issued))]
      issued := v.issued + 1 }
  | some ⟨id, .unsubscribe subscriptionId⟩ =>
    some { v with
      up := v.up.eraseIdx i
      served := v.served.filter (fun sub => sub.id ≠ subscriptionId)
      answering := v.answering ++ [(id, .result none)] }
  | some ⟨id, .other⟩ =>
    some { v with
      up := v.up.eraseIdx i
      answering := v.answering ++ [(id, .result none)] }

/-- A request comes to an error. -/
def refuse (v : SubscriptionServer S Op) (i : ℕ) (frameworkCode : Option String) :
    Option (SubscriptionServer S Op) :=
  match v.up[i]? with
  | none => none
  | some r =>
    some { v with
      up := v.up.eraseIdx i
      answering := v.answering ++ [(r.id, .error frameworkCode)] }

/-- A response is sent. -/
def respond (v : SubscriptionServer S Op) (i : ℕ) : Option (SubscriptionServer S Op) :=
  match v.answering[i]? with
  | none => none
  | some (id, answer) =>
    some { v with answering := v.answering.eraseIdx i, down := v.down ++ [.response id answer] }

/-- An actor sends a notification to its subscribers. -/
def publish (v : SubscriptionServer S Op) (className : ClassName) (actorId : ActorId)
    (n : Notification S Op) : Option (SubscriptionServer S Op) :=
  if (v.published className actorId).any Notification.isTombstone = true then none
  else some { v with
    down := v.down ++ (v.served.filter (fun sub => sub.of className actorId)).map
      (fun sub => .notification sub.id n)
    served := if n.isTombstone = true
      then v.served.filter (fun sub => !sub.of className actorId) else v.served
    published := update v.published className
      (update (v.published className) actorId (v.published className actorId ++ [n])) }

/-- The connection closes. -/
def close (v : SubscriptionServer S Op) : SubscriptionServer S Op :=
  { v with up := [], answering := [], down := [], served := [] }

/-- What is on its way for an id. -/
def inFlight (v : SubscriptionServer S Op) (subscriptionId : ℕ) : List (Notification S Op) :=
  v.down.filterMap (ServerFrame.notification? subscriptionId)

end SubscriptionServer

/-! ## The client

`subscribe()`, `unsubscribe()` and `handleOpen`, each suspended at the
requests that it makes. -/

/-- How far a `subscribe()` has got. -/
inductive ListenPc where
  | requested (id : ℕ)
  /-- Its request has settled, with an id or by an error. -/
  | settled (subscriptionId : Option ℕ)
  /-- It was rejected. -/
  | rejected
  /-- It has returned. -/
  | listening (subscriptionId : ℕ)
  /-- What it returned was called. -/
  | unsubscribed (subscriptionId : ℕ)

/-- A `subscribe()`. -/
structure ClientListener where
  className : ClassName
  actorId : ActorId
  pc : ListenPc

/-- An entry of `activeSubs`, with the time it was inserted. Its value is the object that
`subscribe()` number `info` made. -/
structure ActiveSub where
  time : ℕ
  key : String
  info : ℕ

/-- How far a `handleOpen` has got in `activeSubs`. -/
inductive ResubscribePc where
  /-- It goes on with the first entry that was not inserted before. -/
  | next (time : ℕ)
  | requested (id : ℕ) (entry : ActiveSub)
  | settled (subscriptionId : Option ℕ) (entry : ActiveSub)

/-- The promise of the request settles. -/
def ListenPc.settle (id : ℕ) (subscriptionId : Option ℕ) : ListenPc → ListenPc
  | requested i => if i = id then settled subscriptionId else requested i
  | pc => pc

def ResubscribePc.settle (id : ℕ) (subscriptionId : Option ℕ) : ResubscribePc → ResubscribePc
  | requested i entry => if i = id then settled subscriptionId entry else requested i entry
  | pc => pc

/-- The id that a request has resolved with. -/
def RpcAnswer.subscriptionId : RpcAnswer (Option ℕ) → Option ℕ
  | result subscriptionId => subscriptionId
  | error _ => none

/-- **`activeSubs`**, the objects in it, and what goes through it. -/
structure ActiveSubs where
  entries : List ActiveSub
  inserted : ℕ
  /-- The `subscriptionId` in the object that a `subscribe()` made. -/
  infos : ℕ → Option ℕ
  runs : ℕ → Option ResubscribePc
  opened : ℕ

namespace ActiveSubs

def init : ActiveSubs := ⟨[], 0, fun _ => none, fun _ => none, 0⟩

/-- The key of an actor. -/
def key (className : ClassName) (actorId : ActorId) : String := className ++ ":" ++ actorId

def set (m : ActiveSubs) (key : String) (info : ℕ) : ActiveSubs :=
  if m.entries.any (fun entry => entry.key == key) = true then
    { m with entries := m.entries.map (fun entry =>
        if entry.key = key then { entry with info := info } else entry) }
  else { m with
    entries := m.entries ++ [⟨m.inserted, key, info⟩]
    inserted := m.inserted + 1 }

def delete (m : ActiveSubs) (key : String) : ActiveSubs :=
  { m with entries := m.entries.filter (fun entry => entry.key ≠ key) }

/-- `info.subscriptionId = …`. -/
def setInfo (m : ActiveSubs) (info subscriptionId : ℕ) : ActiveSubs :=
  { m with infos := update m.infos info (some subscriptionId) }

def setRun (m : ActiveSubs) (r : ℕ) (pc : Option ResubscribePc) : ActiveSubs :=
  { m with runs := update m.runs r pc }

/-- `handleOpen` begins to go through the entries. -/
def opens (m : ActiveSubs) : ActiveSubs :=
  { m.setRun m.opened (some (.next 0)) with opened := m.opened + 1 }

/-- The promise of the request settles. -/
def settle (m : ActiveSubs) (id : ℕ) (subscriptionId : Option ℕ) : ActiveSubs :=
  { m with runs := fun r => (m.runs r).map (ResubscribePc.settle id subscriptionId) }

end ActiveSubs

/-- **A client and its server**, as far as subscriptions go. -/
structure ClientSubscriptions (S Op : Type) where
  rpc : Rpc SubscriptionParams (Option ℕ)
  server : SubscriptionServer S Op
  subs : SubscriptionState S Op
  /-- The calls of `subscribe`. -/
  listeners : ℕ → Option ClientListener
  nextListener : ℕ
  activeSubs : ActiveSubs

/-- **What can happen to the subscriptions next.** -/
inductive SubscriptionAct (S Op : Type) where
  | subscribe (className : ClassName) (actorId : ActorId) (accepts : Bool)
  /-- `subscribe()` goes on once its request has settled. -/
  | resume (k : ℕ)
  /-- What `subscribe()` returned is called. -/
  | unsubscribe (k : ℕ) (accepts : Bool)
  /-- A call. -/
  | other (accepts : Bool)
  | opens (held again : ℕ)
  | closes (clean : Bool)
  | reconnect
  | resubscribe (r : ℕ) (accepts : Bool)
  | resubscribed (r : ℕ)
  | handle (i : ℕ) (data : Option S) (seq : ℤ)
  | refuse (i : ℕ) (frameworkCode : Option String)
  | respond (i : ℕ)
  | publish (className : ClassName) (actorId : ActorId) (n : Notification S Op)
  /-- The next frame of the server arrives. -/
  | deliver (expired : List ℕ)

namespace ClientSubscriptions

def init (autoConnect : Bool) : ClientSubscriptions S Op where
  rpc := .init autoConnect
  server := .init
  subs := .init
  listeners := fun _ => none
  nextListener := 0
  activeSubs := .init

def setListener (s : ClientSubscriptions S Op) (k : ℕ) (l : ClientListener) :
    ClientSubscriptions S Op :=
  { s with listeners := update s.listeners k (some l) }

/-- The requests go on, and what is written is on its way. -/
def setRpc (s : ClientSubscriptions S Op) (rpc : Rpc SubscriptionParams (Option ℕ)) :
    ClientSubscriptions S Op :=
  { s with
    rpc := rpc
    server := { s.server with
      up := s.server.up ++ Rpc.written (rpc.log.drop s.rpc.log.length) } }

def request (s : ClientSubscriptions S Op) (params : SubscriptionParams) (accepts : Bool) :
    ClientSubscriptions S Op :=
  s.setRpc (s.rpc.request params accepts)

/-- `rpc.ingest`, of a response. -/
def ingest (s : ClientSubscriptions S Op) (id : ℕ) (answer : RpcAnswer (Option ℕ)) :
    ClientSubscriptions S Op :=
  if (s.rpc.pending.find? (fun r => r.id = id)).isSome = true then
    { s with
      rpc := s.rpc.ingest id answer
      listeners := fun k => (s.listeners k).map (fun l =>
        { l with pc := l.pc.settle id answer.subscriptionId })
      activeSubs := s.activeSubs.settle id answer.subscriptionId }
  else s

/-- **`subscribe()`, once it has the id**: the listener is in the record before what was
kept is applied, and `activeSubs` comes last. -/
def register (applyPatch : Option S → List Op → Option (Option S))
    (reducer : Option (Option S → Json → Option (Option S))) (s : ClientSubscriptions S Op)
    (k : ℕ) (l : ClientListener) (subscriptionId : ℕ) : ClientSubscriptions S Op :=
  match ((s.subs.preRegister k subscriptionId reducer).addListener k).flushBuffered applyPatch
    subscriptionId with
  | (subs, true) =>
    { s with
      subs := subs
      activeSubs := (s.activeSubs.setInfo k subscriptionId).set
        (ActiveSubs.key l.className l.actorId) k }.setListener k
      { l with pc := .listening subscriptionId }
  | (subs, false) => { s with subs := subs }.setListener k { l with pc := .rejected }

/-- What `subscribe()` returned. -/
def unsubscribe (s : ClientSubscriptions S Op) (k : ℕ) (l : ClientListener) (subscriptionId : ℕ)
    (accepts : Bool) : ClientSubscriptions S Op :=
  let subs := s.subs.deleteListener k
  let s := s.setListener k { l with pc := .unsubscribed subscriptionId }
  if (subs.records k).all (fun rec => rec.listeners.isEmpty) = true then
    { s.request (.unsubscribe subscriptionId) accepts with
      subs := subs.unregister subscriptionId
      activeSubs := s.activeSubs.delete (ActiveSubs.key l.className l.actorId) }
  else { s with subs := subs }

def step (applyPatch : Option S → List Op → Option (Option S))
    (reducers : ClassName → Option (Option S → Json → Option (Option S)))
    (s : ClientSubscriptions S Op) : SubscriptionAct S Op → Option (ClientSubscriptions S Op)
  | .subscribe className actorId accepts =>
    let params := SubscriptionParams.subscribe className actorId
    some ({ s.request params accepts with nextListener := s.nextListener + 1 }.setListener
      s.nextListener ⟨className, actorId,
        if s.rpc.requestThrows params accepts = true then .settled none
        else .requested s.rpc.nextSequenceId⟩)
  | .resume k =>
    match s.listeners k with
    | some ⟨className, actorId, .settled none⟩ =>
      some (s.setListener k ⟨className, actorId, .rejected⟩)
    | some ⟨className, actorId, .settled (some subscriptionId)⟩ =>
      some (s.register applyPatch (reducers className) k
        ⟨className, actorId, .settled (some subscriptionId)⟩ subscriptionId)
    | _ => none
  | .unsubscribe k accepts =>
    match s.listeners k with
    | some ⟨className, actorId, .listening subscriptionId⟩ =>
      some (s.unsubscribe k ⟨className, actorId, .listening subscriptionId⟩ subscriptionId accepts)
    | some ⟨className, actorId, .unsubscribed subscriptionId⟩ =>
      some (s.unsubscribe k ⟨className, actorId, .unsubscribed subscriptionId⟩ subscriptionId
        accepts)
    | _ => none
  | .other accepts => some (s.request .other accepts)
  | .opens held again =>
    (s.rpc.step (.opens held again)).map (fun rpc =>
      { s.setRpc rpc with
        activeSubs := if s.rpc.opensThrows again = true then s.activeSubs else s.activeSubs.opens })
  | .closes clean =>
    (s.rpc.step (.closes clean)).map (fun rpc => { s with rpc := rpc, server := s.server.close })
  | .reconnect => (s.rpc.step .reconnect).map s.setRpc
  | .resubscribe r accepts =>
    match s.activeSubs.runs r with
    | some (.next time) =>
      match s.activeSubs.entries.find? (fun entry => time ≤ entry.time) with
      | none => some { s with activeSubs := s.activeSubs.setRun r none }
      | some entry =>
        match s.listeners entry.info with
        | none => none
        | some l =>
          let params := SubscriptionParams.subscribe l.className l.actorId
          some { s.request params accepts with
            activeSubs := s.activeSubs.setRun r
              (some (if s.rpc.requestThrows params accepts = true then .next (entry.time + 1)
                else .requested s.rpc.nextSequenceId entry)) }
    | _ => none
  | .resubscribed r =>
    match s.activeSubs.runs r with
    | some (.settled none entry) =>
      some { s with activeSubs := s.activeSubs.setRun r (some (.next (entry.time + 1))) }
    | some (.settled (some subscriptionId) entry) =>
      some { s with
        activeSubs := ((s.activeSubs.setInfo entry.info subscriptionId).set entry.key
          entry.info).setRun r (some (.next (entry.time + 1))) }
    | _ => none
  | .handle i data seq => (s.server.handle i data seq).map (fun v => { s with server := v })
  | .refuse i frameworkCode =>
    (s.server.refuse i frameworkCode).map (fun v => { s with server := v })
  | .respond i => (s.server.respond i).map (fun v => { s with server := v })
  | .publish className actorId n =>
    (s.server.publish className actorId n).map (fun v => { s with server := v })
  | .deliver expired =>
    match s.server.down with
    | [] => none
    | .notification subscriptionId n :: rest =>
      some { s with
        server := { s.server with down := rest }
        subs := (s.subs.apply applyPatch expired subscriptionId n).getD s.subs }
    | .response id answer :: rest =>
      some ({ s with server := { s.server with down := rest } }.ingest id answer)

end ClientSubscriptions
