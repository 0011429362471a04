import Actjs.Capability
import Actjs.Beside

/-!
# The runtime and its directory

`Runtime` is a process: every `ActorHost` object it has constructed, the
storage they share, the `Directory` – which of them is cached under an actor
id, and which is being materialized under it – and the requests in flight. A
request resolves its actor to a host and goes on with that reference in a
later step, whatever has become of the host by then; so does a caller that
was returned the reference.

Subscriptions are requests that stay: the registry holds what `attached` does,
and a listener of a host is the number of its request. Calls and tells go by
the numbers of their requests too.

A request that no policy is asked about, as from the outbound bridge of an
actor or the reminder dispatcher, is one of the system principal. The limit on
the subscribers of an actor, the audit log and the metrics are left out.
-/

open Function (update)

variable {S Env Op : Type}

/-- **What a `Runtime` is constructed with**, the classes registered with it,
and the functions it passes on to its hosts. -/
structure RuntimeConfig (S Env Op : Type) where
  classes : ClassName → Option (Registration S Env)
  /-- `register` keys a registration by its name. -/
  classes_name : ∀ {c reg}, classes c = some reg → reg.name = c
  /-- The static policy of the class registered under the name. -/
  policy : ClassName → Option PolicyFn
  /-- No cap if `0`. -/
  activeActorCapPerClass : ℕ
  loader : Option (ClassName → Version → Except HostError (ActorClass S Env))
  gt : Version → Version → Bool
  compare : S → S → List Op
  /-- A state as a policy sees it. -/
  toJson : S → Json

namespace RuntimeConfig

/-- What the directory constructs a host with. -/
def hostConfig (cfg : RuntimeConfig S Env Op) (id : ActorId)
    (registration : Registration S Env) : HostConfig S Env Op where
  id := id
  registration := registration
  loader := cfg.loader
  gt := cfg.gt
  compare := cfg.compare

end RuntimeConfig

/-- An `ActorHost` object. -/
structure HostObject (S Env Op : Type) where
  cfg : HostConfig S Env Op
  host : Host S Env
  hist : History S Op

namespace HostObject

/-- `host.id`. -/
def id (o : HostObject S Env Op) : ActorId := o.cfg.id

/-- `host.className`. -/
def className (o : HostObject S Env Op) : ClassName := o.cfg.registration.name

/-- `host.version`. -/
def version (o : HostObject S Env Op) : Version := o.cfg.registration.version

/-- `host.currentState()`. -/
def currentState (o : HostObject S Env Op) : Option S :=
  o.host.inst.map (fun _ => o.host.state)

/-- The object, once a step has led to `s`. -/
def after (o : HostObject S Env Op) (s : Sys S Env Op) : HostObject S Env Op :=
  { o with host := s.host, hist := s.hist }

/-- A new object, its activation started. -/
def new (cfg : HostConfig S Env Op) (store : ActorStore S) : HostObject S Env Op :=
  let s : Sys S Env Op := (Sys.init cfg store).activate cfg
  ⟨cfg, s.host, s.hist⟩

end HostObject

/-! ## Requests

What may be asked of a process, and how far it has got. A request holds on to
the object its actor was resolved to. -/

/-- What is asked of the runtime. `hostCall` and `hostTell` are calls of the
methods of a host, on the reference that request `of` was returned. -/
inductive Ask where
  | call (className : ClassName) (id : ActorId) (method : String) (args : Json)
    (principal : Principal)
  | tell (className : ClassName) (id : ActorId) (type : String) (payload : Json)
    (principal : Principal)
  | checkRead (className : ClassName) (id : ActorId) (principal : Principal)
  | getHost (className : ClassName) (id : ActorId)
  | subscribe (className : ClassName) (id : ActorId)
  | tombstone (id : ActorId) (principal : Principal)
  | hostCall (of : ℕ) (method : String) (args : Json)
  | hostTell (of : ℕ) (type : String) (payload : Json)

/-- The class and the actor that `resolve` is called with. -/
def Ask.target : Ask → Option (ClassName × ActorId)
  | call c id _ _ _ => some (c, id)
  | tell c id _ _ _ => some (c, id)
  | checkRead c id _ => some (c, id)
  | getHost c id => some (c, id)
  | subscribe c id => some (c, id)
  | _ => none

/-- What the rate limiter says lets the request pass; it is asked about calls
only. -/
def Ask.admits (ask : Ask) (admitted : Bool) : Bool :=
  match ask with
  | call _ _ _ _ _ => admitted
  | _ => true

/-- Why a request is rejected before it gets to a host. -/
inductive RuntimeError where
  | rateLimited
  | directoryDestroyed
  | unknownClass (c : ClassName)
  | capacityExhausted (c : ClassName) (cap : ℕ)
  | policyDenied (action : String) (c : ClassName) (reason : String)
  /-- The activation that `resolve` awaited has failed. -/
  | host (e : HostError)
  /-- A rejection of the storage driver. -/
  | storage

/-- The text of an error; that of a host or of the driver is not the
runtime's, and the text of a rate limit is the limiter's. -/
def RuntimeError.message : RuntimeError → String
  | rateLimited => ""
  | directoryDestroyed => "Directory is destroyed"
  | unknownClass c => "unknown class: " ++ c
  | capacityExhausted c cap =>
    "class " ++ c ++ " has reached its active-actor cap (" ++ toString cap ++ ")"
  | policyDenied action c reason =>
    "policy denied " ++ action ++ " on " ++ c ++ ": " ++ reason
  | host e => e.message
  | storage => ""

/-- How far a request has got. -/
inductive AskPc where
  /-- In its `resolve`, which awaits the activation it has started. -/
  | creating (r : ℕ)
  /-- In its `resolve`, which awaits the promise of another one. -/
  | waiting (r : ℕ)
  /-- Its `resolve` has returned the host. -/
  | resolved (r : ℕ)
  /-- In `host.call`, under its own number. -/
  | calling (r : ℕ)
  /-- In `host.tell`, under its own number. -/
  | telling (r : ℕ)
  /-- The subscription is in place, its listener on the host. -/
  | attached (r : ℕ)
  | detached
  /-- `getHost` has returned the host. -/
  | returned (r : ℕ)
  /-- In the driver's `tombstoneActor`. -/
  | tombstoning
  /-- It resolved, with nothing. -/
  | done
  | rejected (e : RuntimeError)

/-- The object a request refers to. -/
def AskPc.object : AskPc → Option ℕ
  | creating r => some r
  | waiting r => some r
  | resolved r => some r
  | calling r => some r
  | telling r => some r
  | attached r => some r
  | returned r => some r
  | _ => none

/-- The request has resolved with nothing, or was rejected. -/
def AskPc.over : AskPc → Bool
  | done => true
  | rejected _ => true
  | _ => false

/-- The request is over, or a tombstone that is being marked. -/
def AskPc.late : AskPc → Bool
  | tombstoning => true
  | pc => pc.over

theorem AskPc.late_of_over {pc : AskPc} (h : pc.over = true) : pc.late = true := by
  unfold AskPc.late
  split
  · rfl
  · exact h

/-- A request. -/
structure AskTask where
  ask : Ask
  pc : AskPc

/-- `describeAction`. -/
def describeAction : PolicyAction → String
  | .call method _ _ => "call " ++ method
  | .read _ => "read"
  | .create _ => "create"
  | .destroy _ => "destroy"

/-- `checkPolicy`: the static policy of the class that the request names. A
class that is not registered passes. -/
def RuntimeConfig.checkPolicy (cfg : RuntimeConfig S Env Op)
    (className : ClassName) (p : Principal) (action : PolicyAction) :
    Except RuntimeError Unit :=
  match cfg.classes className with
  | none => .ok ()
  | some _ =>
    if isSystem p = true then .ok ()
    else
      let decision := evaluatePolicy (cfg.policy className) p action
      if decision.fst = true then .ok ()
      else
        .error (.policyDenied (describeAction action) className
          (decision.snd.getD "policy denied"))

/-! ## The runtime -/

/-- **A process.** An object is named by when it was constructed. -/
structure Runtime (S Env Op : Type) where
  objects : ℕ → Option (HostObject S Env Op)
  /-- How many objects were constructed. -/
  constructed : ℕ
  stores : ActorId → ActorStore S
  /-- `Directory.hosts`. -/
  hosts : ActorId → Option ℕ
  /-- `Directory.materializing`, and the object its promise is about. -/
  materializing : ActorId → Option ℕ
  perClassActive : ClassName → ℕ
  /-- `Directory.destroyed`. -/
  destroyed : Bool
  requests : ℕ → Option AskTask

namespace Runtime

/-- A new process over what storage holds. -/
def init (stores : ActorId → ActorStore S) : Runtime S Env Op where
  objects := fun _ => none
  constructed := 0
  stores := stores
  hosts := fun _ => none
  materializing := fun _ => none
  perClassActive := fun _ => 0
  destroyed := false
  requests := fun _ => none

/-- An object beside the storage of its actor. -/
def sys (rt : Runtime S Env Op) (o : HostObject S Env Op) : Sys S Env Op :=
  ⟨o.host, rt.stores o.id, o.hist⟩

/-- Move request `q`. -/
def setRequest (rt : Runtime S Env Op) (q : ℕ) (ask : Ask) (pc : AskPc) :
    Runtime S Env Op :=
  { rt with requests := update rt.requests q (some ⟨ask, pc⟩) }

/-- Object `r`, which was `o`, has made a step. -/
def setSys (rt : Runtime S Env Op) (r : ℕ) (o : HostObject S Env Op)
    (s : Sys S Env Op) : Runtime S Env Op :=
  { rt with
    objects := update rt.objects r (some (o.after s))
    stores := update rt.stores o.id s.store }

/-- A step of object `r`. -/
def hostStep (rt : Runtime S Env Op) (r : ℕ) (a : Act Env) :
    Option (Runtime S Env Op) :=
  match rt.objects r with
  | none => none
  | some o => ((rt.sys o).step o.cfg a).map (rt.setSys r o)

/-- `bumpActive(className, +1)`. -/
def bump (rt : Runtime S Env Op) (c : ClassName) : Runtime S Env Op :=
  { rt with perClassActive := update rt.perClassActive c (rt.perClassActive c + 1) }

/-- `bumpActive(className, -1)`. -/
def unbump (rt : Runtime S Env Op) (c : ClassName) : Runtime S Env Op :=
  { rt with perClassActive := update rt.perClassActive c (rt.perClassActive c - 1) }

/-- `evict`. -/
def evict (rt : Runtime S Env Op) (id : ActorId) : Runtime S Env Op :=
  match (rt.hosts id).bind rt.objects with
  | none => rt
  | some o =>
    { rt.unbump o.className with hosts := update rt.hosts id none }

/-! ### Resolving an actor

The cached host, or the one that is being materialized; and where there is
neither a new object, if the cap of its class allows it. -/

/-- `resolve` constructs a host, and starts its activation. -/
def materialize (cfg : RuntimeConfig S Env Op) (rt : Runtime S Env Op) (q : ℕ)
    (ask : Ask) (id : ActorId) (registration : Registration S Env) :
    Runtime S Env Op :=
  { rt with
    objects :=
      update rt.objects rt.constructed
        (some (.new (cfg.hostConfig id registration) (rt.stores id)))
    constructed := rt.constructed + 1
    materializing :=
      update rt.materializing id (some rt.constructed) }.setRequest q ask
        (.creating rt.constructed)

/-- The check of `checkActiveCap` fails. -/
def atCap (cfg : RuntimeConfig S Env Op) (rt : Runtime S Env Op)
    (c : ClassName) : Bool :=
  0 < cfg.activeActorCapPerClass
    && decide (cfg.activeActorCapPerClass ≤ rt.perClassActive c)

/-- `Directory.resolve` up to its await. -/
def resolve (cfg : RuntimeConfig S Env Op) (rt : Runtime S Env Op) (q : ℕ)
    (ask : Ask) (className : ClassName) (id : ActorId) : Runtime S Env Op :=
  if rt.destroyed = true then rt.setRequest q ask (.rejected .directoryDestroyed)
  else
    match rt.hosts id with
    | some r => rt.setRequest q ask (.resolved r)
    | none =>
      match rt.materializing id with
      | some r => rt.setRequest q ask (.waiting r)
      | none =>
        match cfg.classes className with
        | none => rt.setRequest q ask (.rejected (.unknownClass className))
        | some registration =>
          if rt.atCap cfg className = true then
            rt.setRequest q ask
              (.rejected (.capacityExhausted className cfg.activeActorCapPerClass))
          else rt.materialize cfg q ask id registration

/-- `resolve` after its await, in the request that constructed the host: the
host is cached, or the activation has failed. -/
def install (rt : Runtime S Env Op) (q : ℕ) (ask : Ask) (r : ℕ)
    (o : HostObject S Env Op) : Except HostError Unit → Runtime S Env Op
  | .ok _ =>
    { rt.bump o.className with
      hosts := update rt.hosts o.id (some r)
      materializing := update rt.materializing o.id none }.setRequest q ask
        (.resolved r)
  | .error e =>
    { rt with
      materializing := update rt.materializing o.id none }.setRequest q ask
        (.rejected (.host e))

/-! ### With the host at hand

The policy is asked, and then the method of the host is called; what that does
is a step of the host. -/

/-- What a policy is shown of the actor. -/
def policyActor (cfg : RuntimeConfig S Env Op) (className : ClassName)
    (id : ActorId) (o : HostObject S Env Op) : PolicyActor where
  ref := ⟨className, id, o.version⟩
  state := (o.currentState.map cfg.toJson).getD .null

/-- A request goes on with its host, unless the policy denies it. -/
def permitted (rt : Runtime S Env Op) (q : ℕ) (ask : Ask)
    (rest : Option (Runtime S Env Op)) :
    Except RuntimeError Unit → Option (Runtime S Env Op)
  | .ok _ => rest
  | .error e => some (rt.setRequest q ask (.rejected e))

/-- What a request does once its `resolve` has returned object `r`. -/
def serve (cfg : RuntimeConfig S Env Op) (rt : Runtime S Env Op) (q r : ℕ)
    (o : HostObject S Env Op) (ask : Ask) : Option (Runtime S Env Op) :=
  match ask with
  | .call c id method args p =>
    rt.permitted q ask
      ((rt.hostStep r (.callStart q method args)).map
        (fun rt => rt.setRequest q ask (.calling r)))
      (cfg.checkPolicy c p (.call method args (policyActor cfg c id o)))
  | .tell c id type payload p =>
    rt.permitted q ask
      ((rt.hostStep r (.tellStart q type payload)).map
        (fun rt => rt.setRequest q ask (.telling r)))
      (cfg.checkPolicy c p (.call type payload (policyActor cfg c id o)))
  | .checkRead c id p =>
    rt.permitted q ask (some (rt.setRequest q ask .done))
      (cfg.checkPolicy c p (.read (policyActor cfg c id o)))
  | .getHost _ _ => some (rt.setRequest q ask (.returned r))
  | .subscribe _ _ =>
    (rt.hostStep r (.subscribe q)).map
      (fun rt => rt.setRequest q ask (.attached r))
  | _ => none

/-- A request goes on after its await. `ok` is the fate of the storage
operation it awaits, if it awaits one. The promise in `materializing` is that
of the first activation of the object, and the request that has put it there
is the first to go on. -/
def resume (cfg : RuntimeConfig S Env Op) (rt : Runtime S Env Op) (q : ℕ)
    (ok : Bool) : Option (Runtime S Env Op) :=
  match rt.requests q with
  | some ⟨ask, .creating r⟩ =>
    match rt.objects r with
    | none => none
    | some o => (o.host.outcome 1).map (rt.install q ask r o)
  | some ⟨ask, .waiting r⟩ =>
    match rt.objects r with
    | none => none
    | some o =>
      if rt.materializing o.id = some r then none
      else
        match o.host.outcome 1 with
        | none => none
        | some (.ok _) => some (rt.setRequest q ask (.resolved r))
        | some (.error e) => some (rt.setRequest q ask (.rejected (.host e)))
  | some ⟨ask, .resolved r⟩ =>
    match rt.objects r with
    | none => none
    | some o => rt.serve cfg q r o ask
  | some ⟨.tombstone id p, .tombstoning⟩ =>
    if ok = true then
      some ({ rt with
        stores := update rt.stores id (rt.stores id).tombstoneActor }.setRequest q
          (.tombstone id p) .done)
    else some (rt.setRequest q (.tombstone id p) (.rejected .storage))
  | _ => none

/-! ### Making a request

What happens in the same turn of the event loop as the call itself, before
anything is awaited. -/

/-- The registry drops the subscriptions that `notifyTombstone` of object `r`
has reached. -/
def detachAll (rt : Runtime S Env Op) (r : ℕ) : Runtime S Env Op :=
  { rt with
    requests := fun q =>
      match rt.requests q with
      | some ⟨ask, .attached r'⟩ =>
        if r' = r then some ⟨ask, .detached⟩ else some ⟨ask, .attached r'⟩
      | task => task }

/-- `Runtime.tombstone` up to its first await. -/
def tombstone (cfg : RuntimeConfig S Env Op) (rt : Runtime S Env Op) (q : ℕ)
    (id : ActorId) (p : Principal) : Option (Runtime S Env Op) :=
  let ask := Ask.tombstone id p
  match rt.hosts id with
  | none => some (rt.setRequest q ask .tombstoning)
  | some r =>
    match rt.objects r with
    | none => none
    | some o =>
      rt.permitted q ask
        ((rt.hostStep r .notifyTombstone).map
          (fun rt => (rt.detachAll r).setRequest q ask .tombstoning))
        (cfg.checkPolicy o.className p
          (.destroy (policyActor cfg o.className id o)))

/-- The reference that request `of` was returned. -/
def returnedTo (rt : Runtime S Env Op) (of : ℕ) : Option ℕ :=
  match rt.requests of with
  | some ⟨_, .returned r⟩ => some r
  | _ => none

/-- A request is made. `admitted` is what the rate limiter says to a call. -/
def start (cfg : RuntimeConfig S Env Op) (rt : Runtime S Env Op) (q : ℕ)
    (ask : Ask) (admitted : Bool) : Option (Runtime S Env Op) :=
  if (rt.requests q).isSome = true then none
  else
    match ask with
    | .call c id _ _ _ =>
      if admitted = true then some (rt.resolve cfg q ask c id)
      else some (rt.setRequest q ask (.rejected .rateLimited))
    | .tell c id _ _ _ => some (rt.resolve cfg q ask c id)
    | .checkRead c id _ => some (rt.resolve cfg q ask c id)
    | .getHost c id => some (rt.resolve cfg q ask c id)
    | .subscribe c id => some (rt.resolve cfg q ask c id)
    | .tombstone id p => rt.tombstone cfg q id p
    | .hostCall of method args =>
      match rt.returnedTo of with
      | none => none
      | some r =>
        (rt.hostStep r (.callStart q method args)).map
          (fun rt => rt.setRequest q ask (.calling r))
    | .hostTell of type payload =>
      match rt.returnedTo of with
      | none => none
      | some r =>
        (rt.hostStep r (.tellStart q type payload)).map
          (fun rt => rt.setRequest q ask (.telling r))

/-- `SubscriptionRegistry.unsubscribe`, also when a connection closes. -/
def unsubscribe (rt : Runtime S Env Op) (q : ℕ) : Option (Runtime S Env Op) :=
  match rt.requests q with
  | some ⟨ask, .attached r⟩ =>
    (rt.hostStep r (.unsubscribe q)).map (fun rt => rt.setRequest q ask .detached)
  | _ => none

/-! ### Shutting down

The directory is emptied, and every host it held is destroyed, which
deactivates it. Then the steps of a process are put together. -/

/-- Object `o` is destroyed. -/
def destroyObject (rt : Runtime S Env Op) (env : Env) (o : HostObject S Env Op) :
    HostObject S Env Op :=
  o.after ((rt.sys o).destroy env)

/-- `Directory.shutdown` after the materializations in flight have settled:
forget the hosts, and destroy them. -/
def destroyHosts (rt : Runtime S Env Op) (env : Env) : Option (Runtime S Env Op) :=
  if rt.destroyed = true
      ∧ ∀ r < rt.constructed, ∀ o ∈ rt.objects r, rt.materializing o.id ≠ some r then
    some { rt with
      objects := fun r =>
        (rt.objects r).map (fun o =>
          if rt.hosts o.id = some r then rt.destroyObject env o else o)
      hosts := fun _ => none
      perClassActive := fun _ => 0 }
  else none

end Runtime

/-- What a host does by itself, or storage for it; the others are done to it by
a request. -/
def Act.own {Env : Type} : Act Env → Bool
  | activate => false
  | tellStart _ _ _ => false
  | callStart _ _ _ => false
  | destroy _ => false
  | subscribe _ => false
  | unsubscribe _ => false
  | notifyTombstone => false
  | _ => true

/-- **What can happen in a process next.** -/
inductive RuntimeAct (Env : Type) where
  | start (q : ℕ) (ask : Ask) (admitted : Bool)
  | resume (q : ℕ) (ok : Bool)
  | host (r : ℕ) (a : Act Env)
  | unsubscribe (q : ℕ)
  | shutdown
  | destroyHosts (env : Env)

namespace Runtime

/-- A step of object `r`; once `deactivateForIdle` has deactivated it, it has
its actor evicted. -/
def hostAct (rt : Runtime S Env Op) (r : ℕ) (a : Act Env) :
    Option (Runtime S Env Op) :=
  match rt.objects r with
  | none => none
  | some o =>
    match a with
    | .idleEvict => (rt.hostStep r a).map (fun rt => rt.evict o.id)
    | a => if a.own = true then rt.hostStep r a else none

/-- **One step of a process.** -/
def step (cfg : RuntimeConfig S Env Op) (rt : Runtime S Env Op) :
    RuntimeAct Env → Option (Runtime S Env Op)
  | .start q ask admitted => rt.start cfg q ask admitted
  | .resume q ok => rt.resume cfg q ok
  | .host r a => rt.hostAct r a
  | .unsubscribe q => rt.unsubscribe q
  | .shutdown => some { rt with destroyed := true }
  | .destroyHosts env => rt.destroyHosts env

end Runtime

/-! ## What a step does

The step of a process as a relation between the process before and after, in
the terms its invariants are stated in: who has which object do what. -/

namespace Runtime

variable {cfg : RuntimeConfig S Env Op} {rt rt' : Runtime S Env Op}

/-- **How a request goes on without its host doing anything.** -/
inductive Answers (cfg : RuntimeConfig S Env Op) (rt : Runtime S Env Op)
    (q : ℕ) (ask : Ask) : AskPc → Prop
  | rateLimited : rt.requests q = none → Answers cfg rt q ask (.rejected .rateLimited)
  | destroyed : rt.requests q = none → rt.destroyed = true →
      Answers cfg rt q ask (.rejected .directoryDestroyed)
  | cached {c : ClassName} {id : ActorId} {r : ℕ} : rt.requests q = none →
      ask.target = some (c, id) → rt.destroyed = false → rt.hosts id = some r →
      Answers cfg rt q ask (.resolved r)
  | inflight {c : ClassName} {id : ActorId} {r : ℕ} : rt.requests q = none →
      ask.target = some (c, id) → rt.destroyed = false → rt.hosts id = none →
      rt.materializing id = some r → Answers cfg rt q ask (.waiting r)
  | unknownClass {c : ClassName} : rt.requests q = none → cfg.classes c = none →
      Answers cfg rt q ask (.rejected (.unknownClass c))
  | exhausted {c : ClassName} : rt.requests q = none → rt.atCap cfg c = true →
      Answers cfg rt q ask
        (.rejected (.capacityExhausted c cfg.activeActorCapPerClass))
  | waited {r : ℕ} {o : HostObject S Env Op} :
      rt.requests q = some ⟨ask, .waiting r⟩ → rt.objects r = some o →
      rt.materializing o.id ≠ some r → o.host.outcome 1 = some (.ok ()) →
      Answers cfg rt q ask (.resolved r)
  | failed {r : ℕ} {o : HostObject S Env Op} {e : HostError} :
      rt.requests q = some ⟨ask, .waiting r⟩ → rt.objects r = some o →
      o.host.outcome 1 = some (.error e) →
      Answers cfg rt q ask (.rejected (.host e))
  | denied {r : ℕ} {o : HostObject S Env Op} {c : ClassName} {p : Principal}
      {action : PolicyAction} {e : RuntimeError} :
      rt.requests q = some ⟨ask, .resolved r⟩ → rt.objects r = some o →
      cfg.checkPolicy c p action = .error e → Answers cfg rt q ask (.rejected e)
  | allowed {r : ℕ} : rt.requests q = some ⟨ask, .resolved r⟩ →
      Answers cfg rt q ask .done
  | returned {r : ℕ} : rt.requests q = some ⟨ask, .resolved r⟩ →
      Answers cfg rt q ask (.returned r)
  | undestroyed {r : ℕ} {o : HostObject S Env Op} {id : ActorId} {p : Principal}
      {action : PolicyAction} {e : RuntimeError} : rt.requests q = none →
      ask = .tombstone id p → rt.hosts id = some r → rt.objects r = some o →
      cfg.checkPolicy o.className p action = .error e →
      Answers cfg rt q ask (.rejected e)
  | unheld {id : ActorId} {p : Principal} : rt.requests q = none →
      ask = .tombstone id p → rt.hosts id = none → Answers cfg rt q ask .tombstoning
  | untombstoned {id : ActorId} {p : Principal} :
      rt.requests q = some ⟨.tombstone id p, .tombstoning⟩ →
      ask = .tombstone id p → Answers cfg rt q ask (.rejected .storage)

/-- **How a request has its host do something**, and in which step. -/
inductive Serves (cfg : RuntimeConfig S Env Op) (rt : Runtime S Env Op) (q r : ℕ)
    (o : HostObject S Env Op) : RuntimeAct Env → Ask → Act Env → AskPc → Prop
  | call {c : ClassName} {id : ActorId} {method : String} {args : Json}
      {p : Principal} {ok : Bool} :
      rt.requests q = some ⟨.call c id method args p, .resolved r⟩ →
      cfg.checkPolicy c p (.call method args (policyActor cfg c id o)) = .ok () →
      Serves cfg rt q r o (.resume q ok) (.call c id method args p)
        (.callStart q method args) (.calling r)
  | tell {c : ClassName} {id : ActorId} {type : String} {payload : Json}
      {p : Principal} {ok : Bool} :
      rt.requests q = some ⟨.tell c id type payload p, .resolved r⟩ →
      cfg.checkPolicy c p (.call type payload (policyActor cfg c id o)) = .ok () →
      Serves cfg rt q r o (.resume q ok) (.tell c id type payload p)
        (.tellStart q type payload) (.telling r)
  | subscribe {c : ClassName} {id : ActorId} {ok : Bool} :
      rt.requests q = some ⟨.subscribe c id, .resolved r⟩ →
      Serves cfg rt q r o (.resume q ok) (.subscribe c id) (.subscribe q)
        (.attached r)
  | hostCall {of : ℕ} {method : String} {args : Json} {admitted : Bool} :
      rt.requests q = none → rt.returnedTo of = some r →
      Serves cfg rt q r o (.start q (.hostCall of method args) admitted)
        (.hostCall of method args) (.callStart q method args) (.calling r)
  | hostTell {of : ℕ} {type : String} {payload : Json} {admitted : Bool} :
      rt.requests q = none → rt.returnedTo of = some r →
      Serves cfg rt q r o (.start q (.hostTell of type payload) admitted)
        (.hostTell of type payload) (.tellStart q type payload) (.telling r)

/-- **What a step of a process does.** -/
inductive Moves (cfg : RuntimeConfig S Env Op) (rt : Runtime S Env Op) :
    RuntimeAct Env → Runtime S Env Op → Prop
  | answer {x : RuntimeAct Env} {q : ℕ} {ask : Ask} {pc : AskPc} :
      Answers cfg rt q ask pc → Moves cfg rt x (rt.setRequest q ask pc)
  | materialize {q : ℕ} {ask : Ask} {admitted : Bool} {c : ClassName} {id : ActorId}
      {registration : Registration S Env} : rt.requests q = none →
      ask.target = some (c, id) → ask.admits admitted = true →
      rt.destroyed = false → rt.hosts id = none → rt.materializing id = none →
      cfg.classes c = some registration → rt.atCap cfg c = false →
      Moves cfg rt (.start q ask admitted)
        (rt.materialize cfg q ask id registration)
  | install {q : ℕ} {ask : Ask} {ok : Bool} {r : ℕ} {o : HostObject S Env Op}
      {result : Except HostError Unit} :
      rt.requests q = some ⟨ask, .creating r⟩ → rt.objects r = some o →
      o.host.outcome 1 = some result →
      Moves cfg rt (.resume q ok) (rt.install q ask r o result)
  | serve {x : RuntimeAct Env} {q r : ℕ} {ask : Ask} {o : HostObject S Env Op}
      {a : Act Env} {pc : AskPc} {s : Sys S Env Op} : rt.objects r = some o →
      Serves cfg rt q r o x ask a pc → (rt.sys o).step o.cfg a = some s →
      Moves cfg rt x ((rt.setSys r o s).setRequest q ask pc)
  | tombstone {q : ℕ} {admitted : Bool} {id : ActorId} {p : Principal} {r : ℕ}
      {o : HostObject S Env Op} {s : Sys S Env Op} : rt.requests q = none →
      rt.hosts id = some r → rt.objects r = some o →
      (rt.sys o).step o.cfg .notifyTombstone = some s →
      Moves cfg rt (.start q (.tombstone id p) admitted)
        (((rt.setSys r o s).detachAll r).setRequest q (.tombstone id p) .tombstoning)
  | tombstoned {q : ℕ} {id : ActorId} {p : Principal} :
      rt.requests q = some ⟨.tombstone id p, .tombstoning⟩ →
      Moves cfg rt (.resume q true) ({ rt with
        stores := update rt.stores id (rt.stores id).tombstoneActor }.setRequest q
          (.tombstone id p) .done)
  | own {r : ℕ} {o : HostObject S Env Op} {a : Act Env} {s : Sys S Env Op} :
      rt.objects r = some o → a.own = true → a ≠ .idleEvict →
      (rt.sys o).step o.cfg a = some s → Moves cfg rt (.host r a) (rt.setSys r o s)
  | evict {r : ℕ} {o : HostObject S Env Op} {s : Sys S Env Op} :
      rt.objects r = some o → (rt.sys o).step o.cfg .idleEvict = some s →
      Moves cfg rt (.host r .idleEvict) ((rt.setSys r o s).evict o.id)
  | unsubscribe {q : ℕ} {ask : Ask} {r : ℕ} {o : HostObject S Env Op}
      {s : Sys S Env Op} : rt.requests q = some ⟨ask, .attached r⟩ →
      rt.objects r = some o → (rt.sys o).step o.cfg (.unsubscribe q) = some s →
      Moves cfg rt (.unsubscribe q) ((rt.setSys r o s).setRequest q ask .detached)
  | shutdown : Moves cfg rt .shutdown { rt with destroyed := true }
  | destroyHosts {env : Env} : rt.destroyed = true →
      Moves cfg rt (.destroyHosts env) { rt with
        objects := fun r =>
          (rt.objects r).map (fun o =>
            if rt.hosts o.id = some r then rt.destroyObject env o else o)
        hosts := fun _ => none
        perClassActive := fun _ => 0 }

/-- A step of an object, spelled out. -/
theorem hostStep_eq {r : ℕ} {a : Act Env} (h : rt.hostStep r a = some rt') :
    ∃ o s, rt.objects r = some o ∧ (rt.sys o).step o.cfg a = some s
      ∧ rt' = rt.setSys r o s := by
  unfold hostStep at h
  split at h
  · exact absurd h (by simp)
  · next o ho =>
    obtain ⟨s, hs, rfl⟩ := Option.map_eq_some_iff.mp h
    exact ⟨o, s, ho, hs, rfl⟩

/-- A host step for a request, with what becomes of the request. -/
theorem hostStep_map {r : ℕ} {a : Act Env} {f : Runtime S Env Op → Runtime S Env Op}
    (h : (rt.hostStep r a).map f = some rt') :
    ∃ o s, rt.objects r = some o ∧ (rt.sys o).step o.cfg a = some s
      ∧ rt' = f (rt.setSys r o s) := by
  obtain ⟨t, ht, rfl⟩ := Option.map_eq_some_iff.mp h
  obtain ⟨o, s, ho, hs, rfl⟩ := hostStep_eq ht
  exact ⟨o, s, ho, hs, rfl⟩

/-- `resolve` answers at once, or constructs a host. -/
theorem resolve_moves {q : ℕ} {ask : Ask} {admitted : Bool} {c : ClassName}
    {id : ActorId} (hq : rt.requests q = none) (ht : ask.target = some (c, id))
    (ha : ask.admits admitted = true) :
    Moves cfg rt (.start q ask admitted) (rt.resolve cfg q ask c id) := by
  unfold resolve
  split
  · next hd => exact .answer (.destroyed hq hd)
  next hd =>
  have hd : rt.destroyed = false := by simpa using hd
  split
  · next r hr => exact .answer (.cached hq ht hd hr)
  next hh =>
  split
  · next r hr => exact .answer (.inflight hq ht hd hh hr)
  next hm =>
  split
  · next hc => exact .answer (.unknownClass hq hc)
  next registration hc =>
  split
  · next hcap => exact .answer (.exhausted hq hcap)
  · next hcap => exact .materialize hq ht ha hd hh hm hc (by simpa using hcap)

theorem tombstone_moves {q : ℕ} {admitted : Bool} {id : ActorId} {p : Principal}
    (hq : rt.requests q = none) (h : rt.tombstone cfg q id p = some rt') :
    Moves cfg rt (.start q (.tombstone id p) admitted) rt' := by
  unfold tombstone at h
  dsimp only at h
  split at h
  · next hh =>
    obtain rfl := Option.some.inj h
    exact .answer (.unheld hq rfl hh)
  next r hr =>
  split at h
  · exact absurd h (by simp)
  next o ho =>
  unfold permitted at h
  split at h
  · obtain ⟨o', s, ho', hs, rfl⟩ := hostStep_map h
    obtain rfl := Option.some.inj (ho.symm.trans ho')
    exact .tombstone hq hr ho hs
  · next e he =>
    obtain rfl := Option.some.inj h
    exact .answer (.undestroyed hq rfl hr ho he)

theorem start_moves {q : ℕ} {ask : Ask} {admitted : Bool}
    (h : rt.start cfg q ask admitted = some rt') :
    Moves cfg rt (.start q ask admitted) rt' := by
  unfold start at h
  split at h
  · exact absurd h (by simp)
  next hq =>
  have hq : rt.requests q = none := by simpa using hq
  cases ask with
  | call c id method args p =>
    dsimp only at h
    split at h <;> obtain rfl := Option.some.inj h
    · next ha => exact resolve_moves hq rfl ha
    · exact .answer (.rateLimited hq)
  | tell c id type payload p => exact Option.some.inj h ▸ resolve_moves hq rfl rfl
  | checkRead c id p => exact Option.some.inj h ▸ resolve_moves hq rfl rfl
  | getHost c id => exact Option.some.inj h ▸ resolve_moves hq rfl rfl
  | subscribe c id => exact Option.some.inj h ▸ resolve_moves hq rfl rfl
  | tombstone id p => exact tombstone_moves hq h
  | hostCall of method args =>
    dsimp only at h
    split at h
    · exact absurd h (by simp)
    · next r hr =>
      obtain ⟨o, s, ho, hs, rfl⟩ := hostStep_map h
      exact .serve ho (.hostCall hq hr) hs
  | hostTell of type payload =>
    dsimp only at h
    split at h
    · exact absurd h (by simp)
    · next r hr =>
      obtain ⟨o, s, ho, hs, rfl⟩ := hostStep_map h
      exact .serve ho (.hostTell hq hr) hs

theorem serve_moves {q r : ℕ} {ok : Bool} {o : HostObject S Env Op} {ask : Ask}
    (hq : rt.requests q = some ⟨ask, .resolved r⟩) (ho : rt.objects r = some o)
    (h : rt.serve cfg q r o ask = some rt') : Moves cfg rt (.resume q ok) rt' := by
  cases ask with
  | call c id method args p =>
    simp only [serve, permitted] at h
    split at h
    · next hp =>
      obtain ⟨o', s, ho', hs, rfl⟩ := hostStep_map h
      obtain rfl := Option.some.inj (ho.symm.trans ho')
      exact .serve ho (.call hq hp) hs
    · next e he => exact Option.some.inj h ▸ .answer (.denied hq ho he)
  | tell c id type payload p =>
    simp only [serve, permitted] at h
    split at h
    · next hp =>
      obtain ⟨o', s, ho', hs, rfl⟩ := hostStep_map h
      obtain rfl := Option.some.inj (ho.symm.trans ho')
      exact .serve ho (.tell hq hp) hs
    · next e he => exact Option.some.inj h ▸ .answer (.denied hq ho he)
  | checkRead c id p =>
    simp only [serve, permitted] at h
    split at h
    · exact Option.some.inj h ▸ .answer (.allowed hq)
    · next e he => exact Option.some.inj h ▸ .answer (.denied hq ho he)
  | getHost c id => exact Option.some.inj h ▸ .answer (.returned hq)
  | subscribe c id =>
    obtain ⟨o', s, ho', hs, rfl⟩ := hostStep_map h
    exact .serve ho' (.subscribe hq) hs
  | tombstone id p => exact absurd h (by simp [serve])
  | hostCall of method args => exact absurd h (by simp [serve])
  | hostTell of type payload => exact absurd h (by simp [serve])

theorem resume_moves {q : ℕ} {ok : Bool} (h : rt.resume cfg q ok = some rt') :
    Moves cfg rt (.resume q ok) rt' := by
  unfold resume at h
  split at h
  · next ask r hq =>
    split at h
    · exact absurd h (by simp)
    · next o ho =>
      obtain ⟨result, hr, rfl⟩ := Option.map_eq_some_iff.mp h
      exact .install hq ho hr
  · next ask r hq =>
    split at h
    · exact absurd h (by simp)
    next o ho =>
    split at h
    · exact absurd h (by simp)
    next hm =>
    split at h
    · exact absurd h (by simp)
    · next hr => exact Option.some.inj h ▸ .answer (.waited hq ho hm hr)
    · next e hr => exact Option.some.inj h ▸ .answer (.failed hq ho hr)
  · next ask r hq =>
    split at h
    · exact absurd h (by simp)
    · next o ho => exact serve_moves hq ho h
  · next id p hq =>
    split at h
    · next hok =>
      obtain rfl := Option.some.inj h
      rw [hok]
      exact .tombstoned hq
    · exact Option.some.inj h ▸ .answer (.untombstoned hq rfl)
  · exact absurd h (by simp)

theorem hostAct_moves {r : ℕ} {a : Act Env} (h : rt.hostAct r a = some rt') :
    Moves cfg rt (.host r a) rt' := by
  unfold hostAct at h
  split at h
  · exact absurd h (by simp)
  next o ho =>
  split at h
  · obtain ⟨o', s, ho', hs, rfl⟩ := hostStep_map h
    obtain rfl := Option.some.inj (ho.symm.trans ho')
    exact .evict ho hs
  · next hne =>
    split at h
    · next ha =>
      obtain ⟨o', s, ho', hs, rfl⟩ := hostStep_eq h
      exact .own ho' ha hne hs
    · exact absurd h (by simp)

/-- **The steps of a process.** -/
theorem step_moves {x : RuntimeAct Env} (h : rt.step cfg x = some rt') :
    Moves cfg rt x rt' := by
  cases x with
  | start q ask admitted => exact start_moves h
  | resume q ok => exact resume_moves h
  | host r a => exact hostAct_moves h
  | unsubscribe q =>
    rw [step, Runtime.unsubscribe] at h
    split at h
    · next ask r hq =>
      obtain ⟨o, s, ho, hs, rfl⟩ := hostStep_map h
      exact .unsubscribe hq ho hs
    · exact absurd h (by simp)
  | shutdown => exact Option.some.inj h ▸ .shutdown
  | destroyHosts env =>
    rw [step, Runtime.destroyHosts] at h
    split at h
    · next hd => exact Option.some.inj h ▸ .destroyHosts hd.1
    · exact absurd h (by simp)

end Runtime

/-! ## The fields of a process after a step -/

namespace Runtime

variable {cfg : RuntimeConfig S Env Op} {rt rt' : Runtime S Env Op} {q r : ℕ}
  {ask : Ask} {pc : AskPc} {o : HostObject S Env Op} {s : Sys S Env Op}

@[simp] theorem requests_setRequest_self :
    (rt.setRequest q ask pc).requests q = some ⟨ask, pc⟩ :=
  Function.update_self _ _ _
theorem requests_setRequest_ne {q' : ℕ} (h : q' ≠ q) :
    (rt.setRequest q ask pc).requests q' = rt.requests q' :=
  Function.update_of_ne h _ _
@[simp] theorem objects_setRequest :
    (rt.setRequest q ask pc).objects = rt.objects := rfl
@[simp] theorem hosts_setRequest : (rt.setRequest q ask pc).hosts = rt.hosts := rfl
@[simp] theorem materializing_setRequest :
    (rt.setRequest q ask pc).materializing = rt.materializing := rfl
@[simp] theorem objects_setSys_self :
    (rt.setSys r o s).objects r = some (o.after s) := Function.update_self _ _ _
theorem objects_setSys_ne {r' : ℕ} (h : r' ≠ r) :
    (rt.setSys r o s).objects r' = rt.objects r' := Function.update_of_ne h _ _
@[simp] theorem requests_setSys : (rt.setSys r o s).requests = rt.requests := rfl
@[simp] theorem hosts_setSys : (rt.setSys r o s).hosts = rt.hosts := rfl
@[simp] theorem materializing_setSys :
    (rt.setSys r o s).materializing = rt.materializing := rfl
@[simp] theorem objects_evict {id : ActorId} : (rt.evict id).objects = rt.objects := by
  unfold evict
  split <;> rfl
@[simp] theorem requests_evict {id : ActorId} :
    (rt.evict id).requests = rt.requests := by
  unfold evict
  split <;> rfl
@[simp] theorem constructed_evict {id : ActorId} :
    (rt.evict id).constructed = rt.constructed := by
  unfold evict
  split <;> rfl
@[simp] theorem materializing_evict {id : ActorId} :
    (rt.evict id).materializing = rt.materializing := by
  unfold evict
  split <;> rfl
@[simp] theorem stores_evict {id : ActorId} : (rt.evict id).stores = rt.stores := by
  unfold evict
  split <;> rfl
@[simp] theorem objects_install {result : Except HostError Unit} :
    (rt.install q ask r o result).objects = rt.objects := by
  cases result <;> rfl
@[simp] theorem constructed_install {result : Except HostError Unit} :
    (rt.install q ask r o result).constructed = rt.constructed := by
  cases result <;> rfl

theorem objects_materialize_self {id : ActorId} {registration : Registration S Env} :
    (rt.materialize cfg q ask id registration).objects rt.constructed
      = some (.new (cfg.hostConfig id registration) (rt.stores id)) :=
  Function.update_self _ _ _
theorem objects_materialize_ne {id : ActorId} {registration : Registration S Env}
    (h : r ≠ rt.constructed) :
    (rt.materialize cfg q ask id registration).objects r = rt.objects r :=
  Function.update_of_ne h _ _

/-- A request that is not dropped goes on as it was. -/
theorem requests_detachAll (h : (rt.detachAll r).requests q = some ⟨ask, pc⟩) :
    rt.requests q = some ⟨ask, pc⟩ ∨ pc = .detached := by
  simp only [detachAll] at h
  split at h
  · next ask' r' hq =>
    split at h
    · exact .inr (AskTask.mk.inj (Option.some.inj h)).2.symm
    · exact .inl (hq.trans h)
  · exact .inl h

/-- Who subscribes to the object in the step, if anybody does, is a request for
that which has its host. -/
def Attaches (rt : Runtime S Env Op) (r : ℕ) (x : RuntimeAct Env) (a : Act Env) : Prop :=
  ∀ l, a = .subscribe l → ∃ c id ok, x = .resume l ok
    ∧ rt.requests l = some ⟨.subscribe c id, .resolved r⟩

theorem attaches_of_ne {x : RuntimeAct Env} {a : Act Env} (h : ∀ l, a ≠ .subscribe l) :
    rt.Attaches r x a := fun l hl => absurd hl (h l)

theorem Serves.attaches {x : RuntimeAct Env} {a : Act Env}
    (h : Serves cfg rt q r o x ask a pc) : rt.Attaches r x a := by
  cases h with
  | @subscribe c id ok hq =>
    intro l hl
    obtain rfl := Act.subscribe.inj hl
    exact ⟨c, id, ok, rfl, hq⟩
  | _ => exact attaches_of_ne (by simp)

/-- What a request has a host do it does not do by itself. -/
theorem Serves.not_own {x : RuntimeAct Env} {a : Act Env}
    (h : Serves cfg rt q r o x ask a pc) : a.own = false := by
  cases h <;> rfl

/-- **Who has object `r` do something** in a step: a request, which goes on as it
says, the object itself, or a tombstone, an unsubscription or the shutdown. -/
inductive Does (cfg : RuntimeConfig S Env Op) (rt rt' : Runtime S Env Op)
    (x : RuntimeAct Env) (r : ℕ) (o : HostObject S Env Op) : Act Env → Prop
  | serve {q : ℕ} {ask : Ask} {a : Act Env} {pc : AskPc} :
      Serves cfg rt q r o x ask a pc → rt'.requests q = some ⟨ask, pc⟩ →
      Does cfg rt rt' x r o a
  | own {a : Act Env} : a.own = true → x = .host r a → Does cfg rt rt' x r o a
  | tombstone : Does cfg rt rt' x r o .notifyTombstone
  | unsubscribe (l : ℕ) : Does cfg rt rt' x r o (.unsubscribe l)
  | destroy (env : Env) : Does cfg rt rt' x r o (.destroy env)

/-- What becomes of an object in a step: nothing, or a step of its own, or it
is constructed. -/
theorem Moves.does {x : RuntimeAct Env} (h : Moves cfg rt x rt')
    {o' : HostObject S Env Op} (ho' : rt'.objects r = some o') :
    rt.objects r = some o'
      ∨ (∃ o a s, rt.objects r = some o ∧ Does cfg rt rt' x r o a
        ∧ (rt.sys o).step o.cfg a = some s ∧ o' = o.after s)
      ∨ r = rt.constructed ∧ ∃ id registration,
        o' = .new (cfg.hostConfig id registration) (rt.stores id) := by
  have hstep : ∀ {r₁ : ℕ} {o₁ : HostObject S Env Op} {a : Act Env}
      {s : Sys S Env Op}, rt.objects r₁ = some o₁ → Does cfg rt rt' x r₁ o₁ a →
      (rt.sys o₁).step o₁.cfg a = some s → (rt.setSys r₁ o₁ s).objects r = some o' →
      rt.objects r = some o' ∨ ∃ o a s, rt.objects r = some o
        ∧ Does cfg rt rt' x r o a ∧ (rt.sys o).step o.cfg a = some s ∧ o' = o.after s := by
    intro r₁ o₁ a s ho₁ hd hs hr
    by_cases he : r = r₁
    · subst he
      rw [objects_setSys_self] at hr
      exact .inr ⟨o₁, a, s, ho₁, hd, hs, (Option.some.inj hr).symm⟩
    · rw [objects_setSys_ne he] at hr
      exact .inl hr
  have hassoc : ∀ {P Q R : Prop}, P ∨ Q → P ∨ Q ∨ R := fun h => h.imp id .inl
  cases h with
  | answer ha => exact .inl ho'
  | @materialize q ask admitted c id registration =>
    by_cases he : r = rt.constructed
    · subst he
      refine .inr (.inr ⟨rfl, id, registration, ?_⟩)
      exact (Option.some.inj (objects_materialize_self.symm.trans ho')).symm
    · exact .inl ((objects_materialize_ne he).symm.trans ho')
  | install hq ho hr =>
    rw [objects_install] at ho'
    exact .inl ho'
  | serve ho hserve hs =>
    exact hassoc (hstep ho (.serve hserve requests_setRequest_self) hs ho')
  | tombstone hq hh ho hs => exact hassoc (hstep ho .tombstone hs ho')
  | tombstoned hq => exact .inl ho'
  | own ho ha hne hs => exact hassoc (hstep ho (.own ha rfl) hs ho')
  | evict ho hs =>
    rw [objects_evict] at ho'
    exact hassoc (hstep ho (.own rfl rfl) hs ho')
  | @unsubscribe q ask r o s hq ho hs => exact hassoc (hstep ho (.unsubscribe q) hs ho')
  | shutdown => exact .inl ho'
  | @destroyHosts env hd =>
    obtain ⟨o, ho, rfl⟩ := Option.map_eq_some_iff.mp ho'
    split
    · exact .inr (.inl ⟨o, .destroy env, _, ho, .destroy env, rfl, rfl⟩)
    · exact .inl ho

/-- The same, with who subscribes and what objects do by themselves. -/
theorem Moves.object {x : RuntimeAct Env} (h : Moves cfg rt x rt')
    {o' : HostObject S Env Op} (ho' : rt'.objects r = some o') :
    rt.objects r = some o'
      ∨ (∃ o a s, rt.objects r = some o ∧ rt.Attaches r x a
        ∧ (a.own = true → x = .host r a)
        ∧ (rt.sys o).step o.cfg a = some s ∧ o' = o.after s)
      ∨ r = rt.constructed ∧ ∃ id registration,
        o' = .new (cfg.hostConfig id registration) (rt.stores id) := by
  refine (h.does ho').imp_right (Or.imp_left ?_)
  rintro ⟨o, a, s, ho, hd, hs, he⟩
  refine ⟨o, a, s, ho, ?_, ?_, hs, he⟩
  · cases hd with
    | serve hserve hq => exact hserve.attaches
    | own ha hx => exact attaches_of_ne (fun l hl => absurd (hl ▸ ha) (by simp [Act.own]))
    | tombstone => exact attaches_of_ne (by simp)
    | unsubscribe l => exact attaches_of_ne (by simp)
    | destroy env => exact attaches_of_ne (by simp)
  · intro ha
    cases hd with
    | serve hserve hq => exact absurd ha (by simp [hserve.not_own])
    | own ha hx => exact hx
    | _ => exact absurd ha (by simp [Act.own])

/-- No object is forgotten, or constructed as another. -/
theorem Moves.object_kept {x : RuntimeAct Env} (h : Moves cfg rt x rt')
    (hr : r < rt.constructed) (ho : rt.objects r = some o) :
    ∃ o', rt'.objects r = some o' ∧ o'.cfg = o.cfg := by
  have hstep : ∀ {r₁ : ℕ} {o₁ : HostObject S Env Op} {s : Sys S Env Op},
      rt.objects r₁ = some o₁ → ∃ o', (rt.setSys r₁ o₁ s).objects r = some o'
        ∧ o'.cfg = o.cfg := by
    intro r₁ o₁ s ho₁
    by_cases he : r = r₁
    · subst he
      obtain rfl := Option.some.inj (ho.symm.trans ho₁)
      exact ⟨_, objects_setSys_self, rfl⟩
    · exact ⟨o, (objects_setSys_ne he).trans ho, rfl⟩
  cases h with
  | answer ha => exact ⟨o, ho, rfl⟩
  | materialize => exact ⟨o, (objects_materialize_ne hr.ne).trans ho, rfl⟩
  | install hq ho' hres =>
    rw [objects_install]
    exact ⟨o, ho, rfl⟩
  | serve ho₁ hserve hs => exact hstep ho₁
  | tombstone hq hh ho₁ hs => exact hstep ho₁
  | tombstoned hq => exact ⟨o, ho, rfl⟩
  | own ho₁ ha hne hs => exact hstep ho₁
  | evict ho₁ hs =>
    rw [objects_evict]
    exact hstep ho₁
  | unsubscribe hq ho₁ hs => exact hstep ho₁
  | shutdown => exact ⟨o, ho, rfl⟩
  | destroyHosts hd =>
    dsimp only
    rw [ho, Option.map_some]
    split
    · exact ⟨_, rfl, rfl⟩
    · exact ⟨_, rfl, rfl⟩

/-- **What becomes of a request in a step**: nothing, or it is made, or it goes
on; and the next thing to happen to a tombstone that is being marked is that it
is over. -/
inductive Goes : Option AskTask → Option AskTask → Prop
  | stays (task : Option AskTask) : Goes task task
  | made (task : AskTask) : Goes none (some task)
  | on {ask : Ask} {pc : AskPc} (pc' : AskPc) : pc.late = false →
      Goes (some ⟨ask, pc⟩) (some ⟨ask, pc'⟩)
  | marked {ask : Ask} {pc' : AskPc} : pc'.over = true →
      Goes (some ⟨ask, .tombstoning⟩) (some ⟨ask, pc'⟩)

theorem Goes.setRequest {t : Runtime S Env Op} {q' : ℕ} {ask' : Ask} {pc' : AskPc}
    (ht : t.requests = rt.requests) (h : Goes (rt.requests q') (some ⟨ask', pc'⟩))
    (q : ℕ) : Goes (rt.requests q) ((t.setRequest q' ask' pc').requests q) := by
  by_cases he : q = q'
  · rw [he, requests_setRequest_self]
    exact h
  · rw [requests_setRequest_ne he, ht]
    exact .stays _

theorem Moves.goes {x : RuntimeAct Env} (h : Moves cfg rt x rt') (q : ℕ) :
    Goes (rt.requests q) (rt'.requests q) := by
  have hnew : ∀ {t : Runtime S Env Op} {q' ask' pc'}, t.requests = rt.requests →
      rt.requests q' = none →
      Goes (rt.requests q) ((t.setRequest q' ask' pc').requests q) :=
    fun ht hq => .setRequest ht (by rw [hq]; exact .made _) q
  have hat : ∀ {t : Runtime S Env Op} {q' ask' pc pc'}, t.requests = rt.requests →
      rt.requests q' = some ⟨ask', pc⟩ → pc.late = false →
      Goes (rt.requests q) ((t.setRequest q' ask' pc').requests q) :=
    fun ht hq hl => .setRequest ht (by rw [hq]; exact .on _ hl) q
  cases h with
  | answer ha =>
    cases ha with
    | waited hq _ _ _ => exact hat rfl hq rfl
    | failed hq _ _ => exact hat rfl hq rfl
    | denied hq _ _ => exact hat rfl hq rfl
    | allowed hq => exact hat rfl hq rfl
    | returned hq => exact hat rfl hq rfl
    | untombstoned hq hask =>
      subst hask
      exact .setRequest rfl (by rw [hq]; exact .marked rfl) q
    | _ => exact hnew rfl ‹_›
  | materialize hq => exact hnew rfl hq
  | @install q' ask' ok r o result hq ho hr =>
    cases result with
    | ok _ => exact hat rfl hq rfl
    | error e => exact hat rfl hq rfl
  | serve ho hserve hs =>
    cases hserve with
    | hostCall hq _ => exact hnew rfl hq
    | hostTell hq _ => exact hnew rfl hq
    | call hq _ => exact hat rfl hq rfl
    | tell hq _ => exact hat rfl hq rfl
    | subscribe hq => exact hat rfl hq rfl
  | @tombstone q' admitted id p r o s hq hh ho hs =>
    by_cases he : q = q'
    · rw [he, requests_setRequest_self, hq]
      exact .made _
    rw [requests_setRequest_ne he]
    simp only [detachAll, requests_setSys]
    split
    · next ask' r' hq' =>
      rw [hq']
      split
      · exact .on _ rfl
      · exact .stays _
    · exact .stays _
  | tombstoned hq => exact .setRequest rfl (by rw [hq]; exact .marked rfl) q
  | own => exact .stays _
  | evict =>
    rw [requests_evict]
    exact .stays _
  | unsubscribe hq ho hs => exact hat rfl hq rfl
  | shutdown => exact .stays _
  | destroyHosts hd => exact .stays _

/-- A request goes on as what it was made. -/
theorem Moves.asked {x : RuntimeAct Env} (h : Moves cfg rt x rt')
    (hq : rt.requests q = some ⟨ask, pc⟩) :
    ∃ pc', rt'.requests q = some ⟨ask, pc'⟩ := by
  have hg := h.goes q
  rw [hq] at hg
  generalize rt'.requests q = task at hg
  cases hg with
  | stays => exact ⟨pc, rfl⟩
  | on pc' hl => exact ⟨pc', rfl⟩
  | marked hover => exact ⟨_, rfl⟩

/-- A request that is over stays so. -/
theorem Moves.late {x : RuntimeAct Env} (h : Moves cfg rt x rt')
    (hq : rt.requests q = some ⟨ask, pc⟩) (hpc : pc.late = true) :
    rt'.requests q = some ⟨ask, pc⟩
      ∨ pc = .tombstoning ∧ ∃ pc', rt'.requests q = some ⟨ask, pc'⟩ ∧ pc'.over = true := by
  have hg := h.goes q
  rw [hq] at hg
  generalize rt'.requests q = task at hg
  cases hg with
  | stays => exact .inl rfl
  | on pc' hl => exact absurd hpc (by simp [hl])
  | marked hover => exact .inr ⟨rfl, _, rfl, hover⟩

/-- **What every process keeps to**: a reference is to an object of the actor
it was resolved for, an object that is being materialized has one request that
is to cache it, and every object is a host as its own steps make it. -/
structure Sound (rt : Runtime S Env Op) : Prop where
  bound : ∀ r o, rt.objects r = some o → r < rt.constructed
  hosts : ∀ id r, rt.hosts id = some r → ∃ o, rt.objects r = some o ∧ o.id = id
  materializing : ∀ id r, rt.materializing id = some r →
    ∃ o, rt.objects r = some o ∧ o.id = id
  /-- What a request refers to is an object of the actor it has asked for. -/
  requests : ∀ q ask pc r, rt.requests q = some ⟨ask, pc⟩ → pc.object = some r →
    ∃ o, rt.objects r = some o ∧ ∀ c id, ask.target = some (c, id) → o.id = id
  /-- An object that is being materialized is not cached yet. -/
  creating : ∀ q ask r o, rt.requests q = some ⟨ask, .creating r⟩ →
    rt.objects r = some o → rt.materializing o.id = some r ∧ rt.hosts o.id = none
  /-- The one request that materializes an object caches it. -/
  sole : ∀ q q' ask ask' r, rt.requests q = some ⟨ask, .creating r⟩ →
    rt.requests q' = some ⟨ask', .creating r⟩ → q = q'
  lifecycle : ∀ r o, rt.objects r = some o → Lifecycle (rt.sys o).flow.toLife

/-- The reference of a request that goes on is one it had, or one the
directory holds. -/
theorem Answers.refers (h : Answers cfg rt q ask pc) (hr : pc.object = some r) :
    (∃ pc₀, rt.requests q = some ⟨ask, pc₀⟩ ∧ pc₀.object = some r)
      ∨ ∃ c id, ask.target = some (c, id)
        ∧ (rt.hosts id = some r ∨ rt.materializing id = some r) := by
  cases h with
  | cached hq ht hd hh => exact .inr ⟨_, _, ht, .inl (hh.trans hr)⟩
  | inflight hq ht hd hh hm => exact .inr ⟨_, _, ht, .inr (hm.trans hr)⟩
  | waited hq ho hm ho' => exact .inl ⟨_, hq, hr⟩
  | returned hq => exact .inl ⟨_, hq, hr⟩
  | _ => exact absurd hr (by simp [AskPc.object])

/-- A request has its host do something under the reference it has, or was
returned. -/
theorem Serves.refers {x : RuntimeAct Env} {a : Act Env}
    (h : Serves cfg rt q r o x ask a pc) :
    pc.object = some r ∧ ((∃ pc₀, rt.requests q = some ⟨ask, pc₀⟩
      ∧ pc₀.object = some r) ∨ ask.target = none) := by
  cases h with
  | call hq hp => exact ⟨rfl, .inl ⟨_, hq, rfl⟩⟩
  | tell hq hp => exact ⟨rfl, .inl ⟨_, hq, rfl⟩⟩
  | subscribe hq => exact ⟨rfl, .inl ⟨_, hq, rfl⟩⟩
  | hostCall hq hr => exact ⟨rfl, .inr rfl⟩
  | hostTell hq hr => exact ⟨rfl, .inr rfl⟩

namespace Sound

theorem init (stores : ActorId → ActorStore S) :
    Sound (Runtime.init stores : Runtime S Env Op) where
  bound r o h := absurd h (by simp [Runtime.init])
  hosts id r h := absurd h (by simp [Runtime.init])
  materializing id r h := absurd h (by simp [Runtime.init])
  requests q ask pc r h := absurd h (by simp [Runtime.init])
  creating q ask r o h := absurd h (by simp [Runtime.init])
  sole q q' ask ask' r h := absurd h (by simp [Runtime.init])
  lifecycle r o h := absurd h (by simp [Runtime.init])

/-- What an object was, it stays; so references stay good. -/
theorem kept {x : RuntimeAct Env} (h : Sound rt) (hm : Moves cfg rt x rt')
    (ho : rt.objects r = some o) :
    ∃ o', rt'.objects r = some o' ∧ o'.id = o.id := by
  obtain ⟨o', ho', hcfg⟩ := hm.object_kept (h.bound r o ho) ho
  exact ⟨o', ho', congrArg HostConfig.id hcfg⟩

/-- A request moves to a reference that is good. -/
theorem setRequest (h : Sound rt)
    (hpc : ∀ r, pc.object = some r →
      ∃ o, rt.objects r = some o ∧ ∀ c id, ask.target = some (c, id) → o.id = id)
    (hne : ∀ r, pc ≠ .creating r) : Sound (rt.setRequest q ask pc) := by
  -- a request that still creates its host is not the one that has moved
  have hcr : ∀ {q' : ℕ} {ask' : Ask} {r : ℕ},
      (rt.setRequest q ask pc).requests q' = some ⟨ask', .creating r⟩ →
      rt.requests q' = some ⟨ask', .creating r⟩ := by
    intro q' ask' r hq'
    by_cases he : q' = q
    · rw [he, requests_setRequest_self] at hq'
      exact absurd (AskTask.mk.inj (Option.some.inj hq')).2 (hne r)
    · rwa [requests_setRequest_ne he] at hq'
  exact
    { bound := h.bound
      hosts := h.hosts
      materializing := h.materializing
      requests := fun q' ask' pc' r hq' hr => by
        by_cases he : q' = q
        · rw [he, requests_setRequest_self] at hq'
          obtain ⟨rfl, rfl⟩ := AskTask.mk.inj (Option.some.inj hq')
          exact hpc r hr
        · rw [requests_setRequest_ne he] at hq'
          exact h.requests q' ask' pc' r hq' hr
      creating := fun q' ask' r o hq' ho => h.creating q' ask' r o (hcr hq') ho
      sole := fun q' q'' ask' ask'' r hq' hq'' =>
        h.sole q' q'' ask' ask'' r (hcr hq') (hcr hq'')
      lifecycle := h.lifecycle }

/-- An object makes a step. -/
theorem setSys (h : Sound rt) (ho : rt.objects r = some o)
    (hl : Lifecycle s.flow.toLife) : Sound (rt.setSys r o s) := by
  have hback : ∀ {r' : ℕ} {o' : HostObject S Env Op},
      (rt.setSys r o s).objects r' = some o' →
      ∃ o₀, rt.objects r' = some o₀ ∧ o₀.id = o'.id := by
    intro r' o' ho'
    by_cases he : r' = r
    · subst he
      rw [objects_setSys_self] at ho'
      exact ⟨o, ho, Option.some.inj ho' ▸ rfl⟩
    · rw [objects_setSys_ne he] at ho'
      exact ⟨o', ho', rfl⟩
  have hforth : ∀ {r' : ℕ} {o₀ : HostObject S Env Op}, rt.objects r' = some o₀ →
      ∃ o', (rt.setSys r o s).objects r' = some o' ∧ o'.id = o₀.id := by
    intro r' o₀ ho₀
    by_cases he : r' = r
    · subst he
      obtain rfl := Option.some.inj (ho.symm.trans ho₀)
      exact ⟨_, objects_setSys_self, rfl⟩
    · exact ⟨o₀, (objects_setSys_ne he).trans ho₀, rfl⟩
  exact
    { bound := fun r' o' ho' => by
        obtain ⟨o₀, ho₀, -⟩ := hback ho'
        exact h.bound r' o₀ ho₀
      hosts := fun id r' hr' => by
        obtain ⟨o₀, ho₀, rfl⟩ := h.hosts id r' hr'
        exact hforth ho₀
      materializing := fun id r' hr' => by
        obtain ⟨o₀, ho₀, rfl⟩ := h.materializing id r' hr'
        exact hforth ho₀
      requests := fun q ask pc r' hq hr' => by
        obtain ⟨o₀, ho₀, hid⟩ := h.requests q ask pc r' hq hr'
        obtain ⟨o', ho', he⟩ := hforth ho₀
        exact ⟨o', ho', fun c id ht => he.trans (hid c id ht)⟩
      creating := fun q ask r' o' hq ho' => by
        obtain ⟨o₀, ho₀, he⟩ := hback ho'
        have hc := h.creating q ask r' o₀ hq ho₀
        rwa [he] at hc
      sole := h.sole
      lifecycle := fun r' o' ho' => by
        by_cases he : r' = r
        · subst he
          rw [objects_setSys_self] at ho'
          obtain rfl := Option.some.inj ho'
          exact hl
        · rw [objects_setSys_ne he] at ho'
          exact h.lifecycle r' o' ho' }

theorem evict (h : Sound rt) (id : ActorId) : Sound (rt.evict id) := by
  have hhosts : ∀ id', (rt.evict id).hosts id' = rt.hosts id'
      ∨ (rt.evict id).hosts id' = none := by
    intro id'
    unfold Runtime.evict
    split
    · exact .inl rfl
    · by_cases he : id' = id
      · exact .inr (by simp [he])
      · exact .inl (Function.update_of_ne he _ _)
  exact
    { bound := by simpa using h.bound
      hosts := fun id' r hr => by
        rw [objects_evict]
        rcases hhosts id' with he | he
        · exact h.hosts id' r (he ▸ hr)
        · exact absurd hr (by simp [he])
      materializing := by simpa using h.materializing
      requests := by simpa using h.requests
      creating := fun q ask r o hq ho => by
        rw [requests_evict] at hq
        rw [objects_evict] at ho
        obtain ⟨hm, hn⟩ := h.creating q ask r o hq ho
        rw [materializing_evict]
        refine ⟨hm, ?_⟩
        rcases hhosts o.id with he | he
        · exact he.trans hn
        · exact he
      sole := by simpa using h.sole
      lifecycle := fun r o ho => by
        rw [objects_evict] at ho
        exact h.lifecycle r o ho }

/-- What is stored is nothing to the directory. -/
theorem setStores (h : Sound rt) (stores : ActorId → ActorStore S) :
    Sound { rt with stores := stores } :=
  ⟨h.bound, h.hosts, h.materializing, h.requests, h.creating, h.sole, h.lifecycle⟩

theorem detachAll (h : Sound rt) (r : ℕ) : Sound (rt.detachAll r) := by
  have hcr : ∀ {q : ℕ} {ask : Ask} {r' : ℕ},
      (rt.detachAll r).requests q = some ⟨ask, .creating r'⟩ →
      rt.requests q = some ⟨ask, .creating r'⟩ := by
    intro q ask r' hq
    rcases requests_detachAll hq with hq | hq
    · exact hq
    · exact absurd hq (by simp)
  exact
    { bound := h.bound
      hosts := h.hosts
      materializing := h.materializing
      requests := fun q ask pc r' hq hr => by
        rcases requests_detachAll hq with hq | rfl
        · exact h.requests q ask pc r' hq hr
        · exact absurd hr (by simp [AskPc.object])
      creating := fun q ask r' o hq ho => h.creating q ask r' o (hcr hq) ho
      sole := fun q q' ask ask' r' hq hq' => h.sole q q' ask ask' r' (hcr hq) (hcr hq')
      lifecycle := h.lifecycle }

/-- A host is constructed where there was none. -/
theorem materialize {id : ActorId} {registration : Registration S Env}
    (h : Sound rt) (hh : rt.hosts id = none) (hm : rt.materializing id = none)
    (ht : ∀ c id', ask.target = some (c, id') → id' = id) :
    Sound (rt.materialize cfg q ask id registration) := by
  have hnew : (HostObject.new (cfg.hostConfig id registration) (rt.stores id)).id = id :=
    rfl
  have hold : ∀ {r o}, rt.objects r = some o → r ≠ rt.constructed :=
    fun ho => (h.bound _ _ ho).ne
  have hkept : ∀ {r o}, rt.objects r = some o →
      (rt.materialize cfg q ask id registration).objects r = some o :=
    fun ho => (objects_materialize_ne (hold ho)).trans ho
  -- the other requests that create a host do it for another actor
  have hcr : ∀ {q' ask' r'},
      (rt.materialize cfg q ask id registration).requests q' = some ⟨ask', .creating r'⟩ →
      q' = q ∧ r' = rt.constructed
        ∨ q' ≠ q ∧ rt.requests q' = some ⟨ask', .creating r'⟩ := by
    intro q' ask' r' hq'
    by_cases he : q' = q
    · subst he
      have he : some (AskTask.mk ask (.creating rt.constructed))
          = some ⟨ask', .creating r'⟩ :=
        requests_setRequest_self.symm.trans hq'
      exact .inl ⟨rfl, (AskPc.creating.inj (AskTask.mk.inj (Option.some.inj he)).2).symm⟩
    · exact .inr ⟨he, (requests_setRequest_ne he).symm.trans hq'⟩
  have hmat : ∀ {id'}, id' ≠ id →
      (rt.materialize cfg q ask id registration).materializing id'
        = rt.materializing id' := fun he => Function.update_of_ne he _ _
  have hself : (rt.materialize cfg q ask id registration).materializing id
      = some rt.constructed := Function.update_self _ _ _
  exact
    { bound := fun r o ho => by
        show r < rt.constructed + 1
        by_cases he : r = rt.constructed
        · exact he ▸ Nat.lt_succ_self _
        · rw [objects_materialize_ne he] at ho
          exact (h.bound r o ho).trans (Nat.lt_succ_self _)
      hosts := fun id' r hr => by
        obtain ⟨o, ho, hid⟩ := h.hosts id' r hr
        exact ⟨o, hkept ho, hid⟩
      materializing := fun id' r hr => by
        by_cases he : id' = id
        · subst he
          obtain rfl := Option.some.inj (hself.symm.trans hr)
          exact ⟨_, objects_materialize_self, hnew⟩
        · obtain ⟨o, ho, hid⟩ := h.materializing id' r ((hmat he).symm.trans hr)
          exact ⟨o, hkept ho, hid⟩
      requests := fun q' ask' pc' r hq' hr => by
        by_cases he : q' = q
        · subst he
          have he : some (AskTask.mk ask (.creating rt.constructed)) = some ⟨ask', pc'⟩ :=
            requests_setRequest_self.symm.trans hq'
          obtain ⟨rfl, rfl⟩ := AskTask.mk.inj (Option.some.inj he)
          obtain rfl := Option.some.inj hr
          exact ⟨_, objects_materialize_self, fun c id' hid => (ht c id' hid).symm ▸ hnew⟩
        · obtain ⟨o, ho, hid⟩ :=
            h.requests q' ask' pc' r ((requests_setRequest_ne he).symm.trans hq') hr
          exact ⟨o, hkept ho, hid⟩
      creating := fun q' ask' r o hq' ho => by
        rcases hcr hq' with ⟨-, rfl⟩ | ⟨-, hq₀⟩
        · obtain rfl := Option.some.inj (objects_materialize_self.symm.trans ho)
          exact ⟨hself, hh⟩
        · obtain ⟨o₀, ho₀, -⟩ := h.requests q' ask' _ r hq₀ rfl
          obtain rfl := Option.some.inj ((hkept ho₀).symm.trans ho)
          obtain ⟨hm₀, hh₀⟩ := h.creating q' ask' r o₀ hq₀ ho₀
          have hne : o₀.id ≠ id := fun he => absurd (he ▸ hm₀) (by simp [hm])
          exact ⟨(hmat hne).trans hm₀, hh₀⟩
      sole := fun q₁ q₂ ask₁ ask₂ r hq₁ hq₂ => by
        rcases hcr hq₁ with ⟨rfl, rfl⟩ | ⟨-, h₁⟩ <;>
          rcases hcr hq₂ with ⟨rfl, he⟩ | ⟨-, h₂⟩
        · rfl
        · obtain ⟨o, ho, -⟩ := h.requests q₂ ask₂ _ _ h₂ rfl
          exact absurd rfl (hold ho)
        · obtain ⟨o, ho, -⟩ := h.requests q₁ ask₁ _ _ h₁ rfl
          exact absurd he (hold ho)
        · exact h.sole q₁ q₂ ask₁ ask₂ r h₁ h₂
      lifecycle := fun r o ho => by
        by_cases he : r = rt.constructed
        · subst he
          obtain rfl := Option.some.inj (objects_materialize_self.symm.trans ho)
          exact (Lifecycle.init _ (rt.stores id)).of_opening (Sys.flow_activate _ _)
        · rw [objects_materialize_ne he] at ho
          exact h.lifecycle r o ho }

/-- The request that creates a host is through with it, and has cached it or
not. -/
theorem settle {hosts : ActorId → Option ℕ} {active : ClassName → ℕ} (h : Sound rt)
    (hq : rt.requests q = some ⟨ask, .creating r⟩) (ho : rt.objects r = some o)
    (hhosts : ∀ id, hosts id = rt.hosts id ∨ id = o.id ∧ hosts id = some r)
    (hpc : ∀ r', pc.object = some r' → r' = r) (hne : ∀ r', pc ≠ .creating r') :
    Sound ({ rt with
      perClassActive := active
      hosts := hosts
      materializing := update rt.materializing o.id none }.setRequest q ask pc) := by
  obtain ⟨hm, -⟩ := h.creating q ask r o hq ho
  -- no other request creates a host for the actor
  have hcr : ∀ {q' ask' r' o'},
      (update rt.requests q (some ⟨ask, pc⟩)) q' = some ⟨ask', .creating r'⟩ →
      rt.objects r' = some o' → rt.requests q' = some ⟨ask', .creating r'⟩
        ∧ o'.id ≠ o.id := by
    intro q' ask' r' o' hq' ho'
    by_cases he : q' = q
    · rw [he, Function.update_self] at hq'
      exact absurd (AskTask.mk.inj (Option.some.inj hq')).2 (hne r')
    rw [Function.update_of_ne he] at hq'
    refine ⟨hq', fun hid => he ?_⟩
    obtain ⟨hm', -⟩ := h.creating q' ask' r' o' hq' ho'
    rw [hid, hm] at hm'
    exact h.sole q' q ask' ask r' hq' (Option.some.inj hm' ▸ hq)
  exact
    { bound := h.bound
      hosts := fun id r' hr => by
        rcases hhosts id with he | ⟨rfl, he⟩
        · exact h.hosts id r' (he ▸ hr)
        · exact ⟨o, Option.some.inj (he.symm.trans hr) ▸ ho, rfl⟩
      materializing := fun id r' hr => by
        by_cases he : id = o.id
        · exact absurd hr (by simp [he])
        · exact h.materializing id r' ((Function.update_of_ne he _ _).symm.trans hr)
      requests := fun q' ask' pc' r' hq' hr => by
        by_cases he : q' = q
        · subst he
          rw [requests_setRequest_self] at hq'
          obtain ⟨rfl, rfl⟩ := AskTask.mk.inj (Option.some.inj hq')
          obtain rfl := hpc r' hr
          exact h.requests q' ask _ r' hq rfl
        · rw [requests_setRequest_ne he] at hq'
          exact h.requests q' ask' pc' r' hq' hr
      creating := fun q' ask' r' o' hq' ho' => by
        obtain ⟨hq₀, hid⟩ := hcr hq' ho'
        obtain ⟨hm', hh'⟩ := h.creating q' ask' r' o' hq₀ ho'
        refine ⟨(Function.update_of_ne hid _ _).trans hm', ?_⟩
        rcases hhosts o'.id with he | ⟨he, -⟩
        · exact he.trans hh'
        · exact absurd he hid
      sole := fun q₁ q₂ ask₁ ask₂ r' hq₁ hq₂ => by
        have hobj : ∃ o', rt.objects r' = some o' := by
          by_cases he : q₁ = q
          · rw [he, requests_setRequest_self] at hq₁
            exact absurd (AskTask.mk.inj (Option.some.inj hq₁)).2 (hne r')
          · rw [requests_setRequest_ne he] at hq₁
            obtain ⟨o', ho', -⟩ := h.requests q₁ ask₁ _ r' hq₁ rfl
            exact ⟨o', ho'⟩
        obtain ⟨o', ho'⟩ := hobj
        exact h.sole q₁ q₂ ask₁ ask₂ r' (hcr hq₁ ho').1 (hcr hq₂ ho').1
      lifecycle := h.lifecycle }

theorem install {result : Except HostError Unit} (h : Sound rt)
    (hq : rt.requests q = some ⟨ask, .creating r⟩) (ho : rt.objects r = some o) :
    Sound (rt.install q ask r o result) := by
  cases result with
  | ok _ =>
    refine h.settle hq ho (fun id => ?_) (fun r' hr => (Option.some.inj hr).symm)
      (fun r' he => absurd he (by simp))
    by_cases he : id = o.id
    · exact .inr ⟨he, he ▸ Function.update_self _ _ _⟩
    · exact .inl (Function.update_of_ne he _ _)
  | error e =>
    exact h.settle hq ho (fun id => .inl rfl)
      (fun r' hr => absurd hr (by simp [AskPc.object])) (fun r' he => absurd he (by simp))

/-- The hosts in the directory are destroyed, and it forgets them. -/
theorem destroyHosts (h : Sound rt) (env : Env) :
    Sound { rt with
      objects := fun r =>
        (rt.objects r).map (fun o =>
          if rt.hosts o.id = some r then rt.destroyObject env o else o)
      hosts := fun _ => none
      perClassActive := fun _ => 0 } := by
  have hback : ∀ {r o'}, (rt.objects r).map (fun o =>
        if rt.hosts o.id = some r then rt.destroyObject env o else o) = some o' →
      ∃ o, rt.objects r = some o ∧ o'.id = o.id := by
    intro r o' ho'
    obtain ⟨o, ho, rfl⟩ := Option.map_eq_some_iff.mp ho'
    refine ⟨o, ho, ?_⟩
    split <;> rfl
  have hforth : ∀ {r o}, rt.objects r = some o → ∃ o', (rt.objects r).map (fun o =>
        if rt.hosts o.id = some r then rt.destroyObject env o else o) = some o'
      ∧ o'.id = o.id := by
    intro r o ho
    rw [ho, Option.map_some]
    refine ⟨_, rfl, ?_⟩
    split <;> rfl
  exact
    { bound := fun r o' ho' => by
        obtain ⟨o, ho, -⟩ := hback ho'
        exact h.bound r o ho
      hosts := fun id r hr => absurd hr (by simp)
      materializing := fun id r hr => by
        obtain ⟨o, ho, rfl⟩ := h.materializing id r hr
        exact hforth ho
      requests := fun q ask pc r hq hr => by
        obtain ⟨o, ho, hid⟩ := h.requests q ask pc r hq hr
        obtain ⟨o', ho', he⟩ := hforth ho
        exact ⟨o', ho', fun c id ht => he.trans (hid c id ht)⟩
      creating := fun q ask r o' hq ho' => by
        obtain ⟨o, ho, he⟩ := hback ho'
        exact ⟨he ▸ (h.creating q ask r o hq ho).1, rfl⟩
      sole := h.sole
      lifecycle := fun r o' ho' => by
        obtain ⟨o, ho, rfl⟩ := Option.map_eq_some_iff.mp ho'
        have hl := h.lifecycle r o ho
        split
        · have hs : (rt.sys o).step o.cfg (.destroy env)
              = some ((rt.sys o).destroy env) := rfl
          have hl' : Lifecycle ((rt.sys o).destroy env).flow.toLife :=
            hl.of_moves (Sys.flow_step hs)
          exact hl'
        · exact hl }

/-- **Every step of a process keeps to it.** -/
theorem step {x : RuntimeAct Env} (h : Sound rt) (hs : rt.step cfg x = some rt') :
    Sound rt' := by
  have hm := step_moves hs
  clear hs
  have hlife : ∀ {r o a s}, rt.objects r = some o → (rt.sys o).step o.cfg a = some s →
      Lifecycle s.flow.toLife :=
    fun ho hs => (h.lifecycle _ _ ho).of_moves (Sys.flow_step hs)
  have hsys : ∀ {r o a s}, rt.objects r = some o → (rt.sys o).step o.cfg a = some s →
      Sound (rt.setSys r o s) := fun ho hs => h.setSys ho (hlife ho hs)
  have hgood : ∀ {r o a s r' ask}, rt.objects r = some o →
      (rt.sys o).step o.cfg a = some s →
      (∃ o', rt.objects r' = some o' ∧ ∀ c id, Ask.target ask = some (c, id) → o'.id = id) →
      ∃ o', (rt.setSys r o s).objects r' = some o'
        ∧ ∀ c id, Ask.target ask = some (c, id) → o'.id = id := by
    rintro r o a s r' ask ho hs ⟨o', ho', hid⟩
    by_cases he : r' = r
    · subst he
      obtain rfl := Option.some.inj (ho.symm.trans ho')
      exact ⟨_, objects_setSys_self, hid⟩
    · exact ⟨o', (objects_setSys_ne he).trans ho', hid⟩
  cases hm with
  | answer ha =>
    refine h.setRequest (fun r hr => ?_) (fun r he => ?_)
    · rcases ha.refers hr with ⟨pc₀, hq, hr₀⟩ | ⟨c, id, ht, hh | hm⟩
      · exact h.requests _ _ pc₀ r hq hr₀
      · obtain ⟨o, ho, hid⟩ := h.hosts id r hh
        refine ⟨o, ho, fun c' id' ht' => ?_⟩
        rw [ht, Option.some.injEq, Prod.mk.injEq] at ht'
        exact hid.trans ht'.2
      · obtain ⟨o, ho, hid⟩ := h.materializing id r hm
        refine ⟨o, ho, fun c' id' ht' => ?_⟩
        rw [ht, Option.some.injEq, Prod.mk.injEq] at ht'
        exact hid.trans ht'.2
    · subst he
      cases ha
  | materialize hq ht ha hd hh hm hc hcap =>
    refine h.materialize hh hm (fun c' id' ht' => ?_)
    rw [ht, Option.some.injEq, Prod.mk.injEq] at ht'
    exact ht'.2.symm
  | install hq ho hr => exact h.install hq ho
  | serve ho hserve hs =>
    obtain ⟨hpc, hask⟩ := hserve.refers
    refine (hsys ho hs).setRequest (fun r' hr' => hgood ho hs ?_) (fun r' he => ?_)
    · obtain rfl := Option.some.inj (hpc.symm.trans hr')
      rcases hask with ⟨pc₀, hq, hr₀⟩ | hnone
      · exact h.requests _ _ pc₀ _ hq hr₀
      · exact ⟨_, ho, fun c id ht => absurd ht (by simp [hnone])⟩
    · subst he
      cases hserve
  | tombstone hq hh ho hs =>
    exact ((hsys ho hs).detachAll _).setRequest
      (fun r hr => absurd hr (by simp [AskPc.object])) (fun r he => absurd he (by simp))
  | tombstoned hq =>
    exact (h.setStores _).setRequest
      (fun r hr => absurd hr (by simp [AskPc.object])) (fun r he => absurd he (by simp))
  | own ho ha hne hs => exact hsys ho hs
  | evict ho hs => exact (hsys ho hs).evict _
  | unsubscribe hq ho hs =>
    exact (hsys ho hs).setRequest
      (fun r hr => absurd hr (by simp [AskPc.object])) (fun r he => absurd he (by simp))
  | shutdown =>
    exact ⟨h.bound, h.hosts, h.materializing, h.requests, h.creating, h.sole, h.lifecycle⟩
  | destroyHosts hd => exact h.destroyHosts _

/-- **Every reachable process keeps to it.** -/
theorem run {stores : ActorId → ActorStore S} {xs : List (RuntimeAct Env)}
    (h : TransitionSystem.run (Runtime.step cfg) (Runtime.init stores) xs = some rt) :
    Sound rt :=
  TransitionSystem.run_invariant' (Runtime.step cfg) (fun _ _ _ h hs => h.step hs)
    (.init stores) h

end Sound

end Runtime

/-! ## A counter in a process -/

namespace Counter

/-- Anybody may call the counter; to read or destroy it takes an admin. -/
def adminPolicy : PolicyFn := fun p action =>
  match action with
  | .read _ => .ok (.decided (p.sub == "admin") none)
  | .destroy _ => .ok (.decided (p.sub == "admin") none)
  | _ => .ok .allow

def admin : Principal := ⟨"admin", some [], none, none, none⟩

/-- A runtime with the one class, under that policy. -/
def runtime : RuntimeConfig ℕ Bool ℕ where
  classes := fun c => if c = "Counter" then some cfg.registration else none
  classes_name := by
    intro c reg h
    split at h
    · next hc => exact Option.some.inj h ▸ hc.symm
    · exact absurd h (by simp)
  policy := fun _ => some adminPolicy
  activeActorCapPerClass := 0
  loader := none
  gt := cfg.gt
  compare := cfg.compare
  toJson := fun n => .num n

/-- Storage that holds the counter with its snapshot, and nothing else. -/
def stored (n : ℕ) : ActorId → ActorStore ℕ := fun id =>
  if id = "counter-1" then
    ⟨some ⟨"Counter", "1.0.0", false⟩, [(0, ⟨"1.0.0", n⟩)], [], [], []⟩
  else .empty

/-- `n` segments of the activation of object `r`, in all of which everything
goes well. -/
def hostActivating (r n : ℕ) : List (RuntimeAct Bool) :=
  (activating n).map (.host r)

/-- `n` segments of worker `g` of object `r`, in all of which everything goes
well. -/
def hostWorking (r g n : ℕ) : List (RuntimeAct Bool) :=
  (working g n).map (.host r)

end Counter
