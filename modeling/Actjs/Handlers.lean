import Actjs.PlainObject
import Actjs.EventSourcing

/-!
# Handlers

A method that is decorated with `@handler` is entered in the registry of its
class when the class is instantiated, the methods of a base class before
those of the classes that extend it. The registry is a plain object, and the
host indexes it with the method a client names.

So a name that was never registered is not always without a handler: for the
names every object inherits the lookup finds a function of
`Object.prototype`, and the host calls it on the instance with the arguments
of the client. `constructor` returns the arguments – the events of an
event-sourced actor are then whatever the client sends –, `valueOf` returns
the instance. For every other name the registry is what was registered.

## What is left out

A class that decorates a method as `@handler('__proto__')`: the assignment
to the registry then sets its prototype and registers nothing, and from then
on the registry inherits from the method. The table here gets an own entry
of that name.
-/

open Function (update)

/-! ## The registry -/

/-- `HandlerFn`: a handler, as the host calls it. -/
abbrev HandlerFn (S Env : Type) := Env → S → Json → Script S Json

/-- `HandlerRegistry`. -/
abbrev HandlerRegistry (S Env : Type) := PlainObject (HandlerFn S Env)

/-- A method under `@handler(name)`. -/
structure DecoratedMethod (S Env : Type) where
  name : Option String
  /-- `context.name`. -/
  contextName : String
  method : HandlerFn S Env

/-- `name ?? String(context.name)`. -/
def DecoratedMethod.handlerName {S Env : Type} (d : DecoratedMethod S Env) :
    String :=
  d.name.getD d.contextName

/-- A class, as far as its decorated methods go, in the order of their
decorators. -/
abbrev DecoratedClass (S Env : Type) := List (DecoratedMethod S Env)

/-- A class with its ancestors, the root first. -/
abbrev ClassChain (S Env : Type) := List (DecoratedClass S Env)

variable {S Env Op : Type}

/-- The initializer of a decorated method: `ctor._handlers` is made if it is
missing, and gets the method. -/
def initializer (handlers : Option (HandlerRegistry S Env))
    (d : DecoratedMethod S Env) : Option (HandlerRegistry S Env) :=
  some ((handlers.getD []).set d.handlerName d.method)

/-- `new ctor()`: the initializers run, those of a base class first. -/
def instantiate (chain : ClassChain S Env)
    (handlers : Option (HandlerRegistry S Env)) : Option (HandlerRegistry S Env) :=
  chain.flatten.foldl initializer handlers

/-- `getHandlers`, of what `ctor._handlers` is. -/
def getHandlers (handlers : Option (HandlerRegistry S Env)) :
    HandlerRegistry S Env :=
  handlers.getD []

/-! ## What an instance inherits

What `registry[name]` gives for a name that is not an own property: nothing,
or a member of `Object.prototype`, which the host calls on the instance. -/

/-- What the functions of `Object.prototype` see of an instance. -/
structure InstanceView (S : Type) where
  /-- Its own properties. -/
  keys : List String
  /-- What `JSON.stringify` makes of the instance. -/
  json : S → Json
  /-- `String(v)`, of a property key. -/
  toKey : Json → String
  /-- `this.toString()`. -/
  toString : S → Json

/-- A member of `Object.prototype`, called on the instance as a handler is.
None of them changes its state. -/
def inheritedMember (x : InstanceView S) (name : String) : HandlerFn S Env :=
  fun _ state args =>
    if name = "constructor" then
      -- `Object(args)`
      .ret .keep (match args with
        | .undefined => .obj []
        | .null => .obj []
        | v => v)
    else if name = "valueOf" then .ret .keep (x.json state)
    else if name = "toString" then .ret .keep (.str "[object Object]")
    else if name = "toLocaleString" then .ret .keep (x.toString state)
    else if name = "hasOwnProperty" ∨ name = "propertyIsEnumerable" then
      .ret .keep (.bool (x.keys.contains (x.toKey args)))
    else if name = "isPrototypeOf" then .ret .keep (.bool false)
    else if name = "__lookupGetter__" ∨ name = "__lookupSetter__" then
      -- A function or `undefined`, neither of which has a text.
      .ret .keep .undefined
    else
      -- `__proto__` is no function, and the other two want a second one.
      .throw .keep (.str "TypeError")

/-- `this.handlers[name]`. -/
def HandlerRegistry.dispatch (x : InstanceView S) (r : HandlerRegistry S Env)
    (name : String) : Option (HandlerFn S Env) :=
  match r.get name with
  | .own f => some f
  | .inherited n => some (inheritedMember x n)
  | .undefined => none

/-! ## What is registered -/

/-- The method a class registers under a name: the last one. -/
def registeredIn : DecoratedClass S Env → String → Option (HandlerFn S Env)
  | [], _ => none
  | d :: ds, name =>
    (registeredIn ds name).or
      (if d.handlerName = name then some d.method else none)

/-- **What is registered under a name**: what the most derived class that
registers it does. -/
def registered : ClassChain S Env → String → Option (HandlerFn S Env)
  | [], _ => none
  | c :: cs, name => (registered cs name).or (registeredIn c name)

theorem lookup_foldl_initializer (ds : DecoratedClass S Env) (name : String)
    (handlers : Option (HandlerRegistry S Env)) :
    (getHandlers (ds.foldl initializer handlers)).lookup name
      = (registeredIn ds name).or ((getHandlers handlers).lookup name) := by
  induction ds generalizing handlers with
  | nil => rfl
  | cons d ds ih =>
    rw [List.foldl_cons, ih, registeredIn, Option.or_assoc]
    congr 1
    show ((handlers.getD []).set d.handlerName d.method).lookup name = _
    rw [PlainObject.lookup_set]
    by_cases hd : d.handlerName = name
    · rw [if_pos hd.symm, if_pos hd]
      rfl
    · rw [if_neg (Ne.symm hd), if_neg hd]
      rfl

/-- An instantiation enters what is registered, over what was there. -/
theorem lookup_instantiate (chain : ClassChain S Env) (name : String)
    (handlers : Option (HandlerRegistry S Env)) :
    (getHandlers (instantiate chain handlers)).lookup name
      = (registered chain name).or ((getHandlers handlers).lookup name) := by
  unfold instantiate
  induction chain generalizing handlers with
  | nil => rfl
  | cons c cs ih =>
    rw [List.flatten_cons, List.foldl_append, ih, lookup_foldl_initializer,
      registered, Option.or_assoc]

/-- What `ctor._handlers` may be once the class was instantiated. -/
inductive Instantiated (chain : ClassChain S Env) :
    Option (HandlerRegistry S Env) → Prop where
  | first : Instantiated chain (instantiate chain none)
  | again {handlers : Option (HandlerRegistry S Env)} :
    Instantiated chain handlers → Instantiated chain (instantiate chain handlers)

/-- **The registry is what is registered**, however often the class was
instantiated. -/
theorem Instantiated.lookup {chain : ClassChain S Env}
    {handlers : Option (HandlerRegistry S Env)}
    (h : Instantiated chain handlers) (name : String) :
    (getHandlers handlers).lookup name = registered chain name := by
  induction h with
  | first =>
    rw [lookup_instantiate]
    exact Option.or_none
  | again _ ih => rw [lookup_instantiate, ih, Option.or_self]

/-- **A name without a handler is one that is neither registered nor
inherited.** -/
theorem Instantiated.dispatch_eq {chain : ClassChain S Env}
    {handlers : Option (HandlerRegistry S Env)}
    (h : Instantiated chain handlers) (x : InstanceView S) (name : String) :
    (getHandlers handlers).dispatch x name
      = (registered chain name).or
          (if name ∈ objectPrototype then some (inheritedMember x name)
          else none) := by
  have hl := h.lookup name
  unfold HandlerRegistry.dispatch
  cases hr : registered chain name with
  | some f => rw [PlainObject.get_of_lookup (hl.trans hr)]; rfl
  | none =>
    rw [PlainObject.get, hl.trans hr]
    by_cases hn : name ∈ objectPrototype
    · rw [if_pos hn]
      exact (if_pos hn).symm
    · rw [if_neg hn]
      exact (if_neg hn).symm

/-! ## The turn of an item

`handle` for an item: it runs what the lookup finds, or answers that there is
no handler. -/

namespace Sys

/-- The state a handler is called in: the item is taken, and the state
captured if someone listens. -/
def turnStart (s : Sys S Env Op) (item : Item) : Sys S Env Op :=
  { s with
    hist := { s.hist with taken := s.hist.taken ++ [item] }
    host := { s.host with prevStateCapture := capture s.host } }

end Sys

/-- **An item has no handler**: a call is rejected with the error that says
so, a tell is counted as unhandled by the next segment, and nothing of the
state is changed, stored or sent. -/
structure Unhandled (cfg : HostConfig S Env Op) (s s' : Sys S Env Op) (g : ℕ)
    (item : Item) : Prop where
  state : s'.host.state = s.host.state
  store : s'.store = s.store
  notifs : s'.hist.notifs = s.hist.notifs
  answer : match item with
    | .call name _ _ =>
      s'.host.workers g = .looping
        ∧ s'.host.calls = settleItem s.host.calls item
          (.error (.noHandler name cfg.registration.name))
    | .tell _ _ id =>
      s'.host.workers g = .unhandled id ∧ s'.host.calls = s.host.calls
        ∧ ∀ env ok, ∃ s'', Sys.workerStep cfg s' g env ok = some s''
          ∧ s''.host.metrics.handlerErrors
            = .unhandled id :: s.host.metrics.handlerErrors
          ∧ s''.host.state = s.host.state
          ∧ s''.store.events = s.store.events
          ∧ s''.store.snapshots = s.store.snapshots
          ∧ s''.hist.notifs = s.hist.notifs

/-- **An item is handled as the decorators say**: by what is registered under
its name, and not at all if nothing is. -/
def Dispatched (chain : ClassChain S Env) (cfg : HostConfig S Env Op)
    (s s' : Sys S Env Op) (g : ℕ) (env : Env) (item : Item) : Prop :=
  match registered chain item.name with
  | some f =>
    s' = (s.turnStart item).runHandler g item (f env s.host.state item.input)
  | none => Unhandled cfg s s' g item

namespace Sys

variable {cfg : HostConfig S Env Op} {s : Sys S Env Op} {g : ℕ} {env : Env}
  {item : Item}

theorem handle_of_some {f : HandlerFn S Env}
    (h : s.host.cls.handlers item.name = some f) :
    s.handle cfg g env item
      = (s.turnStart item).runHandler g item (f env s.host.state item.input) := by
  unfold handle
  dsimp only
  rw [h]
  rfl

theorem handle_of_none (h : s.host.cls.handlers item.name = none) :
    Unhandled cfg s (s.handle cfg g env item) g item := by
  unfold handle
  dsimp only
  rw [h]
  cases item with
  | call name args c =>
    exact
      { state := rfl
        store := rfl
        notifs := rfl
        answer := ⟨Function.update_self _ _ _, rfl⟩ }
  | tell type payload id =>
    refine
      { state := rfl
        store := rfl
        notifs := rfl
        answer := ⟨Function.update_self _ _ _, rfl, fun env ok => ?_⟩ }
    dsimp only
    rw [workerStep, show (Sys.setWorker _ g (.unhandled id)).host.workers g
      = .unhandled id from Function.update_self _ _ _]
    refine ⟨_, rfl, rfl, rfl, ?_, ?_, rfl⟩ <;> cases ok <;> rfl

/-- A handler that runs leaves the worker in its turn. -/
theorem not_unhandled_of_runHandler {p : Script S Json} :
    ¬Unhandled cfg s ((s.turnStart item).runHandler g item p) g item := by
  intro h
  have hw : ((s.turnStart item).runHandler g item p).host.workers g
      = .after item p := Function.update_self _ _ _
  have ha := h.answer
  have hne : ∀ w : WorkerPc S, w = .looping ∨ (∃ id, w = .unhandled id) →
      WorkerPc.after item p ≠ w := by
    rintro w hl he
    subst he
    unfold WorkerPc.after at hl
    cases p <;> simp [Script.next] at hl
  cases item with
  | call name args c => exact hne _ (.inl ha.1) hw.symm
  | tell type payload id => exact hne _ (.inr ⟨id, ha.1⟩) hw.symm

/-- **Only registered handlers run**, and every other name is unhandled, if
and only if the name is registered or none that every object inherits. -/
theorem handle_dispatches_iff {s' : Sys S Env Op} {ok : Bool}
    {chain : ClassChain S Env} {handlers : Option (HandlerRegistry S Env)}
    {x : InstanceView S} (hi : Instantiated chain handlers)
    (hcls : s.host.cls.handlers = (getHandlers handlers).dispatch x)
    (hw : s.host.workers g = .received item)
    (hs : s.workerStep cfg g env ok = some s') :
    Dispatched chain cfg s s' g env item ↔
      (registered chain item.name).isSome ∨ item.name ∉ objectPrototype := by
  rw [workerStep, hw] at hs
  cases Option.some.inj hs
  have hd := hi.dispatch_eq x item.name
  rw [← hcls] at hd
  unfold Dispatched
  cases hr : registered chain item.name with
  | some f =>
    rw [hr] at hd
    exact iff_of_true (handle_of_some hd) (.inl rfl)
  | none =>
    rw [hr, Option.none_or] at hd
    by_cases hn : item.name ∈ objectPrototype
    · rw [if_pos hn] at hd
      refine iff_of_false ?_ (by simpa using hn)
      rw [handle_of_some hd]
      exact not_unhandled_of_runHandler
    · rw [if_neg hn] at hd
      exact iff_of_true (handle_of_none hd) (.inr hn)

end Sys

/-! ## A call of `constructor` -/

namespace Ledger

/-- The ledger with its decorator: `@handler() deposit()`. -/
def chain : ClassChain ℤ Unit :=
  [[⟨none, "deposit", fun _ _ _ => .ret .keep
    (.arr [.obj [("type", .str "Deposited"), ("amount", .num 1)]])⟩]]

/-- What the functions of `Object.prototype` see of a ledger. -/
def view : InstanceView ℤ where
  keys := ["actor_id", "actjs", "state"]
  json balance := .obj [("actor_id", .str "ledger-1"), ("state", .num balance)]
  toKey _ := ""
  toString _ := .str "[object Object]"

/-- A host of the decorated ledger. -/
def decorated : HostConfig ℤ Unit Unit where
  id := "ledger-1"
  registration :=
    { name := "Ledger"
      version := "1.0.0"
      ctor := { cls byAmount with
        handlers := (getHandlers (instantiate chain none)).dispatch view }
      mailboxCapacity_pos := defaultMailboxCapacity_pos }
  loader := none
  gt := fun _ _ => false
  compare := fun _ _ => []

/-- An activation and a call, up to where the worker has the call. -/
def calling (method : String) (args : Json) : List (Act Unit) :=
  activating 8 ++ [.callStart 0 method args]

end Ledger

/-- A name that is no member of any object is unhandled. -/
theorem handle_dispatches_missing :
    ∃ s s', TransitionSystem.run (Sys.step Ledger.decorated)
        (.init Ledger.decorated .empty) (Ledger.calling "missing" .null) = some s
      ∧ s.workerStep Ledger.decorated 1 () true = some s'
      ∧ Dispatched Ledger.chain Ledger.decorated s s' 1 () (.call "missing" .null 0) := by
  have hrun : ∃ s, TransitionSystem.run (Sys.step Ledger.decorated)
        (.init Ledger.decorated .empty) (Ledger.calling "missing" .null) = some s
      ∧ s.host.workers 1 = .received (.call "missing" .null 0)
      ∧ s.host.cls.handlers
        = (getHandlers (instantiate Ledger.chain none)).dispatch Ledger.view :=
    ⟨_, rfl, rfl, rfl⟩
  obtain ⟨s, hs, hw, hcls⟩ := hrun
  have hstep : s.workerStep Ledger.decorated 1 () true
      = some (s.handle Ledger.decorated 1 () (.call "missing" .null 0)) := by
    rw [Sys.workerStep, hw]
  exact ⟨s, _, hs, hstep,
    (Sys.handle_dispatches_iff .first hcls hw hstep).mpr (.inr (by decide))⟩

/-- **A client writes the events of an actor**: nothing is registered under
`constructor`, and a call of it appends the events it is given. -/
theorem not_handle_dispatches :
    registered Ledger.chain "constructor" = none
    ∧ ∃ s s', TransitionSystem.run (Sys.step Ledger.decorated)
        (.init Ledger.decorated .empty)
        (Ledger.calling "constructor"
          (.arr [.obj [("type", .str "Deposited"), ("amount", .num 1000)]])) = some s
      ∧ s.host.state = 0 ∧ s.store.events = []
      ∧ TransitionSystem.run (Sys.step Ledger.decorated) s
        (List.replicate 5 (.worker 1 () true)) = some s'
      ∧ s'.host.state = 1000
      ∧ s'.store.events = [⟨"1.0.0", "Deposited", .obj [("amount", .num 1000)]⟩] := by
  exact ⟨rfl, _, _, rfl, rfl, rfl, rfl, rfl, rfl⟩
