import Actjs.Holders
import Mathlib.Data.Int.Notation
import Mathlib.Logic.Function.Basic

/-!
# The stores of the bindings

`getActorStore` gives everyone who asks for an actor the same store and counts a
reference; `releaseActorStore` takes one back, and the last destroys the store, which
drops its subscription upstream. Who holds a reference is a caller of
`getActorStore`, until it releases it; a store of `actor`, until it is destroyed; and
a store of `actorValue`, while it has not been subscribed to, and while it has a
subscriber.

Every store that was ever made is kept in a list, so that one which is destroyed can
still be told from the one that is made in its place.
-/

open Function (update)

/-! ## The state -/

/-- The subscription upstream: asked for, there, dropped, or refused. -/
inductive Upstream where
  | pending
  | active
  | dropped
  | failed
deriving DecidableEq

/-- `ActorStoreImpl`, with the client and the key it is registered by. -/
structure BindingStore where
  client : ℕ
  key : String
  refCount : ℤ
  destroyed : Bool
  upstream : Upstream
  /-- The listeners, by number. -/
  listeners : List ℕ
deriving DecidableEq

/-- Who may hold a reference to a store. -/
inductive StoreHolder where
  /-- A caller of `getActorStore`, that has not released it. -/
  | handle (store : ℕ) (held : Bool)
  /-- What `actor` returns: whether it is destroyed, its listener for errors, and those
  of the subscriptions to it. -/
  | actor (store : ℕ) (destroyed : Bool) (unsubError : ℕ) (subs : List ℕ)
  /-- What `actorValue` returns: the listener of each subscription to it, and whether
  it has not been unsubscribed. -/
  | value (store : ℕ) (subs : List (ℕ × Bool))
deriving DecidableEq

namespace StoreHolder

/-- The store it holds. -/
def store : StoreHolder → ℕ
  | handle i _ => i
  | actor i _ _ _ => i
  | value i _ => i

/-- **It holds the store.** -/
def live : StoreHolder → Bool
  | handle _ held => held
  | actor _ destroyed _ _ => !destroyed
  | value _ subs => subs.isEmpty || subs.any Prod.snd

/-- It holds this store. -/
def holds (i : ℕ) (h : StoreHolder) : Bool := h.store == i && h.live

end StoreHolder

/-- **The stores**, the registry of each client, and who may hold a store. -/
structure Bindings where
  stores : List BindingStore
  registry : ℕ × String → Option ℕ
  holders : List StoreHolder
  nextListener : ℕ

/-! ## What the bindings do

`getActorStore` and `releaseActorStore` count; `actor` and `actorValue` call
them when a store is made and destroyed, or subscribed to and left. -/

namespace Bindings

def init : Bindings := ⟨[], fun _ => none, [], 0⟩

/-- How many hold a store. -/
def holdersOf (s : Bindings) (i : ℕ) : ℕ := s.holders.countP (StoreHolder.holds i)

/-- Do something to a store. -/
def modifyStore (s : Bindings) (i : ℕ) (f : BindingStore → BindingStore) : Bindings :=
  { s with stores := s.stores.modify i f }

/-- `createActorStore`, which asks for the subscription upstream. -/
def createActorStore (client : ℕ) (key : String) : BindingStore :=
  ⟨client, key, 0, false, .pending, []⟩

/-- The store of a key, which is made if there is none. -/
def lookup (s : Bindings) (client : ℕ) (key : String) : Bindings × ℕ :=
  match s.registry (client, key) with
  | some i => (s, i)
  | none =>
    ({ s with
        stores := s.stores ++ [createActorStore client key]
        registry := update s.registry (client, key) (some s.stores.length) },
      s.stores.length)

/-- `getActorStore`. -/
def getActorStore (s : Bindings) (client : ℕ) (className id : String) : Bindings × ℕ :=
  let (s, i) := s.lookup client (className ++ ":" ++ id)
  (s.modifyStore i (fun st => { st with refCount := st.refCount + 1 }), i)

/-- What `destroy` makes of a store. -/
def torn (st : BindingStore) : BindingStore :=
  { st with
    destroyed := true
    upstream := if st.upstream = .active then .dropped else st.upstream
    listeners := [] }

/-- `destroy`, of an `ActorStore`. -/
def destroyStore (s : Bindings) (i : ℕ) : Bindings :=
  match s.stores[i]? with
  | none => s
  | some st =>
    if st.destroyed = true then s
    else
      { s.modifyStore i torn with registry := update s.registry (st.client, st.key) none }

/-- `releaseActorStore`. -/
def releaseActorStore (s : Bindings) (i : ℕ) : Bindings :=
  let s := s.modifyStore i (fun st => { st with refCount := st.refCount - 1 })
  match s.stores[i]? with
  | none => s
  | some st => if st.refCount ≤ 0 then s.destroyStore i else s

/-- `subscribe`, of an `ActorStore`: the listener is added. -/
def listen (s : Bindings) (i : ℕ) : Bindings × ℕ :=
  ({ s.modifyStore i (fun st => { st with listeners := st.listeners ++ [s.nextListener] }) with
      nextListener := s.nextListener + 1 },
    s.nextListener)

/-- What `subscribe` returns: the listener is deleted. -/
def unlisten (s : Bindings) (i listener : ℕ) : Bindings :=
  s.modifyStore i (fun st => { st with listeners := st.listeners.erase listener })

/-- What has come of the subscription upstream. -/
def settled (ok : Bool) (st : BindingStore) : BindingStore :=
  { st with
    upstream := if ok = false then .failed else if st.destroyed = true then .dropped else .active }

/-- There is a holder more. -/
def hold (s : Bindings) (h : StoreHolder) : Bindings := { s with holders := s.holders ++ [h] }

/-- A holder changes. -/
def setHolder (s : Bindings) (n : ℕ) (h : StoreHolder) : Bindings :=
  { s with holders := s.holders.set n h }

end Bindings

/-- What is done with the bindings. The `n`-th holder is meant, the `k`-th
subscription to it, the `i`-th store. -/
inductive BindingAct where
  | getActorStore (client : ℕ) (className id : String)
  | releaseActorStore (n : ℕ)
  | actor (client : ℕ) (className id : String)
  | actorSubscribe (n : ℕ)
  | actorUnsubscribe (n k : ℕ)
  | actorDestroy (n : ℕ)
  | actorValue (client : ℕ) (className id : String)
  | valueSubscribe (n : ℕ)
  | valueUnsubscribe (n k : ℕ)
  /-- `destroy`, of the `ActorStore` itself. -/
  | destroy (i : ℕ)
  /-- The subscription upstream is there, or is refused. -/
  | settle (i : ℕ) (ok : Bool)

namespace Bindings

/-- **A step.** A caller releases a store that it holds, once. -/
def step (s : Bindings) : BindingAct → Option Bindings
  | .getActorStore client className id =>
    let (s, i) := s.getActorStore client className id
    some (s.hold (.handle i true))
  | .releaseActorStore n =>
    match s.holders[n]? with
    | some (.handle i true) => some ((s.setHolder n (.handle i false)).releaseActorStore i)
    | _ => none
  | .actor client className id =>
    let (s, i) := s.getActorStore client className id
    let (s, unsubError) := s.listen i
    some (s.hold (.actor i false unsubError []))
  | .actorSubscribe n =>
    match s.holders[n]? with
    | some (.actor i destroyed unsubError subs) =>
      let (s, listener) := s.listen i
      some (s.setHolder n (.actor i destroyed unsubError (subs ++ [listener])))
    | _ => none
  | .actorUnsubscribe n k =>
    match s.holders[n]? with
    | some (.actor i _ _ subs) => subs[k]?.map (s.unlisten i)
    | _ => none
  | .actorDestroy n =>
    match s.holders[n]? with
    | some (.actor _ true _ _) => some s
    | some (.actor i false unsubError subs) =>
      -- the count of its own that it releases is one
      some (((s.setHolder n (.actor i true unsubError subs)).unlisten i unsubError
        ).releaseActorStore i)
    | _ => none
  | .actorValue client className id =>
    let (s, i) := s.getActorStore client className id
    some (s.hold (.value i []))
  | .valueSubscribe n =>
    match s.holders[n]? with
    | some (.value i subs) =>
      let (s, listener) := s.listen i
      some (s.setHolder n (.value i (subs ++ [(listener, true)])))
    | _ => none
  | .valueUnsubscribe n k =>
    match s.holders[n]? with
    | some (.value i subs) =>
      subs[k]?.map (fun sub =>
        ((s.setHolder n (.value i (subs.set k (sub.fst, false)))).unlisten i sub.fst
          ).releaseActorStore i)
    | _ => none
  | .destroy i => if i < s.stores.length then some (s.destroyStore i) else none
  | .settle i ok =>
    match s.stores[i]? with
    | some st => if st.upstream = .pending then some (s.modifyStore i (settled ok)) else none
    | none => none

/-- **The bindings are used well**: a store of `actorValue` is not subscribed to after
its subscribers are gone, a subscription to it is not unsubscribed but as the only one
it has, and a store is not destroyed under its holders. -/
def usedWell (s : Bindings) : BindingAct → Bool
  | .valueSubscribe n => s.holders[n]?.all StoreHolder.live
  | .valueUnsubscribe n k =>
    match s.holders[n]? with
    | some (.value _ subs) => subs[k]?.any Prod.snd && subs.countP Prod.snd == 1
    | _ => true
  | .destroy i => s.holdersOf i == 0
  | _ => true

/-- **The references are counted**: the count of a store is how many hold it; a store
is destroyed exactly if nobody does; and its subscription upstream, once it is there,
is dropped exactly if nobody does. -/
def Counted (s : Bindings) : Prop :=
  ∀ i st, s.stores[i]? = some st →
    st.refCount = (s.holdersOf i : ℤ)
      ∧ (st.destroyed = true ↔ s.holdersOf i = 0)
      ∧ (st.upstream = .active → s.holdersOf i ≠ 0)
      ∧ (st.upstream = .dropped → s.holdersOf i = 0)

end Bindings
