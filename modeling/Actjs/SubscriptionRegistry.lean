import Actjs.SetMap
import Actjs.Storage
import Actjs.Transition
import Mathlib.Data.Finset.Card
import Mathlib.Data.Finset.Range

/-!
# The subscription registry

The registry has its subscriptions in three maps, and a listener of each on a
host: `subscribe` puts them in place once the host is there, and `detach` takes
them away, also while `unsubscribeConnection` goes through the set of a
connection or a host through its listeners. They agree in every run
(`Consistent`).

The cap on the subscribers of an actor is looked at before the host is awaited,
and not again: the subscriptions of an actor stay under it where there is still
room for each when its host arrives.

A host is what `getHost` resolves with; which object of the actor that is, and
when it is there, is left to the run. So is which sinks throw. What a
notification carries is left out.
-/

open Function (update)

/-- An `ActorHost` object. -/
structure HostRef where
  actorId : ActorId
  object : ℕ
deriving DecidableEq

/-- A subscription of a connection. A listener is one that delivers to it. -/
structure Subscription where
  id : ℕ
  conn : ℕ
  actorId : ActorId
  /-- The host that `detachFromHost` removes its listener from. -/
  host : HostRef
deriving DecidableEq

inductive SubscribeError where
  | subscriberLimit (actorId : ActorId) (max : ℕ)
  /-- `getHost` rejected. -/
  | host
  /-- The sink threw at the snapshot. -/
  | sink
deriving DecidableEq

/-- The text of a `SubscriberLimitError`; the others are not the registry's. -/
def SubscribeError.message : SubscribeError → String
  | subscriberLimit actorId max =>
    "per-actor subscriber cap reached (" ++ toString max ++ ") for " ++ actorId
  | host => ""
  | sink => ""

inductive SubscribePc where
  | gettingHost
  | subscribed (id : ℕ)
  | rejected (e : SubscribeError)
deriving DecidableEq

/-- A call of `subscribe`. -/
structure SubscribeCall where
  conn : ℕ
  className : ClassName
  actorId : ActorId
  pc : SubscribePc
deriving DecidableEq

/-- **The registry**, and the listeners on the hosts. -/
structure SubscriptionRegistry where
  subs : ℕ → Option Subscription
  byActor : SetMap ActorId ℕ
  byConnection : SetMap ℕ ℕ
  notifications : ℕ
  /-- `ActorHost.commitListeners`. -/
  commitListeners : HostRef → List Subscription
  /-- The ids that `randomUUID` has given out, which it never does again. -/
  issued : ℕ
  calls : ℕ → Option SubscribeCall

/-- `DEFAULT_MAX_PER_ACTOR`. -/
def defaultMaxPerActor : ℕ := 1000

namespace SubscriptionRegistry

def init : SubscriptionRegistry where
  subs := fun _ => none
  byActor := .empty
  byConnection := .empty
  notifications := 0
  commitListeners := fun _ => []
  issued := 0
  calls := fun _ => none

def setCall (s : SubscriptionRegistry) (q : ℕ) (call : SubscribeCall) :
    SubscriptionRegistry :=
  { s with calls := update s.calls q (some call) }

/-- `subscribe` up to its await. -/
def subscribe (maxPerActor : ℕ) (s : SubscriptionRegistry) (q conn : ℕ)
    (className : ClassName) (actorId : ActorId) : Option SubscriptionRegistry :=
  if (s.calls q).isSome = true then none
  else if maxPerActor ≤ (s.byActor.values actorId).length then
    some (s.setCall q ⟨conn, className, actorId,
      .rejected (.subscriberLimit actorId maxPerActor)⟩)
  else some (s.setCall q ⟨conn, className, actorId, .gettingHost⟩)

/-- `subscribe` puts the subscription in place. -/
def attach (s : SubscriptionRegistry) (sub : Subscription) : SubscriptionRegistry :=
  { s with
    commitListeners :=
      update s.commitListeners sub.host (s.commitListeners sub.host ++ [sub])
    subs := update s.subs sub.id (some sub)
    byActor := s.byActor.add sub.actorId sub.id
    byConnection := s.byConnection.add sub.conn sub.id
    issued := s.issued + 1 }

/-- `subscribe` after its await, which gave it an object. -/
def hostReady (s : SubscriptionRegistry) (q object : ℕ) (sinkOk : Bool) :
    Option SubscriptionRegistry :=
  match s.calls q with
  | some ⟨conn, className, actorId, .gettingHost⟩ =>
    let s := s.attach ⟨s.issued, conn, actorId, ⟨actorId, object⟩⟩
    if sinkOk = true then
      some ({ s with notifications := s.notifications + 1 }.setCall q
        ⟨conn, className, actorId, .subscribed (s.issued - 1)⟩)
    else some (s.setCall q ⟨conn, className, actorId, .rejected .sink⟩)
  | _ => none

/-- `subscribe` after its await, which rejected. -/
def hostFailed (s : SubscriptionRegistry) (q : ℕ) : Option SubscriptionRegistry :=
  match s.calls q with
  | some ⟨conn, className, actorId, .gettingHost⟩ =>
    some (s.setCall q ⟨conn, className, actorId, .rejected .host⟩)
  | _ => none

def detach (s : SubscriptionRegistry) (sub : Subscription) : SubscriptionRegistry :=
  { s with
    commitListeners :=
      update s.commitListeners sub.host
        ((s.commitListeners sub.host).filter (fun l => l.id ≠ sub.id))
    subs := update s.subs sub.id none
    byActor := s.byActor.remove sub.actorId sub.id
    byConnection := s.byConnection.remove sub.conn sub.id }

/-- `unsubscribe`, with what it returns. -/
def unsubscribe (s : SubscriptionRegistry) (subscriptionId : ℕ) :
    Bool × SubscriptionRegistry :=
  match s.subs subscriptionId with
  | none => (false, s)
  | some sub => (true, s.detach sub)

/-- The iteration over the set of a connection gets to an id. -/
def unsubscribeFrom (conn : ℕ) (s : SubscriptionRegistry) (id : ℕ) :
    SubscriptionRegistry :=
  if id ∈ s.byConnection.values conn then (s.unsubscribe id).2 else s

def unsubscribeConnection (s : SubscriptionRegistry) (conn : ℕ) :
    SubscriptionRegistry :=
  (s.byConnection.values conn).foldl (unsubscribeFrom conn) s

/-- `deliver`, of a tombstone. -/
def deliverTombstone (throwing : List ℕ) (s : SubscriptionRegistry)
    (sub : Subscription) : SubscriptionRegistry :=
  { s.detach sub with
    notifications := s.notifications + if sub.id ∈ throwing then 0 else 1 }

/-- The iteration over the listeners of a host gets to one. -/
def deliverAt (h : HostRef) (throwing : List ℕ) (s : SubscriptionRegistry)
    (sub : Subscription) : SubscriptionRegistry :=
  if sub ∈ s.commitListeners h then s.deliverTombstone throwing sub else s

/-- `ActorHost.notifyTombstone`. -/
def notifyTombstone (s : SubscriptionRegistry) (h : HostRef) (throwing : List ℕ) :
    SubscriptionRegistry :=
  (s.commitListeners h).foldl (deliverAt h throwing) s

/-- A patch or an event is delivered to the listeners of a host. -/
def commit (s : SubscriptionRegistry) (h : HostRef) : SubscriptionRegistry :=
  { s with notifications := s.notifications + (s.commitListeners h).length }

end SubscriptionRegistry

/-- **What can happen to the registry next.** -/
inductive RegistryAct where
  | subscribe (q conn : ℕ) (className : ClassName) (actorId : ActorId)
  | hostReady (q object : ℕ) (sinkOk : Bool)
  | hostFailed (q : ℕ)
  | unsubscribe (subscriptionId : ℕ)
  | unsubscribeConnection (conn : ℕ)
  | notifyTombstone (h : HostRef) (throwing : List ℕ)
  | commit (h : HostRef)

namespace SubscriptionRegistry

def step (maxPerActor : ℕ) (s : SubscriptionRegistry) :
    RegistryAct → Option SubscriptionRegistry
  | .subscribe q conn className actorId =>
    s.subscribe maxPerActor q conn className actorId
  | .hostReady q object sinkOk => s.hostReady q object sinkOk
  | .hostFailed q => s.hostFailed q
  | .unsubscribe subscriptionId => some (s.unsubscribe subscriptionId).2
  | .unsubscribeConnection conn => some (s.unsubscribeConnection conn)
  | .notifyTombstone h throwing => some (s.notifyTombstone h throwing)
  | .commit h => some (s.commit h)

/-- **The maps and the listeners agree.** -/
structure Consistent (s : SubscriptionRegistry) : Prop where
  named : ∀ id sub, s.subs id = some sub → sub.id = id ∧ id < s.issued
  byActor : s.byActor.Represents
    (fun actorId id => ∃ sub, s.subs id = some sub ∧ sub.actorId = actorId)
  byConnection : s.byConnection.Represents
    (fun conn id => ∃ sub, s.subs id = some sub ∧ sub.conn = conn)
  /-- A subscription has its listener on its host, and there is no other. -/
  listeners : ∀ h sub, sub ∈ s.commitListeners h ↔ s.subs sub.id = some sub ∧ sub.host = h
  once : ∀ h, (s.commitListeners h).Nodup

/-- The subscriptions of an actor. -/
def ofActor (s : SubscriptionRegistry) (actorId : ActorId) : Finset ℕ :=
  (Finset.range s.issued).filter
    (fun id => (s.subs id).any (fun sub => sub.actorId == actorId) = true)

/-- **There is still room for a subscription when its host arrives.** -/
def hasRoom (maxPerActor : ℕ) (s : SubscriptionRegistry) : RegistryAct → Bool
  | .hostReady q _ _ =>
    (s.calls q).all (fun call =>
      decide ((s.byActor.values call.actorId).length < maxPerActor))
  | _ => true

variable {maxPerActor : ℕ} {s s' : SubscriptionRegistry} {sub : Subscription}

theorem subs_detach {id : ℕ} {sub' : Subscription} (hs : (s.detach sub).subs id = some sub') :
    id ≠ sub.id ∧ s.subs id = some sub' := by
  have hs : update s.subs sub.id none id = some sub' := hs
  by_cases he : id = sub.id
  · rw [he, Function.update_self] at hs
    exact absurd hs (by simp)
  · exact ⟨he, (Function.update_of_ne he _ _).symm.trans hs⟩

namespace Consistent

theorem init : Consistent SubscriptionRegistry.init where
  named id sub h := absurd h (by simp [SubscriptionRegistry.init])
  byActor := SetMap.Represents.empty.congr (by simp [SubscriptionRegistry.init])
  byConnection := SetMap.Represents.empty.congr (by simp [SubscriptionRegistry.init])
  listeners h sub := by simp [SubscriptionRegistry.init]
  once h := List.nodup_nil

/-- Calls and counts are nothing to it. -/
theorem frame (h : s.Consistent) (hsubs : s'.subs = s.subs) (hactor : s'.byActor = s.byActor)
    (hconn : s'.byConnection = s.byConnection)
    (hl : s'.commitListeners = s.commitListeners) (hi : s'.issued = s.issued) :
    s'.Consistent := by
  refine ⟨?_, ?_, ?_, ?_, ?_⟩
  · rw [hsubs, hi]
    exact h.named
  · rw [hsubs, hactor]
    exact h.byActor
  · rw [hsubs, hconn]
    exact h.byConnection
  · rw [hsubs, hl]
    exact h.listeners
  · rw [hl]
    exact h.once

/-- An index, when a subscription is put in place. -/
theorem index_attach {K : Type} {key : Subscription → K} {subs : ℕ → Option Subscription}
    (hnew : subs sub.id = none) (k : K) (id : ℕ) :
    (∃ sub', subs id = some sub' ∧ key sub' = k) ∨ k = key sub ∧ id = sub.id
      ↔ ∃ sub', update subs sub.id (some sub) id = some sub' ∧ key sub' = k := by
  by_cases he : id = sub.id
  · subst he
    simp [hnew, eq_comm]
  · rw [Function.update_of_ne he, or_iff_left (fun h => he h.2)]

/-- An index, when it is taken away. -/
theorem index_detach {K : Type} {key : Subscription → K} {subs : ℕ → Option Subscription}
    (hsub : subs sub.id = some sub) (k : K) (id : ℕ) :
    (∃ sub', subs id = some sub' ∧ key sub' = k) ∧ ¬(k = key sub ∧ id = sub.id)
      ↔ ∃ sub', update subs sub.id none id = some sub' ∧ key sub' = k := by
  by_cases he : id = sub.id
  · subst he
    simp [hsub, eq_comm]
  · rw [Function.update_of_ne he, and_iff_left (fun h => he h.2)]

theorem attach (h : s.Consistent) (hid : sub.id = s.issued) : (s.attach sub).Consistent := by
  have hnew : s.subs sub.id = none := by
    by_contra hne
    obtain ⟨sub', hsub'⟩ := Option.ne_none_iff_exists'.mp hne
    exact absurd (h.named _ _ hsub').2 (by omega)
  have hfresh : ∀ hr, sub ∉ s.commitListeners hr := by
    intro hr hmem
    exact absurd ((h.listeners hr sub).mp hmem).1 (by simp [hnew])
  refine ⟨fun id sub' hs => ?_, (h.byActor.add _ _).congr (index_attach hnew),
    (h.byConnection.add _ _).congr (index_attach hnew), fun hr sub' => ?_, fun hr => ?_⟩
  · show sub'.id = id ∧ id < s.issued + 1
    have hs : update s.subs sub.id (some sub) id = some sub' := hs
    by_cases he : id = sub.id
    · rw [he, Function.update_self] at hs
      obtain rfl := Option.some.inj hs
      exact ⟨he.symm, by omega⟩
    · obtain ⟨hid', hlt⟩ := h.named id sub' ((Function.update_of_ne he _ _).symm.trans hs)
      exact ⟨hid', by omega⟩
  · show sub' ∈ update s.commitListeners sub.host _ hr
      ↔ update s.subs sub.id (some sub) sub'.id = some sub' ∧ sub'.host = hr
    have hsubs : update s.subs sub.id (some sub) sub'.id = some sub'
        ↔ s.subs sub'.id = some sub' ∨ sub' = sub := by
      by_cases he : sub'.id = sub.id
      · rw [he, Function.update_self, hnew]
        simp [eq_comm]
      · rw [Function.update_of_ne he, or_iff_left (fun hs => he (congrArg _ hs))]
    rw [hsubs]
    by_cases he : hr = sub.host
    · subst he
      rw [Function.update_self, List.mem_append, List.mem_singleton, h.listeners]
      constructor
      · rintro (⟨hs, hh⟩ | rfl)
        · exact ⟨.inl hs, hh⟩
        · exact ⟨.inr rfl, rfl⟩
      · rintro ⟨hs | rfl, hh⟩
        · exact .inl ⟨hs, hh⟩
        · exact .inr rfl
    · rw [Function.update_of_ne he, h.listeners]
      constructor
      · rintro ⟨hs, hh⟩
        exact ⟨.inl hs, hh⟩
      · rintro ⟨hs | rfl, hh⟩
        · exact ⟨hs, hh⟩
        · exact absurd hh.symm he
  · show (update s.commitListeners sub.host _ hr).Nodup
    by_cases he : hr = sub.host
    · subst he
      rw [Function.update_self]
      exact (h.once _).append (List.nodup_singleton sub) (by simpa using hfresh sub.host)
    · rw [Function.update_of_ne he]
      exact h.once hr

theorem detach (h : s.Consistent) (hsub : s.subs sub.id = some sub) :
    (s.detach sub).Consistent := by
  refine ⟨fun id sub' hs => ?_, (h.byActor.remove _ _).congr (index_detach hsub),
    (h.byConnection.remove _ _).congr (index_detach hsub), fun hr sub' => ?_, fun hr => ?_⟩
  · obtain ⟨-, hs⟩ := subs_detach hs
    exact h.named id sub' hs
  · show sub' ∈ update s.commitListeners sub.host _ hr
      ↔ update s.subs sub.id none sub'.id = some sub' ∧ sub'.host = hr
    have hsubs : update s.subs sub.id none sub'.id = some sub'
        ↔ s.subs sub'.id = some sub' ∧ sub'.id ≠ sub.id := by
      by_cases he : sub'.id = sub.id
      · simp [he]
      · rw [Function.update_of_ne he, and_iff_left he]
    rw [hsubs]
    by_cases he : hr = sub.host
    · subst he
      rw [Function.update_self, List.mem_filter, h.listeners, decide_eq_true_eq]
      exact and_right_comm
    · rw [Function.update_of_ne he, h.listeners]
      constructor
      · rintro ⟨hs, hh⟩
        refine ⟨⟨hs, fun hid => he ?_⟩, hh⟩
        rw [hid, hsub] at hs
        exact hh.symm.trans (congrArg Subscription.host (Option.some.inj hs).symm)
      · rintro ⟨⟨hs, -⟩, hh⟩
        exact ⟨hs, hh⟩
  · show (update s.commitListeners sub.host _ hr).Nodup
    by_cases he : hr = sub.host
    · subst he
      rw [Function.update_self]
      exact (h.once _).filter _
    · rw [Function.update_of_ne he]
      exact h.once hr

theorem unsubscribe (h : s.Consistent) (id : ℕ) : (s.unsubscribe id).2.Consistent := by
  unfold SubscriptionRegistry.unsubscribe
  split
  · exact h
  · next sub hsub => exact h.detach ((h.named _ _ hsub).1.symm ▸ hsub)

theorem unsubscribeConnection (h : s.Consistent) (conn : ℕ) :
    (s.unsubscribeConnection conn).Consistent := by
  unfold SubscriptionRegistry.unsubscribeConnection
  generalize s.byConnection.values conn = ids
  induction ids generalizing s with
  | nil => exact h
  | cons id ids ih =>
    refine ih ?_
    unfold unsubscribeFrom
    split
    · exact h.unsubscribe id
    · exact h

theorem notifyTombstone (h : s.Consistent) (hr : HostRef) (throwing : List ℕ) :
    (s.notifyTombstone hr throwing).Consistent := by
  unfold SubscriptionRegistry.notifyTombstone
  generalize s.commitListeners hr = subs
  induction subs generalizing s with
  | nil => exact h
  | cons sub subs ih =>
    refine ih ?_
    unfold deliverAt
    split
    · next hmem => exact (h.detach ((h.listeners hr sub).mp hmem).1).frame rfl rfl rfl rfl rfl
    · exact h

/-- **Every step keeps to it.** -/
theorem step {a : RegistryAct} (h : s.Consistent) (hs : s.step maxPerActor a = some s') :
    s'.Consistent := by
  cases a with
  | subscribe q conn className actorId =>
    rw [SubscriptionRegistry.step, SubscriptionRegistry.subscribe] at hs
    split at hs
    · exact absurd hs (by simp)
    split at hs <;> exact Option.some.inj hs ▸ h.frame rfl rfl rfl rfl rfl
  | hostReady q object sinkOk =>
    rw [SubscriptionRegistry.step, hostReady] at hs
    split at hs
    · next conn className actorId hq =>
      have hattach : (s.attach ⟨s.issued, conn, actorId, ⟨actorId, object⟩⟩).Consistent :=
        h.attach rfl
      dsimp only at hs
      split at hs <;> exact Option.some.inj hs ▸ hattach.frame rfl rfl rfl rfl rfl
    · exact absurd hs (by simp)
  | hostFailed q =>
    rw [SubscriptionRegistry.step, hostFailed] at hs
    split at hs
    · exact Option.some.inj hs ▸ h.frame rfl rfl rfl rfl rfl
    · exact absurd hs (by simp)
  | unsubscribe id => exact Option.some.inj hs ▸ h.unsubscribe id
  | unsubscribeConnection conn => exact Option.some.inj hs ▸ h.unsubscribeConnection conn
  | notifyTombstone hr throwing => exact Option.some.inj hs ▸ h.notifyTombstone hr throwing
  | commit hr => exact Option.some.inj hs ▸ h.frame rfl rfl rfl rfl rfl

theorem mem_ofActor (h : s.Consistent) {actorId : ActorId} {id : ℕ} :
    id ∈ s.ofActor actorId ↔ ∃ sub, s.subs id = some sub ∧ sub.actorId = actorId := by
  rw [ofActor, Finset.mem_filter, Finset.mem_range, Option.any_eq_true]
  simp only [beq_iff_eq]
  exact ⟨And.right, fun ⟨sub, hsub, hactor⟩ => ⟨(h.named id sub hsub).2, sub, hsub, hactor⟩⟩

/-- The set of an actor has as many ids as it has subscriptions. -/
theorem length_values (h : s.Consistent) (actorId : ActorId) :
    (s.byActor.values actorId).length = (s.ofActor actorId).card := by
  rw [← List.toFinset_card_of_nodup (h.byActor.nodup actorId)]
  congr 1
  ext id
  rw [List.mem_toFinset, h.byActor.mem, h.mem_ofActor]

end Consistent

/-! ## The cap

What is put in place when a host arrives is one subscription more of its
actor, so the cap holds afterwards if there was room before. -/

theorem subs_unsubscribe {id id' : ℕ} (hs : (s.unsubscribe id).2.subs id' = some sub) :
    s.subs id' = some sub := by
  unfold unsubscribe at hs
  split at hs
  · exact hs
  · exact (subs_detach hs).2

theorem subs_foldl {α : Type} {f : SubscriptionRegistry → α → SubscriptionRegistry}
    (hf : ∀ s x id sub, (f s x).subs id = some sub → s.subs id = some sub) (xs : List α)
    {id : ℕ} (hs : (xs.foldl f s).subs id = some sub) : s.subs id = some sub := by
  induction xs generalizing s with
  | nil => exact hs
  | cons x xs ih => exact hf s x id sub (ih hs)

theorem subs_unsubscribeFrom (conn : ℕ) (s : SubscriptionRegistry) (x id : ℕ)
    (sub : Subscription) (hs : (s.unsubscribeFrom conn x).subs id = some sub) :
    s.subs id = some sub := by
  unfold unsubscribeFrom at hs
  split at hs
  · exact subs_unsubscribe hs
  · exact hs

theorem subs_deliverAt (h : HostRef) (throwing : List ℕ) (s : SubscriptionRegistry)
    (l : Subscription) (id : ℕ) (sub : Subscription)
    (hs : (s.deliverAt h throwing l).subs id = some sub) : s.subs id = some sub := by
  unfold deliverAt at hs
  split at hs
  · exact (subs_detach hs).2
  · exact hs

/-- **Only an arrival of a host adds a subscription**, and it adds one. -/
theorem subs_step {a : RegistryAct} {id : ℕ} (hs : s.step maxPerActor a = some s')
    (hid : s'.subs id = some sub) :
    s.subs id = some sub ∨ ∃ q object sinkOk call, a = .hostReady q object sinkOk
      ∧ s.calls q = some call ∧ call.pc = .gettingHost ∧ id = s.issued
      ∧ sub = ⟨s.issued, call.conn, call.actorId, ⟨call.actorId, object⟩⟩ := by
  cases a with
  | subscribe q conn className actorId =>
    rw [step, subscribe] at hs
    split at hs
    · exact absurd hs (by simp)
    split at hs
    · obtain rfl := Option.some.inj hs
      exact .inl hid
    · obtain rfl := Option.some.inj hs
      exact .inl hid
  | hostReady q object sinkOk =>
    rw [step, hostReady] at hs
    split at hs
    · next conn className actorId hq =>
      have hid' : update s.subs s.issued (some ⟨s.issued, conn, actorId, ⟨actorId, object⟩⟩) id
          = some sub := by
        dsimp only at hs
        split at hs
        · obtain rfl := Option.some.inj hs
          exact hid
        · obtain rfl := Option.some.inj hs
          exact hid
      by_cases he : id = s.issued
      · rw [he, Function.update_self] at hid'
        exact .inr ⟨q, object, sinkOk, _, rfl, hq, rfl, he, (Option.some.inj hid').symm⟩
      · exact .inl ((Function.update_of_ne he _ _).symm.trans hid')
    · exact absurd hs (by simp)
  | hostFailed q =>
    rw [step, hostFailed] at hs
    split at hs
    · obtain rfl := Option.some.inj hs
      exact .inl hid
    · exact absurd hs (by simp)
  | unsubscribe id' =>
    obtain rfl := Option.some.inj hs
    exact .inl (subs_unsubscribe hid)
  | unsubscribeConnection conn =>
    obtain rfl := Option.some.inj hs
    exact .inl (subs_foldl (subs_unsubscribeFrom conn) _ hid)
  | notifyTombstone h throwing =>
    obtain rfl := Option.some.inj hs
    exact .inl (subs_foldl (subs_deliverAt h throwing) _ hid)
  | commit h =>
    obtain rfl := Option.some.inj hs
    exact .inl hid

/-- **A subscription that finds room keeps its actor under the cap.** -/
theorem Consistent.card_step {a : RegistryAct} (h : s.Consistent)
    (hcap : ∀ actorId, (s.ofActor actorId).card ≤ maxPerActor)
    (hG : s.hasRoom maxPerActor a = true) (hs : s.step maxPerActor a = some s')
    (actorId : ActorId) : (s'.ofActor actorId).card ≤ maxPerActor := by
  have h' := h.step hs
  by_cases hnew : ∃ id sub, s'.subs id = some sub ∧ sub.actorId = actorId
      ∧ s.subs id ≠ some sub
  · obtain ⟨id, sub, hsub, hactor, hold⟩ := hnew
    obtain ⟨q, object, sinkOk, call, rfl, hq, -, -, rfl⟩ := (subs_step hs hsub).resolve_left hold
    have hroom : (s.ofActor actorId).card < maxPerActor := by
      rw [← h.length_values, ← hactor]
      simpa [hasRoom, hq] using hG
    have hins : s'.ofActor actorId ⊆ insert s.issued (s.ofActor actorId) := by
      intro id' hid'
      obtain ⟨sub', hsub', hactor'⟩ := h'.mem_ofActor.mp hid'
      rcases subs_step hs hsub' with hs' | ⟨-, -, -, -, -, -, -, rfl, -⟩
      · exact Finset.mem_insert_of_mem (h.mem_ofActor.mpr ⟨sub', hs', hactor'⟩)
      · exact Finset.mem_insert_self _ _
    calc (s'.ofActor actorId).card
        ≤ (insert s.issued (s.ofActor actorId)).card := Finset.card_le_card hins
      _ ≤ (s.ofActor actorId).card + 1 := Finset.card_insert_le _ _
      _ ≤ maxPerActor := hroom
  · refine (Finset.card_le_card (fun id hid => ?_)).trans (hcap actorId)
    obtain ⟨sub, hsub, hactor⟩ := h'.mem_ofActor.mp hid
    refine h.mem_ofActor.mpr ⟨sub, ?_, hactor⟩
    by_contra hold
    exact hnew ⟨id, sub, hsub, hactor, hold⟩

/-- **The registry is consistent.** In every run the three maps and the
listeners agree; and where there is still room for each subscription when its
host arrives, no actor has more of them than the cap. -/
theorem registry_consistent (maxPerActor : ℕ) {as : List RegistryAct}
    {s : SubscriptionRegistry}
    (hrun : TransitionSystem.run (step maxPerActor) init as = some s) :
    s.Consistent
      ∧ (TransitionSystem.Along (step maxPerActor) (fun s a => s.hasRoom maxPerActor a = true)
          init as →
        ∀ actorId, (s.ofActor actorId).card ≤ maxPerActor) := by
  constructor
  · exact TransitionSystem.run_invariant' (step maxPerActor) (fun _ _ _ h hs => h.step hs)
      .init hrun
  · intro hG
    exact (TransitionSystem.run_invariant (step maxPerActor)
      (P := fun s => s.Consistent ∧ ∀ actorId, (s.ofActor actorId).card ≤ maxPerActor)
      (fun _ _ _ h hG hs => ⟨h.1.step hs, h.1.card_step h.2 hG hs⟩)
      ⟨.init, fun _ => Nat.zero_le _⟩ hG hrun).2

/-- Two connections subscribe to the counter, one after the other is gone. -/
def oneByOne : List RegistryAct :=
  [.subscribe 0 0 "Counter" "counter-1", .hostReady 0 0 true, .unsubscribeConnection 0,
    .subscribe 1 1 "Counter" "counter-1", .hostReady 1 0 true]

/-- The other has the one subscription there is room for. -/
theorem registry_consistent_oneByOne :
    ∃ s, TransitionSystem.run (step 1) init oneByOne = some s
      ∧ s.byActor.values "counter-1" = [1] ∧ s.Consistent
      ∧ (s.ofActor "counter-1").card ≤ 1 := by
  have hrun : (TransitionSystem.run (step 1) init oneByOne).any
      (fun s => s.byActor.values "counter-1" == [1]) = true := by decide
  obtain ⟨s, hs, hval⟩ := (Option.any_eq_true _ _).mp hrun
  have h := registry_consistent 1 hs
  exact ⟨s, hs, beq_iff_eq.mp hval, h.1, h.2 (by decide) "counter-1"⟩

/-- Two connections subscribe to the counter while its host is on its way. -/
def together : List RegistryAct :=
  [.subscribe 0 0 "Counter" "counter-1", .subscribe 1 1 "Counter" "counter-1",
    .hostReady 0 0 true, .hostReady 1 0 true]

/-- **The counter has two subscribers under a cap of one.** -/
theorem not_registry_consistent :
    ¬∀ (as : List RegistryAct) (s : SubscriptionRegistry),
      TransitionSystem.run (step 1) init as = some s →
      s.Consistent ∧ ∀ actorId, (s.ofActor actorId).card ≤ 1 := by
  intro h
  have hrun : (TransitionSystem.run (step 1) init together).any
      (fun s => (s.ofActor "counter-1").card == 2) = true := by decide
  obtain ⟨s, hs, hcard⟩ := (Option.any_eq_true _ _).mp hrun
  exact absurd ((h together s hs).2 "counter-1") (by simp [beq_iff_eq.mp hcard])

end SubscriptionRegistry
