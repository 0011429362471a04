import Actjs.SubscriptionRegistry

/-!
# Connections and their subscriptions

A WebSocket subscribes as often as it likes; when it closes, the registry drops
what it has of the connection. An SSE request subscribes once, maybe after a
replay, and when it closes its handler unsubscribes the id it was given.

Neither knows of a subscription that is still on its way: where the host arrives
after the close, it is put in place for a connection that is gone, and nothing
removes it again. `Attended` is the invariant of the runs in which that does not
happen, and an SSE handler has the id of its subscription when it needs it.
-/

open Function (update)

/-- How far the handler of an SSE request has got. -/
inductive SseHandlerPc where
  /-- In `replayFromSeq`. -/
  | replaying
  /-- In `registry.subscribe`, by call `q`. -/
  | subscribing (q : ℕ)
  /-- It was given the id of its subscription. -/
  | streaming (subscriptionId : ℕ)
  /-- It was rejected, or threw. -/
  | ended

/-- The variable `subscriptionId` of the handler. -/
def SseHandlerPc.subscriptionId : SseHandlerPc → Option ℕ
  | streaming id => some id
  | _ => none

inductive Connection where
  | ws (closed : Bool)
  | sse (className : ClassName) (actorId : ActorId) (closed : Bool) (pc : SseHandlerPc)

def Connection.closed : Connection → Bool
  | ws closed => closed
  | sse _ _ closed _ => closed

/-- The connections of a server, and its registry. -/
structure Connections where
  registry : SubscriptionRegistry
  conns : ℕ → Option Connection

/-- What does not come from a connection. -/
def RegistryAct.fromRuntime : RegistryAct → Bool
  | hostReady _ _ _ => true
  | hostFailed _ => true
  | notifyTombstone _ _ => true
  | commit _ => true
  | _ => false

/-- **What can happen to the connections next.** -/
inductive ConnectionAct where
  | wsOpen (k : ℕ)
  | wsSubscribe (k q : ℕ) (className : ClassName) (actorId : ActorId)
  | wsUnsubscribe (k subscriptionId : ℕ)
  | wsClose (k : ℕ)
  /-- `replays` is whether there is a `Last-Event-ID`. -/
  | sseOpen (k q : ℕ) (className : ClassName) (actorId : ActorId) (replays : Bool)
  | sseReplayed (k q : ℕ) (ok : Bool)
  | sseResume (k : ℕ)
  | sseClose (k : ℕ)
  | registry (a : RegistryAct)

namespace Connections

def init : Connections := ⟨.init, fun _ => none⟩

def setConn (c : Connections) (k : ℕ) (conn : Connection) : Connections :=
  { c with conns := update c.conns k (some conn) }

/-- The handler of an SSE request calls `registry.subscribe`. -/
def sseSubscribe (maxPerActor : ℕ) (c : Connections) (k q : ℕ) (className : ClassName)
    (actorId : ActorId) (closed : Bool) : Option Connections :=
  (c.registry.subscribe maxPerActor q k className actorId).map (fun registry =>
    { c with registry := registry }.setConn k
      (.sse className actorId closed (.subscribing q)))

/-- `cleanup`, of an SSE request. -/
def cleanup (c : Connections) (pc : SseHandlerPc) : Connections :=
  match pc.subscriptionId with
  | none => c
  | some id => { c with registry := (c.registry.unsubscribe id).2 }

/-- The handler of an SSE request goes on after `registry.subscribe`. -/
def sseResume (c : Connections) (k : ℕ) : Option Connections :=
  match c.conns k with
  | some (.sse className actorId closed (.subscribing q)) =>
    match (c.registry.calls q).map SubscribeCall.pc with
    | some (.subscribed id) =>
      some (c.setConn k (.sse className actorId closed (.streaming id)))
    | some (.rejected _) =>
      some ((c.cleanup (.subscribing q)).setConn k (.sse className actorId closed .ended))
    | _ => none
  | _ => none

def step (maxPerActor : ℕ) (c : Connections) : ConnectionAct → Option Connections
  | .wsOpen k => if (c.conns k).isSome = true then none else some (c.setConn k (.ws false))
  | .wsSubscribe k q className actorId =>
    match c.conns k with
    | some (.ws false) =>
      (c.registry.subscribe maxPerActor q k className actorId).map
        (fun registry => { c with registry := registry })
    | _ => none
  | .wsUnsubscribe k subscriptionId =>
    match c.conns k with
    | some (.ws false) =>
      some { c with registry := (c.registry.unsubscribe subscriptionId).2 }
    | _ => none
  | .wsClose k =>
    match c.conns k with
    | some (.ws false) =>
      some ({ c with registry := c.registry.unsubscribeConnection k }.setConn k (.ws true))
    | _ => none
  | .sseOpen k q className actorId replays =>
    if (c.conns k).isSome = true then none
    else if replays = true then some (c.setConn k (.sse className actorId false .replaying))
    else c.sseSubscribe maxPerActor k q className actorId false
  | .sseReplayed k q ok =>
    match c.conns k with
    | some (.sse className actorId closed .replaying) =>
      if ok = true then c.sseSubscribe maxPerActor k q className actorId closed
      else some (c.setConn k (.sse className actorId closed .ended))
    | _ => none
  | .sseResume k => c.sseResume k
  | .sseClose k =>
    match c.conns k with
    | some (.sse className actorId _ pc) =>
      some ((c.cleanup pc).setConn k (.sse className actorId true pc))
    | _ => none
  | .registry a =>
    if a.fromRuntime = true then
      (c.registry.step maxPerActor a).map (fun registry => { c with registry := registry })
    else none

/-- The requests of the connection have settled. -/
structure Settled (c : Connections) (k : ℕ) : Prop where
  calls : ∀ q call, c.registry.calls q = some call → call.conn = k → call.pc ≠ .gettingHost
  handler : ∀ className actorId closed pc, c.conns k = some (.sse className actorId closed pc) →
    pc ≠ .replaying ∧ ∀ q, pc ≠ .subscribing q

/-- **There is nothing left of the connection**, in the registry or on a host. -/
structure Cleared (c : Connections) (k : ℕ) : Prop where
  subs : ∀ id sub, c.registry.subs id = some sub → sub.conn ≠ k
  listeners : ∀ h sub, sub ∈ c.registry.commitListeners h → sub.conn ≠ k

/-- The connection is there to be told of its subscription: it is open, and an SSE
request is given the snapshot. -/
def receives (c : Connections) (k : ℕ) (sinkOk : Bool) : Bool :=
  match c.conns k with
  | some (.ws closed) => !closed
  | some (.sse _ _ closed _) => !closed && sinkOk
  | none => false

/-- **A connection knows of its subscriptions when it closes**: a host arrives
while the connection that awaits it is there, and an SSE request does not close
before its handler has gone on with the id of its subscription. -/
def attends (c : Connections) : ConnectionAct → Bool
  | .registry (.hostReady q _ sinkOk) =>
    (c.registry.calls q).all (fun call => c.receives call.conn sinkOk)
  | .sseClose k =>
    match c.conns k with
    | some (.sse _ _ _ (.subscribing q)) =>
      (c.registry.calls q).all (fun call =>
        match call.pc with
        | .subscribed _ => false
        | _ => true)
    | _ => true
  | _ => true

end Connections

/-- The connection is open, and will see to the subscription when it closes. -/
def Connection.Attends (conn : Connection) (calls : ℕ → Option SubscribeCall) (id : ℕ) : Prop :=
  match conn with
  | .ws closed => closed = false
  | .sse _ _ closed pc => closed = false ∧ (pc = .streaming id
    ∨ ∃ q call, pc = .subscribing q ∧ calls q = some call ∧ call.pc = .subscribed id)

/-- The connection awaits the call. -/
def Connection.Awaits (conn : Connection) (q : ℕ) : Prop :=
  match conn with
  | .ws _ => True
  | .sse _ _ _ pc => pc = .subscribing q

namespace SubscriptionRegistry

variable {maxPerActor : ℕ} {s s' : SubscriptionRegistry} {sub : Subscription}

theorem subs_unsubscribe_self (h : s.Consistent) (id : ℕ) :
    (s.unsubscribe id).2.subs id = none := by
  cases hs : s.subs id with
  | none => rw [unsubscribe, hs, hs]
  | some sub =>
    rw [unsubscribe, hs]
    show update s.subs sub.id none id = none
    rw [(h.named id sub hs).1, Function.update_self]

/-- A subscription that is left once its connection was gone through is of another
connection. -/
theorem subs_unsubscribeConnection (h : s.Consistent) {conn id : ℕ}
    (hs : (s.unsubscribeConnection conn).subs id = some sub) :
    s.subs id = some sub ∧ sub.conn ≠ conn := by
  have hold := subs_foldl (subs_unsubscribeFrom conn) _ hs
  refine ⟨hold, fun hconn => ?_⟩
  -- what is left of a list of ids is not on it
  have hleft : ∀ (ids : List ℕ) (s : SubscriptionRegistry), s.Consistent →
      (ids.foldl (unsubscribeFrom conn) s).subs id = some sub → id ∉ ids := by
    intro ids
    induction ids with
    | nil => exact fun _ _ _ => List.not_mem_nil
    | cons x xs ih =>
      intro s h hs
      have hx : (s.unsubscribeFrom conn x).Consistent := by
        unfold unsubscribeFrom
        split
        · exact h.unsubscribe x
        · exact h
      have hsub := subs_foldl (subs_unsubscribeFrom conn) xs hs
      refine List.not_mem_cons_of_ne_of_not_mem ?_ (ih _ hx hs)
      rintro rfl
      have hmem : id ∈ s.byConnection.values conn :=
        (h.byConnection.mem _ _).mpr ⟨sub, subs_unsubscribeFrom conn s id id sub hsub, hconn⟩
      rw [unsubscribeFrom, if_pos hmem, subs_unsubscribe_self h] at hsub
      exact absurd hsub (by simp)
  exact hleft _ s h hs ((h.byConnection.mem _ _).mpr ⟨sub, hold, hconn⟩)

theorem calls_unsubscribe (s : SubscriptionRegistry) (id : ℕ) :
    (s.unsubscribe id).2.calls = s.calls := by
  unfold unsubscribe
  split <;> rfl

theorem calls_foldl {α : Type} {f : SubscriptionRegistry → α → SubscriptionRegistry}
    (hf : ∀ s x, (f s x).calls = s.calls) (xs : List α) (s : SubscriptionRegistry) :
    (xs.foldl f s).calls = s.calls := by
  induction xs generalizing s with
  | nil => rfl
  | cons x xs ih => exact (ih (f s x)).trans (hf s x)

theorem calls_unsubscribeConnection (s : SubscriptionRegistry) (conn : ℕ) :
    (s.unsubscribeConnection conn).calls = s.calls := by
  refine calls_foldl (fun s x => ?_) _ s
  unfold unsubscribeFrom
  split
  · exact calls_unsubscribe s x
  · rfl

theorem calls_notifyTombstone (s : SubscriptionRegistry) (h : HostRef) (throwing : List ℕ) :
    (s.notifyTombstone h throwing).calls = s.calls := by
  refine calls_foldl (fun s x => ?_) _ s
  unfold deliverAt
  split <;> rfl

theorem subscribe_eq {q conn : ℕ} {className : ClassName} {actorId : ActorId}
    (hs : s.subscribe maxPerActor q conn className actorId = some s') :
    s.calls q = none ∧ ∃ pc, s' = s.setCall q ⟨conn, className, actorId, pc⟩
      ∧ ∀ id, pc ≠ .subscribed id := by
  unfold subscribe at hs
  split at hs
  · exact absurd hs (by simp)
  next hq =>
  refine ⟨Option.not_isSome_iff_eq_none.mp hq, ?_⟩
  split at hs
  · exact ⟨_, (Option.some.inj hs).symm, by simp⟩
  · exact ⟨_, (Option.some.inj hs).symm, by simp⟩

theorem hostReady_eq {q object : ℕ} {sinkOk : Bool}
    (hs : s.hostReady q object sinkOk = some s') :
    ∃ conn className actorId pc, s.calls q = some ⟨conn, className, actorId, .gettingHost⟩
      ∧ s'.subs = update s.subs s.issued
          (some ⟨s.issued, conn, actorId, ⟨actorId, object⟩⟩)
      ∧ s'.calls = update s.calls q (some ⟨conn, className, actorId, pc⟩)
      ∧ pc ≠ .gettingHost ∧ (sinkOk = true → pc = .subscribed s.issued) := by
  unfold hostReady at hs
  split at hs
  · next conn className actorId hq =>
    dsimp only at hs
    split at hs
    · obtain rfl := Option.some.inj hs
      exact ⟨conn, className, actorId, _, hq, rfl, rfl, by simp, fun _ => rfl⟩
    · next hsink =>
      obtain rfl := Option.some.inj hs
      exact ⟨conn, className, actorId, _, hq, rfl, rfl, by simp, fun h => absurd h hsink⟩
  · exact absurd hs (by simp)

end SubscriptionRegistry

variable {maxPerActor : ℕ} {c c' : Connections} {conn : Connection}

/-- What another call comes to is nothing to it. -/
theorem Connection.Attends.setCall {calls : ℕ → Option SubscribeCall} {q id : ℕ}
    {call : Option SubscribeCall} (h : conn.Attends calls id)
    (hq : ∀ call, calls q = some call → call.pc ≠ .subscribed id) :
    conn.Attends (update calls q call) id := by
  cases conn with
  | ws closed => exact h
  | sse className actorId closed pc =>
    refine ⟨h.1, h.2.imp (fun hpc => hpc) ?_⟩
    rintro ⟨q', call', hpc, hq', hcall⟩
    refine ⟨q', call', hpc, ?_, hcall⟩
    by_cases he : q' = q
    · exact absurd hcall (hq call' (he ▸ hq'))
    · rw [Function.update_of_ne he]
      exact hq'

namespace Connections

/-- **What the runs keep to.** -/
structure Attended (c : Connections) : Prop where
  consistent : c.registry.Consistent
  subs : ∀ id sub, c.registry.subs id = some sub →
    ∃ conn, c.conns sub.conn = some conn ∧ conn.Attends c.registry.calls id
  calls : ∀ q call, c.registry.calls q = some call → call.pc = .gettingHost →
    ∃ conn, c.conns call.conn = some conn ∧ conn.Awaits q

namespace Attended

theorem init : Attended Connections.init where
  consistent := .init
  subs id sub h := absurd h (by simp [Connections.init, SubscriptionRegistry.init])
  calls q call h := absurd h (by simp [Connections.init, SubscriptionRegistry.init])

/-- Subscriptions go. -/
theorem drop {registry : SubscriptionRegistry} (h : c.Attended) (hr : registry.Consistent)
    (hsubs : ∀ id sub, registry.subs id = some sub → c.registry.subs id = some sub)
    (hcalls : registry.calls = c.registry.calls) :
    Attended { c with registry := registry } where
  consistent := hr
  subs id sub hsub := by
    rw [hcalls]
    exact h.subs id sub (hsubs id sub hsub)
  calls q call hq := h.calls q call (hcalls ▸ hq)

/-- A connection moves. -/
theorem setConn {k : ℕ} (h : c.Attended)
    (hsubs : ∀ id sub, c.registry.subs id = some sub → sub.conn = k →
      conn.Attends c.registry.calls id)
    (hcalls : ∀ q call, c.registry.calls q = some call → call.pc = .gettingHost →
      call.conn = k → conn.Awaits q) : (c.setConn k conn).Attended where
  consistent := h.consistent
  subs id sub hsub := by
    by_cases hk : sub.conn = k
    · exact ⟨conn, hk ▸ Function.update_self _ _ _, hsubs id sub hsub hk⟩
    · obtain ⟨conn', hconn, ha⟩ := h.subs id sub hsub
      exact ⟨conn', (Function.update_of_ne hk _ _).trans hconn, ha⟩
  calls q call hq hpc := by
    by_cases hk : call.conn = k
    · exact ⟨conn, hk ▸ Function.update_self _ _ _, hcalls q call hq hpc hk⟩
    · obtain ⟨conn', hconn, ha⟩ := h.calls q call hq hpc
      exact ⟨conn', (Function.update_of_ne hk _ _).trans hconn, ha⟩

/-- A connection moves that awaits nothing and has no subscription. -/
theorem setConn_new {k : ℕ} (h : c.Attended)
    (hnew : ∀ conn, c.conns k = some conn → ∀ q id, ¬conn.Awaits q
      ∧ ¬conn.Attends c.registry.calls id) : (c.setConn k conn).Attended := by
  refine h.setConn (fun id sub hsub hk => ?_) (fun q call hq hpc hk => ?_)
  · obtain ⟨conn', hconn, ha⟩ := h.subs id sub hsub
    exact absurd ha (hnew conn' (hk ▸ hconn) 0 id).2
  · obtain ⟨conn', hconn, ha⟩ := h.calls q call hq hpc
    exact absurd ha (hnew conn' (hk ▸ hconn) q 0).1

/-- A call is made, for a connection that awaits it. -/
theorem subscribe {registry : SubscriptionRegistry} {k q : ℕ} {className : ClassName}
    {actorId : ActorId} (h : c.Attended)
    (hs : c.registry.subscribe maxPerActor q k className actorId = some registry)
    (hk : c.conns k = some conn) (ha : conn.Awaits q) :
    Attended { c with registry := registry } := by
  have hr := h.consistent.step (a := .subscribe q k className actorId) hs
  obtain ⟨hq, pc, rfl, -⟩ := SubscriptionRegistry.subscribe_eq hs
  refine ⟨hr, fun id sub hsub => ?_, fun q' call hq' hpc => ?_⟩
  · obtain ⟨conn', hconn, ha'⟩ := h.subs id sub hsub
    exact ⟨conn', hconn, ha'.setCall (fun call hc => absurd hc (by simp [hq]))⟩
  · have hq' : update c.registry.calls q (some ⟨k, className, actorId, pc⟩) q' = some call := hq'
    by_cases he : q' = q
    · rw [he, Function.update_self] at hq'
      obtain rfl := Option.some.inj hq'
      exact ⟨conn, hk, he ▸ ha⟩
    · exact h.calls q' call ((Function.update_of_ne he _ _).symm.trans hq') hpc

/-- A host has arrived, and its connection receives it. -/
theorem hostReady {registry : SubscriptionRegistry} {q object : ℕ} {sinkOk : Bool}
    (h : c.Attended) (hG : c.attends (.registry (.hostReady q object sinkOk)) = true)
    (hs : c.registry.hostReady q object sinkOk = some registry) :
    Attended { c with registry := registry } := by
  have hr : registry.Consistent := by
    have hs : c.registry.step 0 (.hostReady q object sinkOk) = some registry := hs
    exact h.consistent.step hs
  obtain ⟨k, className, actorId, pc, hq, hsubs, hcalls, hpc, hsub⟩ :=
    SubscriptionRegistry.hostReady_eq hs
  have hG : c.receives k sinkOk = true := by simpa [attends, hq] using hG
  obtain ⟨conn, hconn, ha⟩ := h.calls q _ hq rfl
  have hother : ∀ id call, c.registry.calls q = some call → call.pc ≠ .subscribed id := by
    intro id call hc
    obtain rfl := Option.some.inj (hq.symm.trans hc)
    simp
  refine ⟨hr, fun id sub hid => ?_, fun q' call hq' hpc' => ?_⟩
  · rw [hsubs] at hid
    rw [hcalls]
    by_cases he : id = c.registry.issued
    · rw [he, Function.update_self] at hid
      obtain rfl := Option.some.inj hid
      refine ⟨conn, hconn, ?_⟩
      cases conn with
      | ws closed =>
        show closed = false
        simpa [receives, hconn] using hG
      | sse className' actorId' closed pc' =>
        obtain ⟨hopen, hok⟩ : closed = false ∧ sinkOk = true := by
          simpa [receives, hconn] using hG
        exact ⟨hopen, .inr ⟨q, _, ha, Function.update_self _ _ _, he ▸ hsub hok⟩⟩
    · obtain ⟨conn', hconn', ha'⟩ :=
        h.subs id sub ((Function.update_of_ne he _ _).symm.trans hid)
      exact ⟨conn', hconn', ha'.setCall (hother id)⟩
  · rw [hcalls] at hq'
    by_cases he : q' = q
    · rw [he, Function.update_self] at hq'
      exact absurd hpc' (Option.some.inj hq' ▸ hpc)
    · exact h.calls q' call ((Function.update_of_ne he _ _).symm.trans hq') hpc'

/-- No host arrives. -/
theorem hostFailed {registry : SubscriptionRegistry} {q : ℕ} (h : c.Attended)
    (hs : c.registry.hostFailed q = some registry) :
    Attended { c with registry := registry } := by
  have hr : registry.Consistent := by
    have hs : c.registry.step 0 (.hostFailed q) = some registry := hs
    exact h.consistent.step hs
  unfold SubscriptionRegistry.hostFailed at hs
  split at hs
  · next k className actorId hq =>
    obtain rfl := Option.some.inj hs
    refine ⟨hr, fun id sub hid => ?_, fun q' call hq' hpc => ?_⟩
    · obtain ⟨conn, hconn, ha⟩ := h.subs id sub hid
      refine ⟨conn, hconn, ha.setCall (fun call hc hpc => ?_)⟩
      obtain rfl := Option.some.inj (hq.symm.trans hc)
      exact absurd hpc (by simp)
    · have hq' : update c.registry.calls q (some ⟨k, className, actorId, .rejected .host⟩) q'
          = some call := hq'
      by_cases he : q' = q
      · rw [he, Function.update_self] at hq'
        exact absurd hpc (Option.some.inj hq' ▸ by simp)
      · exact h.calls q' call ((Function.update_of_ne he _ _).symm.trans hq') hpc
  · exact absurd hs (by simp)

/-- An SSE request comes to subscribe. -/
theorem sseSubscribe {k q : ℕ} {className : ClassName} {actorId : ActorId} {closed : Bool}
    (h : c.Attended)
    (hnew : ∀ conn, c.conns k = some conn → ∀ q id, ¬conn.Awaits q
      ∧ ¬conn.Attends c.registry.calls id)
    (hs : c.sseSubscribe maxPerActor k q className actorId closed = some c') :
    c'.Attended := by
  obtain ⟨registry, hcall, rfl⟩ := Option.map_eq_some_iff.mp hs
  let conn : Connection := .sse className actorId closed (.subscribing q)
  have hconn : (c.setConn k conn).conns k = some conn := Function.update_self _ _ _
  exact (h.setConn_new hnew).subscribe hcall hconn rfl

/-- A handler that replays, or awaits nothing, has no subscription. -/
theorem not_sse {className : ClassName} {actorId : ActorId} {closed : Bool} {pc : SseHandlerPc}
    {calls : ℕ → Option SubscribeCall} (hid : pc.subscriptionId = none)
    (hpc : ∀ q, pc ≠ .subscribing q) (q id : ℕ) :
    ¬(Connection.sse className actorId closed pc).Awaits q
      ∧ ¬(Connection.sse className actorId closed pc).Attends calls id := by
  refine ⟨hpc q, ?_⟩
  rintro ⟨-, rfl | ⟨q', -, rfl, -⟩⟩
  · exact absurd hid (by simp [SseHandlerPc.subscriptionId])
  · exact absurd rfl (hpc q')

/-- A handler goes on with the id of its subscription. -/
theorem sseResume {k : ℕ} (h : c.Attended) (hs : c.sseResume k = some c') : c'.Attended := by
  unfold Connections.sseResume at hs
  split at hs
  · next className actorId closed q hk =>
    -- whatever is known of the connection is known through its call
    have hconn : ∀ {conn}, c.conns k = some conn →
        conn = .sse className actorId closed (.subscribing q) :=
      fun hc => Option.some.inj (hc.symm.trans hk)
    have hawaits : ∀ {q'}, (Connection.sse className actorId closed (.subscribing q)).Awaits q' →
        q = q' := fun ha => SseHandlerPc.subscribing.inj ha
    have hpending : ∀ {pc}, (c.registry.calls q).map SubscribeCall.pc = some pc →
        pc ≠ .gettingHost → ∀ q' call, c.registry.calls q' = some call →
        call.pc = .gettingHost → call.conn ≠ k := by
      rintro pc hpc hne q' call hq' hcall rfl
      obtain ⟨conn, hc, ha⟩ := h.calls q' call hq' hcall
      rw [hconn hc] at ha
      rw [hawaits ha, hq', Option.map_some] at hpc
      exact hne (hcall ▸ (Option.some.inj hpc).symm)
    have hattends : ∀ {id sub}, c.registry.subs id = some sub → sub.conn = k →
        closed = false ∧ (c.registry.calls q).map SubscribeCall.pc = some (.subscribed id) := by
      rintro id sub hsub rfl
      obtain ⟨conn, hc, ha⟩ := h.subs id sub hsub
      rw [hconn hc] at ha
      obtain ⟨hopen, hpc | ⟨q', call, hpc, hq', hcall⟩⟩ := ha
      · exact absurd hpc (by simp)
      · rw [SseHandlerPc.subscribing.inj hpc, hq', Option.map_some, hcall]
        exact ⟨hopen, rfl⟩
    split at hs
    · next id hpc =>
      obtain rfl := Option.some.inj hs
      refine h.setConn (fun id' sub hsub hk' => ?_) (fun q' call hq' hcall hk' =>
        absurd hk' (hpending hpc (by simp) q' call hq' hcall))
      obtain ⟨hopen, hpc'⟩ := hattends hsub hk'
      refine ⟨hopen, .inl ?_⟩
      rw [SubscribePc.subscribed.inj (Option.some.inj (hpc.symm.trans hpc'))]
    · next e hpc =>
      obtain rfl := Option.some.inj hs
      refine h.setConn (fun id' sub hsub hk' => ?_) (fun q' call hq' hcall hk' =>
        absurd hk' (hpending hpc (by simp) q' call hq' hcall))
      exact absurd (hpc.symm.trans (hattends hsub hk').2) (by simp)
    · exact absurd hs (by simp)
  · exact absurd hs (by simp)

/-- A connection closes, and its subscriptions with it. -/
theorem close {k : ℕ} {registry : SubscriptionRegistry} (h : c.Attended)
    (hr : registry.Consistent) (hcalls : registry.calls = c.registry.calls)
    (hsubs : ∀ id sub, registry.subs id = some sub →
      c.registry.subs id = some sub ∧ sub.conn ≠ k)
    (ha : ∀ conn', c.conns k = some conn' → ∀ q, conn'.Awaits q → conn.Awaits q) :
    Attended ({ c with registry := registry }.setConn k conn) := by
  refine (h.drop hr (fun id sub hsub => (hsubs id sub hsub).1) hcalls).setConn
    (fun id sub hsub hk => absurd hk (hsubs id sub hsub).2) (fun q call hq hpc hk => ?_)
  obtain ⟨conn', hconn, ha'⟩ := h.calls q call (hcalls ▸ hq) hpc
  exact ha conn' (hk ▸ hconn) q ha'

/-- **Every step taken under the condition keeps to it.** -/
theorem step {a : ConnectionAct} (h : c.Attended) (hG : c.attends a = true)
    (hs : c.step maxPerActor a = some c') : c'.Attended := by
  cases a with
  | wsOpen k =>
    rw [Connections.step] at hs
    split at hs
    · exact absurd hs (by simp)
    · next hk =>
      obtain rfl := Option.some.inj hs
      exact h.setConn_new (fun conn hc => absurd hc (by
        simp [Option.not_isSome_iff_eq_none.mp hk]))
  | wsSubscribe k q className actorId =>
    rw [Connections.step] at hs
    split at hs
    · next hk =>
      obtain ⟨registry, hcall, rfl⟩ := Option.map_eq_some_iff.mp hs
      exact h.subscribe hcall hk trivial
    · exact absurd hs (by simp)
  | wsUnsubscribe k id =>
    rw [Connections.step] at hs
    split at hs
    · obtain rfl := Option.some.inj hs
      exact h.drop (h.consistent.unsubscribe id)
        (fun id sub => SubscriptionRegistry.subs_unsubscribe)
        (SubscriptionRegistry.calls_unsubscribe _ id)
    · exact absurd hs (by simp)
  | wsClose k =>
    rw [Connections.step] at hs
    split at hs
    · obtain rfl := Option.some.inj hs
      exact h.close (h.consistent.unsubscribeConnection k)
        (SubscriptionRegistry.calls_unsubscribeConnection _ k)
        (fun id sub => SubscriptionRegistry.subs_unsubscribeConnection h.consistent)
        (fun _ _ _ _ => trivial)
    · exact absurd hs (by simp)
  | sseOpen k q className actorId replays =>
    rw [Connections.step] at hs
    split at hs
    · exact absurd hs (by simp)
    next hk =>
    have hnone := Option.not_isSome_iff_eq_none.mp hk
    split at hs
    · obtain rfl := Option.some.inj hs
      exact h.setConn_new (fun conn hc => absurd hc (by simp [hnone]))
    · exact h.sseSubscribe (fun conn hc => absurd hc (by simp [hnone])) hs
  | sseReplayed k q ok =>
    rw [Connections.step] at hs
    split at hs
    · next className actorId closed hk =>
      have hnew : ∀ conn, c.conns k = some conn → ∀ q id, ¬conn.Awaits q
          ∧ ¬conn.Attends c.registry.calls id := by
        intro conn hc
        obtain rfl := Option.some.inj (hk.symm.trans hc)
        exact not_sse rfl (by simp)
      split at hs
      · exact h.sseSubscribe hnew hs
      · obtain rfl := Option.some.inj hs
        exact h.setConn_new hnew
    · exact absurd hs (by simp)
  | sseResume k => exact h.sseResume hs
  | sseClose k =>
    rw [Connections.step] at hs
    split at hs
    · next className actorId closed pc hk =>
      obtain rfl := Option.some.inj hs
      have hattends : ∀ {id sub}, c.registry.subs id = some sub → sub.conn = k →
          pc = .streaming id := by
        rintro id sub hsub rfl
        obtain ⟨conn, hc, ha⟩ := h.subs id sub hsub
        obtain rfl := Option.some.inj (hk.symm.trans hc)
        obtain ⟨-, hpc | ⟨q, call, rfl, hq, hcall⟩⟩ := ha
        · exact hpc
        · exact absurd hG (by simp [attends, hk, hq, hcall])
      have hawaits : ∀ conn, c.conns k = some conn → ∀ q, conn.Awaits q →
          (Connection.sse className actorId true pc).Awaits q := by
        intro conn hc q ha
        obtain rfl := Option.some.inj (hk.symm.trans hc)
        exact ha
      have hkept : ∀ id sub, pc.subscriptionId = none → c.registry.subs id = some sub →
          c.registry.subs id = some sub ∧ sub.conn ≠ k := by
        refine fun id sub hn hsub => ⟨hsub, fun hk' => ?_⟩
        rw [hattends hsub hk'] at hn
        exact absurd hn (by simp [SseHandlerPc.subscriptionId])
      cases pc with
      | streaming id =>
        refine h.close (h.consistent.unsubscribe id)
          (SubscriptionRegistry.calls_unsubscribe _ id) (fun id' sub hsub => ?_) hawaits
        have hold := SubscriptionRegistry.subs_unsubscribe hsub
        refine ⟨hold, fun hk' => ?_⟩
        rw [← SseHandlerPc.streaming.inj (hattends hold hk'),
          SubscriptionRegistry.subs_unsubscribe_self h.consistent] at hsub
        exact absurd hsub (by simp)
      | replaying => exact h.close h.consistent rfl (fun id sub => hkept id sub rfl) hawaits
      | subscribing q => exact h.close h.consistent rfl (fun id sub => hkept id sub rfl) hawaits
      | ended => exact h.close h.consistent rfl (fun id sub => hkept id sub rfl) hawaits
    · exact absurd hs (by simp)
  | registry a =>
    rw [Connections.step] at hs
    split at hs
    · next ha =>
      obtain ⟨registry, hstep, rfl⟩ := Option.map_eq_some_iff.mp hs
      cases a with
      | hostReady q object sinkOk => exact h.hostReady hG hstep
      | hostFailed q => exact h.hostFailed hstep
      | notifyTombstone hr throwing =>
        obtain rfl := Option.some.inj hstep
        exact h.drop (h.consistent.notifyTombstone hr throwing)
          (fun id sub => SubscriptionRegistry.subs_foldl
            (SubscriptionRegistry.subs_deliverAt hr throwing) _)
          (SubscriptionRegistry.calls_notifyTombstone _ hr throwing)
      | commit hr =>
        obtain rfl := Option.some.inj hstep
        exact h.drop (h.consistent.frame rfl rfl rfl rfl rfl) (fun id sub hsub => hsub) rfl
      | _ => exact absurd ha (by simp [RegistryAct.fromRuntime])
    · exact absurd hs (by simp)

end Attended

/-- **No subscription outlives its connection.** Where every connection knows of its
subscriptions when it closes, there is nothing left of a connection that has
closed. -/
theorem no_orphans (maxPerActor : ℕ) {as : List ConnectionAct} {c : Connections}
    (hG : TransitionSystem.Along (step maxPerActor) (fun c a => c.attends a = true) init as)
    (hrun : TransitionSystem.run (step maxPerActor) init as = some c) {k : ℕ}
    {conn : Connection} (hk : c.conns k = some conn) (hclosed : conn.closed = true) :
    c.Cleared k := by
  have h : c.Attended := TransitionSystem.run_invariant (step maxPerActor)
    (fun _ _ _ h hG hs => h.step hG hs) .init hG hrun
  have hsubs : ∀ id sub, c.registry.subs id = some sub → sub.conn ≠ k := by
    rintro id sub hsub rfl
    obtain ⟨conn', hconn, ha⟩ := h.subs id sub hsub
    obtain rfl := Option.some.inj (hk.symm.trans hconn)
    cases conn with
    | ws closed => exact absurd hclosed (by simp [Connection.closed, show closed = false from ha])
    | sse className actorId closed pc => exact absurd hclosed (by simp [Connection.closed, ha.1])
  exact ⟨hsubs, fun h' sub hl => hsubs sub.id sub ((h.consistent.listeners h' sub).mp hl).1⟩

/-- A socket and an SSE request subscribe to the counter, and close. -/
def subscribedAndClosed : List ConnectionAct :=
  [.wsOpen 0, .wsSubscribe 0 0 "Counter" "counter-1", .registry (.hostReady 0 0 true),
    .sseOpen 1 1 "Counter" "counter-1" false, .registry (.hostReady 1 0 true), .sseResume 1,
    .wsClose 0, .sseClose 1]

/-- Nothing is left of either. -/
theorem no_orphans_subscribedAndClosed :
    ∃ c, TransitionSystem.run (step 1000) init subscribedAndClosed = some c
      ∧ c.registry.issued = 2 ∧ c.Cleared 0 ∧ c.Cleared 1 := by
  have hG : TransitionSystem.Along (step 1000) (fun c a => c.attends a = true) init
      subscribedAndClosed := by decide
  exact ⟨_, rfl, rfl, no_orphans 1000 hG rfl rfl rfl, no_orphans 1000 hG rfl rfl rfl⟩

/-- A socket subscribes to the counter, and closes before its host is there. -/
def closedTooEarly : List ConnectionAct :=
  [.wsOpen 0, .wsSubscribe 0 0 "Counter" "counter-1", .wsClose 0,
    .registry (.hostReady 0 0 true)]

/-- **The socket has a subscription** once it is closed and its request has settled. -/
theorem not_no_orphans :
    ¬∀ (as : List ConnectionAct) (c : Connections),
      TransitionSystem.run (step 1000) init as = some c →
      ∀ k conn, c.conns k = some conn → conn.closed = true → c.Settled k → c.Cleared k := by
  intro h
  refine (h closedTooEarly _ rfl 0 (.ws true) rfl rfl ⟨?_, ?_⟩).subs 0
    ⟨0, 0, "counter-1", ⟨"counter-1", 0⟩⟩ rfl rfl
  · intro q call hq hconn
    by_cases he : q = 0
    · subst he
      obtain rfl : (⟨0, "Counter", "counter-1", .subscribed 0⟩ : SubscribeCall) = call :=
        Option.some.inj hq
      simp
    · have hq : update (update (fun _ => none) 0 (some (⟨0, "Counter", "counter-1",
          .gettingHost⟩ : SubscribeCall))) 0 (some ⟨0, "Counter", "counter-1", .subscribed 0⟩) q
          = some call := hq
      rw [Function.update_of_ne he, Function.update_of_ne he] at hq
      exact absurd hq (by simp)
  · intro className actorId closed pc hk
    have hk : some (Connection.ws true) = some (.sse className actorId closed pc) := hk
    exact absurd hk (by simp)

end Connections
