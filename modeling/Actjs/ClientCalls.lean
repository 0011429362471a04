import Actjs.ClientRpc
import Actjs.Storage

/-!
# The calls of a client

`call` makes one request. When the transport is not open it may store the call in the
offline queue first, and it removes it from there when the request has settled, in
whatever way. Every open, once the subscriptions are made again, drains the queue: it
makes a request for each entry, one after the other.

A call in the queue may have its own request under way when the queue is drained, and
one that is requested while the transport is not open is held by it and kept by the
RPC client. `Client.sentOnce` is about the runs in which neither happens.

The backend keeps the entries in the order of their insertion, as the one in memory
does, and an operation takes effect when it is called. What `onMutationFailed` is told
is left out.
-/

open Function (update)

/-- A call, as the offline queue stores it. -/
structure QueuedCall where
  idempotencyKey : String
  className : ClassName
  actorId : ActorId
  method : String
  args : Json
  /-- Which `call()` it is of. -/
  number : ℕ

/-- How the promise of a request settles: with the response, or by an error that is not
an `RpcError`. -/
inductive Outcome where
  | answered (answer : RpcAnswer Json)
  | failed

/-- `RETRYABLE_FRAMEWORK_CODES`. -/
def retryableFrameworkCodes : List String := ["MailboxFull", "SubscriberLimit"]

namespace Outcome

/-- `isPermanentFailure`. -/
def isPermanentFailure : Outcome → Bool
  | answered (.error (some code)) => code != "" && !retryableFrameworkCodes.contains code
  | _ => false

/-- The server answered with success, or with a permanent failure. -/
def conclusive : Outcome → Bool
  | answered (.result _) => true
  | outcome => outcome.isPermanentFailure

end Outcome

/-- How far a `call()` has got. -/
inductive ClientCallPc where
  /-- In `offlineQueue.enqueue`. -/
  | enqueuing
  | enqueued
  | requested (id : ℕ)
  | settled (outcome : Outcome)

/-- A `call()` that has not returned. -/
structure ClientCall where
  call : QueuedCall
  pc : ClientCallPc

/-- How far a `drainOfflineQueue` has got: what is left of the list, beside the entry it
has requested. -/
inductive DrainPc where
  | next (rest : List QueuedCall)
  | requested (id : ℕ) (call : QueuedCall) (rest : List QueuedCall)
  | settled (outcome : Outcome) (call : QueuedCall) (rest : List QueuedCall)

/-- **A client**, as far as its calls go. -/
structure Client where
  rpc : Rpc (Option QueuedCall) Json
  offlineQueue : List QueuedCall
  calls : ℕ → Option ClientCall
  /-- The number of the next call. -/
  nextCall : ℕ
  /-- How many runs of `handleOpen` have the subscriptions to make again. -/
  resubscribing : ℕ
  drains : ℕ → Option DrainPc
  /-- How many drains there have been. -/
  drained : ℕ
  destroyed : Bool

/-- **What can happen to the calls next.** `accepts` is whether the socket takes what
is sent to it. -/
inductive ClientAct where
  | call (idempotencyKey : String) (className : ClassName) (actorId : ActorId)
      (method : String) (args : Json) (enqueueWhenOffline accepts : Bool)
  | enqueue (k : ℕ)
  | proceed (k : ℕ) (accepts : Bool)
  /-- A request for something else, such as a subscription. -/
  | other (accepts : Bool)
  | opens (held again : ℕ)
  | closes (clean : Bool)
  | reconnect
  | ingest (id : ℕ) (answer : RpcAnswer Json)
  /-- A `call()` goes on once its request has settled. -/
  | resume (k : ℕ)
  /-- `handleOpen` comes to `drainOfflineQueue`. -/
  | drain
  | drainNext (d : ℕ) (accepts : Bool)
  | drainResume (d : ℕ)
  /-- `close()`. -/
  | close

/-- The promise of the request settles. -/
def ClientCallPc.settle (id : ℕ) (outcome : Outcome) : ClientCallPc → ClientCallPc
  | requested i => if i = id then settled outcome else requested i
  | pc => pc

def DrainPc.settle (id : ℕ) (outcome : Outcome) : DrainPc → DrainPc
  | requested i call rest => if i = id then settled outcome call rest else requested i call rest
  | pc => pc

/-- The promise is rejected, whatever the request. -/
def ClientCallPc.reject : ClientCallPc → ClientCallPc
  | requested _ => settled .failed
  | pc => pc

def DrainPc.reject : DrainPc → DrainPc
  | requested _ call rest => settled .failed call rest
  | pc => pc

namespace Client

/-- A client with what an earlier one left in the queue. -/
def init (autoConnect : Bool) (queue : List QueuedCall) : Client where
  rpc := .init autoConnect
  offlineQueue := queue.mapIdx (fun i call => { call with number := i })
  calls := fun _ => none
  nextCall := queue.length
  resubscribing := 0
  drains := fun _ => none
  drained := 0
  destroyed := false

def setCall (s : Client) (c : ClientCall) : Client :=
  { s with calls := update s.calls c.call.number (some c) }

def setDrain (s : Client) (d : ℕ) (pc : DrainPc) : Client :=
  { s with drains := update s.drains d (some pc) }

/-- `offlineQueue.remove`. -/
def remove (s : Client) (idempotencyKey : String) : Client :=
  { s with offlineQueue := s.offlineQueue.filter (fun q => q.idempotencyKey ≠ idempotencyKey) }

/-- `call()` makes its request. -/
def request (s : Client) (call : QueuedCall) (accepts : Bool) : Client :=
  { s with rpc := s.rpc.request (some call) accepts }.setCall
    ⟨call, if s.rpc.requestThrows (some call) accepts = true then .settled .failed
      else .requested s.rpc.nextSequenceId⟩

/-- Promises settle. -/
def mapPc (s : Client) (f : ClientCallPc → ClientCallPc) (g : DrainPc → DrainPc) : Client :=
  { s with
    calls := fun k => (s.calls k).map (fun c => { c with pc := f c.pc })
    drains := fun d => (s.drains d).map g }

/-- The promises of the request settle. -/
def settle (s : Client) (id : ℕ) (outcome : Outcome) : Client :=
  s.mapPc (ClientCallPc.settle id outcome) (DrainPc.settle id outcome)

/-- `rpc.rejectAll`. -/
def rejectAll (s : Client) : Client := s.mapPc ClientCallPc.reject DrainPc.reject

def step (s : Client) : ClientAct → Option Client
  | .call idempotencyKey className actorId method args enqueueWhenOffline accepts =>
    let call : QueuedCall := ⟨idempotencyKey, className, actorId, method, args, s.nextCall⟩
    let s := { s with nextCall := s.nextCall + 1 }
    if s.rpc.transport.state ≠ .opened ∧ enqueueWhenOffline = true then
      some (s.setCall ⟨call, .enqueuing⟩)
    else some (s.request call accepts)
  | .enqueue k =>
    match s.calls k with
    | some ⟨call, .enqueuing⟩ =>
      some ({ s with offlineQueue := s.offlineQueue ++ [call] }.setCall ⟨call, .enqueued⟩)
    | _ => none
  | .proceed k accepts =>
    match s.calls k with
    | some ⟨call, .enqueued⟩ => some (s.request call accepts)
    | _ => none
  | .other accepts => some { s with rpc := s.rpc.request none accepts }
  | .opens held again =>
    (s.rpc.step (.opens held again)).map (fun rpc =>
      { s with
        rpc := rpc
        resubscribing :=
          if s.rpc.opensThrows again = true then s.resubscribing else s.resubscribing + 1 })
  | .closes clean => (s.rpc.step (.closes clean)).map (fun rpc => { s with rpc := rpc })
  | .reconnect => (s.rpc.step .reconnect).map (fun rpc => { s with rpc := rpc })
  | .ingest id answer =>
    (s.rpc.step (.ingest id answer)).map (fun rpc =>
      if (s.rpc.pending.find? (fun r => r.id = id)).isSome = true then
        { s with rpc := rpc }.settle id (.answered answer)
      else s)
  | .resume k =>
    match s.calls k with
    | some ⟨call, .settled _⟩ =>
      -- after a permanent failure it is removed twice
      some { s.remove call.idempotencyKey with calls := update s.calls k none }
    | _ => none
  | .drain =>
    if s.resubscribing = 0 then none
    else some { s.setDrain s.drained (.next s.offlineQueue) with
      resubscribing := s.resubscribing - 1
      drained := s.drained + 1 }
  | .drainNext d accepts =>
    match s.drains d with
    | some (.next (call :: rest)) =>
      some ({ s with rpc := s.rpc.request (some call) accepts }.setDrain d
        (if s.rpc.requestThrows (some call) accepts = true then .settled .failed call rest
          else .requested s.rpc.nextSequenceId call rest))
    | _ => none
  | .drainResume d =>
    match s.drains d with
    | some (.settled outcome call rest) =>
      if outcome.conclusive = true then
        some ((s.remove call.idempotencyKey).setDrain d (.next rest))
      else some (s.setDrain d (.next []))
    | _ => none
  | .close =>
    if s.destroyed = true then none
    else (s.rpc.step .destroy).map (fun rpc =>
      { s with rpc := rpc, destroyed := true }.rejectAll)

/-- The calls whose frames were written, to any socket. -/
def written (s : Client) : List QueuedCall := (Rpc.written s.rpc.log).filterMap RpcRequest.params

/-- **Each call is sent once**: a request is written to a socket once, and to a later
one only after the earlier ones closed, and without an answer; and where no connection
was lost, the handler, which runs for a frame that was written, runs once for a call. -/
structure SentOnce (s : Client) : Prop where
  writes : Rpc.WritesOnce (fun params : Option QueuedCall => params.isSome = true) s.rpc.log
  runs : Rpc.Connected s.rpc.log → ∀ handled : List QueuedCall, handled.Sublist s.written →
    ∀ k, (handled.map QueuedCall.number).count k ≤ 1

/-- **No call is replayed that is under way**: the transport holds no call when it
opens, and the queue no entry whose `call()` has not returned when it is drained. -/
def sendsOnce (s : Client) : ClientAct → Bool
  | .opens _ _ => s.rpc.transport.outbound.all (fun r => r.params.isNone)
  | .drain => s.offlineQueue.all (fun q => (s.calls q.number).isNone)
  | _ => true

end Client

/-! ## What a step does -/

namespace Client

variable {s s' : Client} {a : ClientAct}

/-- **What a step does.** -/
inductive Steps (s : Client) : ClientAct → Client → Prop
  | stores {key className actorId method args enqueueWhenOffline accepts} :
      Steps s (.call key className actorId method args enqueueWhenOffline accepts)
        ({ s with nextCall := s.nextCall + 1 }.setCall
          ⟨⟨key, className, actorId, method, args, s.nextCall⟩, .enqueuing⟩)
  | calls {key className actorId method args enqueueWhenOffline accepts} :
      Steps s (.call key className actorId method args enqueueWhenOffline accepts)
        ({ s with nextCall := s.nextCall + 1 }.request
          ⟨key, className, actorId, method, args, s.nextCall⟩ accepts)
  | enqueue {k call} : s.calls k = some ⟨call, .enqueuing⟩ →
      Steps s (.enqueue k)
        ({ s with offlineQueue := s.offlineQueue ++ [call] }.setCall ⟨call, .enqueued⟩)
  | proceed {k call accepts} : s.calls k = some ⟨call, .enqueued⟩ →
      Steps s (.proceed k accepts) (s.request call accepts)
  | other {accepts} : Steps s (.other accepts) { s with rpc := s.rpc.request none accepts }
  | opens {held again rpc} : s.rpc.step (.opens held again) = some rpc →
      Steps s (.opens held again) { s with
        rpc := rpc
        resubscribing :=
          if s.rpc.opensThrows again = true then s.resubscribing else s.resubscribing + 1 }
  | closes {clean rpc} : s.rpc.step (.closes clean) = some rpc →
      Steps s (.closes clean) { s with rpc := rpc }
  | reconnect {rpc} : s.rpc.step .reconnect = some rpc →
      Steps s .reconnect { s with rpc := rpc }
  | ingest {id answer r} : s.rpc.pending.find? (fun r => r.id = id) = some r →
      s.rpc.step (.ingest id answer) = some (s.rpc.ingest id answer) →
      Steps s (.ingest id answer)
        ({ s with rpc := s.rpc.ingest id answer }.settle id (.answered answer))
  | ignores {id answer} : Steps s (.ingest id answer) s
  | resume {k call outcome} : s.calls k = some ⟨call, .settled outcome⟩ →
      Steps s (.resume k)
        { s.remove call.idempotencyKey with calls := update s.calls k none }
  | drain : 0 < s.resubscribing →
      Steps s .drain { s.setDrain s.drained (.next s.offlineQueue) with
        resubscribing := s.resubscribing - 1
        drained := s.drained + 1 }
  | drainNext {d call rest accepts} : s.drains d = some (.next (call :: rest)) →
      Steps s (.drainNext d accepts)
        ({ s with rpc := s.rpc.request (some call) accepts }.setDrain d
          (if s.rpc.requestThrows (some call) accepts = true then .settled .failed call rest
            else .requested s.rpc.nextSequenceId call rest))
  | drained {d outcome call rest} : s.drains d = some (.settled outcome call rest) →
      outcome.conclusive = true →
      Steps s (.drainResume d) ((s.remove call.idempotencyKey).setDrain d (.next rest))
  | breaks {d outcome call rest} : s.drains d = some (.settled outcome call rest) →
      Steps s (.drainResume d) (s.setDrain d (.next []))
  | close {rpc} : s.rpc.step .destroy = some rpc →
      Steps s .close ({ s with rpc := rpc, destroyed := true }.rejectAll)

theorem step_some (hs : step s a = some s') : Steps s a s' := by
  cases a with
  | call key className actorId method args enqueue accepts =>
    simp only [step] at hs
    split at hs
    · exact Option.some.inj hs ▸ .stores
    · exact Option.some.inj hs ▸ .calls
  | enqueue k =>
    simp only [step] at hs
    split at hs
    · next hk => exact Option.some.inj hs ▸ .enqueue hk
    · exact absurd hs (by simp)
  | proceed k accepts =>
    simp only [step] at hs
    split at hs
    · next hk => exact Option.some.inj hs ▸ .proceed hk
    · exact absurd hs (by simp)
  | other accepts => exact Option.some.inj hs ▸ .other
  | opens held again =>
    obtain ⟨rpc, hrpc, rfl⟩ := Option.map_eq_some_iff.mp hs
    exact .opens hrpc
  | closes clean =>
    obtain ⟨rpc, hrpc, rfl⟩ := Option.map_eq_some_iff.mp hs
    exact .closes hrpc
  | reconnect =>
    obtain ⟨rpc, hrpc, rfl⟩ := Option.map_eq_some_iff.mp hs
    exact .reconnect hrpc
  | ingest id answer =>
    obtain ⟨rpc, hrpc, rfl⟩ := Option.map_eq_some_iff.mp hs
    split
    · next hr =>
      obtain ⟨r, hr⟩ := Option.isSome_iff_exists.mp hr
      have hingest : rpc = s.rpc.ingest id answer := by
        simp only [Rpc.step] at hrpc
        split at hrpc
        · exact (Option.some.inj hrpc).symm
        · exact absurd hrpc (by simp)
      exact hingest ▸ .ingest hr (hingest ▸ hrpc)
    · exact .ignores
  | resume k =>
    simp only [step] at hs
    split at hs
    · next hk => exact Option.some.inj hs ▸ .resume hk
    · exact absurd hs (by simp)
  | drain =>
    simp only [step] at hs
    split at hs
    · exact absurd hs (by simp)
    · next hr => exact Option.some.inj hs ▸ .drain (Nat.pos_of_ne_zero hr)
  | drainNext d accepts =>
    simp only [step] at hs
    split at hs
    · next hd => exact Option.some.inj hs ▸ .drainNext hd
    · exact absurd hs (by simp)
  | drainResume d =>
    simp only [step] at hs
    split at hs
    · next hd =>
      split at hs
      · next hc => exact Option.some.inj hs ▸ .drained hd hc
      · exact Option.some.inj hs ▸ .breaks hd
    · exact absurd hs (by simp)
  | close =>
    simp only [step] at hs
    split at hs
    · exact absurd hs (by simp)
    · obtain ⟨rpc, hrpc, rfl⟩ := Option.map_eq_some_iff.mp hs
      exact .close hrpc

/-- A step does nothing to the requests, or one thing. -/
theorem step_rpc (hs : step s a = some s') : s'.rpc = s.rpc
    ∨ ∃ b, Rpc.step s.rpc b = some s'.rpc ∧ (s.sendsOnce a = true →
      s.rpc.holdsNone (fun params => params.isSome = true) b) := by
  cases step_some hs with
  | stores => exact .inl rfl
  | @calls _ _ _ _ _ _ accepts => exact .inr ⟨.request _ accepts, rfl, fun _ => trivial⟩
  | enqueue _ => exact .inl rfl
  | @proceed _ _ accepts _ => exact .inr ⟨.request _ accepts, rfl, fun _ => trivial⟩
  | @other accepts => exact .inr ⟨.request _ accepts, rfl, fun _ => trivial⟩
  | opens hrpc =>
    refine .inr ⟨_, hrpc, fun hG r hr => ?_⟩
    rw [Option.isNone_iff_eq_none.mp (List.all_eq_true.mp hG r hr)]
    exact Bool.false_ne_true
  | closes hrpc => exact .inr ⟨_, hrpc, fun _ => trivial⟩
  | reconnect hrpc => exact .inr ⟨_, hrpc, fun _ => trivial⟩
  | ingest _ hrpc => exact .inr ⟨_, hrpc, fun _ => trivial⟩
  | ignores => exact .inl rfl
  | resume _ => exact .inl rfl
  | drain _ => exact .inl rfl
  | @drainNext _ _ _ accepts _ => exact .inr ⟨.request _ accepts, rfl, fun _ => trivial⟩
  | drained _ _ => exact .inl rfl
  | breaks _ => exact .inl rfl
  | close hrpc => exact .inr ⟨_, hrpc, fun _ => trivial⟩

/-! ## One request for a call

A call has a request by its own `call()` or by a drain. `Single` says that
what is still to be requested, by either, has not been requested before. -/

/-- The calls that were requested. -/
def asked (log : List (RpcEvent (Option QueuedCall) Json)) : List ℕ :=
  log.filterMap (fun e =>
    match e with
    | .requested r => r.params.map QueuedCall.number
    | _ => none)

theorem mem_asked {log : List (RpcEvent (Option QueuedCall) Json)} {k : ℕ} :
    k ∈ asked log ↔ ∃ r call, .requested r ∈ log ∧ r.params = some call ∧ call.number = k := by
  unfold asked
  rw [List.mem_filterMap]
  constructor
  · rintro ⟨e, he, hk⟩
    cases e with
    | requested r =>
      obtain ⟨call, hcall, hk⟩ := Option.map_eq_some_iff.mp hk
      exact ⟨r, call, he, hcall, hk⟩
    | _ => exact absurd hk (by simp)
  · rintro ⟨r, call, he, hcall, rfl⟩
    refine ⟨_, he, ?_⟩
    show r.params.map QueuedCall.number = _
    rw [hcall, Option.map_some]

theorem asked_append (log es : List (RpcEvent (Option QueuedCall) Json)) :
    asked (log ++ es) = asked log ++ asked es := List.filterMap_append

theorem asked_request (rpc : Rpc (Option QueuedCall) Json) (call : QueuedCall)
    (accepts : Bool) :
    asked (rpc.request (some call) accepts).log = asked rpc.log ++ [call.number] := by
  rcases rpc.log_request (some call) accepts with hlog | ⟨j, -, -, -, hlog⟩
  · rw [hlog, asked_append]
    rfl
  · rw [hlog, asked_append]
    rfl

theorem asked_request_none (rpc : Rpc (Option QueuedCall) Json) (accepts : Bool) :
    asked (rpc.request none accepts).log = asked rpc.log := by
  rcases rpc.log_request none accepts with hlog | ⟨j, -, -, -, hlog⟩
  · rw [hlog, asked_append]
    exact List.append_nil _
  · rw [hlog, asked_append]
    exact List.append_nil _

theorem asked_step {rpc rpc' : Rpc (Option QueuedCall) Json}
    {b : RpcAct (Option QueuedCall) Json} (hs : rpc.step b = some rpc')
    (hb : ∀ params accepts, b ≠ .request params accepts) : asked rpc'.log = asked rpc.log := by
  obtain ⟨es, hlog, hes⟩ := Rpc.log_step hs hb
  have hnil : asked es = [] := by
    refine List.eq_nil_iff_forall_not_mem.mpr (fun k hk => ?_)
    obtain ⟨r, -, hr, -⟩ := mem_asked.mp hk
    exact hes r hr
  rw [hlog, asked_append, hnil, List.append_nil]

end Client

/-- The call has its request still to make. -/
def ClientCallPc.waits : ClientCallPc → Bool
  | enqueuing => true
  | enqueued => true
  | _ => false

/-- What the drain has still to request. -/
def DrainPc.rest : DrainPc → List QueuedCall
  | next rest => rest
  | requested _ _ rest => rest
  | settled _ _ rest => rest

namespace Client

variable {s s' : Client} {a : ClientAct}

/-- **There is one request for a call**: those that are to be requested have not been,
whether by their `call()` or by the one drain that there is. -/
structure Single (s : Client) : Prop where
  nodup : (asked s.rpc.log).Nodup
  below : ∀ k ∈ asked s.rpc.log, k < s.nextCall
  calls : ∀ k c, s.calls k = some c → c.call.number = k ∧ k < s.nextCall
  waiting : ∀ k c, s.calls k = some c → c.pc.waits = true → k ∉ asked s.rpc.log
  queue : ∀ q ∈ s.offlineQueue, q.number < s.nextCall
  queued : ∀ q ∈ s.offlineQueue, ∀ c, s.calls q.number = some c →
    c.call = q ∧ c.pc ≠ .enqueuing
  queue_nodup : (s.offlineQueue.map QueuedCall.number).Nodup
  stored : s.drained = 0 → ∀ q ∈ s.offlineQueue, s.calls q.number = none →
    q.number ∉ asked s.rpc.log
  drains : ∀ d pc, s.drains d = some pc → d < s.drained
    ∧ (pc.rest.map QueuedCall.number).Nodup ∧ ∀ q ∈ pc.rest, q.number < s.nextCall
      ∧ s.calls q.number = none ∧ q.number ∉ asked s.rpc.log

namespace Single

theorem init (autoConnect : Bool) (queue : List QueuedCall) :
    (init autoConnect queue).Single := by
  have hasked : asked (Client.init autoConnect queue).rpc.log = [] := rfl
  have hnumbers : (Client.init autoConnect queue).offlineQueue.map QueuedCall.number
      = List.range queue.length := by
    show (queue.mapIdx (fun i call => { call with number := i })).map QueuedCall.number = _
    refine List.ext_getElem (by simp) (fun i _ _ => ?_)
    simp
  have hqueue : ∀ q ∈ (Client.init autoConnect queue).offlineQueue,
      q.number < queue.length := by
    intro q hq
    have hmem := List.mem_map_of_mem (f := QueuedCall.number) hq
    rw [hnumbers] at hmem
    exact List.mem_range.mp hmem
  refine ⟨.nil, fun k hk => absurd hk List.not_mem_nil,
    fun k c hc => absurd hc (by simp [Client.init]),
    fun k c hc => absurd hc (by simp [Client.init]), hqueue,
    fun q _ c hc => absurd hc (by simp [Client.init]), hnumbers ▸ List.nodup_range,
    fun _ q _ _ => List.not_mem_nil, fun d pc hd => absurd hd (by simp [Client.init])⟩

/-- No request is made, and no call begins or waits for anything new. -/
theorem congr {t : Client} (h : s.Single) (hasked : asked t.rpc.log = asked s.rpc.log)
    (hnext : t.nextCall = s.nextCall) (hdrained : t.drained = s.drained)
    (hqueue : t.offlineQueue.Sublist s.offlineQueue)
    (hcalls : ∀ k c', t.calls k = some c' → ∃ c, s.calls k = some c ∧ c'.call = c.call
      ∧ (c'.pc.waits = true → c.pc.waits = true) ∧ (c'.pc = .enqueuing → c.pc = .enqueuing))
    (hnone : ∀ k, s.calls k = none → t.calls k = none)
    (hback : ∀ q ∈ t.offlineQueue, t.calls q.number = none → s.calls q.number = none)
    (hdrains : ∀ d pc', t.drains d = some pc' → ∃ pc, s.drains d = some pc
      ∧ pc'.rest.Sublist pc.rest) : t.Single := by
  refine ⟨hasked ▸ h.nodup, fun k hk => ?_, fun k c' hc' => ?_, fun k c' hc' hw => ?_,
    fun q hq => ?_, fun q hq c' hc' => ?_, h.queue_nodup.sublist (hqueue.map _),
    fun h0 q hq hn => ?_, fun d pc' hd => ?_⟩
  · rw [hnext]
    exact h.below k (hasked ▸ hk)
  · obtain ⟨c, hc, hcall, -⟩ := hcalls k c' hc'
    rw [hcall, hnext]
    exact h.calls k c hc
  · obtain ⟨c, hc, -, hwaits, -⟩ := hcalls k c' hc'
    rw [hasked]
    exact h.waiting k c hc (hwaits hw)
  · rw [hnext]
    exact h.queue q (hqueue.subset hq)
  · obtain ⟨c, hc, hcall, -, hpc⟩ := hcalls _ c' hc'
    obtain ⟨hq', hne⟩ := h.queued q (hqueue.subset hq) c hc
    exact ⟨hcall.trans hq', fun he => hne (hpc he)⟩
  · rw [hasked]
    exact h.stored (hdrained ▸ h0) q (hqueue.subset hq) (hback q hq hn)
  · obtain ⟨pc, hpc, hrest⟩ := hdrains d pc' hd
    obtain ⟨hlt, hnodup, hqs⟩ := h.drains d pc hpc
    refine ⟨hdrained ▸ hlt, hnodup.sublist (hrest.map _), fun q hq => ?_⟩
    obtain ⟨hq', hn, ha⟩ := hqs q (hrest.subset hq)
    exact ⟨hnext ▸ hq', hnone _ hn, hasked ▸ ha⟩

/-- Only the requests change, and none is made. -/
theorem setRpc (h : s.Single) {rpc : Rpc (Option QueuedCall) Json}
    (hasked : asked rpc.log = asked s.rpc.log) (n : ℕ) (b : Bool) :
    { s with rpc := rpc, resubscribing := n, destroyed := b }.Single :=
  h.congr hasked rfl rfl (.refl _) (fun _ c hc => ⟨c, hc, rfl, id, id⟩) (fun _ => id)
    (fun _ _ => id) (fun _ pc hd => ⟨pc, hd, .refl _⟩)

theorem mapPc (h : s.Single) {f : ClientCallPc → ClientCallPc} {g : DrainPc → DrainPc}
    (hf : ∀ pc, (f pc).waits = true → f pc = pc) (hg : ∀ pc, (g pc).rest = pc.rest) :
    (s.mapPc f g).Single := by
  refine h.congr rfl rfl rfl (.refl _) (fun k c' hc' => ?_) (fun k hk => ?_)
    (fun q _ hn => Option.map_eq_none_iff.mp hn) (fun d pc' hd => ?_)
  · obtain ⟨c, hc, rfl⟩ := Option.map_eq_some_iff.mp hc'
    refine ⟨c, hc, rfl, fun hw => hf _ hw ▸ hw, fun he => ?_⟩
    have hsame := hf c.pc (by rw [show f c.pc = .enqueuing from he]; rfl)
    exact hsame.symm.trans he
  · show (s.calls k).map _ = none
    rw [hk, Option.map_none]
  · obtain ⟨pc, hpc, rfl⟩ := Option.map_eq_some_iff.mp hd
    exact ⟨pc, hpc, (hg pc).symm ▸ .refl _⟩

theorem settle (h : s.Single) (id : ℕ) (outcome : Outcome) : (s.settle id outcome).Single :=
  h.mapPc
    (fun pc hw => by
      cases pc with
      | requested i =>
        by_cases hi : i = id <;>
          exact absurd hw (by simp [ClientCallPc.settle, hi, ClientCallPc.waits])
      | _ => rfl)
    (fun pc => by
      cases pc with
      | requested i call rest => by_cases hi : i = id <;> simp [DrainPc.settle, hi, DrainPc.rest]
      | _ => rfl)

theorem rejectAll (h : s.Single) : s.rejectAll.Single :=
  h.mapPc
    (fun pc hw => by
      cases pc with
      | requested i => exact absurd hw (by simp [ClientCallPc.reject, ClientCallPc.waits])
      | _ => rfl)
    (fun pc => by cases pc <;> rfl)

/-- A request is made for a call that no one else is to request. -/
theorem asks (h : s.Single) {k : ℕ} {rpc : Rpc (Option QueuedCall) Json}
    (hasked : asked rpc.log = asked s.rpc.log ++ [k]) (hk : k ∉ asked s.rpc.log)
    (hlt : k < s.nextCall) (hwaits : ∀ c, s.calls k = some c → c.pc.waits = false)
    (hstored : s.drained = 0 → ∀ q ∈ s.offlineQueue, s.calls q.number = none → q.number ≠ k)
    (hdrains : ∀ d pc, s.drains d = some pc → ∀ q ∈ pc.rest, q.number ≠ k) :
    { s with rpc := rpc }.Single := by
  have hmem : ∀ {i}, i ∉ asked s.rpc.log → i ≠ k → i ∉ asked rpc.log := by
    intro i hi hne
    rw [hasked, List.mem_append, not_or]
    exact ⟨hi, fun he => hne (List.mem_singleton.mp he)⟩
  refine ⟨?_, fun i hi => ?_, h.calls, fun i c hc hw => ?_, h.queue, h.queued, h.queue_nodup,
    fun h0 q hq hn => ?_, fun d pc hd => ?_⟩
  · show (asked rpc.log).Nodup
    rw [hasked, List.nodup_append]
    refine ⟨h.nodup, List.nodup_singleton _, fun i hi i' hi' he => hk ?_⟩
    exact List.mem_singleton.mp hi' ▸ he ▸ hi
  · have hi : i ∈ asked rpc.log := hi
    rw [hasked] at hi
    rcases List.mem_append.mp hi with hi | hi
    · exact h.below i hi
    · exact List.mem_singleton.mp hi ▸ hlt
  · refine hmem (h.waiting i c hc hw) (fun he => ?_)
    exact absurd ((hwaits c (he ▸ hc)).symm.trans hw) (by simp)
  · exact hmem (h.stored h0 q hq hn) (hstored h0 q hq hn)
  · obtain ⟨hd', hnodup, hqs⟩ := h.drains d pc hd
    refine ⟨hd', hnodup, fun q hq => ?_⟩
    obtain ⟨hq', hn, ha⟩ := hqs q hq
    exact ⟨hq', hn, hmem ha (hdrains d pc hd q hq)⟩

/-- A call begins. -/
theorem begin (h : s.Single) (call : QueuedCall) (hcall : call.number = s.nextCall)
    (pc : ClientCallPc) : ({ s with nextCall := s.nextCall + 1 }.setCall ⟨call, pc⟩).Single := by
  have hqueue : ∀ q ∈ s.offlineQueue, q.number ≠ call.number := fun q hq =>
    Nat.ne_of_lt (hcall ▸ h.queue q hq)
  have hold : ∀ {k c}, update s.calls call.number (some ⟨call, pc⟩) k = some c →
      k = call.number ∧ c = ⟨call, pc⟩ ∨ k ≠ call.number ∧ s.calls k = some c := by
    intro k c hc
    by_cases hk : k = call.number
    · subst hk
      rw [Function.update_self] at hc
      exact .inl ⟨rfl, (Option.some.inj hc).symm⟩
    · rw [Function.update_of_ne hk] at hc
      exact .inr ⟨hk, hc⟩
  refine ⟨h.nodup, fun k hk => Nat.lt_succ_of_lt (h.below k hk), fun k c hc => ?_,
    fun k c hc hw => ?_, fun q hq => Nat.lt_succ_of_lt (h.queue q hq), fun q hq c hc => ?_,
    h.queue_nodup, fun h0 q hq hn => ?_, fun d pc hd => ?_⟩
  · show _ ∧ k < s.nextCall + 1
    rcases hold hc with ⟨rfl, rfl⟩ | ⟨-, hc⟩
    · exact ⟨rfl, by omega⟩
    · exact ⟨(h.calls k c hc).1, Nat.lt_succ_of_lt (h.calls k c hc).2⟩
  · rcases hold hc with ⟨rfl, -⟩ | ⟨-, hc⟩
    · exact fun hk => absurd (h.below _ hk) (by omega)
    · exact h.waiting k c hc hw
  · exact h.queued q hq c ((hold hc).resolve_left (fun he => hqueue q hq he.1)).2
  · have hn : update s.calls call.number _ q.number = none := hn
    rw [Function.update_of_ne (hqueue q hq)] at hn
    exact h.stored h0 q hq hn
  · obtain ⟨hlt, hnodup, hqs⟩ := h.drains d pc hd
    refine ⟨hlt, hnodup, fun q hq => ?_⟩
    obtain ⟨hq', hn, ha⟩ := hqs q hq
    refine ⟨Nat.lt_succ_of_lt hq', ?_, ha⟩
    show update s.calls call.number _ q.number = none
    rw [Function.update_of_ne (by omega)]
    exact hn

/-- A call goes on that waits no more. -/
theorem setPc (h : s.Single) {k : ℕ} {c : ClientCall} (hc : s.calls k = some c)
    (pc : ClientCallPc) (hw : pc.waits = true → c.pc.waits = true) (hpc : pc ≠ .enqueuing) :
    (s.setCall ⟨c.call, pc⟩).Single := by
  obtain rfl := (h.calls k c hc).1
  refine h.congr rfl rfl rfl (.refl _) (fun i c' hc' => ?_) (fun i hi => ?_)
    (fun q _ hn => ?_) (fun _ pc hd => ⟨pc, hd, .refl _⟩)
  · have hc' : update s.calls c.call.number (some ⟨c.call, pc⟩) i = some c' := hc'
    by_cases hi : i = c.call.number
    · subst hi
      rw [Function.update_self] at hc'
      obtain rfl := Option.some.inj hc'
      exact ⟨c, hc, rfl, hw, fun he => absurd he hpc⟩
    · rw [Function.update_of_ne hi] at hc'
      exact ⟨c', hc', rfl, id, id⟩
  · show update s.calls c.call.number _ i = none
    by_cases hi' : i = c.call.number
    · exact absurd (hi' ▸ hi) (by simp [hc])
    · rw [Function.update_of_ne hi']
      exact hi
  · have hn : update s.calls c.call.number _ q.number = none := hn
    by_cases hq : q.number = c.call.number
    · rw [hq, Function.update_self] at hn
      exact absurd hn (by simp)
    · rwa [Function.update_of_ne hq] at hn

/-- A drain goes on. -/
theorem setDrain (h : s.Single) {d : ℕ} {pc : DrainPc} (hd : s.drains d = some pc)
    (pc' : DrainPc) (hrest : pc'.rest.Sublist pc.rest) : (s.setDrain d pc').Single := by
  refine h.congr rfl rfl rfl (.refl _) (fun _ c hc => ⟨c, hc, rfl, id, id⟩) (fun _ => id)
    (fun _ _ => id) (fun i pc'' hi => ?_)
  have hi : update s.drains d (some pc') i = some pc'' := hi
  by_cases he : i = d
  · subst he
    rw [Function.update_self] at hi
    exact ⟨pc, hd, Option.some.inj hi ▸ hrest⟩
  · rw [Function.update_of_ne he] at hi
    exact ⟨pc'', hi, .refl _⟩

/-- An entry is removed from the queue. -/
theorem remove (h : s.Single) (key : String) : (s.remove key).Single :=
  h.congr rfl rfl rfl List.filter_sublist (fun _ c hc => ⟨c, hc, rfl, id, id⟩) (fun _ => id)
    (fun _ _ => id) (fun _ pc hd => ⟨pc, hd, .refl _⟩)

/-- The pc of a call that has made its request. -/
theorem waits_request (rpc : Rpc (Option QueuedCall) Json) (call : QueuedCall) (accepts : Bool) :
    (if rpc.requestThrows (some call) accepts = true then ClientCallPc.settled .failed
      else .requested rpc.nextSequenceId).waits = false := by
  split <;> rfl

theorem rest_request (rpc : Rpc (Option QueuedCall) Json) (call : QueuedCall)
    (rest : List QueuedCall) (accepts : Bool) :
    (if rpc.requestThrows (some call) accepts = true then DrainPc.settled .failed call rest
      else .requested rpc.nextSequenceId call rest).rest = rest := by
  split <;> rfl

/-- A call is in the queue. -/
theorem store (h : s.Single) {call : QueuedCall}
    (hc : s.calls call.number = some ⟨call, .enqueued⟩)
    (hnew : ∀ q ∈ s.offlineQueue, q.number ≠ call.number) :
    { s with offlineQueue := s.offlineQueue ++ [call] }.Single := by
  have hmem : ∀ q ∈ s.offlineQueue ++ [call], q ∈ s.offlineQueue ∨ q = call := fun q hq =>
    (List.mem_append.mp hq).imp id List.mem_singleton.mp
  refine ⟨h.nodup, h.below, h.calls, h.waiting, fun q hq => ?_, fun q hq c hc' => ?_, ?_,
    fun h0 q hq hn => ?_, h.drains⟩
  · rcases hmem q hq with hq | rfl
    · exact h.queue q hq
    · exact (h.calls _ _ hc).2
  · rcases hmem q hq with hq | rfl
    · exact h.queued q hq c hc'
    · obtain rfl := Option.some.inj (hc.symm.trans hc')
      exact ⟨rfl, by simp⟩
  · show ((s.offlineQueue ++ [call]).map QueuedCall.number).Nodup
    rw [List.map_append, List.nodup_append]
    refine ⟨h.queue_nodup, List.nodup_singleton _, fun i hi i' hi' => ?_⟩
    obtain ⟨q, hq, rfl⟩ := List.mem_map.mp hi
    exact List.mem_singleton.mp hi' ▸ hnew q hq
  · rcases hmem q hq with hq | rfl
    · exact h.stored h0 q hq hn
    · exact absurd (hc.symm.trans hn) (by simp)

/-- A `call()` makes its request. -/
theorem request (h : s.Single) {call : QueuedCall} {accepts : Bool}
    (hcall : s.calls call.number = some ⟨call, .enqueued⟩) : (s.request call accepts).Single := by
  have hwaits := waits_request s.rpc call accepts
  have hself : ∀ c, (s.request call accepts).calls call.number = some c → c.pc.waits = false := by
    intro c hc
    have hc : update s.calls call.number _ call.number = some c := hc
    rw [Function.update_self] at hc
    exact Option.some.inj hc ▸ hwaits
  refine (h.setPc hcall _ (fun hw => absurd (hwaits.symm.trans hw) (by simp)) (fun he => ?_)).asks
    (asked_request _ _ _) (h.waiting _ _ hcall rfl) (h.calls _ _ hcall).2 hself
    (fun _ q _ hn he => ?_) (fun d pc hd q hq he => ?_)
  · rw [he] at hwaits
    exact absurd hwaits (by simp [ClientCallPc.waits])
  · have hn : update s.calls call.number _ q.number = none := hn
    rw [he, Function.update_self] at hn
    exact absurd hn (by simp)
  · have hn := ((h.drains d pc hd).2.2 q hq).2.1
    rw [he, hcall] at hn
    exact absurd hn (by simp)

/-- **Every step keeps to it**, as long as there has been but one drain. -/
theorem step (h : s.Single) (hG : s.sendsOnce a = true) (hone : s'.drained ≤ 1)
    (hs : step s a = some s') : s'.Single := by
  cases step_some hs with
  | stores => exact h.begin _ rfl _
  | @calls key className actorId method args _ accepts =>
    refine (h.begin ⟨key, className, actorId, method, args, s.nextCall⟩ rfl _).asks
      (asked_request _ _ _) (fun hk => ?_) (Nat.lt_succ_self _) (fun c hc => ?_)
      (fun _ q hq _ => ?_) (fun d pc hd q hq => ?_)
    · exact absurd (h.below _ hk) (Nat.lt_irrefl _)
    · have hc : update s.calls s.nextCall _ s.nextCall = some c := hc
      rw [Function.update_self] at hc
      exact Option.some.inj hc ▸ waits_request s.rpc _ accepts
    · exact Nat.ne_of_lt (h.queue q hq)
    · exact Nat.ne_of_lt ((h.drains d pc hd).2.2 q hq).1
  | @enqueue k call hc =>
    obtain rfl := (h.calls k _ hc).1
    refine (h.setPc hc .enqueued (fun _ => rfl) (by simp)).store (Function.update_self _ _ _) ?_
    exact fun q hq he => (h.queued q hq _ (he ▸ hc)).2 rfl
  | @proceed k call accepts hc =>
    obtain rfl := (h.calls k _ hc).1
    exact h.request hc
  | other => exact h.setRpc (asked_request_none _ _) _ _
  | opens hrpc => exact h.setRpc (asked_step hrpc (by simp)) _ _
  | closes hrpc => exact h.setRpc (asked_step hrpc (by simp)) _ _
  | reconnect hrpc => exact h.setRpc (asked_step hrpc (by simp)) _ _
  | ingest _ hrpc => exact (h.setRpc (asked_step hrpc (by simp)) _ _).settle _ _
  | ignores => exact h
  | @resume k call outcome hc =>
    refine h.congr rfl rfl rfl List.filter_sublist (fun i c hi => ?_) (fun i hi => ?_)
      (fun q hq hn => ?_) (fun _ pc hd => ⟨pc, hd, .refl _⟩)
    · have hi : update s.calls k none i = some c := hi
      by_cases he : i = k
      · rw [he, Function.update_self] at hi
        exact absurd hi (by simp)
      · rw [Function.update_of_ne he] at hi
        exact ⟨c, hi, rfl, id, id⟩
    · show update s.calls k none i = none
      by_cases he : i = k
      · rw [he, Function.update_self]
      · rw [Function.update_of_ne he]
        exact hi
    · have hn : update s.calls k none q.number = none := hn
      obtain ⟨hq, hkey⟩ := List.mem_filter.mp hq
      by_cases he : q.number = k
      · -- the entry of the call itself is gone
        obtain rfl := (h.queued q hq _ (he ▸ hc)).1
        exact absurd hkey (by simp)
      · rwa [Function.update_of_ne he] at hn
  | drain _ =>
    have hG : ∀ q ∈ s.offlineQueue, s.calls q.number = none := fun q hq =>
      Option.isNone_iff_eq_none.mp (List.all_eq_true.mp hG q hq)
    have hfirst : s.drained = 0 := Nat.le_zero.mp (Nat.le_of_succ_le_succ hone)
    refine ⟨h.nodup, h.below, h.calls, h.waiting, h.queue, h.queued, h.queue_nodup,
      fun h0 => absurd h0 (Nat.succ_ne_zero _), fun d pc hd => ?_⟩
    have hd : update s.drains s.drained _ d = some pc := hd
    by_cases he : d = s.drained
    · rw [he, Function.update_self] at hd
      obtain rfl := Option.some.inj hd
      refine ⟨he ▸ Nat.lt_succ_self _, h.queue_nodup, fun q hq => ⟨h.queue q hq, hG q hq, ?_⟩⟩
      exact h.stored hfirst q hq (hG q hq)
    · rw [Function.update_of_ne he] at hd
      have hlt := (h.drains d pc hd).1
      omega
  | @drainNext d call rest accepts hd =>
    obtain ⟨hlt, hnodup, hqs⟩ := h.drains d _ hd
    obtain ⟨hcall, hn, hask⟩ := hqs call List.mem_cons_self
    have hone : s.drained ≤ 1 := hone
    have hrest := rest_request s.rpc call rest accepts
    have hsub := h.setDrain hd (if s.rpc.requestThrows (some call) accepts = true
      then .settled .failed call rest else .requested s.rpc.nextSequenceId call rest)
      (by rw [hrest]; exact List.sublist_cons_self _ _)
    refine hsub.asks (asked_request _ _ _) hask
      hcall (fun c hc => absurd (hn.symm.trans hc) (by simp)) (fun h0 => ?_)
      (fun i pc hi q hq => ?_)
    · have h0 : s.drained = 0 := h0
      omega
    · have hi : update s.drains d _ i = some pc := hi
      by_cases he : i = d
      · rw [he, Function.update_self] at hi
        obtain rfl := Option.some.inj hi
        have hq : q ∈ rest := hrest ▸ hq
        exact fun he => (List.nodup_cons.mp hnodup).1 (he ▸ List.mem_map_of_mem hq)
      · rw [Function.update_of_ne he] at hi
        have hlt' := (h.drains i pc hi).1
        omega
  | drained hd _ => exact (h.remove _).setDrain hd _ (.refl _)
  | breaks hd => exact h.setDrain hd _ (List.nil_sublist _)
  | close hrpc => exact (h.setRpc (asked_step hrpc (by simp)) _ _).rejectAll

end Single

/-- **The invariant**: there is at most one drain for each open, and with one
connection one request for a call. -/
structure Sending (s : Client) : Prop where
  wired : s.rpc.Wired
  writes : Rpc.WritesOnce (fun params : Option QueuedCall => params.isSome = true) s.rpc.log
  counted : s.resubscribing + s.drained ≤ (Rpc.openings s.rpc.log).length
  single : Rpc.Connected s.rpc.log → s.Single

namespace Sending

theorem init (autoConnect : Bool) (queue : List QueuedCall) :
    (init autoConnect queue).Sending where
  wired := .init autoConnect
  writes before j r after hlog := absurd hlog (by simp [Client.init, Rpc.init])
  counted := Nat.le_refl 0
  single _ := .init autoConnect queue

/-- The log grows with a step. -/
theorem log_of_step (hs : step s a = some s') : ∃ es, s'.rpc.log = s.rpc.log ++ es := by
  rcases step_rpc hs with hrpc | ⟨b, hrpc, -⟩
  · exact ⟨[], by rw [hrpc, List.append_nil]⟩
  · exact Rpc.log_grows hrpc

theorem counted_of_step (h : s.Sending) (hs : step s a = some s') :
    s'.resubscribing + s'.drained ≤ (Rpc.openings s'.rpc.log).length := by
  obtain ⟨es, hes⟩ := log_of_step hs
  have hgrows : (Rpc.openings s.rpc.log).length ≤ (Rpc.openings s'.rpc.log).length := by
    rw [hes, Rpc.openings_append, List.length_append]
    exact Nat.le_add_right _ _
  have hkeeps := Nat.le_trans h.counted hgrows
  cases step_some hs with
  | @opens held again rpc hrpc =>
    simp only [Rpc.step] at hrpc
    split at hrpc
    · next j _ _ =>
      obtain rfl := Option.some.inj hrpc
      have hmore : (if s.rpc.opensThrows again = true then s.resubscribing
          else s.resubscribing + 1) ≤ s.resubscribing + 1 := by
        split <;> omega
      show (if s.rpc.opensThrows again = true then s.resubscribing else s.resubscribing + 1)
        + s.drained ≤ (Rpc.openings (s.rpc.opens j held again).log).length
      rw [Rpc.openings_opens, List.length_append, List.length_singleton]
      calc _ ≤ s.resubscribing + 1 + s.drained := Nat.add_le_add_right hmore _
        _ = s.resubscribing + s.drained + 1 := Nat.add_right_comm _ _ _
        _ ≤ _ := Nat.add_le_add_right h.counted 1
    · exact absurd hrpc (by simp)
  | drain hr =>
    show s.resubscribing - 1 + (s.drained + 1) ≤ _
    omega
  | _ => exact hkeeps

/-- **Every step that replays no call under way keeps to it.** -/
theorem step (h : s.Sending) (hG : s.sendsOnce a = true) (hs : step s a = some s') :
    s'.Sending := by
  have hwired : s'.rpc.Wired := by
    rcases step_rpc hs with hrpc | ⟨b, hrpc, -⟩
    · exact hrpc ▸ h.wired
    · exact h.wired.step hrpc
  have hcounted := h.counted_of_step hs
  refine ⟨hwired, ?_, hcounted, fun hc => ?_⟩
  · rcases step_rpc hs with hrpc | ⟨b, hrpc, hholds⟩
    · exact hrpc ▸ h.writes
    · exact h.writes.step h.wired (hholds hG) hrpc
  · obtain ⟨es, hes⟩ := log_of_step hs
    have hone := hwired.openings_le_one hc
    exact (h.single (hes ▸ hc).of_append).step hG (by omega) hs

/-- A request is for one call only. -/
theorem request_unique (h : s.Single) {r r' : RpcRequest (Option QueuedCall)}
    (hr : .requested r ∈ s.rpc.log) (hr' : .requested r' ∈ s.rpc.log) {q q' : QueuedCall}
    (hq : r.params = some q) (hq' : r'.params = some q') (he : q.number = q'.number) :
    r = r' := by
  obtain ⟨before, after, hlog⟩ := List.append_of_mem hr
  have hone : asked [.requested r] = [q.number] := by
    simp [asked, hq]
  have hasked : asked s.rpc.log = asked before ++ q.number :: asked after := by
    rw [hlog, asked_append, ← List.singleton_append, asked_append, hone, List.singleton_append]
  have hnodup := List.nodup_middle.mp (hasked ▸ h.nodup)
  have hnone := (List.nodup_cons.mp hnodup).1
  rw [← asked_append] at hnone
  rw [hlog, List.mem_append, List.mem_cons, or_left_comm] at hr'
  rcases hr' with hr' | hr'
  · exact (RpcEvent.requested.inj hr').symm
  · exact absurd (mem_asked.mpr ⟨r', q', List.mem_append.mpr hr', hq', he.symm⟩) hnone

theorem sentOnce (h : s.Sending) : s.SentOnce := by
  refine ⟨h.writes, fun hc handled hhandled k => ?_⟩
  have hwrites := h.writes.pairwise_written (fun i r hr => hc i (h.wired.sockets.wrote i r hr))
  have hnodup : (s.written.map QueuedCall.number).Nodup := by
    rw [List.Nodup, List.pairwise_map, written, List.pairwise_filterMap]
    refine hwrites.imp_of_mem (fun {r r'} hr hr' hne q hq q' hq' he => ?_)
    obtain ⟨i, hi⟩ := Rpc.mem_written.mp hr
    obtain ⟨i', hi'⟩ := Rpc.mem_written.mp hr'
    refine hne (by rw [hq']; rfl) (request_unique (h.single hc) ?_ ?_ hq hq' he)
    · exact h.wired.known r (.inr (.inr ⟨_, hi, rfl⟩))
    · exact h.wired.known r' (.inr (.inr ⟨_, hi', rfl⟩))
  exact List.nodup_iff_count_le_one.mp (hnodup.sublist (hhandled.map _)) k

end Sending

/-- **Each call is sent once**, in every state of a run that replays no call that is
under way. -/
theorem sent_once (autoConnect : Bool) (queue : List QueuedCall) (as : List ClientAct)
    {s : Client}
    (hG : TransitionSystem.Along step (fun s a => s.sendsOnce a = true)
      (init autoConnect queue) as)
    (hrun : TransitionSystem.run step (init autoConnect queue) as = some s) : s.SentOnce :=
  (TransitionSystem.run_invariant step (P := Sending) (fun _ _ _ h hG hs => h.step hG hs)
    (.init autoConnect queue) hG hrun).sentOnce

/-- `addItem` on a cart. -/
def addItem (idempotencyKey : String) (enqueueWhenOffline : Bool) : ClientAct :=
  .call idempotencyKey "Cart" "cart-1" "addItem" (.str "A") enqueueWhenOffline true

/-- An entry of an earlier client. -/
def leftBehind : List QueuedCall := [⟨"left", "Cart", "cart-1", "addItem", .str "B", 0⟩]

/-- The connection is lost before the answers, and made again. -/
def throughLoss : List ClientAct :=
  [.opens 0 0, .drain, .drainNext 0 true, addItem "k" false, .closes false, .reconnect,
    .opens 0 2, .ingest 1 (.result .null), .drainResume 0, .ingest 2 (.result .null), .resume 1]

/-- The request for the entry and that of the call are sent again. -/
theorem sent_once_throughLoss :
    ∃ s, TransitionSystem.run step (init true leftBehind) throughLoss = some s
      ∧ s.SentOnce ∧ s.offlineQueue = [] :=
  ⟨_, rfl, sent_once true leftBehind throughLoss (by decide) rfl, rfl⟩

/-- The call is made while the socket connects: its frame is held, and its request is
pending. **It is written twice** when the socket opens. -/
theorem not_sent_once :
    ¬∀ (autoConnect : Bool) (queue : List QueuedCall) (as : List ClientAct) (s : Client),
      TransitionSystem.run step (init autoConnect queue) as = some s → s.SentOnce := by
  intro h
  have htwice := (h true [] [addItem "k" false, .opens 1 1] _ rfl).runs
  refine absurd (htwice (fun j _ hc => ?_) _ (.refl _) 0) (by decide)
  let call : QueuedCall := ⟨"k", "Cart", "cart-1", "addItem", .str "A", 0⟩
  have hc : .closed j ∈ ([.requested ⟨1, some call⟩, .opened 0, .wrote 0 ⟨1, some call⟩,
      .wrote 0 ⟨1, some call⟩] : List (RpcEvent (Option QueuedCall) Json)) := hc
  simp at hc

end Client
