import Actjs.Transition
import Mathlib.Data.List.Induction
import Mathlib.Data.List.Nodup

/-!
# The requests of a client

`Transport` has one socket at a time. A frame that is sent while the socket is not
open is held, and written at the next `open`; `RpcClient` keeps every request until
it is answered, and sends it again at each `open`. `Rpc` is the two together, with a
log of what came of the requests.

A request that is held is kept as well, so it is written twice at the next `open`.
`WritesOnce` is what holds of the requests that are never held then: each is written
to a socket once, and to a later one only where the earlier ones closed and it was
not answered.
-/

inductive TransportState where
  | idle
  | connecting
  /-- `open`. -/
  | opened
  | closed
deriving DecidableEq

/-- What is in `Transport`. Sockets are numbered in the order of their construction. -/
structure Transport (F : Type) where
  state : TransportState
  socket : Option ℕ
  /-- Frames held while the socket is not open. -/
  outbound : List F
  /-- How many timers for a reconnect are set. -/
  timers : ℕ
  destroyed : Bool
  /-- How many sockets there have been. -/
  sockets : ℕ

/-- What comes of `send`. -/
inductive Sent where
  | written (socket : ℕ)
  | queued
  | thrown

namespace Transport

variable {F : Type}

def init : Transport F := ⟨.idle, none, [], 0, false, 0⟩

/-- `connect`, of a transport that is not destroyed. -/
def connect (t : Transport F) : Transport F :=
  if t.state = .opened ∨ t.state = .connecting then t
  else { t with state := .connecting, socket := some t.sockets, sockets := t.sockets + 1 }

/-- The frame is held. -/
def push (t : Transport F) (frame : F) : Transport F :=
  { t with outbound := t.outbound ++ [frame] }

/-- `send`. `accepts` is whether the socket takes the frame, or throws. -/
def send (t : Transport F) (frame : F) (accepts : Bool) : Transport F × Sent :=
  match t.state, t.socket with
  | .opened, some j => (t, if accepts = true then .written j else .thrown)
  | .opened, none => (t.push frame, .queued)
  | .connecting, _ => (t.push frame, .queued)
  | _, _ =>
    -- `connect` throws once the transport is destroyed
    if t.destroyed = true then (t.push frame, .thrown) else ((t.push frame).connect, .queued)

/-- `handleOpen`: the socket takes so many of the frames that are held. The one that it
throws on is held again, and those after it are gone. -/
def handleOpen (t : Transport F) (accepts : ℕ) : Transport F :=
  { t with state := .opened, outbound := (t.outbound.drop accepts).take 1 }

/-- `handleClose`. A clean close has the code 1000. -/
def handleClose (t : Transport F) (clean : Bool) : Transport F :=
  { t with
    state := .closed
    socket := none
    timers := if t.destroyed = true ∨ clean = true then t.timers else t.timers + 1 }

/-- The timer of `scheduleReconnect` fires. -/
def reconnect (t : Transport F) : Transport F :=
  if t.destroyed = true then { t with timers := t.timers - 1 }
  else { t with timers := t.timers - 1 }.connect

/-- `destroy`. -/
def destroy (t : Transport F) : Transport F :=
  if t.destroyed = true then t
  else { t with destroyed := true, timers := t.timers - 1, outbound := [], state := .closed }

end Transport

/-- A request: its id, and what it is for. -/
structure RpcRequest (P : Type) where
  id : ℕ
  params : P
deriving DecidableEq

/-- The response to a request. An error of the framework has a code. -/
inductive RpcAnswer (A : Type) where
  | result (result : A)
  | error (frameworkCode : Option String)

/-- **What comes of the requests.** -/
inductive RpcEvent (P A : Type) where
  | requested (r : RpcRequest P)
  | opened (socket : ℕ)
  | closed (socket : ℕ)
  | wrote (socket : ℕ) (r : RpcRequest P)
  | answered (r : RpcRequest P) (answer : RpcAnswer A)

/-- `RpcClient`, and its transport. -/
structure Rpc (P A : Type) where
  transport : Transport (RpcRequest P)
  /-- The requests without an answer, in the order of their insertion. -/
  pending : List (RpcRequest P)
  nextSequenceId : ℕ
  log : List (RpcEvent P A)

/-- **What can happen to the requests next.** -/
inductive RpcAct (P A : Type) where
  | request (params : P) (accepts : Bool)
  /-- The socket opens. It takes so many of the frames that are held, and so many of
  those that are sent again. -/
  | opens (held again : ℕ)
  | closes (clean : Bool)
  | reconnect
  | ingest (id : ℕ) (answer : RpcAnswer A)
  | destroy

namespace Rpc

variable {P A : Type}

/-- `autoConnect` is whether the client connects on construction. -/
def init (autoConnect : Bool) : Rpc P A :=
  ⟨if autoConnect = true then Transport.init.connect else .init, [], 1, []⟩

/-- The request that is made next. -/
def nextRequest (rpc : Rpc P A) (params : P) : RpcRequest P := ⟨rpc.nextSequenceId, params⟩

/-- `request`. -/
def request (rpc : Rpc P A) (params : P) (accepts : Bool) : Rpc P A :=
  { transport := (rpc.transport.send (rpc.nextRequest params) accepts).1
    pending := rpc.pending ++ [rpc.nextRequest params]
    nextSequenceId := rpc.nextSequenceId + 1
    log := rpc.log ++ .requested (rpc.nextRequest params) ::
      match (rpc.transport.send (rpc.nextRequest params) accepts).2 with
      | .written j => [.wrote j (rpc.nextRequest params)]
      | _ => [] }

/-- The promise of `request` is rejected at once. -/
def requestThrows (rpc : Rpc P A) (params : P) (accepts : Bool) : Bool :=
  match (rpc.transport.send (rpc.nextRequest params) accepts).2 with
  | .thrown => true
  | _ => false

/-- The socket opens: the transport writes what it holds, and `handleOpen` sends every
pending request. -/
def opens (rpc : Rpc P A) (j held again : ℕ) : Rpc P A :=
  { rpc with
    transport := rpc.transport.handleOpen held
    log := rpc.log ++ .opened j ::
      (rpc.transport.outbound.take held ++ rpc.pending.take again).map (.wrote j) }

/-- `handleOpen` throws on a request that it sends again. -/
def opensThrows (rpc : Rpc P A) (again : ℕ) : Bool := again < rpc.pending.length

/-- The request was written to the socket that is open. -/
def reached (rpc : Rpc P A) (id : ℕ) : Bool :=
  rpc.transport.state = .opened && rpc.log.any (fun e =>
    match e with
    | .wrote j r => r.id = id && rpc.transport.socket = some j
    | _ => false)

/-- `ingest`, of a response. -/
def ingest (rpc : Rpc P A) (id : ℕ) (answer : RpcAnswer A) : Rpc P A :=
  match rpc.pending.find? (fun r => r.id = id) with
  | none => rpc
  | some r =>
    { rpc with
      pending := rpc.pending.filter (fun r => r.id ≠ id)
      log := rpc.log ++ [.answered r answer] }

def step (rpc : Rpc P A) : RpcAct P A → Option (Rpc P A)
  | .request params accepts => some (rpc.request params accepts)
  | .opens held again =>
    match rpc.transport.state, rpc.transport.socket with
    | .connecting, some j => some (rpc.opens j held again)
    | _, _ => none
  | .closes clean =>
    match rpc.transport.socket with
    | none => none
    | some j =>
      some { rpc with
        transport := rpc.transport.handleClose clean
        log := rpc.log ++ [.closed j] }
  | .reconnect =>
    if rpc.transport.timers = 0 then none
    else some { rpc with transport := rpc.transport.reconnect }
  | .ingest id answer => if rpc.reached id = true then some (rpc.ingest id answer) else none
  | .destroy => some { rpc with transport := rpc.transport.destroy, pending := [] }

end Rpc

namespace Transport

variable {F : Type} {t : Transport F} {frame : F} {accepts : Bool}

/-- **The socket and the state go together.** -/
structure Coherent (t : Transport F) : Prop where
  last : ∀ j, t.socket = some j → j + 1 = t.sockets
  live : t.destroyed = false →
    (t.socket.isSome = true ↔ t.state = .opened ∨ t.state = .connecting)
  dead : t.destroyed = true → t.state = .closed

theorem Coherent.init : (init : Transport F).Coherent where
  last j h := absurd h (by simp [Transport.init])
  live _ := by simp [Transport.init]
  dead h := absurd h (by simp [Transport.init])

theorem Coherent.connect (h : t.Coherent) (hd : t.destroyed = false) : t.connect.Coherent := by
  unfold Transport.connect
  split
  · exact h
  · refine ⟨fun j hj => ?_, fun _ => by simp, fun hd' => absurd (hd.symm.trans hd') (by simp)⟩
    exact congrArg (· + 1) (Option.some.inj hj).symm

theorem Coherent.push (h : t.Coherent) : (t.push frame).Coherent := ⟨h.last, h.live, h.dead⟩

/-- What `send` does. -/
inductive Sends (t : Transport F) (frame : F) : Transport F × Sent → Prop
  | written {j : ℕ} : t.state = .opened → t.socket = some j → Sends t frame (t, .written j)
  | refused : t.state = .opened → Sends t frame (t, .thrown)
  | held : Sends t frame (t.push frame, .queued)
  | connects : t.destroyed = false → Sends t frame ((t.push frame).connect, .queued)
  | tooLate : t.destroyed = true → Sends t frame (t.push frame, .thrown)

theorem sends (t : Transport F) (frame : F) (accepts : Bool) :
    Sends t frame (t.send frame accepts) := by
  unfold send
  split
  · next j hs hj =>
    cases accepts with
    | true => exact .written hs hj
    | false => exact .refused hs
  · exact .held
  · exact .held
  · split
    · next hd => exact .tooLate hd
    · next hd => exact .connects (Bool.eq_false_iff.mpr hd)

theorem Coherent.send (h : t.Coherent) : (t.send frame accepts).1.Coherent := by
  cases hs : t.send frame accepts with
  | mk t' sent =>
    cases hs ▸ sends t frame accepts with
    | written _ _ => exact h
    | refused _ => exact h
    | held => exact h.push
    | connects hd => exact h.push.connect hd
    | tooLate _ => exact h.push

theorem coherent_handleClose (t : Transport F) (clean : Bool) :
    (t.handleClose clean).Coherent where
  last j hj := absurd hj (by simp [Transport.handleClose])
  live _ := by simp [Transport.handleClose]
  dead _ := rfl

theorem Coherent.reconnect (h : t.Coherent) : t.reconnect.Coherent := by
  unfold Transport.reconnect
  split
  · exact ⟨h.last, h.live, h.dead⟩
  · next hd =>
    have h' : ({ t with timers := t.timers - 1 } : Transport F).Coherent :=
      ⟨h.last, h.live, h.dead⟩
    exact h'.connect (Bool.eq_false_iff.mpr hd)

theorem Coherent.destroy (h : t.Coherent) : t.destroy.Coherent := by
  unfold Transport.destroy
  split
  · exact h
  · exact ⟨h.last, fun hd => absurd hd (by simp), fun _ => rfl⟩

/-- The socket is the same, or a new one where there was none. -/
inductive Resocketed (t t' : Transport F) : Prop
  | same : t'.socket = t.socket → t'.state = t.state → t'.sockets = t.sockets →
      t'.destroyed = t.destroyed → Resocketed t t'
  | fresh : t.socket = none → t'.socket = some t.sockets → t'.state = .connecting →
      t'.sockets = t.sockets + 1 → t'.destroyed = t.destroyed → Resocketed t t'

theorem Coherent.resocketed_connect (h : t.Coherent) (hd : t.destroyed = false) :
    t.Resocketed t.connect := by
  unfold Transport.connect
  split
  · exact .same rfl rfl rfl rfl
  · next hs =>
    refine .fresh ?_ rfl rfl rfl rfl
    rw [← Option.not_isSome_iff_eq_none, h.live hd]
    exact hs

theorem Coherent.resocketed_send (h : t.Coherent) (frame : F) (accepts : Bool) :
    t.Resocketed (t.send frame accepts).1 := by
  cases hs : t.send frame accepts with
  | mk t' sent =>
    cases hs ▸ sends t frame accepts with
    | written _ _ => exact .same rfl rfl rfl rfl
    | refused _ => exact .same rfl rfl rfl rfl
    | held => exact .same rfl rfl rfl rfl
    | tooLate _ => exact .same rfl rfl rfl rfl
    | connects hd =>
      cases h.push.resocketed_connect hd with
      | same h₁ h₂ h₃ h₄ => exact .same h₁ h₂ h₃ h₄
      | fresh h₁ h₂ h₃ h₄ h₅ => exact .fresh h₁ h₂ h₃ h₄ h₅

theorem Coherent.resocketed_reconnect (h : t.Coherent) : t.Resocketed t.reconnect := by
  unfold Transport.reconnect
  split
  · exact .same rfl rfl rfl rfl
  · next hd =>
    have h' : ({ t with timers := t.timers - 1 } : Transport F).Coherent :=
      ⟨h.last, h.live, h.dead⟩
    cases h'.resocketed_connect (Bool.eq_false_iff.mpr hd) with
    | same h₁ h₂ h₃ h₄ => exact .same h₁ h₂ h₃ h₄
    | fresh h₁ h₂ h₃ h₄ h₅ => exact .fresh h₁ h₂ h₃ h₄ h₅

/-- What is held after `send`: nothing but what was, and the frame. -/
theorem outbound_send {f : F} (hf : f ∈ (t.send frame accepts).1.outbound) :
    f ∈ t.outbound ∨ f = frame := by
  have hpush : f ∈ (t.push frame).outbound → f ∈ t.outbound ∨ f = frame := by
    intro hf
    exact (List.mem_append.mp hf).imp id List.mem_singleton.mp
  cases hs : t.send frame accepts with
  | mk t' sent =>
    rw [hs] at hf
    cases hs ▸ sends t frame accepts with
    | written _ _ => exact .inl hf
    | refused _ => exact .inl hf
    | held => exact hpush hf
    | tooLate _ => exact hpush hf
    | connects _ =>
      refine hpush ?_
      unfold Transport.connect at hf
      split at hf <;> exact hf

end Transport

/-! ## What is written

`WritesOnce` is about a list of requests of which none is ever held by the
transport. `Wired` holds of every run, and says where a request is known and
until when. -/

/-- The request of the event. -/
def RpcEvent.request? {P A : Type} : RpcEvent P A → Option (RpcRequest P)
  | requested r => some r
  | opened _ => none
  | closed _ => none
  | wrote _ r => some r
  | answered r _ => some r

/-- The socket that opens. -/
def RpcEvent.opening? {P A : Type} : RpcEvent P A → Option ℕ
  | opened j => some j
  | _ => none

namespace Rpc

variable {P A : Type} {rpc rpc' : Rpc P A} {log : List (RpcEvent P A)} {r : RpcRequest P} {j : ℕ}

/-- The sockets that opened. -/
def openings (log : List (RpcEvent P A)) : List ℕ := log.filterMap RpcEvent.opening?

theorem openings_append (log es : List (RpcEvent P A)) :
    openings (log ++ es) = openings log ++ openings es := List.filterMap_append

theorem mem_openings : j ∈ openings log ↔ .opened j ∈ log := by
  unfold openings
  rw [List.mem_filterMap]
  constructor
  · rintro ⟨e, he, hj⟩
    cases e with
    | opened i => exact Option.some.inj hj ▸ he
    | _ => exact absurd hj (by simp [RpcEvent.opening?])
  · exact fun h => ⟨_, h, rfl⟩

/-- The request may be written to the socket: it has no answer, and every socket that
it was written to is an earlier one, and closed. -/
structure MayWrite (log : List (RpcEvent P A)) (j : ℕ) (r : RpcRequest P) : Prop where
  unanswered : ∀ answer, .answered r answer ∉ log
  before : ∀ i, .wrote i r ∈ log → i < j ∧ .closed i ∈ log

/-- **Each of these requests is written once**: to one socket at most once, and to a
later one only after the earlier ones closed, and without an answer. -/
def WritesOnce (these : P → Prop) (log : List (RpcEvent P A)) : Prop :=
  ∀ before j r after, log = before ++ .wrote j r :: after → these r.params → MayWrite before j r

/-- **A socket opens once**, is written to while it is open, and then closes. -/
structure Sockets (t : Transport (RpcRequest P)) (log : List (RpcEvent P A)) : Prop where
  closed : ∀ i, .closed i ∈ log → i < t.sockets ∧ t.socket ≠ some i
  opened : ∀ i, .opened i ∈ log → .closed i ∈ log
    ∨ t.socket = some i ∧ (t.state = .opened ∨ t.destroyed = true)
  wrote : ∀ i r, .wrote i r ∈ log → .opened i ∈ log
  current : ∀ i, t.state = .opened → t.socket = some i → .opened i ∈ log
  once : (openings log).Nodup

/-- **A request is known from when it was made**, and pending until it is answered. -/
structure Wired (rpc : Rpc P A) : Prop where
  coherent : rpc.transport.Coherent
  sockets : Sockets rpc.transport rpc.log
  fresh : ∀ r, .requested r ∈ rpc.log → r.id < rpc.nextSequenceId
  known : ∀ r, r ∈ rpc.pending ∨ r ∈ rpc.transport.outbound
    ∨ (∃ e ∈ rpc.log, e.request? = some r) → .requested r ∈ rpc.log
  nodup : (rpc.pending.map RpcRequest.id).Nodup
  unanswered : ∀ r ∈ rpc.pending, ∀ answer, .answered r answer ∉ rpc.log

namespace Sockets

variable {t t' : Transport (RpcRequest P)}

theorem resocketed (h : Sockets t log) (ht : t.Resocketed t') : Sockets t' log := by
  cases ht with
  | same hsocket hstate hsockets hdestroyed =>
    refine ⟨fun i hi => ?_, fun i hi => ?_, h.wrote, fun i hi => ?_, h.once⟩
    · rw [hsocket, hsockets]
      exact h.closed i hi
    · rw [hsocket, hstate, hdestroyed]
      exact h.opened i hi
    · rw [hsocket]
      exact h.current i (hstate ▸ hi)
  | fresh hnone hsocket hstate hsockets _ =>
    refine ⟨fun i hi => ?_, fun i hi => ?_, h.wrote, fun i hi => ?_, h.once⟩
    · have hlt := (h.closed i hi).1
      rw [hsocket, hsockets]
      exact ⟨by omega, fun he => absurd (Option.some.inj he) (by omega)⟩
    · rcases h.opened i hi with hc | ⟨hs, -⟩
      · exact .inl hc
      · exact absurd (hnone.symm.trans hs) (by simp)
    · exact absurd (hstate.symm.trans hi) (by decide)

/-- The log grows, and no socket opens or closes. -/
theorem append (h : Sockets t log) {es : List (RpcEvent P A)}
    (hquiet : ∀ i, .closed i ∉ es ∧ .opened i ∉ es)
    (hw : ∀ i r, .wrote i r ∈ es → .opened i ∈ log) : Sockets t (log ++ es) := by
  have hes : openings es = [] :=
    List.eq_nil_iff_forall_not_mem.mpr (fun i hi => (hquiet i).2 (mem_openings.mp hi))
  refine ⟨fun i hi => ?_, fun i hi => ?_, fun i r hr => ?_, fun i ho hs => ?_, ?_⟩
  · exact h.closed i ((List.mem_append.mp hi).resolve_right (hquiet i).1)
  · have hi := (List.mem_append.mp hi).resolve_right (hquiet i).2
    exact (h.opened i hi).imp (List.mem_append_left _) id
  · exact List.mem_append_left _ ((List.mem_append.mp hr).elim (h.wrote i r) (hw i r))
  · exact List.mem_append_left _ (h.current i ho hs)
  · rw [openings_append, hes, List.append_nil]
    exact h.once

end Sockets

/-- What a request adds to the log. -/
theorem log_request (rpc : Rpc P A) (params : P) (accepts : Bool) :
    (rpc.request params accepts).log = rpc.log ++ [.requested (rpc.nextRequest params)]
      ∨ ∃ j, rpc.transport.socket = some j ∧ rpc.transport.state = .opened
        ∧ (rpc.transport.send (rpc.nextRequest params) accepts).1 = rpc.transport
        ∧ (rpc.request params accepts).log = rpc.log
          ++ [.requested (rpc.nextRequest params), .wrote j (rpc.nextRequest params)] := by
  unfold request
  dsimp only
  cases hs : rpc.transport.send (rpc.nextRequest params) accepts with
  | mk t' sent =>
    cases hs ▸ Transport.sends rpc.transport (rpc.nextRequest params) accepts with
    | written hstate hsocket => exact .inr ⟨_, hsocket, hstate, rfl, rfl⟩
    | refused _ => exact .inl rfl
    | held => exact .inl rfl
    | tooLate _ => exact .inl rfl
    | connects _ => exact .inl rfl

/-- What an open adds to the log. -/
theorem mem_log_opens {held again : ℕ} {e : RpcEvent P A}
    (he : e ∈ (rpc.opens j held again).log) : e ∈ rpc.log ∨ e = .opened j
      ∨ ∃ r ∈ rpc.transport.outbound.take held ++ rpc.pending.take again, e = .wrote j r := by
  refine (List.mem_append.mp he).imp id (fun he => (List.mem_cons.mp he).imp id (fun he => ?_))
  obtain ⟨r, hr, rfl⟩ := List.mem_map.mp he
  exact ⟨r, hr, rfl⟩

theorem openings_opens (rpc : Rpc P A) (j held again : ℕ) :
    openings (rpc.opens j held again).log = openings rpc.log ++ [j] := by
  have hnone : openings ((rpc.transport.outbound.take held ++ rpc.pending.take again).map
      (.wrote j) : List (RpcEvent P A)) = [] := by
    refine List.eq_nil_iff_forall_not_mem.mpr (fun i hi => ?_)
    obtain ⟨r, -, he⟩ := List.mem_map.mp (mem_openings.mp hi)
    exact absurd he (by simp)
  calc openings (rpc.opens j held again).log
      = openings rpc.log ++ j :: openings ((rpc.transport.outbound.take held
          ++ rpc.pending.take again).map (.wrote j) : List (RpcEvent P A)) :=
        openings_append _ _
    _ = openings rpc.log ++ [j] := by rw [hnone]

namespace Wired

/-- The request that is made next is not known yet. -/
theorem not_mem_log (h : rpc.Wired) {params : P} {e : RpcEvent P A} (he : e ∈ rpc.log) :
    e.request? ≠ some (rpc.nextRequest params) := by
  intro hr
  have hlt := h.fresh _ (h.known _ (.inr (.inr ⟨e, he, hr⟩)))
  exact absurd hlt (Nat.lt_irrefl _)

theorem init (autoConnect : Bool) : (init autoConnect : Rpc P A).Wired := by
  have hcoherent : (Rpc.init autoConnect : Rpc P A).transport.Coherent := by
    cases autoConnect with
    | false => exact .init
    | true => exact Transport.Coherent.init.connect rfl
  have hout : (Rpc.init autoConnect : Rpc P A).transport.outbound = [] := by
    cases autoConnect <;> rfl
  have hstate : (Rpc.init autoConnect : Rpc P A).transport.state ≠ .opened := by
    cases autoConnect <;> simp [Rpc.init, Transport.init, Transport.connect]
  refine ⟨hcoherent, ⟨fun i hi => absurd hi List.not_mem_nil,
    fun i hi => absurd hi List.not_mem_nil, fun i r hr => absurd hr List.not_mem_nil,
    fun i hi => absurd hi hstate, .nil⟩, fun r hr => absurd hr List.not_mem_nil, ?_, .nil,
    fun r hr => absurd hr List.not_mem_nil⟩
  rintro r (hr | hr | ⟨e, he, -⟩)
  · exact absurd hr List.not_mem_nil
  · exact absurd (hout ▸ hr) List.not_mem_nil
  · exact absurd he List.not_mem_nil

/-- What is in the log after a request. -/
theorem mem_log_request {params : P} {accepts : Bool} {e : RpcEvent P A} :
    e ∈ (rpc.request params accepts).log → e ∈ rpc.log
      ∨ e = .requested (rpc.nextRequest params)
      ∨ ∃ j, e = .wrote j (rpc.nextRequest params) := by
  intro he
  rcases log_request rpc params accepts with hlog | ⟨j, -, -, -, hlog⟩
  · rw [hlog] at he
    exact (List.mem_append.mp he).imp id (fun he => .inl (List.mem_singleton.mp he))
  · rw [hlog] at he
    refine (List.mem_append.mp he).imp id (fun he => ?_)
    exact (List.mem_cons.mp he).imp id (fun he => ⟨j, List.mem_singleton.mp he⟩)

theorem request (h : rpc.Wired) (params : P) (accepts : Bool) :
    (rpc.request params accepts).Wired := by
  have hold : ∀ e ∈ rpc.log, e ∈ (rpc.request params accepts).log :=
    fun e he => List.mem_append_left _ he
  have hnew : .requested (rpc.nextRequest params) ∈ (rpc.request params accepts).log :=
    List.mem_append_right _ List.mem_cons_self
  refine ⟨h.coherent.send, ?_, fun r hr => ?_, ?_, ?_, ?_⟩
  · have hsockets := h.sockets.resocketed
      (h.coherent.resocketed_send (rpc.nextRequest params) accepts)
    rcases log_request rpc params accepts with hl | ⟨j, hs, ho, -, hl⟩
    · rw [hl]
      exact hsockets.append (by simp) (by simp)
    · rw [hl]
      refine hsockets.append (by simp) (fun i r hr => ?_)
      obtain ⟨rfl, -⟩ : i = j ∧ r = rpc.nextRequest params := by simpa using hr
      exact h.sockets.current i ho hs
  · show r.id < rpc.nextSequenceId + 1
    rcases mem_log_request hr with hr | hr | ⟨j, hr⟩
    · exact Nat.lt_succ_of_lt (h.fresh r hr)
    · exact RpcEvent.requested.inj hr ▸ Nat.lt_succ_self _
    · exact absurd hr (by simp)
  · rintro r (hr | hr | ⟨e, he, hr⟩)
    · rcases List.mem_append.mp hr with hr | hr
      · exact hold _ (h.known r (.inl hr))
      · exact List.mem_singleton.mp hr ▸ hnew
    · rcases Transport.outbound_send hr with hr | rfl
      · exact hold _ (h.known r (.inr (.inl hr)))
      · exact hnew
    · rcases mem_log_request he with he | rfl | ⟨j, rfl⟩
      · exact hold _ (h.known r (.inr (.inr ⟨e, he, hr⟩)))
      · exact Option.some.inj hr ▸ hnew
      · exact Option.some.inj hr ▸ hnew
  · show ((rpc.pending ++ [rpc.nextRequest params]).map RpcRequest.id).Nodup
    rw [List.map_append, List.nodup_append]
    refine ⟨h.nodup, List.nodup_singleton _, fun i hi i' hi' => ?_⟩
    obtain ⟨r, hr, rfl⟩ := List.mem_map.mp hi
    obtain rfl := List.mem_singleton.mp hi'
    exact Nat.ne_of_lt (h.fresh r (h.known r (.inl hr)))
  · intro r hr answer he
    rcases mem_log_request he with he | he | ⟨j, he⟩
    · rcases List.mem_append.mp hr with hr | hr
      · exact h.unanswered r hr answer he
      · exact h.not_mem_log he (congrArg some (List.mem_singleton.mp hr))
    · exact absurd he (by simp)
    · exact absurd he (by simp)

/-- A socket that is connecting has not opened. -/
theorem not_opened (h : rpc.Wired) (hstate : rpc.transport.state = .connecting)
    (hsocket : rpc.transport.socket = some j) : .opened j ∉ rpc.log := by
  intro hj
  rcases h.sockets.opened j hj with hc | ⟨-, ho | hd⟩
  · exact (h.sockets.closed j hc).2 hsocket
  · exact absurd (hstate.symm.trans ho) (by decide)
  · exact absurd (hstate.symm.trans (h.coherent.dead hd)) (by decide)

/-- While a socket is connecting, those that opened have closed. -/
theorem closed_of_connecting (h : rpc.Wired) (hstate : rpc.transport.state = .connecting) {i : ℕ}
    (hi : .opened i ∈ rpc.log) : .closed i ∈ rpc.log := by
  refine (h.sockets.opened i hi).resolve_right (fun hs => ?_)
  rcases hs.2 with ho | hd
  · exact absurd (hstate.symm.trans ho) (by decide)
  · exact absurd (hstate.symm.trans (h.coherent.dead hd)) (by decide)

theorem opens (h : rpc.Wired) (hstate : rpc.transport.state = .connecting)
    (hsocket : rpc.transport.socket = some j) (held again : ℕ) :
    (rpc.opens j held again).Wired := by
  have hold : ∀ e ∈ rpc.log, e ∈ (rpc.opens j held again).log :=
    fun e he => List.mem_append_left _ he
  have hopened : .opened j ∈ (rpc.opens j held again).log :=
    List.mem_append_right _ List.mem_cons_self
  have hwrites : ∀ r ∈ rpc.transport.outbound.take held ++ rpc.pending.take again,
      .requested r ∈ rpc.log := by
    intro r hr
    rcases List.mem_append.mp hr with hr | hr
    · exact h.known r (.inr (.inl (List.mem_of_mem_take hr)))
    · exact h.known r (.inl (List.mem_of_mem_take hr))
  refine ⟨⟨h.coherent.last, fun _ => ?_, fun hd => ?_⟩,
    ⟨fun i hi => h.sockets.closed i ?_, fun i hi => ?_, fun i r hr => ?_, fun i _ hi => ?_, ?_⟩,
    fun r hr => ?_, ?_, h.nodup, ?_⟩
  · show rpc.transport.socket.isSome = true ↔ _
    rw [hsocket]
    exact iff_of_true rfl (.inl rfl)
  · exact absurd (hstate.symm.trans (h.coherent.dead hd)) (by decide)
  · rcases mem_log_opens hi with hi | hi | ⟨r, -, hi⟩
    · exact hi
    · exact absurd hi (by simp)
    · exact absurd hi (by simp)
  · rcases mem_log_opens hi with hi | hi | ⟨r, -, hi⟩
    · exact .inl (hold _ (h.closed_of_connecting hstate hi))
    · exact .inr ⟨RpcEvent.opened.inj hi ▸ hsocket, .inl rfl⟩
    · exact absurd hi (by simp)
  · rcases mem_log_opens hr with hr | hr | ⟨r', -, hr⟩
    · exact hold _ (h.sockets.wrote i r hr)
    · exact absurd hr (by simp)
    · exact (RpcEvent.wrote.inj hr).1 ▸ hopened
  · exact Option.some.inj (hsocket.symm.trans hi) ▸ hopened
  · rw [openings_opens, List.nodup_append]
    refine ⟨h.sockets.once, List.nodup_singleton _, fun i hi i' hi' he => ?_⟩
    obtain rfl := List.mem_singleton.mp hi'
    exact h.not_opened hstate hsocket (mem_openings.mp (he ▸ hi))
  · rcases mem_log_opens hr with hr | hr | ⟨r', -, hr⟩
    · exact h.fresh r hr
    · exact absurd hr (by simp)
    · exact absurd hr (by simp)
  · rintro r (hr | hr | ⟨e, he, hr⟩)
    · exact hold _ (h.known r (.inl hr))
    · exact hold _ (h.known r (.inr (.inl (List.mem_of_mem_drop (List.mem_of_mem_take hr)))))
    · rcases mem_log_opens he with he | rfl | ⟨r', hr', rfl⟩
      · exact hold _ (h.known r (.inr (.inr ⟨e, he, hr⟩)))
      · exact absurd hr (by simp [RpcEvent.request?])
      · exact hold _ (Option.some.inj hr ▸ hwrites r' hr')
  · intro r hr answer he
    rcases mem_log_opens he with he | he | ⟨r', -, he⟩
    · exact h.unanswered r hr answer he
    · exact absurd he (by simp)
    · exact absurd he (by simp)

theorem closes (h : rpc.Wired) (hsocket : rpc.transport.socket = some j) (clean : Bool) :
    ({ rpc with
      transport := rpc.transport.handleClose clean
      log := rpc.log ++ [.closed j] } : Rpc P A).Wired := by
  have hmem : ∀ e ∈ rpc.log ++ [.closed j], e ∈ rpc.log ∨ e = .closed j := fun e he =>
    (List.mem_append.mp he).imp id List.mem_singleton.mp
  refine ⟨Transport.coherent_handleClose _ _,
    ⟨fun i hi => ⟨?_, by simp [Transport.handleClose]⟩, fun i hi => .inl ?_, fun i r hr => ?_,
      fun i hi => absurd hi (by simp [Transport.handleClose]), ?_⟩,
    fun r hr => ?_, ?_, h.nodup, fun r hr answer he => ?_⟩
  · show i < rpc.transport.sockets
    rcases hmem _ hi with hi | hi
    · exact (h.sockets.closed i hi).1
    · obtain rfl := RpcEvent.closed.inj hi
      have := h.coherent.last _ hsocket
      omega
  · rcases hmem _ hi with hi | hi
    · refine List.mem_append.mpr ((h.sockets.opened i hi).imp id (fun hs => ?_))
      obtain rfl := Option.some.inj (hs.1.symm.trans hsocket)
      exact List.mem_singleton_self _
    · exact absurd hi (by simp)
  · rcases hmem _ hr with hr | hr
    · exact List.mem_append_left _ (h.sockets.wrote i r hr)
    · exact absurd hr (by simp)
  · show (openings (rpc.log ++ [.closed j])).Nodup
    rw [openings_append]
    exact (List.append_nil _).symm ▸ h.sockets.once
  · rcases hmem _ hr with hr | hr
    · exact h.fresh r hr
    · exact absurd hr (by simp)
  · intro r hr
    refine List.mem_append_left _ (h.known r ?_)
    rcases hr with hr | hr | ⟨e, he, hr⟩
    · exact .inl hr
    · exact .inr (.inl hr)
    · rcases hmem e he with he | rfl
      · exact .inr (.inr ⟨e, he, hr⟩)
      · exact absurd hr (by simp [RpcEvent.request?])
  · rcases hmem _ he with he | he
    · exact h.unanswered r hr answer he
    · exact absurd he (by simp)

/-- A timer changes nothing of the requests. -/
theorem reconnect (h : rpc.Wired) :
    ({ rpc with transport := rpc.transport.reconnect } : Rpc P A).Wired := by
  have hout : rpc.transport.reconnect.outbound = rpc.transport.outbound := by
    unfold Transport.reconnect Transport.connect
    split
    · rfl
    · split <;> rfl
  refine ⟨h.coherent.reconnect, h.sockets.resocketed h.coherent.resocketed_reconnect,
    h.fresh, ?_, h.nodup, h.unanswered⟩
  show ∀ r, r ∈ rpc.pending ∨ r ∈ rpc.transport.reconnect.outbound ∨ _ → _
  rw [hout]
  exact h.known

theorem ingest (h : rpc.Wired) (id : ℕ) (answer : RpcAnswer A) :
    (rpc.ingest id answer).Wired := by
  unfold Rpc.ingest
  split
  · exact h
  next r₀ hr₀ =>
  obtain rfl : r₀.id = id := by simpa using List.find?_some hr₀
  refine ⟨h.coherent, h.sockets.append (by simp) (by simp), fun r hr => ?_, ?_, ?_,
    fun r hr answer' he => ?_⟩
  · exact h.fresh r ((List.mem_append.mp hr).resolve_right (by simp))
  · intro r hr
    refine List.mem_append_left _ ?_
    rcases hr with hr | hr | ⟨e, he, hr⟩
    · exact h.known r (.inl (List.mem_of_mem_filter hr))
    · exact h.known r (.inr (.inl hr))
    · rcases List.mem_append.mp he with he | he
      · exact h.known r (.inr (.inr ⟨e, he, hr⟩))
      · obtain rfl := List.mem_singleton.mp he
        obtain rfl := Option.some.inj hr
        exact h.known _ (.inl (List.mem_of_find?_eq_some hr₀))
  · exact h.nodup.sublist (List.filter_sublist.map _)
  · obtain ⟨hr, hne⟩ := List.mem_filter.mp hr
    rcases List.mem_append.mp he with he | he
    · exact h.unanswered r hr answer' he
    · obtain ⟨rfl, -⟩ := RpcEvent.answered.inj (List.mem_singleton.mp he)
      exact absurd hne (by simp)

theorem destroy (h : rpc.Wired) :
    ({ rpc with transport := rpc.transport.destroy, pending := [] } : Rpc P A).Wired := by
  refine ⟨h.coherent.destroy, ?_, h.fresh, ?_, .nil, fun r hr => absurd hr List.not_mem_nil⟩
  · unfold Transport.destroy
    split
    · exact h.sockets
    · exact ⟨h.sockets.closed,
        fun i hi => (h.sockets.opened i hi).imp id (fun hs => ⟨hs.1, .inr rfl⟩),
        h.sockets.wrote, fun i hi => absurd hi (by simp), h.sockets.once⟩
  · rintro r (hr | hr | he)
    · exact absurd hr List.not_mem_nil
    · refine h.known r (.inr (.inl ?_))
      unfold Transport.destroy at hr
      dsimp only at hr
      split at hr
      · exact hr
      · exact absurd hr List.not_mem_nil
    · exact h.known r (.inr (.inr he))

/-- **Every step keeps to it.** -/
theorem step {a : RpcAct P A} (h : rpc.Wired) (hs : step rpc a = some rpc') : rpc'.Wired := by
  cases a with
  | request params accepts => exact Option.some.inj hs ▸ h.request params accepts
  | opens held again =>
    simp only [Rpc.step] at hs
    split at hs
    · next j hstate hsocket => exact Option.some.inj hs ▸ h.opens hstate hsocket held again
    · exact absurd hs (by simp)
  | closes clean =>
    simp only [Rpc.step] at hs
    split at hs
    · exact absurd hs (by simp)
    · next j hsocket => exact Option.some.inj hs ▸ h.closes hsocket clean
  | reconnect =>
    simp only [Rpc.step] at hs
    split at hs
    · exact absurd hs (by simp)
    · exact Option.some.inj hs ▸ h.reconnect
  | ingest id answer =>
    simp only [Rpc.step] at hs
    split at hs
    · exact Option.some.inj hs ▸ h.ingest id answer
    · exact absurd hs (by simp)
  | destroy => exact Option.some.inj hs ▸ h.destroy

end Wired

/-! ## Writing once

Along a run in which none of the requests is held, each is written to a socket
when it is made, or when the socket opens, and never for both reasons to one
socket. -/

/-- **No request of these is held when the socket opens.** -/
def holdsNone (these : P → Prop) (rpc : Rpc P A) : RpcAct P A → Prop
  | .opens _ _ => ∀ r ∈ rpc.transport.outbound, ¬these r.params
  | _ => True

theorem MayWrite.append (h : MayWrite log j r) {es : List (RpcEvent P A)}
    (ha : ∀ answer, .answered r answer ∉ es) (hw : ∀ i, .wrote i r ∉ es) :
    MayWrite (log ++ es) j r where
  unanswered answer he := (List.mem_append.mp he).elim (h.unanswered answer) (ha answer)
  before i he := by
    obtain ⟨hlt, hc⟩ := h.before i ((List.mem_append.mp he).resolve_right (hw i))
    exact ⟨hlt, List.mem_append_left _ hc⟩

namespace WritesOnce

variable {these : P → Prop}

theorem concat (h : WritesOnce these log) {e : RpcEvent P A}
    (he : ∀ j r, e = .wrote j r → these r.params → MayWrite log j r) :
    WritesOnce these (log ++ [e]) := by
  intro before j r after hsplit hr
  rcases List.eq_nil_or_concat after with rfl | ⟨after, e', rfl⟩
  · obtain ⟨rfl, hlast⟩ := List.append_inj' hsplit rfl
    exact he j r (List.head_eq_of_cons_eq hlast) hr
  · rw [List.concat_eq_append, ← List.cons_append, ← List.append_assoc] at hsplit
    obtain ⟨hlog, -⟩ := List.append_inj' hsplit rfl
    exact h before j r after hlog hr

/-- So many requests are written to the socket, none of them twice. -/
theorem writes (h : WritesOnce these log) {rs : List (RpcRequest P)}
    (hmay : ∀ r ∈ rs, these r.params → MayWrite log j r)
    (hrs : rs.Pairwise (fun r r' => these r'.params → r ≠ r')) :
    WritesOnce these (log ++ rs.map (.wrote j)) := by
  induction rs using List.reverseRecOn with
  | nil => simpa using h
  | append_singleton rs r ih =>
    obtain ⟨hrs, -, hlast⟩ := List.pairwise_append.mp hrs
    rw [List.map_append, ← List.append_assoc]
    refine (ih (fun r' hr' => hmay r' (List.mem_append_left _ hr')) hrs).concat ?_
    intro j' r' he hr'
    obtain ⟨rfl, rfl⟩ := RpcEvent.wrote.inj he
    refine (hmay r (List.mem_append_right _ List.mem_cons_self) hr').append (by simp) ?_
    intro i hi
    obtain ⟨r', hr'', he⟩ := List.mem_map.mp hi
    exact hlast r' hr'' r List.mem_cons_self hr' (RpcEvent.wrote.inj he).2

/-- A request that is made may be written. -/
theorem request (h : WritesOnce these rpc.log) (hw : rpc.Wired) (params : P) (accepts : Bool) :
    WritesOnce these (rpc.request params accepts).log := by
  have hmade : WritesOnce these (rpc.log ++ [.requested (rpc.nextRequest params)]) :=
    h.concat (by simp)
  rcases log_request rpc params accepts with hlog | ⟨j, -, -, -, hlog⟩
  · rw [hlog]
    exact hmade
  · rw [hlog]
    show WritesOnce these (rpc.log ++ ([.requested (rpc.nextRequest params)]
      ++ [.wrote j (rpc.nextRequest params)]))
    rw [← List.append_assoc]
    refine hmade.concat (fun j' r he _ => ?_)
    obtain ⟨rfl, rfl⟩ := RpcEvent.wrote.inj he
    have hmay : MayWrite rpc.log j (rpc.nextRequest params) :=
      ⟨fun answer he => hw.not_mem_log he rfl, fun i he => absurd rfl (hw.not_mem_log he)⟩
    exact hmay.append (by simp) (by simp)

/-- With none of these requests held, those that are sent again are written once. -/
theorem opens (h : WritesOnce these rpc.log) (hw : rpc.Wired)
    (hstate : rpc.transport.state = .connecting) (hsocket : rpc.transport.socket = some j)
    (hnone : ∀ r ∈ rpc.transport.outbound, ¬these r.params) (held again : ℕ) :
    WritesOnce these (rpc.opens j held again).log := by
  have hopened : WritesOnce these (rpc.log ++ [.opened j]) := h.concat (by simp)
  show WritesOnce these (rpc.log ++ ([.opened j] ++ _))
  rw [← List.append_assoc]
  refine hopened.writes (fun r hr hthese => ?_) ?_
  · have hr : r ∈ rpc.pending := by
      rcases List.mem_append.mp hr with hr | hr
      · exact absurd hthese (hnone r (List.mem_of_mem_take hr))
      · exact List.mem_of_mem_take hr
    refine MayWrite.append ⟨hw.unanswered r hr, fun i hi => ?_⟩ (by simp) (by simp)
    -- the earlier socket is not the one that is connecting
    have hclosed := hw.closed_of_connecting hstate (hw.sockets.wrote i r hi)
    obtain ⟨hlt, hne⟩ := hw.sockets.closed i hclosed
    have hlast := hw.coherent.last j hsocket
    have hij : i ≠ j := fun he => hne (he ▸ hsocket)
    exact ⟨by omega, hclosed⟩
  · rw [List.pairwise_append]
    refine ⟨?_, ?_, fun r hr r' hr' hthese he => ?_⟩
    · refine List.pairwise_of_forall_mem_list (fun r _ r' hr' hthese => ?_)
      exact absurd hthese (hnone r' (List.mem_of_mem_take hr'))
    · have hnodup : (rpc.pending.take again).Pairwise (· ≠ ·) :=
        (List.Nodup.of_map _ hw.nodup).sublist (List.take_sublist again _)
      exact hnodup.imp (fun {r r'} hne (_ : these r'.params) => hne)
    · exact hnone r (List.mem_of_mem_take hr) (he ▸ hthese)

/-- **Every step keeps to it.** -/
theorem step {a : RpcAct P A} (h : WritesOnce these rpc.log) (hw : rpc.Wired)
    (hG : rpc.holdsNone these a) (hs : Rpc.step rpc a = some rpc') :
    WritesOnce these rpc'.log := by
  cases a with
  | request params accepts => exact Option.some.inj hs ▸ h.request hw params accepts
  | opens held again =>
    simp only [Rpc.step] at hs
    split at hs
    · next j hstate hsocket =>
      exact Option.some.inj hs ▸ h.opens hw hstate hsocket hG held again
    · exact absurd hs (by simp)
  | closes clean =>
    simp only [Rpc.step] at hs
    split at hs
    · exact absurd hs (by simp)
    · exact Option.some.inj hs ▸ h.concat (by simp)
  | reconnect =>
    simp only [Rpc.step] at hs
    split at hs
    · exact absurd hs (by simp)
    · exact Option.some.inj hs ▸ h
  | ingest id answer =>
    simp only [Rpc.step] at hs
    split at hs
    · rw [← Option.some.inj hs]
      unfold ingest
      split
      · exact h
      · exact h.concat (by simp)
    · exact absurd hs (by simp)
  | destroy => exact Option.some.inj hs ▸ h

/-- What holds of a log holds of what it began with. -/
theorem of_append {es : List (RpcEvent P A)} (h : WritesOnce these (log ++ es)) :
    WritesOnce these log := by
  intro before j r after hsplit hr
  refine h before j r (after ++ es) ?_ hr
  rw [hsplit, List.append_assoc, List.cons_append]

end WritesOnce

/-! ## One connection

While no connection is lost there is one opening at most, so a frame that is
written once to each socket is written once. -/

/-- **No connection was lost**: no socket closed that had opened. -/
def Connected (log : List (RpcEvent P A)) : Prop := ∀ j, .opened j ∈ log → .closed j ∉ log

/-- What was written, to any socket. -/
def written (log : List (RpcEvent P A)) : List (RpcRequest P) :=
  log.filterMap (fun e =>
    match e with
    | .wrote _ r => some r
    | _ => none)

theorem mem_written : r ∈ written log ↔ ∃ i, .wrote i r ∈ log := by
  unfold written
  rw [List.mem_filterMap]
  constructor
  · rintro ⟨e, he, hr⟩
    cases e with
    | wrote i r' => exact ⟨i, Option.some.inj hr ▸ he⟩
    | _ => exact absurd hr (by simp)
  · exact fun ⟨i, h⟩ => ⟨_, h, rfl⟩

theorem Connected.of_append {es : List (RpcEvent P A)} (h : Connected (log ++ es)) :
    Connected log := fun j ho hc =>
  h j (List.mem_append_left _ ho) (List.mem_append_left _ hc)

/-- A step that is no request adds none to the log. -/
theorem log_step {a : RpcAct P A} (hs : step rpc a = some rpc')
    (ha : ∀ params accepts, a ≠ .request params accepts) :
    ∃ es, rpc'.log = rpc.log ++ es ∧ ∀ r, .requested r ∉ es := by
  cases a with
  | request params accepts => exact absurd rfl (ha params accepts)
  | opens held again =>
    simp only [step] at hs
    split at hs
    · refine ⟨_, (congrArg Rpc.log (Option.some.inj hs)).symm, fun r hr => ?_⟩
      rcases List.mem_cons.mp hr with hr | hr
      · exact absurd hr (by simp)
      · obtain ⟨r', -, he⟩ := List.mem_map.mp hr
        exact absurd he (by simp)
    · exact absurd hs (by simp)
  | closes clean =>
    simp only [step] at hs
    split at hs
    · exact absurd hs (by simp)
    · exact ⟨_, (congrArg Rpc.log (Option.some.inj hs)).symm, by simp⟩
  | reconnect =>
    simp only [step] at hs
    split at hs
    · exact absurd hs (by simp)
    · exact ⟨[], Option.some.inj hs ▸ (List.append_nil _).symm, by simp⟩
  | ingest id answer =>
    simp only [step] at hs
    split at hs
    · rw [← Option.some.inj hs]
      unfold ingest
      split
      · exact ⟨[], (List.append_nil _).symm, by simp⟩
      · exact ⟨_, rfl, by simp⟩
    · exact absurd hs (by simp)
  | destroy => exact ⟨[], Option.some.inj hs ▸ (List.append_nil _).symm, by simp⟩

/-- The log grows with a step. -/
theorem log_grows {a : RpcAct P A} (hs : step rpc a = some rpc') :
    ∃ es, rpc'.log = rpc.log ++ es := by
  by_cases ha : ∃ params accepts, a = .request params accepts
  · obtain ⟨params, accepts, rfl⟩ := ha
    exact ⟨_, (congrArg Rpc.log (Option.some.inj hs)).symm⟩
  · obtain ⟨es, hes, -⟩ := log_step hs (by simpa using ha)
    exact ⟨es, hes⟩

/-- What a step writes was requested. -/
theorem Wired.requested_of_written {a : RpcAct P A} (h : rpc'.Wired)
    (hs : Rpc.step rpc a = some rpc') (hr : r ∈ written (rpc'.log.drop rpc.log.length)) :
    .requested r ∈ rpc'.log := by
  obtain ⟨es, hes⟩ := log_grows hs
  rw [hes, List.drop_left] at hr
  obtain ⟨i, hi⟩ := mem_written.mp hr
  exact h.known r (.inr (.inr ⟨_, hes ▸ List.mem_append_right _ hi, rfl⟩))

/-- With one connection, at most one socket opened. -/
theorem Wired.openings_le_one (h : rpc.Wired) (hc : Connected rpc.log) :
    (openings rpc.log).length ≤ 1 := by
  have hsocket : ∀ i ∈ openings rpc.log, rpc.transport.socket = some i := by
    intro i hi
    have hi := mem_openings.mp hi
    exact ((h.sockets.opened i hi).resolve_left (hc i hi)).1
  cases hl : openings rpc.log with
  | nil => exact Nat.zero_le _
  | cons i is =>
    cases is with
    | nil => exact Nat.le_refl 1
    | cons i' is =>
      have hone : i = i' := Option.some.inj
        ((hsocket i (by simp [hl])).symm.trans (hsocket i' (by simp [hl])))
      have hnodup := hl ▸ h.sockets.once
      exact absurd (hone ▸ List.mem_cons_self) (List.nodup_cons.mp hnodup).1

/-- **With one connection, each of these requests is written at most once.** -/
theorem WritesOnce.pairwise_written {these : P → Prop} (h : WritesOnce these log)
    (hc : ∀ i r, .wrote i r ∈ log → .closed i ∉ log) :
    (written log).Pairwise (fun r r' => these r'.params → r ≠ r') := by
  induction log using List.reverseRecOn with
  | nil => exact .nil
  | append_singleton log e ih =>
    have ih := ih h.of_append (fun i r hr hi =>
      hc i r (List.mem_append_left _ hr) (List.mem_append_left _ hi))
    rw [written, List.filterMap_append, List.pairwise_append]
    refine ⟨ih, ?_, fun r hr r' hr' hthese => ?_⟩
    · cases e <;> simp
    · obtain ⟨j, hj⟩ := mem_written.mp hr'
      obtain rfl := List.mem_singleton.mp hj
      rintro rfl
      obtain ⟨i, hi⟩ := mem_written.mp hr
      have hclosed := ((h log j r [] rfl hthese).before i hi).2
      exact hc i r (List.mem_append_left _ hi) (List.mem_append_left _ hclosed)

/-! ## What a request is for

The log is read backwards: an answer is to a request of the id, and what that
request was for is fixed when it is made. -/

/-- The request of the id is for this. -/
structure AsksFor (rpc : Rpc P A) (params : P) (id : ℕ) : Prop where
  below : id < rpc.nextSequenceId
  requested : ∀ r, .requested r ∈ rpc.log → r.id = id → r.params = params

/-- A request for this was answered so. -/
def AnsweredFor (rpc : Rpc P A) (params : P) (answer : RpcAnswer A) : Prop :=
  ∃ r, .answered r answer ∈ rpc.log ∧ r.params = params

/-- **Requests only go on**: one that is new is of a new id. -/
structure Onward (rpc rpc' : Rpc P A) : Prop where
  next : rpc.nextSequenceId ≤ rpc'.nextSequenceId
  requested : ∀ r, .requested r ∈ rpc'.log →
    .requested r ∈ rpc.log ∨ rpc.nextSequenceId ≤ r.id
  log : ∀ e ∈ rpc.log, e ∈ rpc'.log

variable {params : P} {id : ℕ} {answer : RpcAnswer A}

theorem Onward.refl (rpc : Rpc P A) : rpc.Onward rpc :=
  ⟨Nat.le_refl _, fun _ => .inl, fun _ => id⟩

theorem AsksFor.onward (h : rpc.AsksFor params id) (ho : rpc.Onward rpc') :
    rpc'.AsksFor params id := by
  refine ⟨Nat.lt_of_lt_of_le h.below ho.next, fun r hr he => ?_⟩
  rcases ho.requested r hr with hr | hlt
  · exact h.requested r hr he
  · exact absurd (he ▸ h.below) (Nat.not_lt.mpr hlt)

theorem AnsweredFor.onward (h : rpc.AnsweredFor params answer) (ho : rpc.Onward rpc') :
    rpc'.AnsweredFor params answer := by
  obtain ⟨r, hr, hparams⟩ := h
  exact ⟨r, ho.log _ hr, hparams⟩

/-- What a request adds to the log is of its own id. -/
theorem requested_request {accepts : Bool} (hr : .requested r ∈ (rpc.request params accepts).log) :
    .requested r ∈ rpc.log ∨ r = rpc.nextRequest params := by
  rcases log_request rpc params accepts with hl | ⟨j, -, -, -, hl⟩
  · rw [hl, List.mem_append] at hr
    exact hr.imp_right (fun hr => RpcEvent.requested.inj (List.mem_singleton.mp hr))
  · rw [hl, List.mem_append] at hr
    exact hr.imp_right (by simp)

theorem onward_request (rpc : Rpc P A) (params : P) (accepts : Bool) :
    rpc.Onward (rpc.request params accepts) := by
  refine ⟨Nat.le_succ _, fun r hr => ?_, fun e he => List.mem_append_left _ he⟩
  rcases requested_request hr with hr | rfl
  · exact .inl hr
  · exact .inr (Nat.le_refl _)

/-- An answer is no request. -/
theorem requested_ingest (hr : .requested r ∈ (rpc.ingest id answer).log) :
    .requested r ∈ rpc.log := by
  unfold ingest at hr
  split at hr
  · exact hr
  · exact (List.mem_append.mp hr).resolve_right (by simp)

theorem onward_ingest (rpc : Rpc P A) (id : ℕ) (answer : RpcAnswer A) :
    rpc.Onward (rpc.ingest id answer) := by
  have hnext : (rpc.ingest id answer).nextSequenceId = rpc.nextSequenceId := by
    unfold ingest
    split <;> rfl
  refine ⟨Nat.le_of_eq hnext.symm, fun r hr => .inl (requested_ingest hr), fun e he => ?_⟩
  unfold ingest
  split
  · exact he
  · exact List.mem_append_left _ he

/-- What is new in the log is what was asked for. -/
theorem requested_step {a : RpcAct P A} (hs : step rpc a = some rpc')
    (hr : .requested r ∈ rpc'.log) :
    .requested r ∈ rpc.log ∨ ∃ accepts, a = .request r.params accepts := by
  by_cases ha : ∃ params accepts, a = .request params accepts
  · obtain ⟨params, accepts, rfl⟩ := ha
    obtain rfl := Option.some.inj hs
    rcases requested_request hr with hr | rfl
    · exact .inl hr
    · exact .inr ⟨accepts, rfl⟩
  · obtain ⟨es, hes, hnone⟩ := log_step hs (by simpa using ha)
    rw [hes, List.mem_append] at hr
    exact .inl (hr.resolve_right (hnone r))

theorem nextSequenceId_step {a : RpcAct P A} (hs : step rpc a = some rpc')
    (ha : ∀ params accepts, a ≠ .request params accepts) :
    rpc'.nextSequenceId = rpc.nextSequenceId := by
  cases a with
  | request params accepts => exact absurd rfl (ha params accepts)
  | opens held again =>
    simp only [step] at hs
    split at hs
    · exact Option.some.inj hs ▸ rfl
    · exact absurd hs (by simp)
  | closes clean =>
    simp only [step] at hs
    split at hs
    · exact absurd hs (by simp)
    · exact Option.some.inj hs ▸ rfl
  | reconnect =>
    simp only [step] at hs
    split at hs
    · exact absurd hs (by simp)
    · exact Option.some.inj hs ▸ rfl
  | ingest id answer =>
    simp only [step] at hs
    split at hs
    · rw [← Option.some.inj hs]
      unfold ingest
      split <;> rfl
    · exact absurd hs (by simp)
  | destroy => exact Option.some.inj hs ▸ rfl

theorem onward_step {a : RpcAct P A} (hs : step rpc a = some rpc') : rpc.Onward rpc' := by
  by_cases ha : ∃ params accepts, a = .request params accepts
  · obtain ⟨params, accepts, rfl⟩ := ha
    exact Option.some.inj hs ▸ rpc.onward_request params accepts
  · have ha : ∀ params accepts, a ≠ .request params accepts := by simpa using ha
    obtain ⟨es, hes, hnone⟩ := log_step hs ha
    refine ⟨Nat.le_of_eq (nextSequenceId_step hs ha).symm, fun r hr => .inl ?_, fun e he => ?_⟩
    · rw [hes, List.mem_append] at hr
      exact hr.resolve_right (hnone r)
    · exact hes ▸ List.mem_append_left es he

/-- The request that is made is for this. -/
theorem Wired.asksFor (h : rpc.Wired) (params : P) (accepts : Bool) :
    (rpc.request params accepts).AsksFor params rpc.nextSequenceId := by
  refine ⟨Nat.lt_succ_self _, fun r hr he => ?_⟩
  rcases requested_request hr with hr | rfl
  · exact absurd he (Nat.ne_of_lt (h.fresh r hr))
  · rfl

/-- The answer is to what was asked for. -/
theorem AsksFor.answered (h : rpc.AsksFor params id) (hw : rpc.Wired)
    (hr : rpc.pending.find? (fun r => r.id = id) = some r) (answer : RpcAnswer A) :
    (rpc.ingest id answer).AnsweredFor params answer := by
  have hid : r.id = id := by simpa using List.find?_some hr
  have hknown := hw.known r (.inl (List.mem_of_find?_eq_some hr))
  refine ⟨r, ?_, h.requested r hknown hid⟩
  unfold ingest
  rw [hr]
  exact List.mem_append_right _ (List.mem_singleton_self _)

end Rpc
