import Actjs.RpcFrames
import Mathlib.Data.List.Induction

/-!
# The frames that a connection answers

The server reads every frame of a WebSocket by itself: it is refused at once, it asks the
runtime or the subscription registry for something and is answered when that has settled, or
it is `null`, on whose properties the listener throws. What is asked for settles in any order,
and nothing is sent once the socket is not open.

`Answered` is what a client may rely on: a frame has at most one reply, which carries its id
and says what became of what this frame asked for, and while the socket is open a frame with
an id has its reply as soon as that has settled.

`JSON.parse`, `runtime.call`, and the registry are parameters: what they come to is a part of
the label of a step.
-/

/-! ## What is sent -/

/-- `PARSE_ERROR`. -/
def rpcParseError : ℚ := -32700

/-- `INVALID_REQUEST`. -/
def rpcInvalidRequest : ℚ := -32600

/-- `METHOD_NOT_FOUND`. -/
def rpcMethodNotFound : ℚ := -32601

/-- `INVALID_PARAMS`. -/
def rpcInvalidParams : ℚ := -32602

/-- `INTERNAL_ERROR`. -/
def rpcInternalError : ℚ := -32603

/-- `FRAMEWORK_ERROR`. -/
def rpcFrameworkError : ℚ := -32000

namespace WireValue

/-- The object with a field, if there is something to be in it. -/
def optional (name : String) (v : Option WireValue) : List (String × WireValue) :=
  (v.map (fun v => (name, v))).toList

/-- A `JsonRpcSuccess`. -/
def success (id result : WireValue) : WireValue :=
  obj [("jsonrpc", str "2.0"), ("id", id), ("result", result)]

/-- A `JsonRpcError`. -/
def failure (id : WireValue) (code : ℚ) (message : String) (data : Option WireValue) :
    WireValue :=
  obj [("jsonrpc", str "2.0"), ("id", id),
    ("error", obj ([("code", num code), ("message", str message)] ++ optional "data" data))]

/-- The `JsonRpcNotification` of an event. -/
def notification (params : WireValue) : WireValue :=
  obj [("jsonrpc", str "2.0"), ("method", str "actor.event"), ("params", params)]

/-! ## What is asked for -/

/-- `isObject`. -/
def isObject : WireValue → Bool
  | obj _ => true
  | arr _ => true
  | _ => false

/-- A field that has to be a string. -/
def stringField (p : WireValue) (name : String) : Except String String :=
  match p.get? name with
  | some (str s) => .ok s
  | _ => .error ("missing string `" ++ name ++ "`")

/-- `p['args'] ?? {}`. -/
def argsField (p : WireValue) : WireValue :=
  match p.get? "args" with
  | none => obj []
  | some null => obj []
  | some args => args

/-- What every validation begins with. -/
def objectParams : Option WireValue → Except String WireValue
  | none => .error "expected object params"
  | some p => if p.isObject = true then .ok p else .error "expected object params"

end WireValue

/-- `ActorCallParams`. -/
structure ActorCallParams where
  className : String
  actorId : String
  method : String
  args : WireValue

def validateActorCallParams (p : Option WireValue) : Except String ActorCallParams := do
  let p ← WireValue.objectParams p
  let className ← p.stringField "class"
  let actorId ← p.stringField "id"
  let method ← p.stringField "method"
  return ⟨className, actorId, method, p.argsField⟩

/-- The class and the id of the actor. -/
def validateActorSubscribeParams (p : Option WireValue) : Except String (String × String) := do
  let p ← WireValue.objectParams p
  let className ← p.stringField "class"
  let actorId ← p.stringField "id"
  return (className, actorId)

def validateActorUnsubscribeParams (p : Option WireValue) : Except String String := do
  let p ← WireValue.objectParams p
  p.stringField "subscriptionId"

/-- **What a frame asks the server for.** -/
inductive Asked where
  | call (p : ActorCallParams)
  | subscribe (className actorId : String)
  | unsubscribe (subscriptionId : String)

/-- A `JsonRpcRequest` with the envelope it should have. -/
structure JsonRpcRequest where
  id : Option WireValue
  method : String
  params : Option WireValue

/-- The message as a request, if `jsonrpc` and `method` are as they should be. -/
def WireValue.request? (msg : WireValue) : Option JsonRpcRequest :=
  match msg.get? "jsonrpc", msg.get? "method" with
  | some (str version), some (str method) =>
    if version = "2.0" then some ⟨msg.get? "id", method, msg.get? "params"⟩ else none
  | _, _ => none

/-- What `dispatch` does by the method of the request, or the error it sends instead. -/
def JsonRpcRequest.asks (req : JsonRpcRequest) : Except (ℚ × String) Asked :=
  if req.method = "actor.call" then
    match validateActorCallParams req.params with
    | .ok p => .ok (.call p)
    | .error e => .error (rpcInvalidParams, e)
  else if req.method = "actor.subscribe" then
    match validateActorSubscribeParams req.params with
    | .ok p => .ok (.subscribe p.1 p.2)
    | .error e => .error (rpcInvalidParams, e)
  else if req.method = "actor.unsubscribe" then
    match validateActorUnsubscribeParams req.params with
    | .ok p => .ok (.unsubscribe p)
    | .error e => .error (rpcInvalidParams, e)
  else .error (rpcMethodNotFound, "unknown method: " ++ req.method)

/-! ## What comes of it

What the runtime or the registry answered, and the reply that is made of it.
-/

/-- What is thrown, as far as `dispatch` reads it: the message, or the text, a `code` that is
neither `null` nor `undefined`, and the name of the constructor. Of some values, as of `null`,
reading this throws a `TypeError` in turn. -/
inductive ThrownValue where
  | value (isError : Bool) (message : String) (code : Option WireValue) (name : Option String)
  | unreadable (message : String)

/-- **What became of what was asked for.** A result that `JSON.stringify` throws on has been
thrown. -/
inductive AskedOutcome where
  | called (result : Option WireValue)
  | callThrew (thrown : ThrownValue)
  | subscribed (subscriptionId : String)
  /-- `limit` says that it is a `SubscriberLimitError`. -/
  | subscribeThrew (limit : Bool) (message : String)
  | unsubscribed (ok : Bool)

/-- The outcome is one of what was asked for. -/
def Asked.admits : Asked → AskedOutcome → Bool
  | call _, .called _ => true
  | call _, .callThrew _ => true
  | subscribe _ _, .subscribed _ => true
  | subscribe _ _, .subscribeThrew _ _ => true
  | unsubscribe _, .unsubscribed _ => true
  | _, _ => false

/-- The code of the error of a call. -/
def thrownCode (isError : Bool) : Option WireValue → ℚ
  | some (.str _) => if isError = true then rpcFrameworkError else rpcInternalError
  | _ => rpcInternalError

/-- **The reply to a frame with this id.** -/
def AskedOutcome.reply (id : WireValue) : AskedOutcome → WireValue
  | called result => .success id (.obj (WireValue.optional "result" result))
  | callThrew (.value isError message code name) =>
    .failure id (thrownCode isError code) message
      (some (.obj (WireValue.optional "code" (code <|> name.map .str))))
  -- the `catch` of the listener, around `dispatch`
  | callThrew (.unreadable message) => .failure id rpcInternalError message none
  | subscribed subscriptionId => .success id (.obj [("subscriptionId", .str subscriptionId)])
  | subscribeThrew limit message =>
    if limit = true then
      .failure id rpcFrameworkError message (some (.obj [("code", .str "SubscriberLimit")]))
    else .failure id rpcInternalError message none
  | unsubscribed ok => .success id (.obj [("ok", .bool ok)])

/-! ## The listener -/

/-- **What the listener makes of a frame**, up to its first await. -/
inductive FrameReading where
  /-- An error, which is sent if there is an id to send it with. -/
  | refused (reply : Option WireValue)
  | asks (id : Option WireValue) (asked : Asked)
  /-- The frame is `null`, and the listener throws. -/
  | throws

/-- The frame is read. -/
def readFrame (parse : String → Option WireValue) (text : String) : FrameReading :=
  match parse text with
  | none => .refused (some (.failure .null rpcParseError "parse error" none))
  | some .null => .throws
  | some msg =>
    match msg.request? with
    | none =>
      .refused (some (.failure ((msg.get? "id").getD .null) rpcInvalidRequest
        "invalid jsonrpc envelope" none))
    | some req =>
      match req.asks with
      | .ok asked => .asks req.id asked
      | .error (code, message) =>
        .refused (req.id.map (fun id => .failure id code message none))

/-- A `dispatch` at its `await`: the number of its frame, and the id. -/
structure PendingDispatch where
  frame : ℕ
  id : Option WireValue
  asked : Asked

/-- What became of what frame `frame` asked for. -/
structure SettledDispatch where
  frame : ℕ
  asked : Asked
  outcome : AskedOutcome

/-- **One WebSocket, on the side of the server.** -/
structure RpcConnection where
  /-- `readyState` is `OPEN`. -/
  isOpen : Bool
  /-- The texts of the frames; a frame is named by its position. -/
  received : List String
  pending : List PendingDispatch
  settled : List SettledDispatch
  /-- What was sent, with the frame it is the reply to; a notification is none. -/
  sent : List (Option ℕ × WireValue)
  /-- The frames on which the listener threw. -/
  threw : List ℕ

/-- **What can happen to a connection next.** -/
inductive RpcConnectionAct where
  /-- A frame. `removed` is what `registry.unsubscribe` returns, if it is called. -/
  | message (text : String) (removed : Bool)
  /-- What frame `n` asked for settles. -/
  | settles (n : ℕ) (outcome : AskedOutcome)
  /-- `subscriberSink`. -/
  | notify (params : WireValue)
  /-- The socket is no longer open. -/
  | leavesOpen

namespace RpcConnection

def init : RpcConnection := ⟨true, [], [], [], [], []⟩

/-- `send`. -/
def send (c : RpcConnection) (n : Option ℕ) (v : WireValue) : RpcConnection :=
  if c.isOpen = true then { c with sent := c.sent ++ [(n, v)] } else c

/-- Frame `n` is answered, if it has an id. -/
def reply (c : RpcConnection) (n : ℕ) : Option WireValue → RpcConnection
  | none => c
  | some v => c.send (some n) v

/-- What frame `n` asked for has settled. -/
def settle (c : RpcConnection) (n : ℕ) (id : Option WireValue) (asked : Asked)
    (outcome : AskedOutcome) : RpcConnection :=
  ({ c with settled := c.settled ++ [⟨n, asked, outcome⟩] } : RpcConnection).reply n
    (id.map outcome.reply)

/-- The listener of `message`. -/
def message (parse : String → Option WireValue) (c : RpcConnection) (text : String)
    (removed : Bool) : RpcConnection :=
  let n := c.received.length
  let c := { c with received := c.received ++ [text] }
  match readFrame parse text with
  | .refused v => c.reply n v
  | .throws => { c with threw := c.threw ++ [n] }
  | .asks id (.unsubscribe s) => c.settle n id (.unsubscribe s) (.unsubscribed removed)
  | .asks id asked => { c with pending := c.pending ++ [⟨n, id, asked⟩] }

/-- `dispatch`, after its await. -/
def resume (c : RpcConnection) (n : ℕ) (outcome : AskedOutcome) : Option RpcConnection :=
  match c.pending.find? (fun p => p.frame == n) with
  | none => none
  | some p =>
    if p.asked.admits outcome = true then
      some ({ c with pending := c.pending.filter (fun p => p.frame != n) }.settle n p.id
        p.asked outcome)
    else none

/-- The subscribers of the connection are told something. -/
def notify (c : RpcConnection) (params : WireValue) : RpcConnection :=
  c.send none (.notification params)

/-- **One step of a connection.** -/
def step (parse : String → Option WireValue) (c : RpcConnection) :
    RpcConnectionAct → Option RpcConnection
  | .message text removed => some (c.message parse text removed)
  | .settles n outcome => c.resume n outcome
  | .notify params => some (c.notify params)
  | .leavesOpen => some { c with isOpen := false }

/-! ## Every frame is answered

Frame by frame, by what the listener makes of it: how many replies it has,
which id they carry, and what they say. -/

/-- The replies to frame `n`. -/
def replies (c : RpcConnection) (n : ℕ) : List WireValue :=
  c.sent.filterMap (fun x => if x.1 = some n then some x.2 else none)

/-- What became of what frame `n` asked for. -/
def outcomes (c : RpcConnection) (n : ℕ) : List (Asked × AskedOutcome) :=
  c.settled.filterMap (fun x => if x.frame = n then some (x.asked, x.outcome) else none)

/-- Frame `n` has this reply, if there is one to have. Without it, the socket is not open. -/
structure Replied (c : RpcConnection) (n : ℕ) (v : Option WireValue) : Prop where
  only : c.replies n = [] ∨ c.replies n = v.toList
  sent : c.isOpen = true → c.replies n = v.toList

/-- **What becomes of frame `n`**, by what the listener makes of it. -/
def Answered (c : RpcConnection) (n : ℕ) : FrameReading → Prop
  | .refused v => c.Replied n v ∧ c.outcomes n = []
  | .throws => c.replies n = [] ∧ c.outcomes n = [] ∧ n ∈ c.threw
  | .asks id asked =>
    ((∃ p ∈ c.pending, p.frame = n) ∧ c.replies n = [] ∧ c.outcomes n = [])
      ∨ ((∀ p ∈ c.pending, p.frame ≠ n)
        ∧ ∃ outcome, asked.admits outcome = true ∧ c.outcomes n = [(asked, outcome)]
          ∧ c.Replied n (id.map outcome.reply))

variable {parse : String → Option WireValue} {c c' : RpcConnection} {n m : ℕ}
  {v : Option WireValue}

/-! ### Sending -/

@[simp] theorem received_send (c : RpcConnection) (k : Option ℕ) (w : WireValue) :
    (c.send k w).received = c.received := by
  unfold send
  split <;> rfl

@[simp] theorem isOpen_send (c : RpcConnection) (k : Option ℕ) (w : WireValue) :
    (c.send k w).isOpen = c.isOpen := by
  unfold send
  split <;> rfl

@[simp] theorem pending_send (c : RpcConnection) (k : Option ℕ) (w : WireValue) :
    (c.send k w).pending = c.pending := by
  unfold send
  split <;> rfl

@[simp] theorem settled_send (c : RpcConnection) (k : Option ℕ) (w : WireValue) :
    (c.send k w).settled = c.settled := by
  unfold send
  split <;> rfl

@[simp] theorem threw_send (c : RpcConnection) (k : Option ℕ) (w : WireValue) :
    (c.send k w).threw = c.threw := by
  unfold send
  split <;> rfl

@[simp] theorem received_reply (c : RpcConnection) (n : ℕ) (v : Option WireValue) :
    (c.reply n v).received = c.received := by
  cases v <;> simp [reply]

@[simp] theorem isOpen_reply (c : RpcConnection) (n : ℕ) (v : Option WireValue) :
    (c.reply n v).isOpen = c.isOpen := by
  cases v <;> simp [reply]

@[simp] theorem pending_reply (c : RpcConnection) (n : ℕ) (v : Option WireValue) :
    (c.reply n v).pending = c.pending := by
  cases v <;> simp [reply]

@[simp] theorem settled_reply (c : RpcConnection) (n : ℕ) (v : Option WireValue) :
    (c.reply n v).settled = c.settled := by
  cases v <;> simp [reply]

@[simp] theorem threw_reply (c : RpcConnection) (n : ℕ) (v : Option WireValue) :
    (c.reply n v).threw = c.threw := by
  cases v <;> simp [reply]

/-- What is sent of another frame, or is a notification, is no reply to this one. -/
theorem replies_send_of_ne {k : Option ℕ} (h : k ≠ some n) (w : WireValue) :
    (c.send k w).replies n = c.replies n := by
  unfold send
  split
  · show List.filterMap _ (c.sent ++ [(k, w)]) = _
    rw [List.filterMap_append]
    simp [replies, h]
  · rfl

theorem mem_sent_of_send {k k' : Option ℕ} {v w : WireValue} (h : (k', w) ∈ (c.send k v).sent) :
    (k', w) ∈ c.sent ∨ k' = k ∧ w = v := by
  unfold send at h
  split at h
  · exact (List.mem_append.mp h).imp_right (fun h => Prod.mk.inj (List.mem_singleton.mp h))
  · exact .inl h

/-- What a frame is answered with is no notification. -/
theorem mem_sent_of_reply {w : WireValue} (h : (none, w) ∈ (c.reply n v).sent) :
    (none, w) ∈ c.sent := by
  cases v with
  | none => exact h
  | some v => exact (mem_sent_of_send h).resolve_right (fun h => absurd h.1 (by simp))

theorem mem_sent_of_settle {id : Option WireValue} {asked : Asked} {outcome : AskedOutcome}
    {w : WireValue} (h : (none, w) ∈ (c.settle n id asked outcome).sent) : (none, w) ∈ c.sent :=
  mem_sent_of_reply (c := { c with settled := c.settled ++ [⟨n, asked, outcome⟩] }) h

theorem replies_reply_of_ne (h : m ≠ n) (v : Option WireValue) :
    (c.reply m v).replies n = c.replies n := by
  cases v with
  | none => rfl
  | some v => exact replies_send_of_ne (by simpa using h) v

/-- **A frame is answered**, if the socket is open. -/
theorem replied_reply (h : c.replies n = []) (v : Option WireValue) :
    (c.reply n v).Replied n v := by
  cases v with
  | none => exact ⟨.inl h, fun _ => h⟩
  | some v =>
    have hsend : c.isOpen = true → (c.send (some n) v).replies n = [v] := by
      intro ho
      unfold send
      rw [if_pos ho]
      show List.filterMap _ (c.sent ++ [(some n, v)]) = _
      rw [List.filterMap_append]
      have h' : List.filterMap (fun x => if x.1 = some n then some x.2 else none) c.sent = [] := h
      rw [h']
      simp
    refine ⟨?_, fun ho => hsend ((isOpen_send c _ v).symm.trans ho)⟩
    by_cases ho : c.isOpen = true
    · exact .inr (hsend ho)
    · refine .inl ?_
      show (c.send (some n) v).replies n = []
      unfold send
      rwa [if_neg ho]

theorem Replied.keep (h : c.Replied n v) (hr : c'.replies n = c.replies n)
    (ho : c'.isOpen = true → c.isOpen = true) : c'.Replied n v where
  only := hr ▸ h.only
  sent hc := hr ▸ h.sent (ho hc)

theorem outcomes_append (n : ℕ) (x : SettledDispatch) :
    { c with settled := c.settled ++ [x] }.outcomes n
      = c.outcomes n ++ if x.frame = n then [(x.asked, x.outcome)] else [] := by
  unfold outcomes
  rw [List.filterMap_append]
  split <;> simp_all

theorem outcomes_settle (c : RpcConnection) (n m : ℕ) (id : Option WireValue) (asked : Asked)
    (outcome : AskedOutcome) :
    (c.settle n id asked outcome).outcomes m
      = c.outcomes m ++ if n = m then [(asked, outcome)] else [] := by
  unfold settle outcomes
  rw [settled_reply]
  exact outcomes_append m _

/-- **What a frame asked for settles**: it is answered with what came of it. -/
theorem answered_settle (hr : c.replies n = []) (ho : c.outcomes n = [])
    (hp : ∀ p ∈ c.pending, p.frame ≠ n) {asked : Asked} {outcome : AskedOutcome}
    (ha : asked.admits outcome = true) (id : Option WireValue) :
    (c.settle n id asked outcome).Answered n (.asks id asked) := by
  refine .inr ⟨?_, outcome, ha, ?_, ?_⟩
  · unfold settle
    rwa [pending_reply]
  · rw [outcomes_settle, ho, if_pos rfl]
    rfl
  · refine replied_reply ?_ _
    exact hr

/-- What is said of a frame stays so while nothing happens to it. -/
theorem Answered.keep {r : FrameReading} (h : c.Answered n r)
    (hr : c'.replies n = c.replies n) (ho : c'.outcomes n = c.outcomes n)
    (hopen : c'.isOpen = true → c.isOpen = true) (ht : c.threw ⊆ c'.threw)
    (hp : ∀ p : PendingDispatch, p.frame = n → (p ∈ c'.pending ↔ p ∈ c.pending)) :
    c'.Answered n r := by
  cases r with
  | refused v => exact ⟨h.1.keep hr hopen, ho ▸ h.2⟩
  | throws => exact ⟨hr ▸ h.1, ho ▸ h.2.1, ht h.2.2⟩
  | asks id asked =>
    rcases h with ⟨⟨p, hpm, hpn⟩, hre, hou⟩ | ⟨hnone, o, ha, hou, hre⟩
    · exact .inl ⟨⟨p, (hp p hpn).mpr hpm, hpn⟩, hr ▸ hre, ho ▸ hou⟩
    · exact .inr ⟨fun p hpm hpn => hnone p ((hp p hpn).mp hpm) hpn, o, ha, ho ▸ hou,
        hre.keep hr hopen⟩

/-- **What holds of every connection.** One fact for each frame that has come,
and for each dispatch that is under way the frame that has asked for it. -/
structure Sound (parse : String → Option WireValue) (c : RpcConnection) : Prop where
  answered : ∀ n text, c.received[n]? = some text → c.Answered n (readFrame parse text)
  /-- What is under way was asked for by its frame. -/
  pending : ∀ p ∈ c.pending, ∃ text, c.received[p.frame]? = some text
    ∧ readFrame parse text = .asks p.id p.asked
  /-- Nothing is said of a frame that has not come. -/
  replies : ∀ n, c.received.length ≤ n → c.replies n = []
  outcomes : ∀ n, c.received.length ≤ n → c.outcomes n = []
  /-- What is sent for no frame is a notification. -/
  notifications : ∀ v, (none, v) ∈ c.sent → ∃ params, v = .notification params

namespace Sound

theorem init (parse : String → Option WireValue) : Sound parse init where
  answered n text h := absurd h (by simp [RpcConnection.init])
  pending p h := absurd h (by simp [RpcConnection.init])
  replies _ _ := rfl
  outcomes _ _ := rfl
  notifications v h := absurd h (by simp [RpcConnection.init])

theorem lt_of_pending (h : Sound parse c) {p : PendingDispatch} (hp : p ∈ c.pending) :
    p.frame < c.received.length := by
  obtain ⟨text, ht, -⟩ := h.pending p hp
  exact (List.getElem?_eq_some_iff.mp ht).1

/-- **A frame comes.** What is said of it, `c'` has to fulfil; of the others nothing
changes. -/
theorem of_received (h : Sound parse c) {text : String}
    (hrec : c'.received = c.received ++ [text]) (ht : c.threw ⊆ c'.threw)
    (hopen : c'.isOpen = true → c.isOpen = true)
    (hnew : c'.Answered c.received.length (readFrame parse text))
    (hr : ∀ n, n ≠ c.received.length → c'.replies n = c.replies n)
    (ho : ∀ n, n ≠ c.received.length → c'.outcomes n = c.outcomes n)
    (hp : ∀ p, p ∈ c'.pending ↔ p ∈ c.pending ∨ p.frame = c.received.length
      ∧ p ∈ c'.pending)
    (hp' : ∀ p ∈ c'.pending, p.frame = c.received.length →
      readFrame parse text = .asks p.id p.asked)
    (hs : ∀ w, (none, w) ∈ c'.sent → (none, w) ∈ c.sent) : Sound parse c' where
  notifications w hw := h.notifications w (hs w hw)
  answered n t hn := by
    rw [hrec] at hn
    by_cases hlt : n < c.received.length
    · have hne : n ≠ c.received.length := Nat.ne_of_lt hlt
      rw [List.getElem?_append_left hlt] at hn
      refine (h.answered n t hn).keep (hr n hne) (ho n hne) hopen ht (fun p hpn => ?_)
      rw [hp p]
      exact or_iff_left (fun hl => hne (hpn.symm.trans hl.1))
    · have hle := Nat.le_of_not_lt hlt
      rw [List.getElem?_append_right hle] at hn
      obtain ⟨hlen, htext⟩ := List.getElem?_eq_some_iff.mp hn
      have hn0 : n = c.received.length := by
        simp at hlen
        omega
      subst hn0
      simp at htext
      exact htext ▸ hnew
  pending p hpm := by
    rcases (hp p).mp hpm with hold | ⟨hf, -⟩
    · obtain ⟨t, ht, hread⟩ := h.pending p hold
      refine ⟨t, ?_, hread⟩
      rw [hrec, List.getElem?_append_left (h.lt_of_pending hold)]
      exact ht
    · exact ⟨text, by rw [hrec, hf]; simp, hp' p hpm hf⟩
  replies n hn := by
    rw [hrec, List.length_append] at hn
    have hne : n ≠ c.received.length := by
      simp at hn
      omega
    exact (hr n hne).trans (h.replies n (by simp at hn; omega))
  outcomes n hn := by
    rw [hrec, List.length_append] at hn
    have hne : n ≠ c.received.length := by
      simp at hn
      omega
    exact (ho n hne).trans (h.outcomes n (by simp at hn; omega))

/-- **The listener is called.** -/
theorem message (h : Sound parse c) (text : String) (removed : Bool) :
    Sound parse (c.message parse text removed) := by
  have hr : c.replies c.received.length = [] := h.replies _ le_rfl
  have ho : c.outcomes c.received.length = [] := h.outcomes _ le_rfl
  have hnone : ∀ p ∈ c.pending, p.frame ≠ c.received.length :=
    fun p hp => Nat.ne_of_lt (h.lt_of_pending hp)
  have hsame : ∀ p, p ∈ c.pending ↔ p ∈ c.pending ∨ p.frame = c.received.length
      ∧ p ∈ c.pending :=
    fun p => ⟨.inl, fun hp => hp.elim id (fun hp => hp.2)⟩
  unfold RpcConnection.message
  dsimp only
  cases hread : readFrame parse text with
  | refused v =>
    dsimp only
    refine h.of_received (received_reply _ _ _) ?_ ?_ ?_
      (fun n hn => replies_reply_of_ne (Ne.symm hn) v) (fun n hn => ?_) ?_ (fun p hp hf => ?_)
      (fun w hw => mem_sent_of_reply (c := { c with received := c.received ++ [text] }) hw)
    · rw [threw_reply]
      exact List.Subset.refl _
    · rw [isOpen_reply]
      exact id
    · rw [hread]
      refine ⟨replied_reply ?_ v, ?_⟩
      · exact hr
      · unfold RpcConnection.outcomes
        rw [settled_reply]
        exact ho
    · unfold RpcConnection.outcomes
      rw [settled_reply]
    · rw [pending_reply]
      exact hsame
    · rw [pending_reply] at hp
      exact absurd hf (hnone p hp)
  | throws =>
    refine h.of_received rfl (List.subset_append_left _ _) id ?_ (fun _ _ => rfl)
      (fun _ _ => rfl) hsame (fun p hp hf => absurd hf (hnone p hp)) (fun _ hw => hw)
    rw [hread]
    exact ⟨hr, ho, by simp⟩
  | asks i asked =>
    have hwaits : Sound parse { c with
        received := c.received ++ [text]
        pending := c.pending ++ [⟨c.received.length, i, asked⟩] } := by
      refine h.of_received rfl (List.Subset.refl _) id ?_ (fun _ _ => rfl) (fun _ _ => rfl)
        (fun p => ?_) (fun p hp hf => ?_) (fun _ hw => hw)
      · rw [hread]
        exact .inl ⟨⟨_, List.mem_append_right _ (List.mem_singleton_self _), rfl⟩, hr, ho⟩
      · refine ⟨fun hp => ?_, fun hp => hp.elim (List.mem_append_left _) (fun hp => hp.2)⟩
        rcases List.mem_append.mp hp with hold | hnew
        · exact .inl hold
        · exact .inr ⟨by rw [List.mem_singleton.mp hnew], hp⟩
      · rcases List.mem_append.mp hp with hold | hnew
        · exact absurd hf (hnone p hold)
        · rw [hread, List.mem_singleton.mp hnew]
    cases asked with
    | call p => exact hwaits
    | subscribe className actorId => exact hwaits
    | unsubscribe subscriptionId =>
      dsimp only
      refine h.of_received (received_reply _ _ _) ?_ ?_ ?_
        (fun n hn => replies_reply_of_ne (Ne.symm hn) _) (fun n hn => ?_) ?_ (fun p hp hf => ?_)
        (fun w hw => mem_sent_of_settle (c := { c with received := c.received ++ [text] }) hw)
      · unfold settle
        rw [threw_reply]
        exact List.Subset.refl _
      · unfold settle
        rw [isOpen_reply]
        exact id
      · rw [hread]
        refine answered_settle ?_ ?_ ?_ rfl i
        · exact hr
        · exact ho
        · exact hnone
      · rw [outcomes_settle, if_neg (Ne.symm hn), List.append_nil]
        rfl
      · unfold settle
        rw [pending_reply]
        exact hsame
      · unfold settle at hp
        rw [pending_reply] at hp
        exact absurd hf (hnone p hp)

/-- Nothing is said of other frames than before. -/
theorem of_same (h : Sound parse c) (hrec : c'.received = c.received)
    (ha : ∀ n text, c.received[n]? = some text → c.Answered n (readFrame parse text) →
      c'.Answered n (readFrame parse text))
    (hp : ∀ p ∈ c'.pending, p ∈ c.pending)
    (hr : ∀ n, c.received.length ≤ n → c'.replies n = c.replies n)
    (ho : ∀ n, c.received.length ≤ n → c'.outcomes n = c.outcomes n)
    (hs : ∀ w, (none, w) ∈ c'.sent → (none, w) ∈ c.sent ∨ ∃ params, w = .notification params) :
    Sound parse c' where
  notifications w hw := (hs w hw).elim (h.notifications w) id
  answered n text hn := by
    rw [hrec] at hn
    exact ha n text hn (h.answered n text hn)
  pending p hpm := by
    rw [hrec]
    exact h.pending p (hp p hpm)
  replies n hn := by
    rw [hrec] at hn
    exact (hr n hn).trans (h.replies n hn)
  outcomes n hn := by
    rw [hrec] at hn
    exact (ho n hn).trans (h.outcomes n hn)

/-- **What a frame asked for settles.** -/
theorem resume (h : Sound parse c) {outcome : AskedOutcome}
    (hs : c.resume n outcome = some c') : Sound parse c' := by
  unfold RpcConnection.resume at hs
  split at hs
  · exact absurd hs (by simp)
  · next p hfind =>
    split at hs
    · next ha =>
      obtain rfl := Option.some.inj hs
      have hpm : p ∈ c.pending := List.mem_of_find?_eq_some hfind
      have hpn : p.frame = n := by simpa using List.find?_some hfind
      obtain ⟨text, ht, hread⟩ := h.pending p hpm
      have hlt := hpn ▸ h.lt_of_pending hpm
      refine h.of_same (received_reply _ _ _) (fun m t hm hans => ?_) (fun q hq => ?_)
        (fun m hm => replies_reply_of_ne (Nat.ne_of_lt (hlt.trans_le hm)) _) (fun m hm => ?_)
        (fun w hw => .inl (mem_sent_of_settle
          (c := { c with pending := c.pending.filter (fun p => p.frame != n) }) hw))
      · by_cases hmn : n = m
        · subst hmn
          obtain rfl := Option.some.inj (hm.symm.trans (hpn ▸ ht))
          rw [hread] at hans ⊢
          rcases hans with ⟨-, hr, ho⟩ | ⟨hnone, -⟩
          · refine answered_settle ?_ ?_ (fun q hq => ?_) ha _
            · exact hr
            · exact ho
            · simpa using (List.mem_filter.mp hq).2
          · exact absurd hpn (hnone p hpm)
        · refine hans.keep (replies_reply_of_ne hmn _) ?_ ?_ ?_ (fun q hq => ?_)
          · rw [outcomes_settle, if_neg hmn, List.append_nil]
            rfl
          · unfold settle
            rw [isOpen_reply]
            exact id
          · unfold settle
            rw [threw_reply]
            exact List.Subset.refl _
          · unfold settle
            rw [pending_reply]
            simp [hq, Ne.symm hmn]
      · unfold settle at hq
        rw [pending_reply] at hq
        exact (List.mem_filter.mp hq).1
      · rw [outcomes_settle, if_neg (Nat.ne_of_lt (hlt.trans_le hm)), List.append_nil]
        rfl
    · exact absurd hs (by simp)

/-- **Every step keeps what is said of the frames.** -/
theorem step (h : Sound parse c) {a : RpcConnectionAct}
    (hs : RpcConnection.step parse c a = some c') : Sound parse c' := by
  cases a with
  | message text removed =>
    obtain rfl := Option.some.inj hs
    exact h.message text removed
  | settles n outcome => exact h.resume hs
  | notify params =>
    obtain rfl := Option.some.inj hs
    have hr : ∀ n, (c.notify params).replies n = c.replies n :=
      fun n => replies_send_of_ne (by simp) _
    have ho : ∀ n, (c.notify params).outcomes n = c.outcomes n := by
      intro n
      unfold RpcConnection.outcomes
      rw [show (c.notify params).settled = _ from settled_send _ _ _]
    have hp : (c.notify params).pending = c.pending := pending_send _ _ _
    refine h.of_same (received_send _ _ _) (fun n text _ hans => ?_) (fun p hpm => hp ▸ hpm)
      (fun n _ => hr n) (fun n _ => ho n)
      (fun w hw => (mem_sent_of_send hw).imp_right (fun h => ⟨params, h.2⟩))
    refine hans.keep (hr n) (ho n) ?_ ?_ (fun p _ => by rw [hp])
    · rw [show (c.notify params).isOpen = _ from isOpen_send _ _ _]
      exact id
    · rw [show (c.notify params).threw = _ from threw_send _ _ _]
      exact List.Subset.refl _
  | leavesOpen =>
    obtain rfl := Option.some.inj hs
    exact h.of_same rfl
      (fun n text _ hans => hans.keep rfl rfl (fun ho => absurd ho (by simp))
        (List.Subset.refl _) (fun _ _ => Iff.rfl))
      (fun _ hp => hp) (fun _ _ => rfl) (fun _ _ => rfl) (fun _ hw => .inl hw)

end Sound

/-! ### Once the socket is not open

`send` reads `readyState` at every frame, and a socket that has left `OPEN` does not come
back to it. So nothing is sent from there on, whatever is still under way. -/

theorem send_of_closed (h : c.isOpen = false) (k : Option ℕ) (w : WireValue) :
    c.send k w = c := if_neg (by rw [h]; exact Bool.false_ne_true)

theorem reply_of_closed (h : c.isOpen = false) (n : ℕ) (v : Option WireValue) :
    c.reply n v = c := by
  cases v with
  | none => rfl
  | some v => exact send_of_closed h _ _

/-- What settles then is not answered. -/
theorem settle_of_closed (h : c.isOpen = false) (n : ℕ) (id : Option WireValue) (asked : Asked)
    (outcome : AskedOutcome) : (c.settle n id asked outcome).sent = c.sent
      ∧ (c.settle n id asked outcome).isOpen = false := by
  have hreply := reply_of_closed
    (c := { c with settled := c.settled ++ [⟨n, asked, outcome⟩] }) h n (id.map outcome.reply)
  unfold settle
  rw [hreply]
  exact ⟨rfl, h⟩

/-- **A step after that sends nothing.** -/
theorem sent_step_of_closed (h : c.isOpen = false) {a : RpcConnectionAct}
    (hs : step parse c a = some c') : c'.sent = c.sent ∧ c'.isOpen = false := by
  cases a with
  | message text removed =>
    obtain rfl := Option.some.inj hs
    unfold message
    dsimp only
    split
    · rw [reply_of_closed (c := { c with received := c.received ++ [text] }) h]
      exact ⟨rfl, h⟩
    · exact ⟨rfl, h⟩
    · exact settle_of_closed (c := { c with received := c.received ++ [text] }) h _ _ _ _
    · exact ⟨rfl, h⟩
  | settles n outcome =>
    rw [step, resume] at hs
    split at hs
    · exact absurd hs (by simp)
    · split at hs
      · obtain rfl := Option.some.inj hs
        exact settle_of_closed
          (c := { c with pending := c.pending.filter (fun p => p.frame != n) }) h _ _ _ _
      · exact absurd hs (by simp)
  | notify params =>
    obtain rfl := Option.some.inj hs
    rw [notify, send_of_closed h]
    exact ⟨rfl, h⟩
  | leavesOpen =>
    obtain rfl := Option.some.inj hs
    exact ⟨rfl, rfl⟩

/-! ### Where the listener throws -/

/-- The listener reads no frame so but `null`. -/
theorem readFrame_throws {text : String} (h : readFrame parse text = .throws) :
    parse text = some .null := by
  unfold readFrame at h
  split at h
  · exact absurd h (by simp)
  · next hp => exact hp
  · split at h
    · exact absurd h (by simp)
    · split at h <;> exact absurd h (by simp)

/-- **It threw on frames that are `null`**, and on no others. -/
def ThrewOnNull (parse : String → Option WireValue) (c : RpcConnection) : Prop :=
  ∀ n ∈ c.threw, ∃ text, c.received[n]? = some text ∧ parse text = some .null

theorem ThrewOnNull.congr (h : ThrewOnNull parse c) (hthrew : c'.threw = c.threw)
    (hreceived : c'.received = c.received) : ThrewOnNull parse c' := by
  unfold ThrewOnNull
  rw [hthrew, hreceived]
  exact h

/-- One more frame came. -/
theorem ThrewOnNull.received (h : ThrewOnNull parse c) (text : String) :
    ThrewOnNull parse { c with received := c.received ++ [text] } := by
  intro n hn
  obtain ⟨t, ht, hnull⟩ := h n hn
  have hlt := (List.getElem?_eq_some_iff.mp ht).1
  exact ⟨t, (List.getElem?_append_left hlt).trans ht, hnull⟩

theorem ThrewOnNull.step (h : ThrewOnNull parse c) {a : RpcConnectionAct}
    (hs : RpcConnection.step parse c a = some c') : ThrewOnNull parse c' := by
  cases a with
  | message text removed =>
    obtain rfl := Option.some.inj hs
    have hmore := h.received text
    unfold RpcConnection.message
    dsimp only
    split
    · exact hmore.congr (threw_reply _ _ _) (received_reply _ _ _)
    · next hread =>
      intro n hn
      rcases List.mem_append.mp hn with hn | hn
      · exact hmore n hn
      · obtain rfl := List.mem_singleton.mp hn
        exact ⟨text, by simp, readFrame_throws hread⟩
    · exact hmore.congr (threw_reply _ _ _) (received_reply _ _ _)
    · exact hmore.congr rfl rfl
  | settles n outcome =>
    rw [RpcConnection.step, resume] at hs
    split at hs
    · exact absurd hs (by simp)
    · split at hs
      · obtain rfl := Option.some.inj hs
        exact h.congr (threw_reply _ _ _) (received_reply _ _ _)
      · exact absurd hs (by simp)
  | notify params =>
    obtain rfl := Option.some.inj hs
    exact h.congr (threw_send _ _ _) (received_send _ _ _)
  | leavesOpen =>
    obtain rfl := Option.some.inj hs
    exact h

end RpcConnection

/-- **Every frame is answered once, and none but that.** In every run of a connection, a frame
that is refused has the error it is refused with, and one that asks for something has, once
that has settled, the reply to what came of it, if it has an id: these replies and no others,
and each of them unless the socket has left `OPEN`. Whatever else is sent is a notification.
From the moment on that the socket leaves `OPEN` nothing is sent; and the listener throws on
frames that are `null` and on no others. -/
theorem frames_answered (parse : String → Option WireValue) {as : List RpcConnectionAct}
    {c : RpcConnection}
    (hs : TransitionSystem.run (RpcConnection.step parse) .init as = some c) :
    (∀ n text, c.received[n]? = some text → c.Answered n (readFrame parse text))
      ∧ (∀ n v, (some n, v) ∈ c.sent → n < c.received.length)
      ∧ (∀ v, (none, v) ∈ c.sent → ∃ params, v = .notification params)
      ∧ (∀ before after left, as = before ++ after →
        TransitionSystem.run (RpcConnection.step parse) .init before = some left →
          left.isOpen = false → c.sent = left.sent)
      ∧ ∀ n ∈ c.threw, ∃ text, c.received[n]? = some text ∧ parse text = some .null := by
  have h : RpcConnection.Sound parse c :=
    TransitionSystem.run_invariant' (RpcConnection.step parse)
      (P := RpcConnection.Sound parse) (fun _ _ _ h hs => h.step hs) (.init parse) hs
  have hthrew : RpcConnection.ThrewOnNull parse c :=
    TransitionSystem.run_invariant' (RpcConnection.step parse)
      (P := RpcConnection.ThrewOnNull parse) (fun _ _ _ h hs => h.step hs)
      (fun n hn => absurd hn (by simp [RpcConnection.init])) hs
  refine ⟨h.answered, fun n v hv => ?_, h.notifications, fun before after left he hleft ho => ?_,
    hthrew⟩
  · by_contra hn
    have hr := h.replies n (Nat.le_of_not_lt hn)
    have hmem : v ∈ c.replies n := List.mem_filterMap.mpr ⟨_, hv, if_pos rfl⟩
    rw [hr] at hmem
    exact List.not_mem_nil hmem
  · subst he
    have hafter : TransitionSystem.run (RpcConnection.step parse) left after = some c := by
      rwa [TransitionSystem.run_append, hleft, Option.bind_some] at hs
    have hclosed : c.sent = left.sent ∧ c.isOpen = false :=
      TransitionSystem.run_invariant' (RpcConnection.step parse)
        (P := fun c => c.sent = left.sent ∧ c.isOpen = false)
        (fun _ _ _ h hs => ⟨(RpcConnection.sent_step_of_closed h.2 hs).1.trans h.1,
          (RpcConnection.sent_step_of_closed h.2 hs).2⟩) ⟨rfl, ho⟩ hafter
    exact hclosed.1

/-! ## Three frames -/

/-- A call of a counter. -/
def incFrame : String :=
  "\x7b\"jsonrpc\":\"2.0\",\"id\":7,\"method\":\"actor.call\",\"params\":"
    ++ "\x7b\"class\":\"Counter\",\"id\":\"c\",\"method\":\"inc\"\x7d\x7d"

/-- `JSON.parse`, of this text and of `null`. -/
def parseIncFrame (text : String) : Option WireValue :=
  if text = incFrame then
    some (.obj [("jsonrpc", .str "2.0"), ("id", .num 7), ("method", .str "actor.call"),
      ("params", .obj [("class", .str "Counter"), ("id", .str "c"), ("method", .str "inc")])])
  else if text = "null" then some .null
  else none

/-- The call is made, then comes what is no JSON, then `null`; then the call settles. -/
def incAndTwoMore : List RpcConnectionAct :=
  [.message incFrame false, .message "\x7b" false, .message "null" false,
    .settles 0 (.called (some (.num 1)))]

/-- The theorem applies to those frames: the call has its result for its only reply. -/
theorem frames_answered_incAndTwoMore :
    ∃ c, TransitionSystem.run (RpcConnection.step parseIncFrame) .init incAndTwoMore = some c
      ∧ c.replies 0 = [.success (.num 7) (.obj [("result", .num 1)])]
      ∧ c.Answered 1 (.refused (some (.failure .null rpcParseError "parse error" none)))
      ∧ c.Answered 2 .throws := by
  have hs : TransitionSystem.run (RpcConnection.step parseIncFrame) .init incAndTwoMore
      = some _ := rfl
  have h := (frames_answered parseIncFrame hs).1
  exact ⟨_, hs, rfl, h 1 "\x7b" rfl, h 2 "null" rfl⟩
