import Actjs.RpcConnection
import Mathlib.Data.List.Infix
import Mathlib.Logic.Function.Basic

/-!
# A client and the connections that answer it

A client numbers its requests, sends each as a text, and sends it again on every new
connection as long as it is not settled. Each connection reads the texts that arrive and
answers them in whatever order what they ask for settles; the client has only the ids to tell
the answers by. `RpcExchange` is the client beside all the connections it has had. A frame
that is under way may be lost, come late, or come again.

`Matched` is what the two make of a request together: its promise settles with what came of
this very request, on one of the connections, or the client has given up on it; and it settles
unless it is still kept.
-/

open Function (update)

/-! ## What is read of what was written

What is lost on the way through a text is what is `undefined`; an id is read
back as it was. -/

namespace WireValue

mutual

/-- What `JSON.parse` makes of the text `JSON.stringify` writes: a number beyond the numbers
is written as `null`. -/
def reread : WireValue → WireValue
  | null => null
  | bool b => bool b
  | num q => num q
  | infinite _ => null
  | str s => str s
  | arr xs => arr (rereadAll xs)
  | obj fields => obj (rereadFields fields)

def rereadAll : List WireValue → List WireValue
  | [] => []
  | x :: xs => reread x :: rereadAll xs

def rereadFields : List (String × WireValue) → List (String × WireValue)
  | [] => []
  | (name, v) :: fields => (name, reread v) :: rereadFields fields

end

theorem lookup_rereadFields (name : String) (fields : List (String × WireValue)) :
    (rereadFields fields).lookup name = (fields.lookup name).map reread := by
  induction fields with
  | nil => rfl
  | cons f fields ih =>
    obtain ⟨k, v⟩ := f
    rw [rereadFields, List.lookup_cons, List.lookup_cons]
    cases name == k with
    | true => rfl
    | false => exact ih

/-- A field is read as it was written. -/
theorem get?_reread (v : WireValue) (name : String) :
    v.reread.get? name = (v.get? name).map reread := by
  cases v with
  | obj fields => exact lookup_rereadFields name fields
  | _ => rfl

/-- The `id` of a request, as one that `nextSequenceId` has had. -/
theorem seqId_of_id {msg : WireValue} {id : ℕ} (h : msg.get? "id" = some (num id)) :
    msg.seqId = some id := by
  unfold seqId
  rw [h]
  simp

end WireValue

/-! ## The requests -/

/-- A request that was made, with what `JSON.stringify` is given for its parameters. -/
structure ClientRequest where
  id : ℕ
  method : String
  params : Option WireValue

namespace ClientRequest

open WireValue (optional)

/-- The frame. -/
def frame (r : ClientRequest) : WireValue :=
  .obj ([("jsonrpc", .str "2.0"), ("id", .num r.id), ("method", .str r.method)]
    ++ optional "params" r.params)

/-- The request as the server reads it. -/
def arrived (r : ClientRequest) : JsonRpcRequest :=
  ⟨some (.num r.id), r.method, r.params.map WireValue.reread⟩

theorem request?_frame (r : ClientRequest) : r.frame.reread.request? = some r.arrived := by
  obtain ⟨id, method, params⟩ := r
  unfold WireValue.request?
  simp only [WireValue.get?_reread]
  cases params <;> rfl

end ClientRequest

/-- The frame of `notify`. -/
def notifyFrame (method : String) (params : Option WireValue) : WireValue :=
  .obj ([("jsonrpc", .str "2.0"), ("method", .str method)]
    ++ WireValue.optional "params" params)

theorem request?_notifyFrame (method : String) (params : Option WireValue) :
    (notifyFrame method params).reread.request?
      = some ⟨none, method, params.map WireValue.reread⟩ := by
  unfold WireValue.request?
  simp only [WireValue.get?_reread]
  cases params <;> rfl

/-! ## The replies -/

/-- The listener goes by the request that it reads. -/
theorem readFrame_of_request {parse : String → Option WireValue} {text : String}
    {msg : WireValue} {req : JsonRpcRequest} (hp : parse text = some msg)
    (hreq : msg.request? = some req) :
    readFrame parse text = match req.asks with
      | .ok asked => .asks req.id asked
      | .error e => .refused (req.id.map (fun id => .failure id e.1 e.2 none)) := by
  unfold readFrame
  rw [hp]
  cases msg with
  | null => exact absurd hreq (by simp [WireValue.request?, WireValue.get?])
  | _ =>
    dsimp only
    rw [hreq]
    dsimp only
    cases req.asks <;> rfl

/-- **The value is what connection `c` has to say of the request**, which was its frame `n`:
what came of what the request asks for, or why it asks for nothing. -/
def ClientRequest.Tells (r : ClientRequest) (c : RpcConnection) (n : ℕ) (w : WireValue) : Prop :=
  match r.arrived.asks with
  | .ok asked => ∃ outcome, asked.admits outcome = true ∧ c.outcomes n = [(asked, outcome)]
      ∧ w = outcome.reply (.num r.id)
  | .error e => w = .failure (.num r.id) e.1 e.2 none

/-- A response with this id, which the client can make an error of if it is one. -/
structure WireValue.Responds (w : WireValue) (id : ℕ) : Prop where
  isResponseTo : w.reread.isResponseTo id = true
  settles : w.reread.settlementThrows = false

namespace WireValue

theorem responds_success (id : ℕ) (result : WireValue) :
    (success (.num id) result).Responds id where
  isResponseTo := by
    have hid : (success (.num id) result).reread.seqId = some id :=
      seqId_of_id (by rw [get?_reread]; rfl)
    rw [isResponseTo, hid]
    simp only [isResponse, get?_reread]
    simp [success, get?, List.lookup_cons]
  settles := by
    unfold settlementThrows
    rw [get?_reread]
    rfl

theorem responds_failure (id : ℕ) (code : ℚ) (message : String) (data : Option WireValue) :
    (failure (.num id) code message data).Responds id where
  isResponseTo := by
    have hid : (failure (.num id) code message data).reread.seqId = some id :=
      seqId_of_id (by rw [get?_reread]; rfl)
    rw [isResponseTo, hid]
    simp only [isResponse, get?_reread]
    simp [failure, get?, List.lookup_cons]
  settles := by
    unfold settlementThrows
    rw [get?_reread]
    show rpcErrorThrows (obj (rereadFields _)) = false
    unfold rpcErrorThrows
    cases data <;> rfl

end WireValue

theorem AskedOutcome.responds (o : AskedOutcome) (id : ℕ) : (o.reply (.num id)).Responds id := by
  cases o with
  | called result => exact WireValue.responds_success id _
  | callThrew thrown => cases thrown <;> exact WireValue.responds_failure id _ _ _
  | subscribed subscriptionId => exact WireValue.responds_success id _
  | subscribeThrew limit message => cases limit <;> exact WireValue.responds_failure id _ _ _
  | unsubscribed ok => exact WireValue.responds_success id _

namespace ClientRequest

variable {parse : String → Option WireValue} {r : ClientRequest} {c : RpcConnection} {n : ℕ}
  {text : String} {w : WireValue}

theorem Tells.responds (h : r.Tells c n w) : w.Responds r.id := by
  unfold Tells at h
  split at h
  · obtain ⟨o, -, -, rfl⟩ := h
    exact o.responds r.id
  · subst h
    exact WireValue.responds_failure _ _ _ _

/-- **What is said of a request stays so.** -/
theorem Tells.keep {c' : RpcConnection} (h : r.Tells c n w)
    (ho : ∀ asked, r.arrived.asks = .ok asked → c'.outcomes n = c.outcomes n) :
    r.Tells c' n w := by
  unfold Tells at h ⊢
  split at h
  · next asked hasks =>
    obtain ⟨o, ha, hc, hw⟩ := h
    exact ⟨o, ha, (ho asked hasks).trans hc, hw⟩
  · exact h

theorem readFrame_frame (hp : parse text = some r.frame.reread) :
    readFrame parse text = match r.arrived.asks with
      | .ok asked => .asks (some (.num r.id)) asked
      | .error e => .refused (some (.failure (.num r.id) e.1 e.2 none)) :=
  readFrame_of_request hp r.request?_frame

/-- **A reply to the frame of a request says what came of it.** -/
theorem tells_of_replies (h : RpcConnection.Sound parse c) (ht : c.received[n]? = some text)
    (hp : parse text = some r.frame.reread) (hw : w ∈ c.replies n) : r.Tells c n w := by
  have hans := h.answered n text ht
  rw [readFrame_frame hp] at hans
  unfold Tells
  split
  · next asked hasks =>
    rw [hasks] at hans
    rcases hans with ⟨-, hr, -⟩ | ⟨-, o, ha, ho, hr⟩
    · rw [hr] at hw
      exact absurd hw List.not_mem_nil
    · refine ⟨o, ha, ho, ?_⟩
      rcases hr.only with hr | hr <;> rw [hr] at hw
      · exact absurd hw List.not_mem_nil
      · exact List.mem_singleton.mp hw
  · next e hasks =>
    rw [hasks] at hans
    rcases hans.1.only with hr | hr <;> rw [hr] at hw
    · exact absurd hw List.not_mem_nil
    · exact List.mem_singleton.mp hw

end ClientRequest

/-- A notification of the client has no reply. -/
theorem replies_notifyFrame {parse : String → Option WireValue} {c : RpcConnection} {n : ℕ}
    {text : String} {method : String} {params : Option WireValue}
    (h : RpcConnection.Sound parse c) (ht : c.received[n]? = some text)
    (hp : parse text = some (notifyFrame method params).reread) : c.replies n = [] := by
  have hans := h.answered n text ht
  rw [readFrame_of_request hp (request?_notifyFrame method params)] at hans
  split at hans
  · rcases hans with ⟨-, hr, -⟩ | ⟨-, o, -, -, hr⟩
    · exact hr
    · exact hr.only.elim id id
  · exact hans.1.only.elim id id

/-! ## What a connection keeps -/

namespace RpcConnection

/-- **What has come, and what has been said, stays.** -/
structure Grows (c c' : RpcConnection) : Prop where
  received : c.received <+: c'.received
  settled : c.settled <+: c'.settled
  sent : c.sent <+: c'.sent

variable {parse : String → Option WireValue} {c c' : RpcConnection}

theorem sent_send (c : RpcConnection) (n : Option ℕ) (v : WireValue) :
    c.sent <+: (c.send n v).sent := by
  unfold send
  split
  · exact List.prefix_append _ _
  · exact List.prefix_refl _

theorem sent_reply (c : RpcConnection) (n : ℕ) (v : Option WireValue) :
    c.sent <+: (c.reply n v).sent := by
  cases v with
  | none => exact List.prefix_refl _
  | some v => exact sent_send c _ v

theorem grows_settle (c : RpcConnection) (n : ℕ) (id : Option WireValue) (asked : Asked)
    (outcome : AskedOutcome) : Grows c (c.settle n id asked outcome) where
  received := by
    unfold settle
    rw [received_reply]
  settled := by
    unfold settle
    rw [settled_reply]
    exact List.prefix_append _ _
  sent := sent_reply { c with settled := c.settled ++ [⟨n, asked, outcome⟩] } n _

theorem Grows.step {a : RpcConnectionAct} (hs : c.step parse a = some c') : Grows c c' := by
  cases a with
  | message text removed =>
    obtain rfl := Option.some.inj hs
    unfold message
    dsimp only
    have hrec : c.received <+: c.received ++ [text] := List.prefix_append _ _
    split
    · refine ⟨?_, ?_, sent_reply { c with received := c.received ++ [text] } _ _⟩
      · rw [received_reply]
        exact hrec
      · rw [settled_reply]
    · exact ⟨hrec, List.prefix_refl _, List.prefix_refl _⟩
    · have h := grows_settle { c with received := c.received ++ [text] } c.received.length
      exact ⟨hrec.trans (h _ _ _).received, (h _ _ _).settled, (h _ _ _).sent⟩
    · exact ⟨hrec, List.prefix_refl _, List.prefix_refl _⟩
  | settles n outcome =>
    rw [RpcConnection.step, resume] at hs
    split at hs
    · exact absurd hs (by simp)
    · next p hp =>
      split at hs
      · obtain rfl := Option.some.inj hs
        have h := grows_settle { c with pending := c.pending.filter (fun p => p.frame != n) } n
          p.id p.asked outcome
        exact ⟨h.received, h.settled, h.sent⟩
      · exact absurd hs (by simp)
  | notify params =>
    obtain rfl := Option.some.inj hs
    unfold notify
    refine ⟨?_, ?_, sent_send _ _ _⟩
    · rw [received_send]
    · rw [settled_send]
  | leavesOpen =>
    obtain rfl := Option.some.inj hs
    exact ⟨List.prefix_refl _, List.prefix_refl _, List.prefix_refl _⟩

/-- Only a frame is received. -/
theorem mem_received_step {a : RpcConnectionAct} (hs : c.step parse a = some c') {t : String}
    (ht : t ∈ c'.received) : t ∈ c.received ∨ ∃ removed, a = .message t removed := by
  cases a with
  | message text removed =>
    obtain rfl := Option.some.inj hs
    have hrec : (c.message parse text removed).received = c.received ++ [text] := by
      unfold message settle
      dsimp only
      split
      · rw [received_reply]
      · rfl
      · rw [received_reply]
      · rfl
    rw [hrec] at ht
    refine (List.mem_append.mp ht).imp_right (fun ht => ⟨removed, ?_⟩)
    rw [List.mem_singleton.mp ht]
  | settles n outcome =>
    rw [RpcConnection.step, resume] at hs
    split at hs
    · exact absurd hs (by simp)
    · split at hs
      · obtain rfl := Option.some.inj hs
        unfold settle at ht
        rw [received_reply] at ht
        exact .inl ht
      · exact absurd hs (by simp)
  | notify params =>
    obtain rfl := Option.some.inj hs
    unfold notify at ht
    rw [received_send] at ht
    exact .inl ht
  | leavesOpen =>
    obtain rfl := Option.some.inj hs
    exact .inl ht

theorem Grows.received_eq (h : Grows c c') {n : ℕ} {text : String}
    (ht : c.received[n]? = some text) : c'.received[n]? = some text := by
  obtain ⟨ts, hts⟩ := h.received
  rw [← hts, List.getElem?_append_left (List.getElem?_eq_some_iff.mp ht).1]
  exact ht

theorem Grows.outcomes (h : Grows c c') (n : ℕ) : c.outcomes n <+: c'.outcomes n :=
  h.settled.filterMap _

end RpcConnection

/-- **A request that was answered stays answered so.** -/
theorem ClientRequest.Tells.grows {parse : String → Option WireValue} {r : ClientRequest}
    {c c' : RpcConnection} {n : ℕ} {text : String} {w : WireValue} (h : r.Tells c n w)
    (hg : RpcConnection.Grows c c') (hs : RpcConnection.Sound parse c')
    (ht : c'.received[n]? = some text) (hp : parse text = some r.frame.reread) :
    r.Tells c' n w := by
  have hans := hs.answered n text ht
  rw [readFrame_frame hp] at hans
  unfold Tells at h ⊢
  split at h
  · next asked hasks =>
    rw [hasks] at hans
    obtain ⟨o, ha, ho, hw⟩ := h
    have hpre := hg.outcomes n
    rw [ho] at hpre
    -- frame `n` has one outcome at most, and this is there already
    rcases hans with ⟨-, -, hno⟩ | ⟨-, o', -, ho', -⟩
    · rw [hno] at hpre
      exact absurd hpre (by simp)
    · rw [ho'] at hpre
      obtain ⟨rfl⟩ : (asked, o) = (asked, o') := by simpa using hpre
      exact ⟨o, ha, ho', hw⟩
  · exact h

/-! ## The exchange

The two models side by side, with the texts in between; a text may be lost,
late or doubled. -/

/-- **A client, and the connections it has had.** -/
structure RpcExchange (E : Type) where
  client : RpcClient E
  requests : List ClientRequest
  /-- What `notify` was called with. -/
  notified : List (String × Option WireValue)
  conns : ℕ → RpcConnection

/-- **What can happen next.** -/
inductive RpcExchangeAct (E : Type) where
  /-- `request`. `sends` is whether the transport takes the frame, or throws. -/
  | request (method : String) (params : Option WireValue) (sends : Bool)
  /-- `request`, of parameters that `JSON.stringify` throws on. -/
  | requestUnserializable
  | notify (method : String) (params : Option WireValue)
  /-- `handleOpen`. -/
  | opens (takes : ℕ)
  | closes
  | rejectAll (err : E)
  /-- A text that the transport was given arrives on connection `k`. -/
  | arrives (k : ℕ) (text : String) (removed : Bool)
  /-- What frame `n` of connection `k` asked for settles. -/
  | settles (k n : ℕ) (outcome : AskedOutcome)
  /-- The server notifies the client on connection `k`. -/
  | event (k : ℕ) (params : WireValue)
  | leavesOpen (k : ℕ)
  /-- What connection `k` sent as number `j` arrives at the client. -/
  | answers (k j : ℕ)

namespace RpcExchange

variable {E : Type}

def init : RpcExchange E := ⟨.init, [], [], fun _ => .init⟩

/-- A connection moves. -/
def moveConn (parse : String → Option WireValue) (s : RpcExchange E) (k : ℕ)
    (a : RpcConnectionAct) : Option (RpcExchange E) :=
  ((s.conns k).step parse a).map (fun c => { s with conns := update s.conns k c })

/-- **One step.** -/
def step (stringify : WireValue → String) (parse : String → Option WireValue)
    (s : RpcExchange E) : RpcExchangeAct E → Option (RpcExchange E)
  | .request method params sends =>
    let r : ClientRequest := ⟨s.client.nextSequenceId, method, params⟩
    some { s with
      client := s.client.request (stringify r.frame) sends
      requests := s.requests ++ [r] }
  | .requestUnserializable => some { s with client := s.client.requestUnserializable }
  | .notify method params =>
    some { s with
      client := s.client.notify (stringify (notifyFrame method params))
      notified := s.notified ++ [(method, params)] }
  | .opens takes => some { s with client := s.client.handleOpen takes }
  | .closes => some { s with client := s.client.handleClose }
  | .rejectAll err => some { s with client := s.client.rejectAll err }
  | .arrives k text removed =>
    if text ∈ s.client.sent then s.moveConn parse k (.message text removed) else none
  | .settles k n outcome => s.moveConn parse k (.settles n outcome)
  | .event k params => s.moveConn parse k (.notify params)
  | .leavesOpen k => s.moveConn parse k .leavesOpen
  | .answers k j =>
    ((s.conns k).sent[j]?).map (fun x =>
      { s with client := s.client.ingest parse (stringify x.2) })

/-- The value was turned into a text, by the client or by a connection. -/
inductive Written (s : RpcExchange E) : WireValue → Prop
  | request {r : ClientRequest} : r ∈ s.requests → Written s r.frame
  | notify {x : String × Option WireValue} : x ∈ s.notified →
      Written s (notifyFrame x.1 x.2)
  | answer {k : ℕ} {x : Option ℕ × WireValue} : x ∈ (s.conns k).sent → Written s x.2

/-- **What may settle a request**: that its frame could not be sent, that the client gave up,
or what one of the connections has to say of it. -/
inductive Accounts (stringify : WireValue → String) (s : RpcExchange E) (r : ClientRequest) :
    Settlement E → Prop
  | sendThrew : Accounts stringify s r .sendThrew
  | rejectAll (err : E) : Accounts stringify s r (.rejectAll err)
  | answer {k n : ℕ} {w : WireValue} : (s.conns k).received[n]? = some (stringify r.frame) →
      r.Tells (s.conns k) n w → Accounts stringify s r w.reread.settlement

/-- **Every request is matched with its own answer**: it is kept until it is settled, and
settled by nothing but what may settle it. -/
structure Matched (stringify : WireValue → String) (s : RpcExchange E) : Prop where
  /-- No request is forgotten before it is settled. -/
  kept : ∀ r ∈ s.requests, (s.client.pending.lookup r.id).isSome = true
    ∨ ∃ st, (r.id, st) ∈ s.client.settled
  /-- What settles it is its own answer, or that there will be none. -/
  settled : ∀ r ∈ s.requests, ∀ st, (r.id, st) ∈ s.client.settled →
    Accounts stringify s r st

/-- **What holds of every exchange.** -/
structure Sound (stringify : WireValue → String) (parse : String → Option WireValue)
    (s : RpcExchange E) : Prop where
  conns : ∀ k, RpcConnection.Sound parse (s.conns k)
  sent : ∀ t ∈ s.client.sent, (∃ r ∈ s.requests, t = stringify r.frame)
    ∨ ∃ x ∈ s.notified, t = stringify (notifyFrame x.1 x.2)
  received : ∀ k, ∀ t ∈ (s.conns k).received, t ∈ s.client.sent
  pending : ∀ p ∈ s.client.pending, ∃ r ∈ s.requests, r.id = p.1 ∧ p.2 = stringify r.frame
  below : ∀ r ∈ s.requests, r.id < s.client.nextSequenceId
  ids : ∀ r ∈ s.requests, ∀ r' ∈ s.requests, r.id = r'.id → r = r'
  matched : Matched stringify s

variable {stringify : WireValue → String} {parse : String → Option WireValue}
  {s s' : RpcExchange E}

namespace Sound

theorem init (stringify : WireValue → String) (parse : String → Option WireValue) :
    Sound stringify parse (init : RpcExchange E) where
  conns _ := .init parse
  sent t ht := absurd ht (by simp [RpcExchange.init, RpcClient.init])
  received k t ht := absurd ht (by simp [RpcExchange.init, RpcConnection.init])
  pending p hp := absurd hp (by simp [RpcExchange.init, RpcClient.init])
  below r hr := absurd hr (by simp [RpcExchange.init])
  ids r hr := absurd hr (by simp [RpcExchange.init])
  matched :=
    ⟨fun r hr => absurd hr (by simp [RpcExchange.init]),
      fun r hr => absurd hr (by simp [RpcExchange.init])⟩

/-- **What a connection sends as the reply to a frame is the answer to a request.** -/
theorem reply (h : Sound stringify parse s)
    (hjson : ∀ v, s.Written v → parse (stringify v) = some v.reread) {k n : ℕ} {w : WireValue}
    (hw : (some n, w) ∈ (s.conns k).sent) :
    ∃ r ∈ s.requests, (s.conns k).received[n]? = some (stringify r.frame)
      ∧ r.Tells (s.conns k) n w := by
  have hc := h.conns k
  have hmem : w ∈ (s.conns k).replies n := List.mem_filterMap.mpr ⟨_, hw, if_pos rfl⟩
  have hlt : n < (s.conns k).received.length := by
    by_contra hle
    rw [hc.replies n (Nat.le_of_not_lt hle)] at hmem
    exact List.not_mem_nil hmem
  obtain ⟨text, ht⟩ : ∃ text, (s.conns k).received[n]? = some text :=
    ⟨_, List.getElem?_eq_getElem hlt⟩
  rcases h.sent text (h.received k text (List.mem_of_getElem? ht)) with ⟨r, hr, rfl⟩
    | ⟨x, hx, rfl⟩
  · exact ⟨r, hr, ht, ClientRequest.tells_of_replies hc ht (hjson _ (.request hr)) hmem⟩
  · rw [replies_notifyFrame hc ht (hjson _ (.notify hx))] at hmem
    exact absurd hmem List.not_mem_nil

/-- The client alone moves, and makes no request. -/
theorem of_client (h : Sound stringify parse s) {client : RpcClient E}
    (hsent : ∀ t ∈ client.sent, t ∈ s.client.sent ∨ ∃ p ∈ s.client.pending, t = p.2)
    (hmono : s.client.sent ⊆ client.sent)
    (hpending : ∀ p ∈ client.pending, p ∈ s.client.pending)
    (hseq : s.client.nextSequenceId ≤ client.nextSequenceId)
    (hm : Matched stringify { s with client := client }) :
    Sound stringify parse { s with client := client } where
  conns := h.conns
  sent t ht := by
    rcases hsent t ht with ht | ⟨p, hp, rfl⟩
    · exact h.sent t ht
    · obtain ⟨r, hr, -, hf⟩ := h.pending p hp
      exact .inl ⟨r, hr, hf⟩
  received k t ht := hmono (h.received k t ht)
  pending p hp := h.pending p (hpending p hp)
  below r hr := (h.below r hr).trans_le hseq
  ids := h.ids
  matched := hm

end Sound

/-- The connections are as they were. -/
theorem Accounts.congr {r : ClientRequest} {st : Settlement E} (h : Accounts stringify s r st)
    (hc : s'.conns = s.conns) : Accounts stringify s' r st := by
  cases h with
  | sendThrew => exact .sendThrew
  | rejectAll err => exact .rejectAll err
  | answer ht hw =>
    rw [← hc] at ht hw
    exact .answer ht hw

/-- Nothing is done to the requests. -/
theorem Matched.congr (h : Matched stringify s) {client : RpcClient E}
    (hp : client.pending = s.client.pending) (hst : client.settled = s.client.settled) :
    Matched stringify { s with client := client } where
  kept r hr := by
    rw [hp, hst]
    exact h.kept r hr
  settled r hr st hmem := by
    rw [hst] at hmem
    exact (h.settled r hr st hmem).congr rfl

/-- **A request is made.** -/
theorem Sound.request (h : Sound stringify parse s) (method : String) (params : Option WireValue)
    (sends : Bool) :
    Sound stringify parse { s with
      client := s.client.request
        (stringify (ClientRequest.mk s.client.nextSequenceId method params).frame) sends
      requests := s.requests ++ [⟨s.client.nextSequenceId, method, params⟩] } := by
  set r₀ : ClientRequest := ⟨s.client.nextSequenceId, method, params⟩
  have hnew : ∀ {r}, r ∈ s.requests ++ [r₀] → r ∈ s.requests ∨ r = r₀ :=
    fun hr => (List.mem_append.mp hr).imp_right List.mem_singleton.mp
  have hold : ∀ {r}, r ∈ s.requests → r ∈ s.requests ++ [r₀] := List.mem_append_left _
  have hmem₀ : r₀ ∈ s.requests ++ [r₀] := List.mem_append_right _ (List.mem_singleton_self _)
  have hsub : s.client.sent ⊆ (s.client.request (stringify r₀.frame) sends).sent := by
    cases sends with
    | true => exact List.subset_append_left _ _
    | false => exact List.Subset.refl _
  have hsettled : ∀ {x}, x ∈ (s.client.request (stringify r₀.frame) sends).settled →
      x ∈ s.client.settled ∨ x = (r₀.id, .sendThrew) := by
    cases sends with
    | true => exact fun hx => .inl hx
    | false => exact fun hx => (List.mem_append.mp hx).imp_right List.mem_singleton.mp
  refine
    { conns := h.conns
      sent := fun t ht => ?_
      received := fun k t ht => hsub (h.received k t ht)
      pending := fun p hp => ?_
      below := fun r hr => ?_
      ids := fun r hr r' hr' he => ?_
      matched := ⟨fun r hr => ?_, fun r hr st hst => ?_⟩ }
  · have ht' : t ∈ s.client.sent ∨ t = stringify r₀.frame := by
      cases sends with
      | true => exact (List.mem_append.mp ht).imp_right List.mem_singleton.mp
      | false => exact .inl ht
    rcases ht' with ht' | rfl
    · exact (h.sent t ht').imp_left (fun ⟨r, hr, he⟩ => ⟨r, hold hr, he⟩)
    · exact .inl ⟨r₀, hmem₀, rfl⟩
  · rcases List.mem_append.mp hp with hp | hp
    · obtain ⟨r, hr, hid, hf⟩ := h.pending p hp
      exact ⟨r, hold hr, hid, hf⟩
    · obtain rfl := List.mem_singleton.mp hp
      exact ⟨r₀, hmem₀, rfl, rfl⟩
  · rcases hnew hr with hr | rfl
    · exact Nat.lt_succ_of_lt (h.below r hr)
    · exact Nat.lt_succ_self _
  · rcases hnew hr with hr | rfl <;> rcases hnew hr' with hr' | rfl
    · exact h.ids r hr r' hr' he
    · exact absurd he (Nat.ne_of_lt (h.below r hr))
    · exact absurd he.symm (Nat.ne_of_lt (h.below r' hr'))
    · rfl
  · rcases hnew hr with hr | rfl
    · refine (h.matched.kept r hr).imp (fun hk => ?_) (fun ⟨st, hst⟩ => ⟨st, ?_⟩)
      · show ((s.client.request _ sends).pending.lookup r.id).isSome = true
        rw [RpcClient.lookup_request (h.below r hr)]
        exact hk
      · cases sends with
        | true => exact hst
        | false => exact List.mem_append_left _ hst
    · refine .inl ?_
      show ((s.client.request _ sends).pending.lookup s.client.nextSequenceId).isSome = true
      rw [RpcClient.lookup_request_self]
      rfl
  · rcases hsettled hst with hst | hst
    · rcases hnew hr with hr | rfl
      · exact (h.matched.settled r hr st hst).congr rfl
      · exact absurd (s.client.lt_of_settled _ hst) (Nat.lt_irrefl _)
    · obtain ⟨-, rfl⟩ := Prod.mk.inj hst
      exact .sendThrew

/-- **The client gives up.** -/
theorem Sound.rejectAll (h : Sound stringify parse s) (err : E) :
    Sound stringify parse { s with client := s.client.rejectAll err } := by
  refine h.of_client (fun t ht => .inl ht) (List.Subset.refl _)
    (fun p hp => absurd hp List.not_mem_nil) le_rfl ⟨fun r hr => ?_, fun r hr st hst => ?_⟩
  · refine .inr ?_
    rcases h.matched.kept r hr with hk | ⟨st, hst⟩
    · obtain ⟨p, hp, hid⟩ := List.lookup_isSome_iff.mp hk
      exact ⟨.rejectAll err, List.mem_append_right _
        (List.mem_map.mpr ⟨p, hp, by rw [beq_iff_eq.mp hid]⟩)⟩
    · exact ⟨st, List.mem_append_left _ hst⟩
  · rcases List.mem_append.mp hst with hst | hst
    · exact (h.matched.settled r hr st hst).congr rfl
    · obtain ⟨p, -, he⟩ := List.mem_map.mp hst
      obtain ⟨-, rfl⟩ := Prod.mk.inj he
      exact .rejectAll err

/-- The response to a request settles it, and it alone. -/
theorem Matched.answer (h : Matched stringify s) (hids : ∀ r ∈ s.requests, ∀ r' ∈ s.requests,
    r.id = r'.id → r = r') {r₀ : ClientRequest} (hr₀ : r₀ ∈ s.requests) {w : WireValue}
    (hw : w.Responds r₀.id) (ha : Accounts (E := E) stringify s r₀ w.reread.settlement) :
    Matched stringify { s with client := s.client.answer r₀.id w.reread } := by
  unfold RpcClient.answer
  split
  · next hk =>
    rw [if_neg (by rw [hw.settles]; simp)]
    have hsettled : ∀ {x}, x ∈ s.client.settled ++ [(r₀.id, w.reread.settlement)] →
        x ∈ s.client.settled ∨ x = (r₀.id, w.reread.settlement) :=
      fun hx => (List.mem_append.mp hx).imp_right List.mem_singleton.mp
    refine ⟨fun r hr => ?_, fun r hr st hst => ?_⟩
    · by_cases he : r.id = r₀.id
      · refine .inr ⟨w.reread.settlement, ?_⟩
        rw [he]
        exact List.mem_append_right _ (List.mem_singleton_self _)
      · refine (h.kept r hr).imp (fun hp => ?_)
          (Exists.imp fun _ => List.mem_append_left _)
        rw [RpcClient.lookup_delete, if_neg he]
        exact hp
    · rcases hsettled hst with hst | hst
      · exact (h.settled r hr st hst).congr rfl
      · obtain ⟨he, rfl⟩ := Prod.mk.inj hst
        obtain rfl := hids r hr r₀ hr₀ he
        exact ha.congr rfl
  · exact h.congr rfl rfl

/-- A notification settles nothing. -/
theorem isResponse_notification (params : WireValue) :
    (WireValue.notification params).reread.isResponse = false := by
  unfold WireValue.isResponse
  simp only [WireValue.get?_reread]
  rfl

/-- **What a connection sent arrives.** -/
theorem Sound.answers (h : Sound stringify parse s)
    (hjson : ∀ v, s.Written v → parse (stringify v) = some v.reread) {k : ℕ}
    {x : Option ℕ × WireValue} (hx : x ∈ (s.conns k).sent) :
    Sound stringify parse { s with client := s.client.ingest parse (stringify x.2) } := by
  have hp : parse (stringify x.2) = some x.2.reread := hjson _ (.answer hx)
  obtain ⟨n, w⟩ := x
  cases n with
  | none =>
    obtain ⟨params, rfl⟩ := (h.conns k).notifications w hx
    have hsame : s.client.ingest parse (stringify (.notification params)) = s.client := by
      unfold RpcClient.ingest
      rw [hp]
      dsimp only
      rw [if_neg (by rw [isResponse_notification]; simp)]
    rw [hsame]
    exact h
  | some n =>
    obtain ⟨r, hr, ht, hw⟩ := h.reply hjson hx
    have hin : s.client.ingest parse (stringify w) = s.client.answer r.id w.reread :=
      RpcClient.ingest_of_response hp hw.responds.isResponseTo
    have hm := h.matched.answer h.ids hr hw.responds (.answer ht hw)
    have hanswer : (s.client.answer r.id w.reread).sent = s.client.sent
        ∧ (∀ p ∈ (s.client.answer r.id w.reread).pending, p ∈ s.client.pending)
        ∧ (s.client.answer r.id w.reread).nextSequenceId = s.client.nextSequenceId := by
      unfold RpcClient.answer
      split
      · split <;> exact ⟨rfl, fun p hp => (List.mem_filter.mp hp).1, rfl⟩
      · exact ⟨rfl, fun p hp => hp, rfl⟩
    show Sound stringify parse { s with client := s.client.ingest parse (stringify w) }
    rw [hin]
    refine h.of_client (fun t ht => .inl ?_) ?_ hanswer.2.1 hanswer.2.2.ge hm
    · rwa [hanswer.1] at ht
    · rw [hanswer.1]
      exact List.Subset.refl _

/-- **A connection moves.** -/
theorem Sound.moveConn (h : Sound stringify parse s)
    (hjson : ∀ v, s.Written v → parse (stringify v) = some v.reread) {k : ℕ}
    {a : RpcConnectionAct}
    (ha : ∀ text removed, a = .message text removed → text ∈ s.client.sent)
    (hs : s.moveConn parse k a = some s') : Sound stringify parse s' := by
  obtain ⟨c, hc, rfl⟩ := Option.map_eq_some_iff.mp hs
  have hsound : RpcConnection.Sound parse c := (h.conns k).step hc
  have hgrows : RpcConnection.Grows (s.conns k) c := .step hc
  have hconns : ∀ k', RpcConnection.Sound parse (update s.conns k c k')
      ∧ RpcConnection.Grows (s.conns k') (update s.conns k c k') := by
    intro k'
    rw [Function.update_apply]
    split
    · next he => exact he ▸ ⟨hsound, hgrows⟩
    · exact ⟨h.conns k', ⟨List.prefix_refl _, List.prefix_refl _, List.prefix_refl _⟩⟩
  refine
    { conns := fun k' => (hconns k').1
      sent := h.sent
      received := fun k' t ht => ?_
      pending := h.pending
      below := h.below
      ids := h.ids
      matched := ⟨h.matched.kept, fun r hr st hst => ?_⟩ }
  · change t ∈ (update s.conns k c k').received at ht
    rw [Function.update_apply] at ht
    split at ht
    · rcases RpcConnection.mem_received_step hc ht with ht | ⟨removed, he⟩
      · exact h.received k t ht
      · exact ha t removed he
    · exact h.received k' t ht
  · cases h.matched.settled r hr st hst with
    | sendThrew => exact .sendThrew
    | rejectAll err => exact .rejectAll err
    | @answer k' n w ht hw =>
      have hg := (hconns k').2
      have ht' := hg.received_eq ht
      exact .answer ht' (hw.grows hg (hconns k').1 ht' (hjson _ (.request hr)))

/-- What was written stays so. -/
theorem Written.step {a : RpcExchangeAct E} (hs : s.step stringify parse a = some s')
    {v : WireValue} (h : s.Written v) : s'.Written v := by
  have hconn : ∀ {k : ℕ} {b : RpcConnectionAct}, s.moveConn parse k b = some s' →
      s'.Written v := by
    intro k b hs
    obtain ⟨c, hc, rfl⟩ := Option.map_eq_some_iff.mp hs
    cases h with
    | request hr => exact .request (s := { s with conns := update s.conns k c }) hr
    | notify hx => exact .notify (s := { s with conns := update s.conns k c }) hx
    | @answer k' x hx =>
      refine .answer (s := { s with conns := update s.conns k c }) (k := k') ?_
      show x ∈ (update s.conns k c k').sent
      rw [Function.update_apply]
      split
      · next he => exact (RpcConnection.Grows.step hc).sent.subset (he ▸ hx)
      · exact hx
  cases a with
  | request method params sends =>
    obtain rfl := Option.some.inj hs
    cases h with
    | request hr => exact .request (List.mem_append_left _ hr)
    | notify hx => exact .notify hx
    | answer hx => exact .answer hx
  | notify method params =>
    obtain rfl := Option.some.inj hs
    cases h with
    | request hr => exact .request hr
    | notify hx => exact .notify (List.mem_append_left _ hx)
    | answer hx => exact .answer hx
  | arrives k text removed =>
    rw [RpcExchange.step] at hs
    split at hs
    · exact hconn hs
    · exact absurd hs (by simp)
  | settles k n outcome => exact hconn hs
  | event k params => exact hconn hs
  | leavesOpen k => exact hconn hs
  | answers k j =>
    obtain ⟨x, -, rfl⟩ := Option.map_eq_some_iff.mp hs
    cases h with
    | request hr => exact .request hr
    | notify hx => exact .notify hx
    | answer hx => exact .answer hx
  | _ =>
    obtain rfl := Option.some.inj hs
    cases h with
    | request hr => exact .request hr
    | notify hx => exact .notify hx
    | answer hx => exact .answer hx

/-- **Every step keeps the requests and the answers together.** -/
theorem Sound.step (h : Sound stringify parse s)
    (hjson : ∀ v, s.Written v → parse (stringify v) = some v.reread) {a : RpcExchangeAct E}
    (hs : s.step stringify parse a = some s') : Sound stringify parse s' := by
  cases a with
  | request method params sends =>
    obtain rfl := Option.some.inj hs
    exact h.request method params sends
  | requestUnserializable =>
    obtain rfl := Option.some.inj hs
    exact h.of_client (fun t ht => .inl ht) (List.Subset.refl _) (fun p hp => hp)
      (Nat.le_succ _) (h.matched.congr rfl rfl)
  | notify method params =>
    obtain rfl := Option.some.inj hs
    exact
      { conns := h.conns
        sent := fun t ht => by
          rcases List.mem_append.mp ht with ht | ht
          · exact (h.sent t ht).imp_right
              (fun ⟨x, hx, he⟩ => ⟨x, List.mem_append_left _ hx, he⟩)
          · exact .inr ⟨(method, params),
              List.mem_append_right _ (List.mem_singleton_self _), List.mem_singleton.mp ht⟩
        received := fun k t ht => List.mem_append_left _ (h.received k t ht)
        pending := h.pending
        below := h.below
        ids := h.ids
        matched := ⟨h.matched.kept, fun r hr st hst => (h.matched.settled r hr st hst).congr rfl⟩ }
  | opens takes =>
    obtain rfl := Option.some.inj hs
    refine h.of_client (fun t ht => ?_) (List.subset_append_left _ _) (fun p hp => hp) le_rfl
      (h.matched.congr rfl rfl)
    refine (List.mem_append.mp ht).imp_right (fun ht => ?_)
    obtain ⟨p, hp, rfl⟩ := List.mem_map.mp (List.mem_of_mem_take ht)
    exact ⟨p, hp, rfl⟩
  | closes =>
    obtain rfl := Option.some.inj hs
    exact h.of_client (fun t ht => .inl ht) (List.Subset.refl _) (fun p hp => hp) le_rfl
      (h.matched.congr rfl rfl)
  | rejectAll err =>
    obtain rfl := Option.some.inj hs
    exact h.rejectAll err
  | arrives k text removed =>
    rw [RpcExchange.step] at hs
    split at hs
    · next ht =>
      refine h.moveConn hjson (fun t r he => ?_) hs
      obtain ⟨rfl, -⟩ := RpcConnectionAct.message.inj he
      exact ht
    · exact absurd hs (by simp)
  | settles k n outcome => exact h.moveConn hjson (by simp) hs
  | event k params => exact h.moveConn hjson (by simp) hs
  | leavesOpen k => exact h.moveConn hjson (by simp) hs
  | answers k j =>
    obtain ⟨x, hx, rfl⟩ := Option.map_eq_some_iff.mp hs
    exact h.answers hjson (List.mem_of_getElem? hx)

/-- **A request gets what came of it, and nothing else.** In every run of a client and its
connections in which `JSON.parse` reads what `JSON.stringify` wrote, a request is kept until
it is settled; and it is settled by what one of the connections that read its own frame has to
say of it, whatever else is under way and however often frames are sent again, unless the
transport threw on it or the client gave up on all requests. -/
theorem requests_matched (stringify : WireValue → String) (parse : String → Option WireValue)
    {as : List (RpcExchangeAct E)} {s : RpcExchange E}
    (hs : TransitionSystem.run (RpcExchange.step stringify parse) .init as = some s)
    (hjson : ∀ v, s.Written v → parse (stringify v) = some v.reread) :
    Matched stringify s := by
  have h := TransitionSystem.run_invariant' (RpcExchange.step stringify parse)
    (P := fun s => (∀ v, s.Written v → parse (stringify v) = some v.reread) →
      Sound stringify parse s)
    (fun s a s' ih hs hj =>
      have hj' := fun v (hv : s.Written v) => hj v (hv.step hs)
      (ih hj').step hj' hs)
    (fun _ => .init stringify parse) hs
  exact (h hjson).matched

/-! ### A call over the network -/

/-- The parameters of the call. -/
def incParams : WireValue :=
  .obj [("class", .str "Counter"), ("id", .str "c"), ("method", .str "inc")]

/-- What the request is sent as. -/
def incText : String :=
  "\x7b\"jsonrpc\":\"2.0\",\"id\":1,\"method\":\"actor.call\",\"params\":"
    ++ "\x7b\"class\":\"Counter\",\"id\":\"c\",\"method\":\"inc\"\x7d\x7d"

/-- What the answer is sent as. -/
def oneText : String := "\x7b\"jsonrpc\":\"2.0\",\"id\":1,\"result\":\x7b\"result\":1\x7d\x7d"

/-- `JSON.stringify`, of the request and the answer. -/
def stringifyInc (v : WireValue) : String :=
  if (v.get? "method").isSome = true then incText else oneText

/-- `JSON.parse`, of these texts. -/
def parseInc (text : String) : Option WireValue :=
  if text = incText then some (ClientRequest.mk 1 "actor.call" (some incParams)).frame
  else if text = oneText then some (.success (.num 1) (.obj [("result", .num 1)]))
  else none

/-- The connection is lost when the call has been made, and the call is sent again on the next
one, where it is answered. -/
def calledAgain : List (RpcExchangeAct Unit) :=
  [.request "actor.call" (some incParams) true, .arrives 0 incText false, .leavesOpen 0,
    .closes, .opens 1, .arrives 1 incText false, .settles 0 0 (.called (some (.num 1))),
    .settles 1 0 (.called (some (.num 1))), .answers 1 0]

/-- The theorem applies to that run, in which the call is settled. -/
theorem requests_matched_calledAgain :
    ∃ s, TransitionSystem.run (RpcExchange.step stringifyInc parseInc) .init calledAgain = some s
      ∧ s.client.settled = [(1, .resolve (some (.obj [("result", .num 1)])))]
      ∧ Matched stringifyInc s := by
  have hs : TransitionSystem.run (RpcExchange.step stringifyInc parseInc) .init calledAgain
      = some _ := rfl
  refine ⟨_, hs, rfl, requests_matched stringifyInc parseInc hs (fun v hv => ?_)⟩
  cases hv with
  | request hr =>
    obtain rfl := List.mem_singleton.mp hr
    rfl
  | notify hx => exact absurd hx List.not_mem_nil
  | @answer k x hx =>
    rcases k with _ | _ | k
    · exact absurd hx List.not_mem_nil
    · obtain rfl := List.mem_singleton.mp hx
      rfl
    · exact absurd hx List.not_mem_nil

end RpcExchange
