import Actjs.Transition
import Mathlib.Data.List.Induction
import Mathlib.Data.List.Nodup
import Mathlib.Data.Rat.Defs
import Mathlib.Tactic.Common

/-!
# The requests and the frames that answer them

`RpcClient` keeps the requests that are not settled in a map by their ids, and `ingest` looks
up there which one a frame from the network is for. The frame may be any text. What settles a
request should be the first response with its id, or `rejectAll`; nothing else should, and the
request should be in the map for exactly as long as it is not settled. `Correlated` says so of
every state of a run.

Two things come between. A request whose frame the transport throws on has been settled by
that, and stays in the map. And `ingest` takes a request out of the map before it makes the
`RpcError` of its response: where this throws, as it does for `"error": null`, the request is
never settled. `correlated_iff` says that nothing else does.

`JSON.parse` is a parameter. What it makes of a text has each name once in an object.
-/

/-! ## What a frame says -/

/-- A value that `JSON.parse` returns. A numeral may be beyond the numbers. -/
inductive WireValue where
  | null
  | bool (b : Bool)
  | num (q : ℚ)
  | infinite (negative : Bool)
  | str (s : String)
  | arr (xs : List WireValue)
  | obj (fields : List (String × WireValue))

/-- What is passed to the constructor of `RpcError`, where there is something. The message of
the error is the text of `message`. -/
structure RpcError where
  message : Option WireValue
  code : Option WireValue
  data : Option WireValue

/-- **What settles the promise of a request.** -/
inductive Settlement (E : Type) where
  | resolve (result : Option WireValue)
  | reject (err : RpcError)
  | rejectAll (err : E)
  /-- The transport throws on the frame of the request. -/
  | sendThrew

namespace WireValue

variable {E : Type}

/-- `v[name]`, for a name that is none of a prototype's. -/
def get? (name : String) : WireValue → Option WireValue
  | obj fields => fields.lookup name
  | _ => none

/-- The `id` of a message, if it is one that `nextSequenceId` has had. -/
def seqId (msg : WireValue) : Option ℕ :=
  match msg.get? "id" with
  | some (num q) => if q.den = 1 ∧ 0 ≤ q.num then some q.num.toNat else none
  | _ => none

def isResponse (msg : WireValue) : Bool :=
  (msg.get? "id").isSome && ((msg.get? "result").isSome || (msg.get? "error").isSome)

mutual

/-- `String(v)` throws: `v` has a `toString` that is no function, which is so of every
`toString` in a text. -/
def stringThrows : WireValue → Bool
  | obj fields => (fields.lookup "toString").isSome
  | arr xs => anyStringThrows xs
  | _ => false

/-- This is so of an element of an array, which `String` goes into. -/
def anyStringThrows : List WireValue → Bool
  | [] => false
  | x :: xs => stringThrows x || anyStringThrows xs

end

/-- `new RpcError(err.message, err.code, err.data)`. -/
def rpcError (err : WireValue) : RpcError := ⟨err.get? "message", err.get? "code", err.get? "data"⟩

/-- This throws. -/
def rpcErrorThrows : WireValue → Bool
  | null => true
  | err =>
    match err.get? "message" with
    | some message => message.stringThrows
    | none => false

/-- **The result of a response, or its error**, which goes before its result. -/
def settlement (msg : WireValue) : Settlement E :=
  match msg.get? "error" with
  | some err => .reject err.rpcError
  | none => .resolve (msg.get? "result")

/-- `ingest` throws when it comes to the error of the response. -/
def settlementThrows (msg : WireValue) : Bool :=
  match msg.get? "error" with
  | some err => err.rpcErrorThrows
  | none => false

/-- A response that carries the id. -/
def isResponseTo (id : ℕ) (msg : WireValue) : Bool := msg.isResponse && msg.seqId == some id

end WireValue

/-! ## The client -/

/-- **`RpcClient`**, with the default `nextId`. -/
structure RpcClient (E : Type) where
  nextSequenceId : ℕ
  /-- The requests that are not settled, with their frames, in the order of their insertion. -/
  pending : List (ℕ × String)
  isOpen : Bool
  /-- The frames that the transport was given. -/
  sent : List String
  /-- The calls of `resolve` and of `reject`, with the ids of the requests. -/
  settled : List (ℕ × Settlement E)
  nodup : (pending.map Prod.fst).Nodup
  lt_of_pending : ∀ p ∈ pending, p.1 < nextSequenceId
  lt_of_settled : ∀ x ∈ settled, x.1 < nextSequenceId

/-- **What can happen to a client next.** -/
inductive RpcClientAct (E : Type) where
  /-- `request`. `sends` is whether the transport takes the frame, or throws. -/
  | request (frame : String) (sends : Bool)
  /-- `request`, of parameters that `JSON.stringify` throws on. -/
  | requestUnserializable
  | notify (frame : String)
  /-- `handleOpen`. The transport takes so many of the frames before it throws. -/
  | opens (takes : ℕ)
  | closes
  | ingest (text : String)
  | rejectAll (err : E)

namespace RpcClient

variable {E : Type} (parse : String → Option WireValue)

def init : RpcClient E := ⟨1, [], false, [], [], by simp, by simp, by simp⟩

/-- `request`, with the promise. -/
def request (c : RpcClient E) (frame : String) (sends : Bool) : RpcClient E where
  nextSequenceId := c.nextSequenceId + 1
  pending := c.pending ++ [(c.nextSequenceId, frame)]
  isOpen := c.isOpen
  sent := if sends = true then c.sent ++ [frame] else c.sent
  -- what the function of a promise throws is what the promise is rejected with
  settled := if sends = true then c.settled else c.settled ++ [(c.nextSequenceId, .sendThrew)]
  nodup := by
    rw [List.map_append, List.nodup_append]
    refine ⟨c.nodup, by simp, fun i hi j hj hij => ?_⟩
    obtain ⟨p, hp, rfl⟩ := List.mem_map.mp hi
    have hlt := c.lt_of_pending p hp
    simp at hj
    omega
  lt_of_pending p hp := by
    obtain hp | hp := List.mem_append.mp hp
    · exact Nat.lt_succ_of_lt (c.lt_of_pending p hp)
    · rw [List.mem_singleton.mp hp]
      exact Nat.lt_succ_self _
  lt_of_settled x hx := by
    split at hx
    · exact Nat.lt_succ_of_lt (c.lt_of_settled x hx)
    · obtain hx | hx := List.mem_append.mp hx
      · exact Nat.lt_succ_of_lt (c.lt_of_settled x hx)
      · rw [List.mem_singleton.mp hx]
        exact Nat.lt_succ_self _

def requestUnserializable (c : RpcClient E) : RpcClient E :=
  { c with
    nextSequenceId := c.nextSequenceId + 1
    lt_of_pending := fun p hp => Nat.lt_succ_of_lt (c.lt_of_pending p hp)
    lt_of_settled := fun x hx => Nat.lt_succ_of_lt (c.lt_of_settled x hx) }

def notify (c : RpcClient E) (frame : String) : RpcClient E :=
  { c with sent := c.sent ++ [frame] }

/-- `handleOpen`: what is not settled is sent again. -/
def handleOpen (c : RpcClient E) (takes : ℕ) : RpcClient E :=
  { c with isOpen := true, sent := c.sent ++ (c.pending.map Prod.snd).take takes }

def handleClose (c : RpcClient E) : RpcClient E := { c with isOpen := false }

/-- `this.pending.delete(id)`. -/
def delete (c : RpcClient E) (id : ℕ) : RpcClient E :=
  { c with
    pending := c.pending.filter (fun p => p.1 != id)
    nodup := (List.filter_sublist.map Prod.fst).nodup c.nodup
    lt_of_pending := fun p hp => c.lt_of_pending p (List.mem_filter.mp hp).1 }

/-- The request has this id, which is in the map. -/
def settle (c : RpcClient E) (id : ℕ) (h : (c.pending.lookup id).isSome) (st : Settlement E) :
    RpcClient E :=
  { c with
    settled := c.settled ++ [(id, st)]
    lt_of_settled := fun x hx => by
      obtain hx | hx := List.mem_append.mp hx
      · exact c.lt_of_settled x hx
      · rw [List.mem_singleton.mp hx]
        obtain ⟨p, hp, hid⟩ := List.lookup_isSome_iff.mp h
        exact (beq_iff_eq.mp hid).symm ▸ c.lt_of_pending p hp }

/-- The response to a request. Nothing is done for one that is not in the map. -/
def answer (c : RpcClient E) (id : ℕ) (msg : WireValue) : RpcClient E :=
  if h : (c.pending.lookup id).isSome then
    if msg.settlementThrows = true then c.delete id
    else (c.settle id h msg.settlement).delete id
  else c

/-- `ingest`. A notification is for the listeners. -/
def ingest (c : RpcClient E) (text : String) : RpcClient E :=
  match parse text with
  | none => c
  | some msg =>
    if msg.isResponse = true then
      match msg.seqId with
      | none => c
      | some id => c.answer id msg
    else c

def rejectAll (c : RpcClient E) (err : E) : RpcClient E :=
  { c with
    pending := []
    settled := c.settled ++ c.pending.map (fun p => (p.1, .rejectAll err))
    nodup := by simp
    lt_of_pending := by simp
    lt_of_settled := fun x hx => by
      obtain hx | hx := List.mem_append.mp hx
      · exact c.lt_of_settled x hx
      · obtain ⟨p, hp, rfl⟩ := List.mem_map.mp hx
        exact c.lt_of_pending p hp }

def next (c : RpcClient E) : RpcClientAct E → RpcClient E
  | .request frame sends => c.request frame sends
  | .requestUnserializable => c.requestUnserializable
  | .notify frame => c.notify frame
  | .opens takes => c.handleOpen takes
  | .closes => c.handleClose
  | .ingest text => c.ingest parse text
  | .rejectAll err => c.rejectAll err

def step (c : RpcClient E) (a : RpcClientAct E) : Option (RpcClient E) := some (c.next parse a)

def exec (c : RpcClient E) (as : List (RpcClientAct E)) : RpcClient E := as.foldl (next parse) c

/-- What the promise of a request has been settled with. -/
def settlements (c : RpcClient E) (id : ℕ) : List (Settlement E) :=
  (c.settled.filter (fun x => x.1 == id)).map Prod.snd

end RpcClient

/-! ## What should settle a request

Read off the acts alone, without the map: the first act that settles the
request, if there is one. -/

/-- What this should settle the request with. -/
def RpcClientAct.settles {E : Type} (parse : String → Option WireValue) (id : ℕ) :
    RpcClientAct E → Option (Settlement E)
  | .ingest text => ((parse text).filter (·.isResponseTo id)).map WireValue.settlement
  | .rejectAll err => some (.rejectAll err)
  | _ => none

namespace RpcClient

variable {E : Type} (parse : String → Option WireValue)

/-- **Every request is settled by the first response that carries its id, or by `rejectAll`,
if that is earlier, and by nothing else**; it is in the map until then. And a frame that is no
response to a request makes no difference to it. This is so in every state that the acts lead
to. -/
structure Correlated (as : List (RpcClientAct E)) : Prop where
  settled : ∀ bs frame sends cs, bs ++ .request frame sends :: cs <+: as →
    let id := (exec parse init bs).nextSequenceId
    let c := exec parse init (bs ++ .request frame sends :: cs)
    c.settlements id = (cs.findSome? (·.settles parse id)).toList
      ∧ c.pending.lookup id
        = if (cs.findSome? (·.settles parse id)).isSome then none else some frame
  apart : ∀ bs text, bs ++ [.ingest text] <+: as → ∀ id,
    (RpcClientAct.ingest text : RpcClientAct E).settles parse id = none →
    let c := exec parse init bs
    (c.ingest parse text).settlements id = c.settlements id
      ∧ (c.ingest parse text).pending.lookup id = c.pending.lookup id

/-- The transport does not throw on the frame of a request, and the response to a request that
is not settled has an error that can be made, or none. -/
def answers (c : RpcClient E) : RpcClientAct E → Bool
  | .request _ sends => sends
  | .ingest text =>
    match parse text with
    | none => true
    | some msg =>
      match msg.seqId with
      | none => true
      | some id =>
        !(msg.isResponse && (c.pending.lookup id).isSome && msg.settlementThrows)
  | _ => true

/-! ## One act -/

section Lemmas

variable {parse} {c : RpcClient E} {id : ℕ}

theorem lookup_eq_none_of_le (h : c.nextSequenceId ≤ id) : c.pending.lookup id = none := by
  refine List.lookup_eq_none_iff.mpr (fun p hp => ?_)
  have hlt := c.lt_of_pending p hp
  rw [bne_iff_ne]
  omega

theorem settlements_eq_nil_of_le (h : c.nextSequenceId ≤ id) : c.settlements id = [] := by
  unfold settlements
  rw [List.filter_eq_nil_iff.mpr, List.map_nil]
  intro x hx
  have hlt := c.lt_of_settled x hx
  rw [beq_iff_eq]
  omega

@[simp]
theorem lookup_delete (i : ℕ) :
    (c.delete i).pending.lookup id = if id = i then none else c.pending.lookup id := by
  show (c.pending.filter (fun p => p.1 != i)).lookup id = _
  induction c.pending with
  | nil => simp
  | cons p ps ih =>
    rw [List.filter_cons]
    grind

@[simp]
theorem settlements_delete (i : ℕ) : (c.delete i).settlements id = c.settlements id := rfl

theorem settlements_settle (i : ℕ) (h : (c.pending.lookup i).isSome) (st : Settlement E) :
    (c.settle i h st).settlements id
      = c.settlements id ++ if i = id then [st] else [] := by
  unfold settlements
  show ((c.settled ++ [(i, st)]).filter _).map _ = _
  rw [List.filter_append, List.map_append]
  by_cases hi : i = id
  · simp [hi]
  · simp [hi]

/-- What a map has by a key, as a list of pairs. -/
theorem filter_of_nodup {ps : List (ℕ × String)} (h : (ps.map Prod.fst).Nodup) (id : ℕ) :
    ps.filter (fun p => p.1 == id) = (ps.lookup id).toList.map (Prod.mk id) := by
  induction ps with
  | nil => rfl
  | cons p ps ih =>
    rw [List.map_cons, List.nodup_cons] at h
    rw [List.filter_cons, List.lookup_cons, ih h.2]
    by_cases hp : p.1 = id
    · obtain rfl := hp
      have hnone : ps.lookup p.1 = none := by
        refine List.lookup_eq_none_iff.mpr (fun q hq => bne_iff_ne.mpr fun hid => h.1 ?_)
        exact List.mem_map.mpr ⟨q, hq, hid.symm⟩
      rw [hnone, if_pos (beq_self_eq_true _), beq_self_eq_true]
      rfl
    · rw [if_neg (by rwa [beq_iff_eq]), beq_eq_false_iff_ne.mpr (Ne.symm hp)]

theorem settlements_rejectAll (c : RpcClient E) (id : ℕ) (err : E) :
    (c.rejectAll err).settlements id
      = c.settlements id ++ ((c.pending.lookup id).map fun _ => .rejectAll err).toList := by
  unfold settlements
  show ((c.settled ++ c.pending.map fun p => (p.1, Settlement.rejectAll err)).filter _).map _ = _
  rw [List.filter_append, List.map_append, List.filter_map]
  refine congrArg (_ ++ ·) ?_
  show (((c.pending.filter fun p => p.1 == id).map _).map _) = _
  rw [filter_of_nodup c.nodup]
  cases c.pending.lookup id with
  | none => rfl
  | some frame => rfl

theorem lookup_request (h : id < c.nextSequenceId) (frame : String) (sends : Bool) :
    (c.request frame sends).pending.lookup id = c.pending.lookup id := by
  show (c.pending ++ [(c.nextSequenceId, frame)]).lookup id = _
  have hne : (id == c.nextSequenceId) = false := beq_eq_false_iff_ne.mpr (by omega)
  rw [List.lookup_append, List.lookup_cons, hne, List.lookup_nil, Option.or_none]

theorem settlements_request (h : id < c.nextSequenceId) (frame : String) (sends : Bool) :
    (c.request frame sends).settlements id = c.settlements id := by
  unfold settlements
  show ((if sends = true then c.settled else _).filter _).map _ = _
  split
  · rfl
  · rw [List.filter_append, List.filter_cons_of_neg (by rw [beq_iff_eq]; omega), List.filter_nil,
      List.append_nil]

/-- **What an act does with a request** that has been made. -/
inductive Treats (parse : String → Option WireValue) (id : ℕ) (c : RpcClient E)
    (a : RpcClientAct E) : RpcClient E → Prop
  | leaves {c' : RpcClient E} : a.settles parse id = none ∨ c.pending.lookup id = none →
      c'.settlements id = c.settlements id → c'.pending.lookup id = c.pending.lookup id →
      Treats parse id c a c'
  | settles {c' : RpcClient E} {st : Settlement E} : a.settles parse id = some st →
      (c.pending.lookup id).isSome = true → c.answers parse a = true →
      c'.settlements id = c.settlements id ++ [st] → c'.pending.lookup id = none →
      Treats parse id c a c'
  | drops {c' : RpcClient E} {st : Settlement E} : a.settles parse id = some st →
      (c.pending.lookup id).isSome = true → c.answers parse a = false →
      c'.settlements id = c.settlements id → c'.pending.lookup id = none →
      Treats parse id c a c'

theorem settles_ingest {text : String} {msg : WireValue} (hp : parse text = some msg) (id : ℕ) :
    (RpcClientAct.ingest text : RpcClientAct E).settles parse id
      = if msg.isResponseTo id = true then some msg.settlement else none := by
  show ((parse text).filter (·.isResponseTo id)).map _ = _
  rw [hp, Option.filter_some]
  split
  · rfl
  · rfl

theorem isResponseTo_iff {msg : WireValue} {i : ℕ} :
    msg.isResponseTo i = true ↔ msg.isResponse = true ∧ msg.seqId = some i := by
  rw [WireValue.isResponseTo, Bool.and_eq_true, beq_iff_eq]

theorem ingest_of_response {text : String} {msg : WireValue} {i : ℕ}
    (hp : parse text = some msg) (hi : msg.isResponseTo i = true) :
    c.ingest parse text = c.answer i msg := by
  obtain ⟨hr, hid⟩ := isResponseTo_iff.mp hi
  simp only [ingest, hp, hr, hid, if_true]

/-- **A text is a response to one request, or it makes no difference.** -/
theorem ingest_cases (parse : String → Option WireValue) (c : RpcClient E) (text : String) :
    (∃ msg i, parse text = some msg ∧ msg.isResponseTo i = true
        ∧ c.ingest parse text = c.answer i msg)
      ∨ (c.ingest parse text = c
        ∧ ∀ id, (RpcClientAct.ingest text : RpcClientAct E).settles parse id = none) := by
  cases hp : parse text with
  | none =>
    exact .inr ⟨by simp only [ingest, hp], fun id => by
      simp [RpcClientAct.settles, hp]⟩
  | some msg =>
    by_cases h : ∃ i, msg.isResponseTo i = true
    · obtain ⟨i, hi⟩ := h
      exact .inl ⟨msg, i, rfl, hi, ingest_of_response hp hi⟩
    · refine .inr ⟨?_, fun id => by rw [settles_ingest hp, if_neg (fun hi => h ⟨id, hi⟩)]⟩
      unfold ingest
      rw [hp]
      show ite _ _ _ = _
      split
      · next hr =>
        cases hid : msg.seqId with
        | none => rfl
        | some i => exact absurd ⟨i, isResponseTo_iff.mpr ⟨hr, hid⟩⟩ h
      · rfl

theorem answers_ingest {text : String} {msg : WireValue} {i : ℕ}
    (hp : parse text = some msg) (hi : msg.isResponseTo i = true) :
    c.answers parse (.ingest text)
      = !((c.pending.lookup i).isSome && msg.settlementThrows) := by
  obtain ⟨hr, hid⟩ := isResponseTo_iff.mp hi
  simp only [answers, hp, hr, hid, Bool.true_and]

theorem settlements_answer_of_ne {i : ℕ} (h : id ≠ i) (msg : WireValue) :
    (c.answer i msg).settlements id = c.settlements id := by
  unfold answer
  split
  · split
    · rfl
    · rw [settlements_delete, settlements_settle, if_neg (Ne.symm h), List.append_nil]
  · rfl

theorem lookup_answer_of_ne {i : ℕ} (h : id ≠ i) (msg : WireValue) :
    (c.answer i msg).pending.lookup id = c.pending.lookup id := by
  unfold answer
  split
  · split
    · rw [lookup_delete, if_neg h]
    · rw [lookup_delete, if_neg h]
      rfl
  · rfl

theorem exists_of_not_answers {text : String} (h : ¬c.answers parse (.ingest text) = true) :
    ∃ id frame st, c.pending.lookup id = some frame
      ∧ (RpcClientAct.ingest text : RpcClientAct E).settles parse id = some st := by
  cases hp : parse text with
  | none => simp [answers, hp] at h
  | some msg =>
    cases hid : msg.seqId with
    | none => simp [answers, hp, hid] at h
    | some id =>
      simp only [answers, hp, hid, Bool.not_eq_true', Bool.not_eq_false, Bool.and_eq_true] at h
      obtain ⟨⟨hr, hpend⟩, -⟩ := h
      obtain ⟨frame, hframe⟩ := Option.isSome_iff_exists.mp hpend
      exact ⟨id, frame, msg.settlement, hframe, by
        rw [settles_ingest hp, if_pos (isResponseTo_iff.mpr ⟨hr, hid⟩)]⟩

theorem treats_answer (c : RpcClient E) (id : ℕ) {text : String} {msg : WireValue} {i : ℕ}
    (hp : parse text = some msg) (hi : msg.isResponseTo i = true) :
    Treats parse id c (.ingest text) (c.answer i msg) := by
  have hst := settles_ingest (E := E) hp id
  by_cases hid : id = i
  · obtain rfl := hid
    rw [if_pos hi] at hst
    have hans := answers_ingest (c := c) hp hi
    unfold answer
    split
    · next hpend =>
      rw [hpend, Bool.true_and] at hans
      split
      · next hthrows =>
        rw [hthrows] at hans
        exact .drops hst hpend hans rfl (by rw [lookup_delete, if_pos rfl])
      · next hthrows =>
        rw [Bool.eq_false_iff.mpr hthrows] at hans
        refine .settles hst hpend hans ?_ (by rw [lookup_delete, if_pos rfl])
        rw [settlements_delete, settlements_settle, if_pos rfl]
    · next hpend => exact .leaves (.inr (Option.not_isSome_iff_eq_none.mp hpend)) rfl rfl
  · have hother : ¬msg.isResponseTo id = true := fun h =>
      hid (Option.some.inj ((isResponseTo_iff.mp h).2.symm.trans (isResponseTo_iff.mp hi).2))
    rw [if_neg hother] at hst
    exact .leaves (.inl hst) (settlements_answer_of_ne hid msg) (lookup_answer_of_ne hid msg)

theorem treats_ingest (c : RpcClient E) (id : ℕ) (text : String) :
    Treats parse id c (.ingest text) (c.ingest parse text) := by
  obtain ⟨msg, i, hp, hi, heq⟩ | ⟨heq, hno⟩ := c.ingest_cases parse text
  · rw [heq]
    exact treats_answer c id hp hi
  · rw [heq]
    exact .leaves (.inl (hno id)) rfl rfl

theorem treats_next (h : id < c.nextSequenceId) (a : RpcClientAct E) :
    Treats parse id c a (c.next parse a) := by
  cases a with
  | request frame sends =>
    exact .leaves (.inl rfl) (settlements_request h frame sends) (lookup_request h frame sends)
  | ingest text => exact treats_ingest c id text
  | rejectAll err =>
    have hst := c.settlements_rejectAll id err
    by_cases hp : (c.pending.lookup id).isSome
    · refine .settles rfl hp rfl ?_ rfl
      obtain ⟨frame, hframe⟩ := Option.isSome_iff_exists.mp hp
      rw [hframe] at hst
      exact hst
    · rw [Option.not_isSome_iff_eq_none] at hp
      rw [hp, Option.map_none, Option.toList_none, List.append_nil] at hst
      exact .leaves (.inr hp) hst hp.symm
  | _ => exact .leaves (.inl rfl) rfl rfl

/-! ## Many acts

The state after a list of acts, for one request: in the map while no act has
settled it, and settled by the first that does. -/

theorem nextSequenceId_answer (i : ℕ) (msg : WireValue) :
    (c.answer i msg).nextSequenceId = c.nextSequenceId := by
  unfold answer
  split
  · split
    · rfl
    · rfl
  · rfl

theorem nextSequenceId_ingest (text : String) :
    (c.ingest parse text).nextSequenceId = c.nextSequenceId := by
  obtain ⟨msg, i, -, -, heq⟩ | ⟨heq, -⟩ := c.ingest_cases parse text
  · rw [heq, nextSequenceId_answer]
  · rw [heq]

theorem nextSequenceId_le_next (a : RpcClientAct E) :
    c.nextSequenceId ≤ (c.next parse a).nextSequenceId := by
  cases a with
  | request _ _ => exact Nat.le_succ _
  | requestUnserializable => exact Nat.le_succ _
  | ingest text => exact (nextSequenceId_ingest text).ge
  | _ => exact Nat.le_refl _

/-- A request that is not in the map is not settled any more. -/
theorem exec_of_lookup_none (h : id < c.nextSequenceId) (hgone : c.pending.lookup id = none)
    (as : List (RpcClientAct E)) :
    (c.exec parse as).settlements id = c.settlements id
      ∧ (c.exec parse as).pending.lookup id = none := by
  induction as generalizing c with
  | nil => exact ⟨rfl, hgone⟩
  | cons a as ih =>
    have hnext : id < (c.next parse a).nextSequenceId := lt_of_lt_of_le h (nextSequenceId_le_next a)
    cases treats_next h a with
    | leaves _ hst hp =>
      obtain ⟨hst', hp'⟩ := ih hnext (hp.trans hgone)
      exact ⟨hst'.trans hst, hp'⟩
    | settles _ hpend _ _ _ => rw [hgone] at hpend; exact absurd hpend (by simp)
    | drops _ hpend _ _ _ => rw [hgone] at hpend; exact absurd hpend (by simp)

/-- **A request that is in the map is settled by what settles it first**, and is in the map
until then. -/
theorem exec_of_lookup {frame : String} (h : id < c.nextSequenceId)
    (hpend : c.pending.lookup id = some frame) {as : List (RpcClientAct E)}
    (hG : TransitionSystem.Along (step parse) (fun c a => c.answers parse a = true) c as) :
    (c.exec parse as).settlements id
        = c.settlements id ++ (as.findSome? (·.settles parse id)).toList
      ∧ (c.exec parse as).pending.lookup id
        = if (as.findSome? (·.settles parse id)).isSome then none else some frame := by
  induction as generalizing c with
  | nil => exact ⟨(List.append_nil _).symm, hpend⟩
  | cons a as ih =>
    have hnext : id < (c.next parse a).nextSequenceId := lt_of_lt_of_le h (nextSequenceId_le_next a)
    obtain ⟨hGa, hGas⟩ := TransitionSystem.along_cons _ hG rfl
    cases treats_next h a with
    | leaves hno hst hp =>
      rw [hpend] at hp hno
      have hno : a.settles parse id = none := hno.resolve_right (by simp)
      obtain ⟨hst', hp'⟩ := ih hnext hp hGas
      rw [List.findSome?_cons, hno, ← hst]
      exact ⟨hst', hp'⟩
    | settles hyes _ _ hst hp =>
      obtain ⟨hst', hp'⟩ := exec_of_lookup_none hnext hp as
      rw [List.findSome?_cons, hyes]
      exact ⟨hst'.trans hst, hp'⟩
    | drops _ _ hbad _ _ =>
      rw [hGa] at hbad
      exact absurd hbad (by simp)

theorem exec_append (as bs : List (RpcClientAct E)) :
    c.exec parse (as ++ bs) = (c.exec parse as).exec parse bs := List.foldl_append

theorem settlements_request_self (frame : String) (sends : Bool) :
    (c.request frame sends).settlements c.nextSequenceId
      = if sends = true then [] else [.sendThrew] := by
  have hnil := c.settlements_eq_nil_of_le (Nat.le_refl _)
  unfold settlements at hnil ⊢
  show ((if sends = true then c.settled else _).filter _).map _ = _
  split
  · exact hnil
  · rw [List.filter_append, List.map_append, hnil, List.nil_append,
      List.filter_cons_of_pos (by exact beq_self_eq_true _)]
    rfl

theorem lookup_request_self (frame : String) (sends : Bool) :
    (c.request frame sends).pending.lookup c.nextSequenceId = some frame := by
  show (c.pending ++ [(c.nextSequenceId, frame)]).lookup _ = _
  rw [List.lookup_append, c.lookup_eq_none_of_le (Nat.le_refl _), List.lookup_cons_self,
    Option.none_or]

theorem lt_of_lookup {frame : String} (h : c.pending.lookup id = some frame) :
    id < c.nextSequenceId := by
  by_contra hle
  rw [lookup_eq_none_of_le (Nat.le_of_not_lt hle)] at h
  exact absurd h (by simp)

/-- What comes into the map is the request that is made. -/
theorem eq_request_of_lookup {a : RpcClientAct E} {frame : String} (hle : c.nextSequenceId ≤ id)
    (h : (c.next parse a).pending.lookup id = some frame) :
    c.nextSequenceId = id ∧ ∃ sends, a = .request frame sends := by
  have hlt := lt_of_lookup h
  cases a with
  | request frame' sends =>
    obtain rfl : c.nextSequenceId = id := Nat.le_antisymm hle (Nat.le_of_lt_succ hlt)
    obtain rfl := Option.some.inj ((lookup_request_self frame' sends).symm.trans h)
    exact ⟨rfl, sends, rfl⟩
  | requestUnserializable =>
    exact absurd ((lookup_eq_none_of_le hle).symm.trans h) (by simp)
  | ingest text =>
    exact absurd (lt_of_lt_of_eq hlt (nextSequenceId_ingest text)) (Nat.not_lt.mpr hle)
  | _ => exact absurd hlt (Nat.not_lt.mpr hle)

/-- **A request that is in the map was made, and nothing has settled it since.** -/
theorem exists_request_of_lookup {as : List (RpcClientAct E)} {frame : String}
    (h : (exec parse init as).pending.lookup id = some frame) :
    ∃ bs sends cs, as = bs ++ .request frame sends :: cs
      ∧ (exec parse init bs).nextSequenceId = id ∧ cs.findSome? (·.settles parse id) = none := by
  induction as using List.reverseRecOn with
  | nil => exact absurd h (by simp [exec, init])
  | append_singleton as a ih =>
    rw [exec_append] at h
    obtain hle | hlt := le_or_gt (exec parse init as).nextSequenceId id
    · obtain ⟨hid, sends, rfl⟩ := eq_request_of_lookup hle h
      exact ⟨as, sends, [], rfl, hid, rfl⟩
    · have hst : a.settles parse id = none
          ∧ (exec parse init as).pending.lookup id = some frame := by
        cases treats_next hlt a with
        | leaves hno _ hp =>
          have hp := hp.symm.trans h
          rw [hp] at hno
          exact ⟨hno.resolve_right (by simp), hp⟩
        | settles _ _ _ _ hp => exact absurd (hp.symm.trans h) (by simp)
        | drops _ _ _ _ hp => exact absurd (hp.symm.trans h) (by simp)
      obtain ⟨bs, sends, cs, rfl, hid, hcs⟩ := ih hst.2
      refine ⟨bs, sends, cs ++ [a], by simp, hid, ?_⟩
      rw [List.findSome?_append, hcs, List.findSome?_cons, hst.1]
      rfl

theorem run_step (c : RpcClient E) (as : List (RpcClientAct E)) :
    TransitionSystem.run (step parse) c as = some (c.exec parse as) := by
  induction as generalizing c with
  | nil => rfl
  | cons a as ih => exact ih _

theorem exec_request (c : RpcClient E) (frame : String) (sends : Bool)
    (cs : List (RpcClientAct E)) :
    c.exec parse (.request frame sends :: cs) = (c.request frame sends).exec parse cs := rfl

end Lemmas

/-- **A client correlates its requests and the responses** as long as no frame of a request is
thrown on, and no response to one has an error that cannot be made; and not longer. -/
theorem correlated_iff (as : List (RpcClientAct E)) :
    Correlated parse as
      ↔ TransitionSystem.Along (step parse) (fun c a => c.answers parse a = true) init as := by
  constructor
  · intro h
    by_contra hG
    obtain ⟨bs, a, cs, c, c', rfl, hbs, hGa, hc, -⟩ :=
      TransitionSystem.exists_of_not_along (step parse) (run_step init as) hG
    obtain rfl := Option.some.inj ((run_step init bs).symm.trans hbs)
    obtain rfl := Option.some.inj hc
    cases a with
    | request frame sends =>
      obtain ⟨hst, -⟩ := h.settled bs frame sends [] ⟨cs, by simp⟩
      rw [exec_append, exec_request] at hst
      have hself := settlements_request_self (c := exec parse init bs) frame sends
      rw [if_neg (show ¬sends = true from hGa)] at hself
      exact absurd (hself.symm.trans hst) (by simp)
    | ingest text =>
      obtain ⟨id, frame, st, hframe, hyes⟩ := exists_of_not_answers hGa
      obtain ⟨bs₁, sends, bs₂, rfl, rfl, hbs₂⟩ := exists_request_of_lookup hframe
      obtain ⟨hbefore, -⟩ := h.settled bs₁ frame sends bs₂ ⟨.ingest text :: cs, rfl⟩
      obtain ⟨hafter, -⟩ := h.settled bs₁ frame sends (bs₂ ++ [.ingest text]) ⟨cs, by simp⟩
      rw [hbs₂] at hbefore
      rw [List.findSome?_append, hbs₂, List.findSome?_cons, hyes, ← List.cons_append,
        ← List.append_assoc, exec_append] at hafter
      cases treats_next (lt_of_lookup hframe) (.ingest text) with
      | leaves hno _ _ =>
        rw [hyes, hframe] at hno
        exact absurd hno (by simp)
      | settles _ _ hans _ _ => exact hGa hans
      | drops _ _ _ hst _ => exact absurd (hbefore.symm.trans (hst.symm.trans hafter)) (by simp)
    | _ => exact hGa rfl
  · intro hG
    constructor
    · intro bs frame sends cs hpre
      obtain ⟨ds, rfl⟩ := hpre
      have hG := (hG.left).of_append (step parse) (run_step init bs)
      obtain ⟨hsends, hcs⟩ := TransitionSystem.along_cons (step parse) hG rfl
      obtain rfl : sends = true := hsends
      show (exec parse init (bs ++ .request frame true :: cs)).settlements _ = _ ∧ _
      rw [exec_append, exec_request]
      have hself := settlements_request_self (c := exec parse init bs) frame true
      obtain ⟨hst, hp⟩ := exec_of_lookup (Nat.lt_succ_self _)
        (lookup_request_self (c := exec parse init bs) frame true) hcs
      rw [hself] at hst
      exact ⟨hst, hp⟩
    · intro bs text _ id hno
      cases treats_ingest (exec parse init bs) id text with
      | leaves _ hst hp => exact ⟨hst, hp⟩
      | settles hyes _ _ _ _ => exact absurd (hno.symm.trans hyes) (by simp)
      | drops hyes _ _ _ _ => exact absurd (hno.symm.trans hyes) (by simp)

/-! ### A response with the error `null` -/

/-- The response to the first request, from a server that has both members in each. -/
def errorNull : String := "\x7b\"jsonrpc\":\"2.0\",\"id\":1,\"result\":5,\"error\":null\x7d"

/-- `JSON.parse`, of this text. -/
def parseErrorNull (text : String) : Option WireValue :=
  if text = errorNull then
    some (.obj [("jsonrpc", .str "2.0"), ("id", .num 1), ("result", .num 5), ("error", .null)])
  else none

/-- The request is taken out of the map, and not settled. -/
theorem not_correlated :
    ¬∀ (parse : String → Option WireValue) (as : List (RpcClientAct String)),
      Correlated parse as := by
  intro h
  obtain ⟨hst, -⟩ := (h parseErrorNull [.request "actor.call" true, .ingest errorNull]).settled []
    "actor.call" true [.ingest errorNull] (List.prefix_refl _)
  exact absurd (congrArg List.length hst) (by decide)

end RpcClient
