import Actjs.TellOrder
import Actjs.Carrying
import Actjs.EventSourcing

/-!
# What tells make of the state

`ActorClass.told` is the state that the tells of an inbox make, each applied once and
one after the other, of the state an actor starts with. A segment of a worker applies
the tell it has in hand, or none: `Sys.AppliesOne`.
-/

open Function (update)

variable {S Env Op : Type}

/-! ## What user code makes of the state

A handler that always does the same is a function of the state and the
payload, and the tells of an inbox compose to one. -/

/-- What the state reads after a segment. -/
def Change.on : Change S → S → S
  | keep, x => x
  | mutate y, _ => y
  | assign y, _ => y

theorem Objects.read_apply (o : Objects S) (c : Change S) :
    (o.apply c).read = c.on o.read := by
  cases c with
  | keep => rfl
  | mutate y => exact Objects.read_mutate o y
  | assign y => exact Objects.read_assign o y

namespace Script

variable {R : Type}

/-- The state a call leaves. -/
def final : Script S R → S → S
  | await c rest, x => rest.final (c.on x)
  | ret c _, x => c.on x
  | throw c _, x => c.on x

/-- What a call comes to. -/
def result : Script S R → Except Json R
  | await _ rest => rest.result
  | ret _ r => .ok r
  | throw _ e => .error e

/-- After a segment there is more to come, of which the same is left. -/
theorem next_cases (p : Script S R) :
    (∃ rest, p.next = .inl rest ∧ (∀ x, rest.final (p.change.on x) = p.final x)
        ∧ rest.result = p.result)
      ∨ p.next = .inr p.result ∧ ∀ x, p.change.on x = p.final x := by
  cases p with
  | await c rest => exact .inl ⟨rest, rfl, fun _ => rfl, rfl⟩
  | ret c r => exact .inr ⟨rfl, fun _ => rfl⟩
  | throw c e => exact .inr ⟨rfl, fun _ => rfl⟩

/-- A call that leaves the state alone. -/
theorem Keeps.final {p : Script S R} (h : p.Keeps) (x : S) : p.final x = x := by
  induction p with
  | await c rest ih =>
    obtain ⟨rfl, hrest⟩ := h
    exact ih hrest
  | ret c r =>
    obtain rfl : c = .keep := h
    rfl
  | throw c e =>
    obtain rfl : c = .keep := h
    rfl

end Script

namespace ActorClass

variable {cls : ActorClass S Env}

/-- **What a tell makes of the state**: what its handler leaves, or, of an
event-sourced actor, what the events it returns are folded to. -/
def tell (cls : ActorClass S Env) (env : Env) (x : S) (type : String) (payload : Json) : S :=
  match cls.handlers type with
  | none => x
  | some handler =>
    let p := handler env x payload
    if cls.isEs = true then
      match p.result with
      | .ok (.arr events) => (foldEvents cls x events).toOption.getD x
      | _ => x
    else p.final x

/-- The state an actor starts with. -/
def fresh (cls : ActorClass S Env) (env : Env) : S :=
  if cls.isEs = true then cls.initialState
  else
    match cls.onInit with
    | none => cls.blank
    | some hook => (hook env cls.blank).final cls.blank

/-- What the tell with an entry makes of the state. -/
def apply (cls : ActorClass S Env) (env : Env) (inbox : List InboxEntry) (x : S) (id : ℕ) : S :=
  match inbox[id]? with
  | none => x
  | some e => cls.tell env x e.type e.payload

/-- **What the tells with these entries make**, one after the other, of the state an
actor starts with. -/
def told (cls : ActorClass S Env) (env : Env) (inbox : List InboxEntry) (ids : List ℕ) : S :=
  ids.foldl (cls.apply env inbox) (cls.fresh env)

/-- One tell more. -/
theorem told_concat {env : Env} {inbox : List InboxEntry} {id : ℕ} {e : InboxEntry}
    (h : inbox[id]? = some e) (ids : List ℕ) :
    cls.told env inbox (ids ++ [id])
      = cls.tell env (cls.told env inbox ids) e.type e.payload := by
  rw [told, List.foldl_append]
  show cls.apply env inbox (cls.told env inbox ids) id = _
  rw [apply, h]

/-- What comes into the inbox later does not matter. -/
theorem told_prefix {env : Env} {inbox inbox' : List InboxEntry} {ids : List ℕ}
    (h : inbox <+: inbox') (hids : ∀ id ∈ ids, id < inbox.length) :
    cls.told env inbox' ids = cls.told env inbox ids := by
  obtain ⟨es, rfl⟩ := h
  unfold told
  refine List.foldl_ext _ _ _ (fun x id hid => ?_)
  rw [apply, apply, List.getElem?_append_left (hids id hid)]

/-- **Handlers always do the same, and do not throw**, and nothing else writes the state
once the actor is there: neither `onActivate` nor `onDeactivate` does, and `snapshot()`
returns the state as it is. Of an event-sourced actor handlers return events that can be
normalized, and leave the state to `reduce`. -/
structure Steady (cls : ActorClass S Env) : Prop where
  same : ∀ name handler, cls.handlers name = some handler →
    ∀ env env' x input, handler env x input = handler env' x input
  returns : ∀ name handler, cls.handlers name = some handler →
    ∀ env x input, ∃ r, (handler env x input).result = .ok r
  onInit : ∀ hook, cls.onInit = some hook → ∀ env env' x, hook env x = hook env' x
  onActivate : ∀ hook, cls.onActivate = some hook → ∀ env x, (hook env x).Keeps
  onDeactivate : ∀ hook, cls.onDeactivate = some hook → ∀ env x, (hook env x).Keeps
  snapshot : ∀ f, cls.snapshot = some f → ∀ x, f x = x
  evented : cls.isEs = true → cls.Evented
  events : cls.isEs = true → ∀ name handler, cls.handlers name = some handler →
    ∀ env x input, ∃ events writes, (handler env x input).result = .ok (.arr events)
      ∧ normalizeEvents events = .ok writes

/-- What a tell without a handler makes. -/
theorem tell_of_none {env : Env} {x : S} {type : String} (h : cls.handlers type = none)
    (payload : Json) : cls.tell env x type payload = x := by
  rw [tell, h]

/-- What a tell makes of the state of a state-with-messages actor, in whatever world its
handler is called. -/
theorem Steady.tell_of_handler (hcls : cls.Steady) (hswm : cls.isEs = false) {type : String}
    {handler : Env → S → Json → Script S Json} (h : cls.handlers type = some handler)
    (env env' : Env) (x : S) (payload : Json) :
    cls.tell env x type payload = (handler env' x payload).final x := by
  rw [tell, h]
  dsimp only
  rw [if_neg (by simp [hswm]), hcls.same type handler h env env']

/-- What a tell makes of the state of an event-sourced actor, whose handler returns
events, in whatever world it is called. -/
theorem Steady.tell_of_events (hcls : cls.Steady) (hes : cls.isEs = true) {type : String}
    {handler : Env → S → Json → Script S Json} (h : cls.handlers type = some handler)
    (env : Env) {env' : Env} {x : S} {payload : Json} {events : List Json}
    (hr : (handler env' x payload).result = .ok (.arr events)) :
    cls.tell env x type payload = (foldEvents cls x events).toOption.getD x := by
  rw [tell, h]
  dsimp only
  rw [if_pos hes, hcls.same type handler h env env', hr]

theorem fresh_of_none (hswm : cls.isEs = false) (h : cls.onInit = none) (env : Env) :
    cls.fresh env = cls.blank := by
  rw [fresh, if_neg (by simp [hswm]), h]

/-- What `onInit` makes of a state-with-messages actor, in whatever world it is called. -/
theorem Steady.fresh_of_some (hcls : cls.Steady) (hswm : cls.isEs = false)
    {hook : Env → S → Script S Unit} (h : cls.onInit = some hook) (env env' : Env) :
    cls.fresh env = (hook env' cls.blank).final cls.blank := by
  rw [fresh, if_neg (by simp [hswm]), h]
  dsimp only
  rw [hcls.onInit hook h env env']

end ActorClass

/-! ## What a segment of a worker applies -/

/-- The entries that are acked are these, no entry has come in or was dropped, and no turn
has failed. -/
structure HostFlow.Acks (f f' : HostFlow) (acked : List ℕ) : Prop where
  inbox : f'.inbox = f.inbox
  acked : f'.acked = acked
  dropped : f'.dropped = f.dropped
  errors : ∀ item, f'.errors ≠ .turn item :: f.errors

theorem HostFlow.Acks.of_errors {f f' : HostFlow} {acked : List ℕ}
    (hi : f'.inbox = f.inbox) (ha : f'.acked = acked) (hd : f'.dropped = f.dropped)
    (he : f'.errors = f.errors) : f.Acks f' acked :=
  ⟨hi, ha, hd, fun _ hc => absurd (he.symm.trans hc) (List.cons_ne_self _ _).symm⟩

/-- **A segment of worker `g` applies the tell it has in hand, or none.** `P` is what holds
afterwards, of the state that the tells applied by then have made. -/
inductive Sys.AppliesOne (cls : ActorClass S Env) (env : Env) (g : ℕ) (s s' : Sys S Env Op)
    (P : S → Prop) (x : S) : Prop
  | still : s.flow.Acks s'.flow s.flow.acked → P x → AppliesOne cls env g s s' P x
  | ack {id : ℕ} {e : InboxEntry} : s.store.inbox[id]? = some e →
    (s.flow.workers g).toAck = some id → s.flow.Acks s'.flow (id :: s.flow.acked) →
    P (cls.tell env x e.type e.payload) → AppliesOne cls env g s s' P x
