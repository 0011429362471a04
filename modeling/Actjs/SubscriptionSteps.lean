import Actjs.SubscriptionRecords
import Actjs.SubscriptionServer

/-!
# Whose an id is, and whose a record

An id is given out by the server, to one request; from there it goes through the response
to the `subscribe()` that made the request, which makes a record for it, and it ends when
that listener unsubscribes. Three invariants follow it on this way.

* `Kept` is about ids alone: no two `subscribe()` have the same one, what is offered is
  no one's yet, and no request on its way gives up an id but that of a listener that has
  unsubscribed. It holds whatever happens.
* `Live` says that the server has a subscription for every id that is in use. It holds
  only as long as no connection is lost, for the server forgets with the connection.
* `Recorded` says that a record has its own listener in it and no other, and is found
  under the id of that listener.

`keepsConnection` is the condition under which they hold, and under which nothing that a
listener should hear is lost: the rest of the development of the client is about the
runs that meet it.
-/

open Function (update)

variable {S Op : Type} {applyPatch : Option S → List Op → Option (Option S)}
  {reducers : ClassName → Option (Option S → Json → Option (Option S))}

/-- What is in a table after an entry is set. -/
theorem update_eq_some {α : Type} {f : ℕ → Option α} {k j : ℕ} {v : Option α} {x : α}
    (h : update f k v j = some x) : (j = k ∧ v = some x) ∨ (j ≠ k ∧ f j = some x) := by
  by_cases he : j = k
  · rw [he, Function.update_self] at h
    exact .inl ⟨he, h⟩
  · rw [Function.update_of_ne he] at h
    exact .inr ⟨he, h⟩

/-- The id that a `subscribe()` was answered with, and has not given up. -/
def ListenPc.live : ListenPc → Option ℕ
  | settled subscriptionId => subscriptionId
  | listening subscriptionId => some subscriptionId
  | _ => none

namespace ClientSubscriptions

/-! ## The condition

One test for each label. It excludes a lost connection, a buffer that expires
under a subscription that is being registered, and a notification that throws.
-/

/-- The `subscribe()` is going to make the record of the id: the response with the id is on
its way, or has arrived and it has not gone on yet. -/
def awaits (s : ClientSubscriptions S Op) (subscriptionId : ℕ) (l : ClientListener) : Bool :=
  match l.pc with
  | .requested id => s.server.offers.contains (id, subscriptionId)
  | .settled i => i == some subscriptionId
  | _ => false

/-- The record that a `subscribe()` makes, with its listener. -/
def newRecord (reducers : ClassName → Option (Option S → Json → Option (Option S))) (k : ℕ)
    (l : ClientListener) (subscriptionId : ℕ) : ClientRecord S :=
  ⟨subscriptionId, none, reducers l.className, [k], false⟩

/-- The frame that arrives next, if it is a notification, either is for a record, which it
does not throw on, or is kept, and nothing expires that a `subscribe()` is going to make
the record of. -/
def deliversWell (applyPatch : Option S → List Op → Option (Option S))
    (s : ClientSubscriptions S Op) (expired : List ℕ) : Bool :=
  match s.server.down with
  | .notification i n :: _ =>
    match s.subs.subs i with
    | none => expired.all (fun j =>
        (List.range s.nextListener).all (fun k => (s.listeners k).all (fun l => !s.awaits j l)))
    | some k => (s.subs.records k).all (fun rec => (rec.receive applyPatch n).isSome)
  | _ => true

/-- **No connection is lost** that a listener is subscribed over, or that has brought a
`subscribe()` its id. And what the server has sent is applied: what is kept for a
`subscribe()` does not expire before it goes on, and no patch or reducer throws, neither
then nor later. -/
def keepsConnection (applyPatch : Option S → List Op → Option (Option S))
    (reducers : ClassName → Option (Option S → Json → Option (Option S)))
    (s : ClientSubscriptions S Op) : SubscriptionAct S Op → Bool
  | .closes _ => (List.range s.nextListener).all (fun k =>
      (s.listeners k).all (fun l => l.pc.live.isNone))
  | .resume k => (s.listeners k).all (fun l => l.pc.live.all (fun i =>
      ((newRecord reducers k l i).follow applyPatch (s.subs.pending i)).isSome))
  | .deliver expired => s.deliversWell applyPatch expired
  | _ => true

end ClientSubscriptions

/-! ## What a step does -/

namespace ClientSubscriptions

variable {s s' : ClientSubscriptions S Op} {a : SubscriptionAct S Op}

/-- The records, when a `subscribe()` has made its own and put its listener in. -/
def registering (s : ClientSubscriptions S Op)
    (reducers : ClassName → Option (Option S → Json → Option (Option S))) (k : ℕ)
    (l : ClientListener) (subscriptionId : ℕ) : SubscriptionState S Op :=
  (s.subs.preRegister k subscriptionId (reducers l.className)).addListener k

/-- **What a step does.** -/
inductive Steps (applyPatch : Option S → List Op → Option (Option S))
    (reducers : ClassName → Option (Option S → Json → Option (Option S)))
    (s : ClientSubscriptions S Op) :
    SubscriptionAct S Op → ClientSubscriptions S Op → Prop
  | subscribe {className actorId accepts} {pc : ListenPc} :
      (pc = .settled none ∨ pc = .requested s.rpc.nextSequenceId) →
      Steps applyPatch reducers s (.subscribe className actorId accepts)
        ({ s.request (.subscribe className actorId) accepts with
          nextListener := s.nextListener + 1 }.setListener s.nextListener
          ⟨className, actorId, pc⟩)
  | rejected {k l} : s.listeners k = some l → l.pc = .settled none →
      Steps applyPatch reducers s (.resume k) (s.setListener k { l with pc := .rejected })
  | registers {k l subscriptionId subs activeSubs} : s.listeners k = some l →
      l.pc = .settled (some subscriptionId) →
      (s.registering reducers k l subscriptionId).flushBuffered applyPatch subscriptionId
        = (subs, true) →
      Steps applyPatch reducers s (.resume k) ({ s with
        subs := subs, activeSubs := activeSubs }.setListener k
          { l with pc := .listening subscriptionId })
  | throws {k l subscriptionId subs} : s.listeners k = some l →
      l.pc = .settled (some subscriptionId) →
      (s.registering reducers k l subscriptionId).flushBuffered applyPatch subscriptionId
        = (subs, false) →
      Steps applyPatch reducers s (.resume k)
        ({ s with subs := subs }.setListener k { l with pc := .rejected })
  | unsubscribes {k l subscriptionId accepts} : s.listeners k = some l →
      (l.pc = .listening subscriptionId ∨ l.pc = .unsubscribed subscriptionId) →
      Steps applyPatch reducers s (.unsubscribe k accepts)
        (s.unsubscribe k l subscriptionId accepts)
  | moves {a b rpc activeSubs} : s.rpc.step b = some rpc →
      (∀ subscriptionId accepts, b ≠ .request (.unsubscribe subscriptionId) accepts) →
      Steps applyPatch reducers s a { s.setRpc rpc with activeSubs := activeSubs }
  | closes {clean rpc} : s.rpc.step (.closes clean) = some rpc →
      Steps applyPatch reducers s (.closes clean) { s with rpc := rpc, server := s.server.close }
  | loops {a activeSubs} : Steps applyPatch reducers s a { s with activeSubs := activeSubs }
  | handles {i data seq v} : s.server.handle i data seq = some v →
      Steps applyPatch reducers s (.handle i data seq) { s with server := v }
  | refuses {i frameworkCode v} : s.server.refuse i frameworkCode = some v →
      Steps applyPatch reducers s (.refuse i frameworkCode) { s with server := v }
  | responds {i v} : s.server.respond i = some v →
      Steps applyPatch reducers s (.respond i) { s with server := v }
  | publishes {className actorId n v} : s.server.publish className actorId n = some v →
      Steps applyPatch reducers s (.publish className actorId n) { s with server := v }
  | notified {expired subscriptionId n rest} :
      s.server.down = .notification subscriptionId n :: rest →
      Steps applyPatch reducers s (.deliver expired) { s with
        server := { s.server with down := rest }
        subs := (s.subs.apply applyPatch expired subscriptionId n).getD s.subs }
  | answered {expired id answer rest} : s.server.down = .response id answer :: rest →
      Steps applyPatch reducers s (.deliver expired)
        ({ s with server := { s.server with down := rest } }.ingest id answer)

theorem steps_register {k subscriptionId : ℕ} {l : ClientListener}
    (hl : s.listeners k = some l) (hpc : l.pc = .settled (some subscriptionId)) :
    Steps applyPatch reducers s (.resume k)
      (s.register applyPatch (reducers l.className) k l subscriptionId) := by
  unfold register
  split
  · next subs hflush => exact .registers hl hpc hflush
  · next subs hflush => exact .throws hl hpc hflush

theorem step_some (hs : step applyPatch reducers s a = some s') :
    Steps applyPatch reducers s a s' := by
  cases a with
  | subscribe className actorId accepts =>
    refine Option.some.inj hs ▸ .subscribe ?_
    split
    · exact .inl rfl
    · exact .inr rfl
  | resume k =>
    simp only [step] at hs
    split at hs
    · next hk => exact Option.some.inj hs ▸ .rejected hk rfl
    · next hk => exact Option.some.inj hs ▸ steps_register hk rfl
    · exact absurd hs (by simp)
  | unsubscribe k accepts =>
    simp only [step] at hs
    split at hs
    · next hk => exact Option.some.inj hs ▸ .unsubscribes hk (.inl rfl)
    · next hk => exact Option.some.inj hs ▸ .unsubscribes hk (.inr rfl)
    · exact absurd hs (by simp)
  | other accepts =>
    obtain rfl := Option.some.inj hs
    exact (.moves (b := .request .other accepts) rfl (by simp) : Steps applyPatch reducers s _
      { s.request .other accepts with activeSubs := s.activeSubs })
  | opens held again =>
    obtain ⟨rpc, hrpc, rfl⟩ := Option.map_eq_some_iff.mp hs
    exact .moves hrpc (by simp)
  | closes clean =>
    obtain ⟨rpc, hrpc, rfl⟩ := Option.map_eq_some_iff.mp hs
    exact .closes hrpc
  | reconnect =>
    obtain ⟨rpc, hrpc, rfl⟩ := Option.map_eq_some_iff.mp hs
    exact (.moves hrpc (by simp) : Steps applyPatch reducers s _
      { s.setRpc rpc with activeSubs := s.activeSubs })
  | resubscribe r accepts =>
    simp only [step] at hs
    split at hs
    · split at hs
      · exact Option.some.inj hs ▸ .loops
      · split at hs
        · exact absurd hs (by simp)
        · exact Option.some.inj hs ▸
            .moves (b := .request (.subscribe _ _) accepts) rfl (by simp)
    · exact absurd hs (by simp)
  | resubscribed r =>
    simp only [step] at hs
    split at hs
    · exact Option.some.inj hs ▸ .loops
    · exact Option.some.inj hs ▸ .loops
    · exact absurd hs (by simp)
  | handle i data seq =>
    obtain ⟨v, hv, rfl⟩ := Option.map_eq_some_iff.mp hs
    exact .handles hv
  | refuse i frameworkCode =>
    obtain ⟨v, hv, rfl⟩ := Option.map_eq_some_iff.mp hs
    exact .refuses hv
  | respond i =>
    obtain ⟨v, hv, rfl⟩ := Option.map_eq_some_iff.mp hs
    exact .responds hv
  | publish className actorId n =>
    obtain ⟨v, hv, rfl⟩ := Option.map_eq_some_iff.mp hs
    exact .publishes hv
  | deliver expired =>
    simp only [step] at hs
    split at hs
    · exact absurd hs (by simp)
    · next hd => exact Option.some.inj hs ▸ .notified hd
    · next hd => exact Option.some.inj hs ▸ .answered hd

end ClientSubscriptions

namespace ClientSubscriptions

variable {s s' : ClientSubscriptions S Op}

/-- **What was kept for a `subscribe()` is followed** by its record, when it goes on. -/
theorem flushBuffered_of_keeps {k id : ℕ} {l : ClientListener}
    (hG : s.keepsConnection applyPatch reducers (.resume k) = true)
    (hl : s.listeners k = some l) (hpc : l.pc = .settled (some id)) :
    ∃ rec states, (newRecord reducers k l id).follow applyPatch (s.subs.pending id)
        = some (rec, states)
      ∧ ((s.registering reducers k l id).flushBuffered applyPatch id).2 = true
      ∧ ((s.registering reducers k l id).flushBuffered applyPatch id).1.records k = some rec
      ∧ ((s.registering reducers k l id).flushBuffered applyPatch id).1.pending
        = update s.subs.pending id []
      ∧ ((s.registering reducers k l id).flushBuffered applyPatch id).1.heard k
        = s.subs.heard k ++ states := by
  rw [keepsConnection, hl, Option.all_some, hpc] at hG
  obtain ⟨⟨rec, states⟩, hfollow⟩ := Option.isSome_iff_exists.mp hG
  have hrecord : (s.registering reducers k l id).records k = some (newRecord reducers k l id) := by
    show update (update s.subs.records k _) k ((update s.subs.records k _ k).map _) k = _
    rw [Function.update_self, Function.update_self]
    rfl
  have hsubs : (s.registering reducers k l id).subs id = some k := Function.update_self _ _ _
  exact ⟨rec, states, hfollow, SubscriptionState.applyAll_follow (m := { s.registering
    reducers k l id with pending := update (s.registering reducers k l id).pending id [] })
    hsubs hrecord (List.mem_singleton_self k) hfollow⟩

end ClientSubscriptions

/-! ## Whose an id is

Ids are followed from where they are offered to where they are given up,
without looking at records. -/

/-- The id that a `subscribe()` was answered with. -/
def ListenPc.subscriptionId : ListenPc → Option ℕ
  | settled subscriptionId => subscriptionId
  | listening subscriptionId => some subscriptionId
  | unsubscribed subscriptionId => some subscriptionId
  | _ => none

namespace ListenPc

/-- What lives has an id. -/
theorem subscriptionId_of_live {pc : ListenPc} {id : ℕ} (h : pc.live = some id) :
    pc.subscriptionId = some id := by
  cases pc with
  | unsubscribed i => exact absurd h (by simp [live])
  | requested i => exact absurd h (by simp [live])
  | rejected => exact absurd h (by simp [live])
  | _ => exact h

end ListenPc

namespace ClientSubscriptions

variable {s s' : ClientSubscriptions S Op} {a : SubscriptionAct S Op}

/-- **An id is of one `subscribe()`**, whose request it answers, and is given up by
none but that. -/
structure Kept (s : ClientSubscriptions S Op) : Prop where
  wired : s.rpc.Wired
  fair : s.server.Fair
  sent : ∀ r ∈ s.server.up, .requested r ∈ s.rpc.log
  offered : ∀ o ∈ s.server.offers, ∃ r className actorId, .requested r ∈ s.rpc.log ∧ r.id = o.1
    ∧ r.params = .subscribe className actorId ∧ s.server.Granted className actorId o.2
  numbered : ∀ k l, s.listeners k = some l → k < s.nextListener
  asks : ∀ k l i, s.listeners k = some l → l.pc = .requested i →
    s.rpc.AsksFor (.subscribe l.className l.actorId) i
  apart : ∀ k l k' l' i, s.listeners k = some l → l.pc = .requested i →
    s.listeners k' = some l' → l'.pc = .requested i → k = k'
  holds : ∀ k l id, s.listeners k = some l → l.pc.subscriptionId = some id →
    id < s.server.issued ∧ ∀ o ∈ s.server.offers, o.2 ≠ id
  one : ∀ k l k' l' id, s.listeners k = some l → l.pc.subscriptionId = some id →
    s.listeners k' = some l' → l'.pc.subscriptionId = some id → k = k'
  ended : ∀ r id, .requested r ∈ s.rpc.log → r.params = .unsubscribe id →
    ∃ k l, s.listeners k = some l ∧ l.pc = .unsubscribed id

/-- **Every live id is granted**, which it is as long as the connection lasts. -/
def Live (s : ClientSubscriptions S Op) : Prop :=
  ∀ k l id, s.listeners k = some l → l.pc.live = some id →
    s.server.Granted l.className l.actorId id

namespace Kept

theorem init (autoConnect : Bool) : (init autoConnect : ClientSubscriptions S Op).Kept where
  wired := .init autoConnect
  fair := ⟨.nil, fun o ho => absurd ho List.not_mem_nil, .nil,
    fun sub hsub => absurd hsub List.not_mem_nil, fun _ _ => rfl⟩
  sent r hr := absurd hr List.not_mem_nil
  offered o ho := absurd ho List.not_mem_nil
  numbered k l hl := absurd hl (by simp [ClientSubscriptions.init])
  asks k l i hl := absurd hl (by simp [ClientSubscriptions.init])
  apart k l k' l' i hl := absurd hl (by simp [ClientSubscriptions.init])
  holds k l id hl := absurd hl (by simp [ClientSubscriptions.init])
  one k l k' l' id hl := absurd hl (by simp [ClientSubscriptions.init])
  ended r id hr := absurd hr (by simp [ClientSubscriptions.init, Rpc.init])

/-- The records and `activeSubs` are not looked at. -/
theorem setRest (h : s.Kept) (subs : SubscriptionState S Op) (activeSubs : ActiveSubs) :
    { s with subs := subs, activeSubs := activeSubs }.Kept :=
  ⟨h.wired, h.fair, h.sent, h.offered, h.numbered, h.asks, h.apart, h.holds, h.one, h.ended⟩

/-- No request is on its way to give up an id that lives, or is offered. -/
theorem not_unsubscribe (h : s.Kept) {id : ℕ}
    (hid : (∃ k l, s.listeners k = some l ∧ l.pc.live = some id)
      ∨ ∃ o ∈ s.server.offers, o.2 = id) :
    ∀ r ∈ s.server.up, r.params ≠ .unsubscribe id := by
  intro r hr he
  obtain ⟨k', l', hl', hpc⟩ := h.ended r id (h.sent r hr) he
  have hid' : l'.pc.subscriptionId = some id := by
    rw [hpc]
    rfl
  rcases hid with ⟨k, l, hl, hlive⟩ | ⟨o, ho, he⟩
  · obtain rfl := h.one k l k' l' id hl (ListenPc.subscriptionId_of_live hlive) hl' hid'
    rw [Option.some.inj (hl.symm.trans hl'), hpc] at hlive
    exact absurd hlive (by simp [ListenPc.live])
  · exact (h.holds k' l' id hl' hid').2 o ho he

/-- The server goes on. -/
theorem advance (h : s.Kept) {v : SubscriptionServer S Op} (ha : s.server.Advances v) :
    { s with server := v }.Kept := by
  refine ⟨h.wired, ha.fair, fun r hr => h.sent r (ha.up r hr), fun o ho => ?_, h.numbered, h.asks,
    h.apart, fun k l id hl hid => ?_, h.one, h.ended⟩
  · rcases ha.offers o ho with ho | ⟨-, r, hr, className, actorId, hid, hparams, hg, -⟩
    · obtain ⟨r, className, actorId, hr, hid, hparams, hg⟩ := h.offered o ho
      exact ⟨r, className, actorId, hr, hid, hparams,
        ha.granted _ _ _ (h.not_unsubscribe (.inr ⟨o, ho, rfl⟩)) hg⟩
    · exact ⟨r, className, actorId, h.sent r hr, hid, hparams, hg⟩
  · obtain ⟨hlt, hne⟩ := h.holds k l id hl hid
    refine ⟨Nat.lt_of_lt_of_le hlt ha.issued, fun o ho => ?_⟩
    rcases ha.offers o ho with ho | ⟨hle, -⟩
    · exact hne o ho
    · exact Nat.ne_of_gt (Nat.lt_of_lt_of_le hlt hle)

/-- The requests go on. What gives up an id is of a `subscribe()` that did. -/
theorem moves (h : s.Kept) {b : RpcAct SubscriptionParams (Option ℕ)}
    {rpc : Rpc SubscriptionParams (Option ℕ)} (hs : s.rpc.step b = some rpc)
    (hb : ∀ id accepts, b = .request (.unsubscribe id) accepts →
      ∃ k l, s.listeners k = some l ∧ l.pc = .unsubscribed id) : (s.setRpc rpc).Kept := by
  have hw := h.wired.step hs
  have ho := Rpc.onward_step hs
  refine ⟨hw, ⟨h.fair.offers, h.fair.offered, h.fair.served, h.fair.below, h.fair.flight⟩,
    fun r hr => ?_,
    fun o hoff => ?_, h.numbered, fun k l i hl hpc => (h.asks k l i hl hpc).onward ho, h.apart,
    h.holds, h.one, fun r id hr hparams => ?_⟩
  · rcases List.mem_append.mp hr with hr | hr
    · exact ho.log _ (h.sent r hr)
    · exact hw.requested_of_written hs hr
  · obtain ⟨r, className, actorId, hr, hid, hparams, hg⟩ := h.offered o hoff
    exact ⟨r, className, actorId, ho.log _ hr, hid, hparams, hg.below, hg.lasts, hg.only⟩
  · rcases Rpc.requested_step hs hr with hr | ⟨accepts, hb'⟩
    · exact h.ended r id hr hparams
    · exact hb id accepts (hparams ▸ hb')

/-- A `subscribe()` goes on, and makes no request. -/
theorem setPc (h : s.Kept) {k : ℕ} {l : ClientListener} (hl : s.listeners k = some l)
    (pc : ListenPc) (hreq : ∀ i, pc ≠ .requested i)
    (hid : ∀ id, pc.subscriptionId = some id → l.pc.subscriptionId = some id)
    (hend : ∀ id, l.pc = .unsubscribed id → pc = .unsubscribed id) :
    (s.setListener k { l with pc := pc }).Kept := by
  have hold : ∀ i l', (s.setListener k { l with pc := pc }).listeners i = some l' →
      (i = k ∧ l' = { l with pc := pc }) ∨ (i ≠ k ∧ s.listeners i = some l') := by
    intro i l' hi
    have hi : update s.listeners k (some { l with pc := pc }) i = some l' := hi
    by_cases he : i = k
    · rw [he, Function.update_self] at hi
      exact .inl ⟨he, (Option.some.inj hi).symm⟩
    · rw [Function.update_of_ne he] at hi
      exact .inr ⟨he, hi⟩
  have hsame : ∀ i l' id, (s.setListener k { l with pc := pc }).listeners i = some l' →
      l'.pc.subscriptionId = some id →
      ∃ l'', s.listeners i = some l'' ∧ l''.pc.subscriptionId = some id := by
    intro i l' id hi hid'
    rcases hold i l' hi with ⟨rfl, rfl⟩ | ⟨-, hi⟩
    · exact ⟨l, hl, hid id hid'⟩
    · exact ⟨l', hi, hid'⟩
  refine ⟨h.wired, h.fair, h.sent, h.offered, fun i l' hi => ?_, fun i l' j hi hpc => ?_,
    fun i l' i' l'' j hi hpc hi' hpc' => ?_, fun i l' id hi hid' => ?_,
    fun i l' i' l'' id hi hid' hi' hid'' => ?_, fun r id hr hparams => ?_⟩
  · rcases hold i l' hi with ⟨rfl, -⟩ | ⟨-, hi⟩
    · exact h.numbered _ l hl
    · exact h.numbered i l' hi
  · rcases hold i l' hi with ⟨-, rfl⟩ | ⟨-, hi⟩
    · exact absurd hpc (hreq j)
    · exact h.asks i l' j hi hpc
  · rcases hold i l' hi with ⟨-, rfl⟩ | ⟨-, hi⟩
    · exact absurd hpc (hreq j)
    · rcases hold i' l'' hi' with ⟨-, rfl⟩ | ⟨-, hi'⟩
      · exact absurd hpc' (hreq j)
      · exact h.apart i l' i' l'' j hi hpc hi' hpc'
  · obtain ⟨l'', hl'', hid''⟩ := hsame i l' id hi hid'
    exact h.holds i l'' id hl'' hid''
  · obtain ⟨m, hm, hmid⟩ := hsame i l' id hi hid'
    obtain ⟨m', hm', hmid'⟩ := hsame i' l'' id hi' hid''
    exact h.one i m i' m' id hm hmid hm' hmid'
  · obtain ⟨i, l', hi, hpc⟩ := h.ended r id hr hparams
    by_cases he : i = k
    · subst he
      obtain rfl := Option.some.inj (hl.symm.trans hi)
      exact ⟨i, _, Function.update_self _ _ _, hend id hpc⟩
    · exact ⟨i, l', (Function.update_of_ne he _ _).trans hi, hpc⟩

/-- A `subscribe()` begins, and has made its request. -/
theorem begin (h : s.Kept) {className : ClassName} {actorId : ActorId} {pc : ListenPc}
    (hpc : pc = .settled none ∨ ∃ i, pc = .requested i
      ∧ s.rpc.AsksFor (.subscribe className actorId) i
      ∧ ∀ k l, s.listeners k = some l → l.pc ≠ .requested i) :
    ({ s with nextListener := s.nextListener + 1 }.setListener s.nextListener
      ⟨className, actorId, pc⟩).Kept := by
  have hold : ∀ i l', update s.listeners s.nextListener (some ⟨className, actorId, pc⟩) i
      = some l' → (i = s.nextListener ∧ l' = ⟨className, actorId, pc⟩)
        ∨ s.listeners i = some l' := by
    intro i l' hi
    by_cases he : i = s.nextListener
    · rw [he, Function.update_self] at hi
      exact .inl ⟨he, (Option.some.inj hi).symm⟩
    · rw [Function.update_of_ne he] at hi
      exact .inr hi
  have hnone : pc.subscriptionId = none := by
    rcases hpc with rfl | ⟨i, rfl, -⟩ <;> rfl
  have hfresh : ∀ j, pc = .requested j → ∀ i l', s.listeners i = some l' →
      l'.pc ≠ .requested j := by
    intro j hj i l' hi
    rcases hpc with rfl | ⟨j', rfl, -, hothers⟩
    · exact absurd hj (by simp)
    · exact ListenPc.requested.inj hj ▸ hothers i l' hi
  have hsame : ∀ i l' id, update s.listeners s.nextListener (some ⟨className, actorId, pc⟩) i
      = some l' → l'.pc.subscriptionId = some id → s.listeners i = some l' := by
    intro i l' id hi hid
    rcases hold i l' hi with ⟨-, rfl⟩ | hi
    · exact absurd (hnone.symm.trans hid) (by simp)
    · exact hi
  refine ⟨h.wired, h.fair, h.sent, h.offered, fun i l' hi => ?_, fun i l' j hi hpc' => ?_,
    fun i l' i' l'' j hi hpc' hi' hpc'' => ?_,
    fun i l' id hi hid => h.holds i l' id (hsame i l' id hi hid) hid,
    fun i l' i' l'' id hi hid hi' hid' =>
      h.one i l' i' l'' id (hsame i l' id hi hid) hid (hsame i' l'' id hi' hid') hid',
    fun r id hr hparams => ?_⟩
  · rcases hold i l' hi with ⟨rfl, -⟩ | hi
    · exact Nat.lt_succ_self _
    · exact Nat.lt_succ_of_lt (h.numbered i l' hi)
  · rcases hold i l' hi with ⟨-, rfl⟩ | hi
    · rcases hpc with rfl | ⟨j', rfl, hasks, -⟩
      · exact absurd hpc' (by simp)
      · exact ListenPc.requested.inj hpc' ▸ hasks
    · exact h.asks i l' j hi hpc'
  · rcases hold i l' hi with ⟨rfl, rfl⟩ | hi
    · rcases hold i' l'' hi' with ⟨rfl, -⟩ | hi'
      · rfl
      · exact absurd hpc'' (hfresh j hpc' i' l'' hi')
    · rcases hold i' l'' hi' with ⟨-, rfl⟩ | hi'
      · exact absurd hpc' (hfresh j hpc'' i l' hi)
      · exact h.apart i l' i' l'' j hi hpc' hi' hpc''
  · obtain ⟨i, l', hi, hpc'⟩ := h.ended r id hr hparams
    have hne := Nat.ne_of_lt (h.numbered i l' hi)
    exact ⟨i, l', (Function.update_of_ne hne _ _).trans hi, hpc'⟩

/-- The connection closes. -/
theorem closes (h : s.Kept) {clean : Bool} {rpc : Rpc SubscriptionParams (Option ℕ)}
    (hs : s.rpc.step (.closes clean) = some rpc) :
    { s with rpc := rpc, server := s.server.close }.Kept := by
  have ho := Rpc.onward_step hs
  refine ⟨h.wired.step hs, ⟨.nil, fun o ho => absurd ho List.not_mem_nil, .nil,
      fun sub hsub => absurd hsub List.not_mem_nil, fun _ _ => rfl⟩,
    fun r hr => absurd hr List.not_mem_nil,
    fun o ho => absurd ho List.not_mem_nil, h.numbered,
    fun k l i hl hpc => (h.asks k l i hl hpc).onward ho, h.apart, fun k l id hl hid =>
      ⟨(h.holds k l id hl hid).1, fun o ho => absurd ho List.not_mem_nil⟩, h.one,
    fun r id hr hparams => ?_⟩
  rcases Rpc.requested_step hs hr with hr | ⟨accepts, hb⟩
  · exact h.ended r id hr hparams
  · exact absurd hb (by simp)

/-- A frame of the server arrives. -/
theorem arrives (h : s.Kept) {frame : ServerFrame S Op} {rest : List (ServerFrame S Op)}
    (hdown : s.server.down = frame :: rest) :
    { s with server := { s.server with down := rest } }.Kept := by
  have hsub : ({ s.server with down := rest } : SubscriptionServer S Op).offers.Sublist
      s.server.offers := by
    refine List.Sublist.filterMap _ (List.Sublist.append_left (List.Sublist.filterMap _ ?_) _)
    rw [hdown]
    exact List.sublist_cons_self _ _
  refine ⟨h.wired, ⟨h.fair.offers.sublist (hsub.map _),
      fun o ho => h.fair.offered o (hsub.subset ho), h.fair.served, h.fair.below,
      fun i hi => ?_⟩, h.sent,
    fun o ho => ?_, h.numbered, h.asks, h.apart, fun k l id hl hid => ?_, h.one, h.ended⟩
  · have hnone := h.fair.flight i hi
    rw [SubscriptionServer.inFlight, hdown, List.filterMap_cons] at hnone
    split at hnone
    · exact hnone
    · exact absurd hnone (by simp)
  · obtain ⟨r, className, actorId, hr, hid, hparams, hg⟩ := h.offered o (hsub.subset ho)
    exact ⟨r, className, actorId, hr, hid, hparams, hg.below, hg.lasts, hg.only⟩
  · obtain ⟨hlt, hne⟩ := h.holds k l id hl hid
    exact ⟨hlt, fun o ho => hne o (hsub.subset ho)⟩

end Kept

/-- The pc of a request that settles, and of others. -/
theorem settle_cases (pc : ListenPc) (id : ℕ) (x : Option ℕ) :
    (pc = .requested id ∧ pc.settle id x = .settled x) ∨ pc.settle id x = pc := by
  cases pc with
  | requested i =>
    by_cases hi : i = id
    · exact .inl ⟨by rw [hi], if_pos hi⟩
    · exact .inr (if_neg hi)
  | _ => exact .inr rfl

/-- A request is answered. What id it is answered with is no one's yet. -/
theorem Kept.ingest (h : s.Kept) {id : ℕ} {answer : RpcAnswer (Option ℕ)}
    (hnew : ∀ i, answer.subscriptionId = some i → i < s.server.issued
      ∧ (∀ o ∈ s.server.offers, o.2 ≠ i)
      ∧ ∀ k l, s.listeners k = some l → l.pc.subscriptionId ≠ some i) :
    (s.ingest id answer).Kept := by
  unfold ClientSubscriptions.ingest
  split
  · have ho := s.rpc.onward_ingest id answer
    refine ⟨h.wired.ingest id answer, h.fair, fun r hr => ho.log _ (h.sent r hr), fun o hoff => ?_,
      fun k l' hl' => ?_, fun k l' i hl' hpc => ?_, fun k l₁ k' l₂ i hl₁ hpc₁ hl₂ hpc₂ => ?_,
      fun k l' i hl' hi => ?_, fun k l₁ k' l₂ i hl₁ hi₁ hl₂ hi₂ => ?_, fun r i hr hparams => ?_⟩
    · obtain ⟨r, className, actorId, hr, hid, hparams, hg⟩ := h.offered o hoff
      exact ⟨r, className, actorId, ho.log _ hr, hid, hparams, hg⟩
    · obtain ⟨l, hl, -⟩ := Option.map_eq_some_iff.mp hl'
      exact h.numbered k l hl
    · obtain ⟨l, hl, rfl⟩ := Option.map_eq_some_iff.mp hl'
      rcases settle_cases l.pc id answer.subscriptionId with ⟨-, he⟩ | he
      · exact absurd (he.symm.trans hpc) (by simp)
      · exact (h.asks k l i hl (he.symm.trans hpc)).onward ho
    · obtain ⟨l, hl, rfl⟩ := Option.map_eq_some_iff.mp hl₁
      obtain ⟨l', hl', rfl⟩ := Option.map_eq_some_iff.mp hl₂
      rcases settle_cases l.pc id answer.subscriptionId with ⟨-, he⟩ | he
      · exact absurd (he.symm.trans hpc₁) (by simp)
      rcases settle_cases l'.pc id answer.subscriptionId with ⟨-, he'⟩ | he'
      · exact absurd (he'.symm.trans hpc₂) (by simp)
      · exact h.apart k l k' l' i hl (he.symm.trans hpc₁) hl' (he'.symm.trans hpc₂)
    · obtain ⟨l, hl, rfl⟩ := Option.map_eq_some_iff.mp hl'
      dsimp only at hi
      rcases settle_cases l.pc id answer.subscriptionId with ⟨-, he⟩ | he
      · obtain ⟨hlt, hne, -⟩ := hnew i (by rw [he] at hi; exact hi)
        exact ⟨hlt, hne⟩
      · exact h.holds k l i hl (he ▸ hi)
    · obtain ⟨l, hl, rfl⟩ := Option.map_eq_some_iff.mp hl₁
      obtain ⟨l', hl', rfl⟩ := Option.map_eq_some_iff.mp hl₂
      dsimp only at hi₁ hi₂
      rcases settle_cases l.pc id answer.subscriptionId with ⟨hreq, he⟩ | he <;>
        rcases settle_cases l'.pc id answer.subscriptionId with ⟨hreq', he'⟩ | he' <;>
        rw [he] at hi₁ <;> rw [he'] at hi₂
      · exact h.apart k l k' l' id hl hreq hl' hreq'
      · exact absurd hi₂ ((hnew i hi₁).2.2 k' l' hl')
      · exact absurd hi₁ ((hnew i hi₂).2.2 k l hl)
      · exact h.one k l k' l' i hl hi₁ hl' hi₂
    · obtain ⟨k, l, hl, hpc⟩ := h.ended r i (Rpc.requested_ingest hr) hparams
      refine ⟨k, _, Option.map_eq_some_iff.mpr ⟨l, hl, rfl⟩, ?_⟩
      dsimp only
      rw [hpc]
      rfl
  · exact h

/-- What the first frame of the server offers. -/
theorem Kept.offer (h : s.Kept) {id i : ℕ} {answer : RpcAnswer (Option ℕ)}
    {rest : List (ServerFrame S Op)} (hdown : s.server.down = .response id answer :: rest)
    (hi : answer.subscriptionId = some i) : (id, i) ∈ s.server.offers
      ∧ ∀ o ∈ ({ s.server with down := rest } : SubscriptionServer S Op).offers, o.2 ≠ i := by
  have hoffer : offer? (id, answer) = some (id, i) := by
    cases answer with
    | result subscriptionId =>
      obtain rfl : subscriptionId = some i := hi
      rfl
    | error code => exact absurd hi (by simp [RpcAnswer.subscriptionId])
  have hperm : s.server.offers.Perm ((id, i) ::
      ({ s.server with down := rest } : SubscriptionServer S Op).offers) := by
    show ((s.server.answering ++ s.server.down.filterMap ServerFrame.response?).filterMap
      offer?).Perm _
    rw [hdown, List.filterMap_append]
    show (_ ++ List.filterMap offer? ((id, answer) :: _)).Perm
      (_ :: List.filterMap offer? (_ ++ _))
    rw [List.filterMap_cons_some hoffer, List.filterMap_append]
    exact List.perm_middle
  refine ⟨hperm.mem_iff.mpr List.mem_cons_self, fun o ho he => ?_⟩
  have hnodup := (hperm.map Prod.snd).nodup_iff.mp h.fair.offers
  exact (List.nodup_cons.mp hnodup).1 (List.mem_map.mpr ⟨o, ho, he⟩)

/-- A response arrives. -/
theorem Kept.answered (h : s.Kept) {id : ℕ} {answer : RpcAnswer (Option ℕ)}
    {rest : List (ServerFrame S Op)} (hdown : s.server.down = .response id answer :: rest) :
    ({ s with server := { s.server with down := rest } }.ingest id answer).Kept := by
  refine (h.arrives hdown).ingest (fun i hi => ?_)
  obtain ⟨hmem, hne⟩ := h.offer hdown hi
  exact ⟨h.fair.offered _ hmem, hne, fun k l hl hl' => (h.holds k l i hl hl').2 _ hmem rfl⟩

/-- What `subscribe()` returned is called. -/
theorem Kept.unsubscribe (h : s.Kept) {k id : ℕ} {l : ClientListener}
    (hl : s.listeners k = some l) (hpc : l.pc = .listening id ∨ l.pc = .unsubscribed id)
    (accepts : Bool) : (s.unsubscribe k l id accepts).Kept := by
  have hset : (s.setListener k { l with pc := .unsubscribed id }).Kept := by
    refine h.setPc hl _ (by simp) (fun i hi => ?_) (fun i hi => ?_)
    · obtain rfl := Option.some.inj hi
      rcases hpc with hpc | hpc <;> rw [hpc] <;> rfl
    · rcases hpc with hpc | hpc
      · exact absurd (hpc.symm.trans hi) (by simp)
      · exact hpc.symm.trans hi
  have hmoves := hset.moves (b := .request (.unsubscribe id) accepts) rfl
    (fun i accepts' hb => by
      obtain ⟨hb, -⟩ := RpcAct.request.inj hb
      obtain rfl := SubscriptionParams.unsubscribe.inj hb
      exact ⟨k, _, Function.update_self _ _ _, rfl⟩)
  unfold ClientSubscriptions.unsubscribe
  dsimp only
  split
  · exact hmoves.setRest _ _
  · exact hset.setRest _ s.activeSubs

/-- **Every step keeps to it.** -/
theorem Kept.step (h : s.Kept) (hs : step applyPatch reducers s a = some s') : s'.Kept := by
  cases step_some hs with
  | @subscribe className actorId accepts pc hpc =>
    have hmoves := h.moves (b := .request (.subscribe className actorId) accepts) rfl (by simp)
    refine hmoves.begin (hpc.imp id (fun hpc => ⟨_, hpc, h.wired.asksFor _ _, fun k l hl he => ?_⟩))
    exact absurd (h.asks k l _ hl he).below (Nat.lt_irrefl _)
  | rejected hl hpc =>
    exact h.setPc hl _ (by simp) (by simp [ListenPc.subscriptionId]) (by simp [hpc])
  | @registers k l id subs activeSubs hl hpc =>
    have hset := h.setPc hl (.listening id) (by simp) (fun i hi => by rw [hpc]; exact hi)
      (by simp [hpc])
    exact hset.setRest _ _
  | throws hl hpc =>
    have hset := h.setPc hl .rejected (by simp) (by simp [ListenPc.subscriptionId])
      (by simp [hpc])
    exact hset.setRest _ s.activeSubs
  | unsubscribes hl hpc => exact h.unsubscribe hl hpc _
  | moves hrpc hb =>
    exact (h.moves hrpc (fun i accepts he => absurd he (hb i accepts))).setRest s.subs _
  | closes hrpc => exact h.closes hrpc
  | loops => exact h.setRest s.subs _
  | handles hv => exact h.advance (h.fair.advances_handle hv)
  | refuses hv => exact h.advance (h.fair.advances_refuse hv)
  | responds hv => exact h.advance (h.fair.advances_respond hv)
  | publishes hv => exact h.advance (h.fair.advances_publish hv)
  | notified hdown => exact (h.arrives hdown).setRest _ s.activeSubs
  | answered hdown => exact h.answered hdown

/-! ## What lives is granted

The server's side of the same: as long as the connection lasts it forgets an
id only when it is told to. -/

/-- The server goes on. -/
theorem Live.advance (hlive : s.Live) (h : s.Kept) {v : SubscriptionServer S Op}
    (ha : s.server.Advances v) : { s with server := v }.Live := fun k l i hl hi =>
  ha.granted _ _ _ (h.not_unsubscribe (.inl ⟨k, l, hl, hi⟩)) (hlive k l i hl hi)

/-- A `subscribe()` goes on, and no id lives that did not. -/
theorem Live.setListener (hlive : s.Live) {k : ℕ} {l : ClientListener}
    (hl : ∀ i, l.pc.live = some i → s.server.Granted l.className l.actorId i) :
    (s.setListener k l).Live := by
  intro j l' i hj hi
  have hj : update s.listeners k (some l) j = some l' := hj
  by_cases he : j = k
  · rw [he, Function.update_self] at hj
    obtain rfl := Option.some.inj hj
    exact hl i hi
  · rw [Function.update_of_ne he] at hj
    exact hlive j l' i hj hi

/-- A request is answered, with an id that is granted. -/
theorem Live.ingest (hlive : s.Live) (h : s.Kept) {id : ℕ} {answer : RpcAnswer (Option ℕ)}
    (hnew : ∀ i, answer.subscriptionId = some i → ∃ r className actorId,
      .requested r ∈ s.rpc.log ∧ r.id = id ∧ r.params = .subscribe className actorId
        ∧ s.server.Granted className actorId i) : (s.ingest id answer).Live := by
  unfold ClientSubscriptions.ingest
  split
  · intro k l' i hl' hi
    obtain ⟨l, hl, rfl⟩ := Option.map_eq_some_iff.mp hl'
    dsimp only at hi
    rcases settle_cases l.pc id answer.subscriptionId with ⟨hreq, he⟩ | he
    · rw [he] at hi
      obtain ⟨r, className, actorId, hr, hid, hparams, hg⟩ := hnew i hi
      have hsame := hparams.symm.trans ((h.asks k l id hl hreq).requested r hr hid)
      obtain ⟨hc, ha⟩ := SubscriptionParams.subscribe.inj hsame
      show s.server.Granted l.className l.actorId i
      rw [← hc, ← ha]
      exact hg
    · exact hlive k l i hl (he ▸ hi)
  · exact hlive

/-- No listener changes, and the server forgets nothing. -/
theorem Live.congr (hlive : s.Live) {t : ClientSubscriptions S Op}
    (hlisteners : t.listeners = s.listeners) (hissued : t.server.issued = s.server.issued)
    (hserved : t.server.served = s.server.served)
    (hpublished : t.server.published = s.server.published) : t.Live := fun k l i hl hi =>
  (hlive k l i (hlisteners ▸ hl) hi).congr (Nat.le_of_eq hissued.symm) hserved hpublished

/-- **Every step keeps to it** that keeps the connection. -/
theorem Live.step (hlive : s.Live) (h : s.Kept)
    (hG : s.keepsConnection applyPatch reducers a = true)
    (hs : step applyPatch reducers s a = some s') : s'.Live := by
  cases step_some hs with
  | @subscribe className actorId accepts pc hpc =>
    have hsame : { s.request (.subscribe className actorId) accepts with
        nextListener := s.nextListener + 1 }.Live := hlive.congr rfl rfl rfl rfl
    refine hsame.setListener (fun i hi => ?_)
    rcases hpc with rfl | rfl <;> exact absurd hi (by simp [ListenPc.live])
  | rejected hl hpc => exact hlive.setListener (by simp [ListenPc.live])
  | @registers k l id subs activeSubs hl hpc =>
    have hset : (s.setListener k { l with pc := .listening id }).Live :=
      hlive.setListener (fun i hi => hlive k l i hl (by rw [hpc]; exact hi))
    exact hset.congr rfl rfl rfl rfl
  | @throws k l id subs hl hpc =>
    have hset : (s.setListener k { l with pc := .rejected }).Live :=
      hlive.setListener (by simp [ListenPc.live])
    exact hset.congr rfl rfl rfl rfl
  | @unsubscribes k l id accepts hl hpc =>
    have hset : (s.setListener k { l with pc := .unsubscribed id }).Live :=
      hlive.setListener (by simp [ListenPc.live])
    unfold unsubscribe
    dsimp only
    split
    · exact hset.congr rfl rfl rfl rfl
    · exact hset.congr rfl rfl rfl rfl
  | moves hrpc hb => exact hlive.congr rfl rfl rfl rfl
  | closes hrpc =>
    intro k l i hl hi
    have hnone := List.all_eq_true.mp hG k (List.mem_range.mpr (h.numbered k l hl))
    rw [show s.listeners k = some l from hl, Option.all_some, hi] at hnone
    exact absurd hnone (by simp)
  | loops => exact hlive.congr rfl rfl rfl rfl
  | handles hv => exact hlive.advance h (h.fair.advances_handle hv)
  | refuses hv => exact hlive.advance h (h.fair.advances_refuse hv)
  | responds hv => exact hlive.advance h (h.fair.advances_respond hv)
  | publishes hv => exact hlive.advance h (h.fair.advances_publish hv)
  | notified hdown => exact hlive.congr rfl rfl rfl rfl
  | @answered expired id answer rest hdown =>
    have hpopped : { s with server := { s.server with down := rest } }.Live :=
      hlive.congr rfl rfl rfl rfl
    refine hpopped.ingest (h.arrives hdown) (fun i hi => ?_)
    obtain ⟨r, className, actorId, hr, hid, hparams, hg⟩ := h.offered _ (h.offer hdown hi).1
    exact ⟨r, className, actorId, hr, hid, hparams, hg.congr (Nat.le_refl _) rfl rfl⟩

end ClientSubscriptions

/-! ## Whose a record is

A record is made by the `subscribe()` that got the id, and is deleted with its
last listener, which is that one. -/

namespace ClientSubscriptions

variable {s s' : ClientSubscriptions S Op} {a : SubscriptionAct S Op}

/-- **A record is of the `subscribe()` that made it**, and of no other listener: of none
once that has unsubscribed. -/
structure Recorded (s : ClientSubscriptions S Op) : Prop where
  subs : ∀ i k, s.subs.subs i = some k → ∃ ls, s.subs.shape k = some (i, ls)
  own : ∀ k i ls, s.subs.shape k = some (i, ls) → ∀ j ∈ ls, j = k
  made : ∀ k p, s.subs.shape k = some p → ∃ l i, s.listeners k = some l
    ∧ (l.pc = .listening i ∨ l.pc = .unsubscribed i)
  listening : ∀ k l i, s.listeners k = some l → l.pc = .listening i →
    s.subs.shape k = some (i, [k]) ∧ s.subs.subs i = some k
  silent : ∀ k l i, s.listeners k = some l → l.pc = .unsubscribed i →
    s.subs.shape k = some (i, [])

namespace Recorded

theorem init (autoConnect : Bool) : (init autoConnect : ClientSubscriptions S Op).Recorded where
  subs i k hi := absurd hi (by simp [ClientSubscriptions.init, SubscriptionState.init])
  own k i ls hk := absurd hk
    (by simp [ClientSubscriptions.init, SubscriptionState.init, SubscriptionState.shape])
  made k p hk := absurd hk
    (by simp [ClientSubscriptions.init, SubscriptionState.init, SubscriptionState.shape])
  listening k l i hl := absurd hl (by simp [ClientSubscriptions.init])
  silent k l i hl := absurd hl (by simp [ClientSubscriptions.init])

/-- The records keep their ids and listeners, and no one begins to listen or stops. -/
theorem congr (h : s.Recorded) {t : ClientSubscriptions S Op} (hsubs : t.subs.subs = s.subs.subs)
    (hshape : t.subs.shape = s.subs.shape)
    (hback : ∀ k l' i, t.listeners k = some l' → (l'.pc = .listening i ∨ l'.pc = .unsubscribed i) →
      ∃ l, s.listeners k = some l ∧ l.pc = l'.pc)
    (hkeeps : ∀ k l i, s.listeners k = some l → (l.pc = .listening i ∨ l.pc = .unsubscribed i) →
      ∃ l', t.listeners k = some l' ∧ l'.pc = l.pc) : t.Recorded := by
  refine ⟨?_, ?_, fun k p hp => ?_, fun k l' i hl' hpc => ?_, fun k l' i hl' hpc => ?_⟩
  · rw [hsubs, hshape]
    exact h.subs
  · rw [hshape]
    exact h.own
  · obtain ⟨l, i, hl, hpc⟩ := h.made k p (hshape ▸ hp)
    obtain ⟨l', hl', he⟩ := hkeeps k l i hl hpc
    exact ⟨l', i, hl', he ▸ hpc⟩
  · obtain ⟨l, hl, he⟩ := hback k l' i hl' (.inl hpc)
    rw [hsubs, hshape]
    exact h.listening k l i hl (he.trans hpc)
  · obtain ⟨l, hl, he⟩ := hback k l' i hl' (.inr hpc)
    rw [hshape]
    exact h.silent k l i hl (he.trans hpc)

/-- A `subscribe()` begins, or goes on, that listens neither before nor after. -/
theorem setListener (h : s.Recorded) {k : ℕ} {l : ClientListener}
    (hold : ∀ l₀ i, s.listeners k = some l₀ → l₀.pc ≠ .listening i ∧ l₀.pc ≠ .unsubscribed i)
    (hnew : ∀ i, l.pc ≠ .listening i ∧ l.pc ≠ .unsubscribed i) :
    (s.setListener k l).Recorded := by
  refine h.congr rfl rfl (fun j l' i hj hpc => ?_) (fun j l' i hj hpc => ?_)
  · have hj : update s.listeners k (some l) j = some l' := hj
    by_cases he : j = k
    · rw [he, Function.update_self] at hj
      obtain rfl := Option.some.inj hj
      exact absurd hpc (not_or.mpr (hnew i))
    · rw [Function.update_of_ne he] at hj
      exact ⟨l', hj, rfl⟩
  · by_cases he : j = k
    · subst he
      exact absurd hpc (not_or.mpr (hold l' i hj))
    · exact ⟨l', (Function.update_of_ne he _ _).trans hj, rfl⟩

/-- `subscribe()` has its id, and makes a record for it. -/
theorem registers (h : s.Recorded) (hk : s.Kept) {k id : ℕ} {l : ClientListener}
    {subs : SubscriptionState S Op} {activeSubs : ActiveSubs} (hl : s.listeners k = some l)
    (hpc : l.pc = .settled (some id))
    (hflush : (s.registering reducers k l id).flushBuffered applyPatch id = (subs, true)) :
    ({ s with subs := subs, activeSubs := activeSubs }.setListener k
      { l with pc := .listening id }).Recorded := by
  obtain ⟨hsubs, hshape, -⟩ :=
    SubscriptionState.flushBuffered_frame applyPatch (s.registering reducers k l id) id
  rw [hflush] at hsubs hshape
  have hshape : subs.shape = update s.subs.shape k (some (id, [k])) :=
    hshape.trans (SubscriptionState.shape_registered _ _ _ _)
  have hsubs : subs.subs = update s.subs.subs id (some k) := hsubs
  have hunmade : s.subs.shape k = none := by
    by_contra hne
    obtain ⟨p, hp⟩ := Option.ne_none_iff_exists'.mp hne
    obtain ⟨l', i, hl', hpc'⟩ := h.made k p hp
    rw [← Option.some.inj (hl.symm.trans hl'), hpc] at hpc'
    exact absurd hpc' (by simp)
  have hothers : ∀ {j p}, s.subs.shape j = some p → j ≠ k := fun hj he =>
    absurd (hunmade.symm.trans (he ▸ hj)) (by simp)
  refine ⟨fun i j hi => ?_, fun j i ls hj => ?_, fun j p hj => ?_, fun j l' i hj hpc' => ?_,
    fun j l' i hj hpc' => ?_⟩
  · show ∃ ls, subs.shape j = some (i, ls)
    rw [hshape]
    rcases update_eq_some ((congrFun hsubs i).symm.trans hi) with ⟨rfl, he⟩ | ⟨-, hi⟩
    · obtain rfl := Option.some.inj he
      exact ⟨[k], Function.update_self _ _ _⟩
    · obtain ⟨ls, hls⟩ := h.subs i j hi
      exact ⟨ls, (Function.update_of_ne (hothers hls) _ _).trans hls⟩
  · rcases update_eq_some ((congrFun hshape j).symm.trans hj) with ⟨rfl, he⟩ | ⟨-, hj⟩
    · obtain ⟨-, rfl⟩ := Prod.mk.inj (Option.some.inj he)
      exact fun _ => List.mem_singleton.mp
    · exact h.own j i ls hj
  · rcases update_eq_some ((congrFun hshape j).symm.trans hj) with ⟨rfl, -⟩ | ⟨hne, hj⟩
    · exact ⟨_, id, Function.update_self _ _ _, .inl rfl⟩
    · obtain ⟨l', i, hl', hpc'⟩ := h.made j p hj
      exact ⟨l', i, (Function.update_of_ne hne _ _).trans hl', hpc'⟩
  · show subs.shape j = some (i, [j]) ∧ subs.subs i = some j
    rw [hshape, hsubs]
    rcases update_eq_some hj with ⟨rfl, he⟩ | ⟨hne, hj⟩
    · obtain rfl := Option.some.inj he
      obtain rfl := ListenPc.listening.inj hpc'
      exact ⟨Function.update_self _ _ _, Function.update_self _ _ _⟩
    · obtain ⟨hp, hi⟩ := h.listening j l' i hj hpc'
      have hid : i ≠ id := fun he =>
        hne (hk.one j l' k l id hj (by rw [hpc', he]; rfl) hl (by rw [hpc]; rfl))
      exact ⟨(Function.update_of_ne hne _ _).trans hp, (Function.update_of_ne hid _ _).trans hi⟩
  · show subs.shape j = some (i, [])
    rw [hshape]
    rcases update_eq_some hj with ⟨rfl, he⟩ | ⟨hne, hj⟩
    · obtain rfl := Option.some.inj he
      exact absurd hpc' (by simp)
    · exact (Function.update_of_ne hne _ _).trans (h.silent j l' i hj hpc')

/-- What `subscribe()` returned is called. -/
theorem unsubscribes (h : s.Recorded) (hk : s.Kept) {k id : ℕ} {l : ClientListener}
    (hl : s.listeners k = some l) (hpc : l.pc = .listening id ∨ l.pc = .unsubscribed id)
    (accepts : Bool) : (s.unsubscribe k l id accepts).Recorded := by
  obtain ⟨ls, hls⟩ : ∃ ls, s.subs.shape k = some (id, ls) := by
    rcases hpc with hpc | hpc
    · exact ⟨_, (h.listening k l id hl hpc).1⟩
    · exact ⟨_, h.silent k l id hl hpc⟩
  have hdeleted := SubscriptionState.shape_deleteListener hls (h.own k id ls hls)
  have hempty : ((s.subs.deleteListener k).records k).all (fun rec => rec.listeners.isEmpty)
      = true := by
    have hk' := congrFun hdeleted k
    rw [Function.update_self] at hk'
    obtain ⟨rec, hrec, he⟩ := Option.map_eq_some_iff.mp hk'
    rw [hrec, Option.all_some, (Prod.mk.inj he).2, List.isEmpty_nil]
  have hstep : s.unsubscribe k l id accepts
      = { (s.setListener k { l with pc := .unsubscribed id }).request (.unsubscribe id) accepts with
          subs := (s.subs.deleteListener k).unregister id
          activeSubs := s.activeSubs.delete (ActiveSubs.key l.className l.actorId) } :=
    if_pos hempty
  rw [hstep]
  refine ⟨fun i j hi => ?_, fun j i ls' hj => ?_, fun j p hj => ?_, fun j l' i hj hpc' => ?_,
    fun j l' i hj hpc' => ?_⟩
  · rcases update_eq_some hi with ⟨-, he⟩ | ⟨hne, hi⟩
    · exact absurd he (by simp)
    · obtain ⟨ls', hls'⟩ := h.subs i j hi
      have hjk : j ≠ k := by
        rintro rfl
        exact hne (Prod.mk.inj (Option.some.inj (hls'.symm.trans hls))).1
      exact ⟨ls', (congrFun hdeleted j).trans ((Function.update_of_ne hjk _ _).trans hls')⟩
  · rcases update_eq_some ((congrFun hdeleted j).symm.trans hj) with ⟨-, he⟩ | ⟨-, hj⟩
    · obtain ⟨-, rfl⟩ := Prod.mk.inj (Option.some.inj he)
      exact fun _ => (absurd · List.not_mem_nil)
    · exact h.own j i ls' hj
  · rcases update_eq_some ((congrFun hdeleted j).symm.trans hj) with ⟨rfl, -⟩ | ⟨hne, hj⟩
    · exact ⟨_, id, Function.update_self _ _ _, .inr rfl⟩
    · obtain ⟨l', i, hl', hpc'⟩ := h.made j p hj
      exact ⟨l', i, (Function.update_of_ne hne _ _).trans hl', hpc'⟩
  · rcases update_eq_some hj with ⟨-, he⟩ | ⟨hne, hj⟩
    · obtain rfl := Option.some.inj he
      exact absurd hpc' (by simp)
    · obtain ⟨hp, hi⟩ := h.listening j l' i hj hpc'
      have hid : i ≠ id := by
        intro he
        refine hne (hk.one j l' k l id hj (by rw [hpc', he]; rfl) hl ?_)
        rcases hpc with hpc | hpc <;> rw [hpc] <;> rfl
      exact ⟨(congrFun hdeleted j).trans ((Function.update_of_ne hne _ _).trans hp),
        (Function.update_of_ne hid _ _).trans hi⟩
  · refine (congrFun hdeleted j).trans ?_
    rcases update_eq_some hj with ⟨rfl, he⟩ | ⟨hne, hj⟩
    · obtain rfl := Option.some.inj he
      obtain rfl := ListenPc.unsubscribed.inj hpc'
      exact Function.update_self _ _ _
    · exact (Function.update_of_ne hne _ _).trans (h.silent j l' i hj hpc')

/-- A response arrives. -/
theorem ingest (h : s.Recorded) (id : ℕ) (answer : RpcAnswer (Option ℕ)) :
    (s.ingest id answer).Recorded := by
  unfold ClientSubscriptions.ingest
  split
  · refine h.congr rfl rfl (fun k l' i hl' hpc => ?_) (fun k l i hl hpc => ?_)
    · obtain ⟨l, hl, rfl⟩ := Option.map_eq_some_iff.mp hl'
      rcases settle_cases l.pc id answer.subscriptionId with ⟨-, he⟩ | he
      · dsimp only at hpc
        rw [he] at hpc
        exact absurd hpc (by simp)
      · exact ⟨l, hl, he.symm⟩
    · refine ⟨_, Option.map_eq_some_iff.mpr ⟨l, hl, rfl⟩, ?_⟩
      rcases settle_cases l.pc id answer.subscriptionId with ⟨hreq, -⟩ | he
      · rw [hreq] at hpc
        exact absurd hpc (by simp)
      · exact he
  · exact h

/-- **Every step keeps to it.** -/
theorem step (h : s.Recorded) (hk : s.Kept)
    (hG : s.keepsConnection applyPatch reducers a = true)
    (hs : step applyPatch reducers s a = some s') : s'.Recorded := by
  have hsame : ∀ {t : ClientSubscriptions S Op}, t.subs = s.subs → t.listeners = s.listeners →
      t.Recorded := by
    intro t hsubs hlisteners
    exact h.congr (congrArg _ hsubs) (congrArg _ hsubs)
      (fun k l i hl _ => ⟨l, hlisteners ▸ hl, rfl⟩) (fun k l i hl _ => ⟨l, hlisteners ▸ hl, rfl⟩)
  cases step_some hs with
  | @subscribe className actorId accepts pc hpc =>
    have hasked : { s.request (.subscribe className actorId) accepts with
        nextListener := s.nextListener + 1 }.Recorded := hsame rfl rfl
    refine hasked.setListener (fun l₀ i hl₀ => ?_) (fun i => ?_)
    · exact absurd (hk.numbered _ _ hl₀) (Nat.lt_irrefl _)
    · rcases hpc with rfl | rfl <;> simp
  | rejected hl hpc =>
    refine h.setListener (fun l₀ i hl₀ => ?_) (by simp)
    rw [← Option.some.inj (hl.symm.trans hl₀), hpc]
    simp
  | registers hl hpc hflush => exact h.registers hk hl hpc hflush
  | @throws k l id subs hl hpc hflush =>
    obtain ⟨-, -, -, hok, -⟩ := flushBuffered_of_keeps hG hl hpc
    exact absurd hok (by rw [hflush]; simp)
  | unsubscribes hl hpc => exact h.unsubscribes hk hl hpc _
  | @notified expired id n rest hdown =>
    have ha := SubscriptionState.applies applyPatch s.subs expired id n
    exact h.congr ha.subs ha.shape (fun k l i hl _ => ⟨l, hl, rfl⟩) (fun k l i hl _ => ⟨l, hl, rfl⟩)
  | @answered expired id answer rest hdown =>
    have hpopped : { s with server := { s.server with down := rest } }.Recorded := hsame rfl rfl
    exact hpopped.ingest id answer
  | _ => exact hsame rfl rfl

end Recorded


end ClientSubscriptions
