import Actjs.EventSourcing
import Actjs.Opening

/-!
# Events reach subscribers once

A subscriber of an event-sourced actor is sent the state with the seq it is
at, and after each turn the batch of events the turn has appended. `Told` says
what a subscriber has been sent of a log: a state, and every event after it
in order, but for a batch that is on its way.

A batch is in the log once it is appended, in the state once it is folded,
and sent at the end of the commit, after the ack of the inbox. So whoever
attaches between the fold and the end has it in the state it is sent and is
sent it once more, and where the fold throws or the ack fails it is in the log
and is never sent. The theorem is about the runs in which neither happens
under a subscriber.

## How it is proved

The invariant holds subscriber by subscriber. Between two commits its copy is
the state, and the log has nothing it was not sent; in the middle of one it
lacks the batch of the commit, and `Leads` tells on which side of the fold the
state is. The steps of a worker take it from one to the other, and attaching
starts it where the commit happens to be.

That what was sent has no gap and no overlap is then a fact about lists, with
which `Told` is stated: the batches sent, flattened, are the log after the seq
of the state.
-/

open Function (update)

variable {S Env Op : Type}

/-! ## Batches

A batch is what one commit appended. A subscriber is told batch by batch, and
the batches that it was told since its snapshot have to follow each other in
the log. -/

/-- An event of the log, as it was written. -/
def EventRow.write (r : EventRow) : EventWrite := ⟨r.type, r.payload⟩

/-- **The events are logged as the rows**, one for one. -/
def LoggedAs (events : List Json) (rows : List EventRow) : Prop :=
  normalizeEvents events = .ok (rows.map EventRow.write)

theorem normalizeEvents_append {es fs : List Json} {ws vs : List EventWrite}
    (h : normalizeEvents es = .ok ws) (h' : normalizeEvents fs = .ok vs) :
    normalizeEvents (es ++ fs) = .ok (ws ++ vs) := by
  induction es generalizing ws with
  | nil =>
    obtain rfl : [] = ws := Except.ok.inj h
    exact h'
  | cons e es ih =>
    rw [normalizeEvents] at h
    cases hw : normalizeEvent e with
    | error x => rw [hw] at h; exact absurd h (by simp [bind, Except.bind])
    | ok w =>
      cases hws : normalizeEvents es with
      | error x =>
        rw [hw, hws] at h
        exact absurd h (by simp [bind, Except.bind])
      | ok ws' =>
        rw [hw, hws] at h
        obtain rfl : w :: ws' = ws := Except.ok.inj h
        rw [List.cons_append, normalizeEvents, hw, ih hws]
        rfl

namespace LoggedAs

variable {es fs : List Json} {old new : List EventRow}

theorem nil : LoggedAs [] [] := rfl

theorem append (h : LoggedAs es old) (h' : LoggedAs fs new) :
    LoggedAs (es ++ fs) (old ++ new) := by
  unfold LoggedAs
  rw [List.map_append]
  exact normalizeEvents_append h h'

theorem length (h : LoggedAs es old) : old.length = es.length := by
  rw [← normalizeEvents_length h, List.length_map]

end LoggedAs

/-- What an append leaves in the log is what it was given. -/
theorem ActorStore.appendEvents_loggedAs {st st' : ActorStore S}
    {events : List Json} {writes : List EventWrite} {seq : ℤ}
    (hw : normalizeEvents events = .ok writes)
    (h : st.appendEvents writes = some (st', seq)) :
    seq = st'.headEventSeq
      ∧ ∃ new, st'.events = st.events ++ new ∧ LoggedAs events new := by
  unfold ActorStore.appendEvents at h
  split at h
  · cases h
    exact ⟨rfl, [], (List.append_nil _).symm, hw⟩
  · exact absurd h (by simp)
  · cases h
    refine ⟨rfl, _, rfl, ?_⟩
    unfold LoggedAs
    rw [List.map_map, hw]
    congr 1
    exact (List.map_id _).symm

/-- **The notifications of batches** that follow each other from seq `q`. -/
def deliveries : ℤ → List (List Json) → List (Notification S Op)
  | _, [] => []
  | q, b :: bs => .event b (q + b.length) :: deliveries (q + b.length) bs

theorem deliveries_concat (q : ℤ) (bs : List (List Json)) (b : List Json) :
    (deliveries q (bs ++ [b]) : List (Notification S Op))
      = deliveries q bs ++ [.event b (q + bs.flatten.length + b.length)] := by
  induction bs generalizing q with
  | nil =>
    show [Notification.event b (q + b.length)]
      = [.event b (q + (0 : ℕ) + b.length)]
    rw [Int.natCast_zero, add_zero]
  | cons c bs ih =>
    rw [List.cons_append, deliveries, ih, deliveries, List.cons_append,
      List.flatten_cons, List.length_append]
    congr 4
    push_cast
    omega

/-- **What a subscriber has been told** of a log, by the notifications it was
sent: a state and its seq `q`, and since then `batches`, which follow each
other. Together with the batches `pending` they are what is logged after `q`,
event for event. The copy of the subscriber is `x`. -/
structure Told (cls : ActorClass S Env) (log : List EventRow)
    (ns : List (Notification S Op)) (q : ℤ)
    (batches pending : List (List Json)) (x : S) : Prop where
  sent : ∃ x₀, ns = .snapshot (some x₀) q :: deliveries q batches
    ∧ foldEvents cls x₀ batches.flatten = .ok x
  logged : ∃ old new, log = old ++ new ∧ q = (old.length : ℤ)
    ∧ LoggedAs (batches ++ pending).flatten new

namespace Told

variable {cls : ActorClass S Env} {log new : List EventRow}
  {ns : List (Notification S Op)} {q : ℤ} {bs pending : List (List Json)}
  {events : List Json} {x y : S}

/-- A subscriber attaches. -/
theorem attach (h : LoggedAs pending.flatten new) (x : S) :
    Told cls (log ++ new)
      [(.snapshot (some x) log.length : Notification S Op)] log.length []
      pending x where
  sent := ⟨x, rfl, rfl⟩
  logged := ⟨log, new, rfl, rfl, h⟩

/-- A batch is appended. -/
theorem append (h : Told cls log ns q bs [] x) (hn : LoggedAs events new) :
    Told cls (log ++ new) ns q bs [events] x where
  sent := h.sent
  logged := by
    obtain ⟨old, since, hlog, hq, hl⟩ := h.logged
    refine ⟨old, since ++ new, by rw [hlog, List.append_assoc], hq, ?_⟩
    rw [List.append_nil] at hl
    rw [List.flatten_append, List.flatten_singleton]
    exact hl.append hn

/-- The head of the log is where the batches lead. -/
theorem head_eq (h : Told cls log ns q bs pending x) :
    (log.length : ℤ) = q + (bs ++ pending).flatten.length := by
  obtain ⟨old, since, hlog, hq, hl⟩ := h.logged
  rw [hlog, hq, List.length_append, hl.length]
  push_cast
  rfl

/-- The batch is sent. -/
theorem emit (h : Told cls log ns q bs [events] x)
    (hy : foldEvents cls x events = .ok y) :
    Told cls log (ns ++ [.event events log.length]) q (bs ++ [events]) [] y where
  sent := by
    obtain ⟨x₀, hns, hx⟩ := h.sent
    have hseq : q + bs.flatten.length + events.length = log.length := by
      rw [h.head_eq, List.flatten_append, List.flatten_singleton,
        List.length_append]
      push_cast
      omega
    refine ⟨x₀, ?_, ?_⟩
    · rw [hns, deliveries_concat, List.cons_append, hseq]
    · rw [List.flatten_append, List.flatten_singleton, foldEvents_append, hx]
      exact hy
  logged := by
    rw [List.append_nil]
    exact h.logged

end Told

/-! ## The client

The copy a client makes of a snapshot and batches is the fold of the state and
of the events in them. -/

/-- `SubscriptionState.apply`, of a subscription whose reducer is the `reduce`
of the class. Where it throws, the record stays as it is. -/
def SubscriptionRecord.applyReducing (cls : ActorClass S Env)
    (applyOp : S → Op → S) (rec : SubscriptionRecord S)
    (n : Notification S Op) : SubscriptionRecord S :=
  match n with
  | .event events _ =>
    if rec.tombstoned = true then rec
    else
      match rec.state.map (fun x => foldEvents cls x events) with
      | some (.ok y) => { rec with state := some y }
      | _ => rec
  | n => rec.apply applyOp n

/-- A copy that is sent batches folds their events. -/
theorem foldl_deliveries (cls : ActorClass S Env) (applyOp : S → Op → S)
    {bs : List (List Json)} {x y : S} (h : foldEvents cls x bs.flatten = .ok y)
    (q : ℤ) :
    (deliveries q bs).foldl (SubscriptionRecord.applyReducing cls applyOp)
      ⟨some x, false⟩ = ⟨some y, false⟩ := by
  induction bs generalizing x q with
  | nil =>
    obtain rfl : x = y := Except.ok.inj h
    rfl
  | cons b bs ih =>
    rw [List.flatten_cons, foldEvents_append] at h
    cases hb : foldEvents cls x b with
    | error e => rw [hb] at h; exact absurd h (by simp [Except.bind])
    | ok z =>
      rw [hb] at h
      rw [deliveries, List.foldl_cons]
      have hstep : SubscriptionRecord.applyReducing cls applyOp ⟨some x, false⟩
          (.event b (q + b.length)) = ⟨some z, false⟩ := by
        simp only [SubscriptionRecord.applyReducing, Option.map_some, hb,
          Bool.false_eq_true, if_false]
      rw [hstep]
      exact ih h _

/-- **A client that was told everything has the state.** -/
theorem Told.client {cls : ActorClass S Env} {log : List EventRow}
    {ns : List (Notification S Op)} {q : ℤ} {bs : List (List Json)} {x : S}
    (h : Told cls log ns q bs [] x) (applyOp : S → Op → S) :
    ns.foldl (SubscriptionRecord.applyReducing cls applyOp) .new
      = ⟨some x, false⟩ := by
  obtain ⟨x₀, rfl, hx⟩ := h.sent
  exact foldl_deliveries cls applyOp hx _

/-! ## The invariant

Between the append of a batch and the end of its commit each subscriber lacks
exactly this batch; at every other time it lacks nothing. -/

/-- The batch that is in the log and has not been sent. -/
def WorkerPc.batch : WorkerPc S → Option (List Json)
  | appended _ events _ => some events
  | acking _ _ (.es events) => some events
  | _ => none

/-- What that batch makes of the copy `x` of a subscriber while the state is
`y`: once it is folded, the state is ahead. -/
def WorkerPc.Leads (cls : ActorClass S Env) (x y : S) : WorkerPc S → Prop
  | acking _ _ (.es events) => foldEvents cls x events = .ok y
  | _ => x = y

/-- What holds of the log at each await of a worker. -/
def WorkerPc.Delivers (s : Sys S Env Op) : WorkerPc S → Prop
  | running _ rest => rest.Keeps
  | appending _ events writes => normalizeEvents events = .ok writes
  | appended _ events seq => seq = s.store.headEventSeq
    ∧ ∃ old new, s.store.events = old ++ new ∧ LoggedAs events new
  | acking _ _ .swm => False
  | acking _ _ (.es _) => s.AtHead
  | _ => True

/-- The class is event-sourced and writes its state by `reduce` alone,
whichever version of it runs. -/
structure HostConfig.Evented (cfg : HostConfig S Env Op) : Prop where
  ctor : cfg.registration.ctor.Evented
  load : ∀ load name v c, cfg.loader = some load → load name v = .ok c →
    c.Evented

/-- What is known of a subscriber, besides: of the seq it attached at, and of
the batches that are logged since. -/
abbrev Mark := ℕ → ℤ → List (List Json) → Prop

/-- It goes on being so when more is logged. -/
def Mark.Stable (P : Mark) : Prop :=
  ∀ l q bs b, P l q bs → P l q (bs ++ [b])

/-- **Subscriber `l` has been told everything** but `pending`; its copy is
`x`. -/
def Sys.Tells (P : Mark) (s : Sys S Env Op) (l : ℕ)
    (pending : List (List Json)) (x : S) : Prop :=
  ∃ q bs, Told s.host.cls s.store.events (s.hist.notifs l) q bs pending x
    ∧ P l q (bs ++ pending)

theorem Sys.Tells.congr {P : Mark} {s s' : Sys S Env Op} {l : ℕ}
    {pending : List (List Json)} {x : S} (h : s.Tells P l pending x)
    (hcls : s'.host.cls = s.host.cls) (he : s'.store.events = s.store.events)
    (hnot : s'.hist.notifs l = s.hist.notifs l) : s'.Tells P l pending x := by
  unfold Sys.Tells
  rw [hcls, he, hnot]
  exact h

/-- **Every subscriber has been told everything**, but for the batch of the
commit in progress.

The copies are related to the log and not to each other: what `Told` says of a
subscriber depends on the seq it attached at and on nothing that others were
told. `Mark` lets the statement be reused for streams that begin with a
replay. -/
structure Delivering (P : Mark) (s : Sys S Env Op) : Prop where
  cls : s.host.cls.Evented
  resolved : ∀ snap r, s.host.activating = some (.loadFence snap r) →
    r.ctor.Evented
  ending : ∀ d, s.host.deactivating = some d → d.pc.Keeps
  working : ∀ g, (s.host.workers g).Delivers s
  /-- In the commit of a batch, everything but the batch. -/
  mid : ∀ g events, (s.host.workers g).batch = some events →
    ∀ l ∈ s.host.commitListeners, ∃ x, s.Tells P l [events] x
      ∧ (s.host.workers g).Leads s.host.cls x s.host.state
  /-- Between two commits, everything, so that the copy is the state. -/
  rest : (∀ g, (s.host.workers g).batch = none) →
    ∀ l ∈ s.host.commitListeners, s.Tells P l [] s.host.state

/-- A worker whose batch is on its way is alive. -/
theorem WorkerPc.alive_of_batch {pc : WorkerPc S} {events : List Json}
    (h : pc.batch = some events) : pc.stage.alive = true := by
  revert h
  cases pc <;> simp [WorkerPc.batch, WorkerPc.stage, WorkerStage.alive]

/-- Only the worker that is alive can have a batch on its way. -/
theorem Lifecycle.no_batch {s : Sys S Env Op} (hl : Lifecycle s.flow.toLife)
    {g : ℕ} (hg : (s.host.workers g).stage.alive = true)
    (hb : (s.host.workers g).batch = none) (g' : ℕ) :
    (s.host.workers g').batch = none := by
  by_cases hne : g' = g
  · rw [hne]
    exact hb
  · rw [Option.eq_none_iff_forall_ne_some]
    intro events he
    exact hne (hl.only hg (WorkerPc.alive_of_batch he))

/-- `resolveCtor` decides for a class that is event-sourced. -/
theorem HostConfig.Evented.resolveCtor {cfg : HostConfig S Env Op}
    (h : cfg.Evented) {persisted : Option Version} {ok : Bool}
    {r : Resolved S Env} (hr : cfg.resolveCtor persisted ok = .ok r) :
    r.ctor.Evented := by
  rcases HostConfig.resolveCtor_ctor hr with hc | ⟨load, v, hload, hc⟩
  · rw [hc]
    exact h.ctor
  · exact h.load load _ v _ hload hc

namespace Delivering

variable {P : Mark} {cfg : HostConfig S Env Op} {s s' : Sys S Env Op} {g : ℕ}

/-- What is known besides may be something else of those attached. -/
theorem remark {P Q : Mark} (h : Delivering P s)
    (hQ : ∀ l ∈ s.host.commitListeners, ∀ q bs, P l q bs → Q l q bs) :
    Delivering Q s := by
  have htells : ∀ l ∈ s.host.commitListeners, ∀ pending x,
      s.Tells P l pending x → s.Tells Q l pending x := by
    rintro l hm pending x ⟨q, bs, htold, hmark⟩
    exact ⟨q, bs, htold, hQ l hm q _ hmark⟩
  refine ⟨h.cls, h.resolved, h.ending, h.working, fun g events hb l hm => ?_,
    fun hall l hm => htells l hm _ _ (h.rest hall l hm)⟩
  obtain ⟨x, hx, hleads⟩ := h.mid g events hb l hm
  exact ⟨x, htells l hm _ _ hx, hleads⟩

/-- What holds at an await of a worker depends on the log and its head. -/
theorem delivers_congr {pc : WorkerPc S}
    (he : s'.store.events = s.store.events)
    (hq : s'.host.currentSeq = s.host.currentSeq) (h : pc.Delivers s) :
    pc.Delivers s' := by
  have hhead : s'.store.headEventSeq = s.store.headEventSeq := by
    unfold ActorStore.headEventSeq
    rw [he]
  revert h
  unfold WorkerPc.Delivers Sys.AtHead
  rw [he, hhead, hq]
  exact id

/-- A step that leaves alone the state, the log, the workers and what was
sent, and attaches nobody. -/
theorem aside (h : Delivering P s) (hcls : s'.host.cls = s.host.cls)
    (hstate : s'.host.state = s.host.state)
    (hq : s'.host.currentSeq = s.host.currentSeq)
    (he : s'.store.events = s.store.events)
    (hlis : s'.host.commitListeners ⊆ s.host.commitListeners)
    (hnot : s'.hist.notifs = s.hist.notifs)
    (hw : s'.host.workers = s.host.workers)
    (hdeact : ∀ d, s'.host.deactivating = some d → d.pc.Keeps)
    (hact : ∀ snap r, s'.host.activating = some (.loadFence snap r) →
      r.ctor.Evented) : Delivering P s' := by
  refine ⟨by rw [hcls]; exact h.cls, hact, hdeact, fun g => ?_,
    fun g events hb l hm => ?_, fun hall l hm => ?_⟩
  · rw [hw]
    exact delivers_congr he hq (h.working g)
  · rw [hw] at hb ⊢
    rw [hcls, hstate]
    obtain ⟨x, htells, hx⟩ := h.mid g events hb l (hlis hm)
    exact ⟨x, htells.congr hcls he (by rw [hnot]), hx⟩
  · rw [hw] at hall
    rw [hstate]
    exact (h.rest hall l (hlis hm)).congr hcls he (by rw [hnot])

/-- **Worker `g` moves** to `pc`. -/
theorem moved (h : Delivering P s) (hl : Lifecycle s.flow.toLife)
    (hg : (s.host.workers g).stage.alive = true) {p : WorkerPc S}
    (hw : s'.host.workers = update s.host.workers g p)
    (hcls : s'.host.cls = s.host.cls)
    (hact : s'.host.activating = s.host.activating)
    (hdeact : s'.host.deactivating = s.host.deactivating)
    (hpc : p.Delivers s')
    (hmid : ∀ events, p.batch = some events →
      ∀ l ∈ s'.host.commitListeners, ∃ x, s'.Tells P l [events] x
        ∧ p.Leads s'.host.cls x s'.host.state)
    (hrest : p.batch = none → ∀ l ∈ s'.host.commitListeners,
      s'.Tells P l [] s'.host.state) :
    Delivering P s' := by
  have hself : s'.host.workers g = p := by rw [hw, Function.update_self]
  have hother : ∀ g', g' ≠ g →
      (s'.host.workers g').stage.alive = false := by
    intro g' hne
    rw [hw, Function.update_of_ne hne]
    by_contra hlive
    exact hne (hl.only hg (by simpa using hlive))
  refine ⟨by rw [hcls]; exact h.cls, by rw [hact]; exact h.resolved,
    by rw [hdeact]; exact h.ending, fun g' => ?_, fun g' events hb => ?_,
    fun hall => ?_⟩
  · by_cases hne : g' = g
    · rw [hne, hself]
      exact hpc
    · have hdead := hother g' hne
      revert hdead
      cases s'.host.workers g' <;>
        simp [WorkerPc.stage, WorkerStage.alive, WorkerPc.Delivers]
  · by_cases hne : g' = g
    · rw [hne, hself] at hb ⊢
      exact hmid events hb
    · exact absurd (WorkerPc.alive_of_batch hb) (by rw [hother g' hne]; simp)
  · have hb := hall g
    rw [hself] at hb
    exact hrest hb

/-- **Between two commits** every subscriber has been told everything. -/
theorem told (h : Delivering P s) (hl : Lifecycle s.flow.toLife)
    (hg : (s.host.workers g).stage.alive = true)
    (hb : (s.host.workers g).batch = none) :
    ∀ l ∈ s.host.commitListeners, s.Tells P l [] s.host.state :=
  h.rest (hl.no_batch hg hb)

end Delivering

/-! ## The condition

A subscriber does not attach between the fold and the emit, and under a
subscriber no fold throws and no ack fails. -/

namespace Sys

/-- The batch that is in the log and has not been sent, if there is one. -/
def inFlight (s : Sys S Env Op) : List (List Json) :=
  match s.host.workerPromise with
  | none => []
  | some g => (s.host.workers g).batch.toList

/-- A subscriber may attach: the host is activated, and every event of the
log is in the state, or will be once the batch appended is folded, and no
batch that is folded is still to be sent. -/
def attachableEs (s : Sys S Env Op) : Bool :=
  s.host.activated && s.host.inst.isSome
    && match s.host.workerPromise.map s.host.workers with
      | some (.acking _ _ (.es _)) => false
      | some (.appended _ events _) =>
        s.host.currentSeq + events.length == s.store.headEventSeq
      | _ => s.host.currentSeq == s.store.headEventSeq

/-- **When events are delivered**: a batch is folded and its ack succeeds,
while someone is attached; a subscriber attaches to an activated host whose
state is at the head of the log, and not between a fold and the end of its
commit; and no activation installs a state under one. -/
def delivers (s : Sys S Env Op) : Act Env → Bool
  | .worker g _ ok =>
    s.host.commitListeners.isEmpty
      || match s.host.workers g with
        | .appended _ events _ =>
          (foldEvents s.host.cls s.host.state events).isOk
        | .acking _ _ (.es _) => ok
        | _ => true
  | .subscribe _ => s.attachableEs
  | .activation _ _ =>
    s.host.commitListeners.isEmpty
      || s.host.activating.all (fun pc => !pc.installs)
  | _ => true

end Sys

/-! ## The steps of a worker -/

namespace Delivering

variable {P : Mark} {cfg : HostConfig S Env Op} {s s' : Sys S Env Op} {g : ℕ} {env : Env}

/-- A step of worker `g` that sends nothing, from and to where no batch is on
its way. -/
theorem quiet (h : Delivering P s) (hl : Lifecycle s.flow.toLife)
    (hg : (s.host.workers g).stage.alive = true)
    (hb : (s.host.workers g).batch = none) {pc : WorkerPc S}
    (hw : s'.host.workers = update s.host.workers g pc)
    (hcls : s'.host.cls = s.host.cls)
    (hact : s'.host.activating = s.host.activating)
    (hdeact : s'.host.deactivating = s.host.deactivating)
    (hstate : s'.host.state = s.host.state)
    (hlis : s'.host.commitListeners = s.host.commitListeners)
    (hnot : s'.hist.notifs = s.hist.notifs)
    (hev : s'.store.events = s.store.events) (hb' : pc.batch = none)
    (hpc : pc.Delivers s') : Delivering P s' := by
  refine h.moved hl hg hw hcls hact hdeact hpc
    (fun events he => absurd (hb'.symm.trans he) (by simp)) (fun _ l hm => ?_)
  rw [hstate]
  exact (h.told hl hg hb l (hlis ▸ hm)).congr hcls hev (by rw [hnot])

/-- The handler runs up to its next await. -/
theorem of_runHandler (h : Delivering P s) (hl : Lifecycle s.flow.toLife)
    (hg : (s.host.workers g).stage.alive = true)
    (hb : (s.host.workers g).batch = none) {item : Item} {p : Script S Json}
    (hp : p.Keeps) {t : Sys S Env Op} (ht : t = s.runHandler g item p) :
    Delivering P t := by
  subst ht
  refine h.quiet hl hg hb rfl rfl rfl rfl ?_ rfl rfl rfl ?_ ?_
  · show (s.runSegment p).host.objs.read = s.host.objs.read
    rw [hp.objs s]
  · unfold WorkerPc.after
    cases p <;> rfl
  · unfold WorkerPc.after
    cases p with
    | await c rest => exact hp.2
    | ret c r => trivial
    | throw c e => trivial

/-- **The batch is sent**: from `t`, in which it is folded, worker `g` goes to
the end of the commit. -/
theorem of_commitEsTail {t : Sys S Env Op} (h : Delivering P s)
    (hl : Lifecycle s.flow.toLife)
    (hg : (s.host.workers g).stage.alive = true)
    (hw : t.host.workers = s.host.workers) (hcls : t.host.cls = s.host.cls)
    (hact : t.host.activating = s.host.activating)
    (hdeact : t.host.deactivating = s.host.deactivating) {events : List Json}
    (hhead : t.AtHead)
    (hmid : ∀ l ∈ t.host.commitListeners, ∃ x, t.Tells P l [events] x
      ∧ foldEvents t.host.cls x events = .ok t.host.state) (item : Item) :
    Delivering P (t.commitEsTail cfg g item events) := by
  have hsent : ∀ l ∈ t.host.commitListeners,
      (t.emit [.event events t.host.currentSeq]).Tells P l [] t.host.state := by
    intro l hm
    obtain ⟨x, ⟨q, bs, htold, hmark⟩, hfold⟩ := hmid l hm
    refine ⟨q, bs ++ [events], ?_, by rw [List.append_nil]; exact hmark⟩
    show Told _ _ (if l ∈ t.host.commitListeners then
      t.hist.notifs l ++ _ else t.hist.notifs l) _ _ _ _
    rw [if_pos hm, show t.host.currentSeq = _ from hhead]
    exact htold.emit hfold
  unfold Sys.commitEsTail
  dsimp only
  split
  · refine h.moved (p := .flushing item _) hl hg (by rw [← hw]; rfl) hcls hact
      hdeact trivial (fun _ he => absurd he (by simp [WorkerPc.batch]))
      (fun _ l hm => ?_)
    have hstate : (t.emit [.event events t.host.currentSeq]).host.flushSnapshot.state
        = t.host.state := Host.state_flushSnapshot _
    have htells := hsent l hm
    rw [← hstate] at htells
    exact htells
  · exact h.moved (p := .committed item) hl hg (by rw [← hw]; rfl) hcls hact
      hdeact trivial (fun _ he => absurd he (by simp [WorkerPc.batch]))
      (fun _ l hm => hsent l hm)

/-- **A batch is folded.** What is then sent, or sent after the ack, leads from the
state that was sent to the state there is. -/
theorem folds (h : Delivering P s) {item : Item} {events : List Json} {seq : ℤ} {y : S}
    (hpc : s.host.workers g = .appended item events seq)
    (hy : foldEvents s.host.cls s.host.state events = .ok y) (l : ℕ)
    (hm : l ∈ s.host.commitListeners) : ∃ x, s.Tells P l [events] x
      ∧ foldEvents s.host.cls x events = .ok (Sys.foldedHost s.host events seq y).state := by
  obtain ⟨x, htold, hx⟩ := h.mid g events (by rw [hpc]; rfl) l hm
  rw [hpc] at hx
  obtain rfl : x = s.host.state := hx
  have hread : (Sys.foldedHost s.host events seq y).state = y := Objects.read_assign _ _
  exact ⟨s.host.state, htold, hread.symm ▸ hy⟩

/-- **A segment of a worker.** -/
theorem of_workerStep {ok : Bool} (h : Delivering P s) (hP : P.Stable)
    (hl : Lifecycle s.flow.toLife)
    (hG : s.delivers (.worker g env ok) = true)
    (hs : s.workerStep cfg g env ok = some s') : Delivering P s' := by
  obtain ⟨pc, hpc, hseg⟩ := Sys.workerSegment hs
  have hg := Sys.alive_of_workerStep hs
  have hes : s.host.cls.isEs = true := h.cls.isEs
  have hdel : pc.Delivers s := hpc ▸ h.working g
  cases hseg with
  | dequeue =>
    refine h.quiet hl hg (by rw [hpc]; rfl) rfl rfl rfl rfl rfl rfl rfl rfl ?_ ?_ <;>
      cases (s.host.mailbox.dequeue g).result <;> trivial
  | exit | finish | refuse | ignore | resolveEmpty | ackEmpty | emptyAcked | flushed =>
    exact h.quiet hl hg (by rw [hpc]; rfl) rfl rfl rfl rfl rfl rfl rfl rfl rfl trivial
  | append _ hw =>
    exact h.quiet hl hg (by rw [hpc]; rfl) rfl rfl rfl rfl rfl rfl rfl rfl rfl hw
  | resolveSwm hn | ackSwm hn => exact absurd (hes.symm.trans hn) (by simp)
  | swmAcked => exact hdel.elim
  | ignored =>
    refine h.quiet hl hg (by rw [hpc]; rfl) rfl rfl rfl rfl rfl rfl rfl ?_ rfl trivial
    cases ok <;> rfl
  | @start item handler hh =>
    have h₁ : Delivering P (s.starting item) :=
      h.aside rfl rfl rfl rfl (List.Subset.refl _) rfl rfl h.ending h.resolved
    have hb : ((s.starting item).host.workers g).batch = none :=
      (congrArg WorkerPc.batch hpc).trans rfl
    exact h₁.of_runHandler (g := g) hl hg hb
      (h.cls.handlers _ handler hh env s.host.state item.input) rfl
  | run => exact h.of_runHandler hl hg (by rw [hpc]; rfl) hdel rfl
  | @failed _ item e hf =>
    by_cases hb : pc.batch = none
    · exact h.quiet hl hg (hpc ▸ hb) rfl rfl rfl rfl rfl rfl rfl rfl rfl trivial
    refine h.moved hl hg rfl rfl rfl rfl trivial
      (fun _ he => absurd he (by simp [WorkerPc.batch])) (fun _ l hm => ?_)
    -- while someone is attached, a batch is folded and its ack succeeds
    rw [Sys.delivers, hpc, Bool.or_eq_true, List.isEmpty_iff] at hG
    have hG := hG.resolve_left (List.ne_nil_of_mem hm)
    cases pc with
    | appended item' events seq => exact absurd (hf.2.symm.trans hG) (by simp)
    | acking item' id after =>
      cases after with
      | es events => exact absurd (hf.2.symm.trans hG) (by simp)
      | swm | esEmpty => exact absurd rfl hb
    | _ => exact absurd rfl hb
  | @appended item events writes store seq hok ha =>
    obtain ⟨hseq, new, hnew, hlogged⟩ := ActorStore.appendEvents_loggedAs hdel ha
    refine h.moved (p := .appended item events seq) hl hg rfl rfl rfl rfl
      ⟨hseq, _, new, hnew, hlogged⟩ (fun events' he l hm => ?_)
      (fun hb' => absurd hb' (by simp [WorkerPc.batch]))
    obtain rfl : events = events' := Option.some.inj he
    obtain ⟨q, bs, htold, hmark⟩ := h.told hl hg (by rw [hpc]; rfl) l hm
    rw [List.append_nil] at hmark
    refine ⟨s.host.state, ⟨q, bs, ?_, hP l q bs events hmark⟩, rfl⟩
    show Told s.host.cls store.events (s.hist.notifs l) q bs [events] s.host.state
    rw [hnew]
    exact htold.append hlogged
  | @resolveEs method args c events seq y hy =>
    exact of_commitEsTail (t := (s.afterFold events seq y).resolveCall
      (.call method args c) c (.arr events)) h hl hg rfl rfl rfl rfl hdel.1
      (h.folds hpc hy) _
  | @ackEs type payload id events seq y hy =>
    refine h.moved (p := .acking _ id (.es events)) hl hg rfl rfl rfl rfl hdel.1
      (fun events' he l hm => ?_) (fun hb => absurd hb (by simp [WorkerPc.batch]))
    obtain rfl : events = events' := Option.some.inj he
    exact h.folds hpc hy l hm
  | @esAcked item id events =>
    have hmid := h.mid g events (by rw [hpc]; rfl)
    rw [hpc] at hmid
    exact of_commitEsTail (t := s.afterAck id) h hl hg rfl rfl rfl rfl hdel hmid item

end Delivering

/-! ## The other steps -/

namespace Delivering

variable {P : Mark} {cfg : HostConfig S Env Op} {s s' : Sys S Env Op} {env : Env}

/-- A step beside the state. -/
theorem of_beside (h : Delivering P s) (hb : Beside s s') : Delivering P s' := by
  have hstate : s'.host.state = s.host.state := by
    unfold Host.state
    rw [hb.objs]
  have hbatch : ∀ g, (s'.host.workers g).batch = (s.host.workers g).batch := by
    intro g
    rcases hb.workers g with he | ⟨hw, ⟨item, he⟩ | he⟩
    · rw [he]
    · rw [he, hw]
      rfl
    · rw [he, hw]
      rfl
  refine ⟨by rw [hb.cls]; exact h.cls, fun snap r hr => ?_, fun d hd => ?_,
    fun g => ?_, fun g events he => ?_, fun hall => ?_⟩
  · exact h.resolved snap r (hb.activating_eq hr rfl)
  · rcases hb.deactivating with he | ⟨-, g, idle, he⟩
    · exact h.ending d (he ▸ hd)
    · obtain rfl := Option.some.inj (he.symm.trans hd)
      trivial
  · rcases hb.workers g with he | ⟨-, ⟨item, he⟩ | he⟩
    · rw [he]
      exact delivers_congr hb.events hb.currentSeq (h.working g)
    · rw [he]
      trivial
    · rw [he]
      trivial
  · have he' := he
    rw [hbatch] at he'
    rw [hb.commitListeners, hb.cls, hstate,
      hb.workers_eq (by intro hw; rw [hw] at he'; exact absurd he' (by simp [WorkerPc.batch]))]
    intro l hm
    obtain ⟨x, htells, hx⟩ := h.mid g events he' l hm
    exact ⟨x, htells.congr hb.cls hb.events (by rw [hb.notifs]), hx⟩
  · rw [hb.commitListeners, hstate]
    exact fun l hm => (h.rest (fun g => by rw [← hbatch]; exact hall g) l hm).congr
      hb.cls hb.events (by rw [hb.notifs])

/-- Before the host is activated, nobody is attached or the state is left
alone. -/
theorem early (h : Delivering P s) (hl : Lifecycle s.flow.toLife)
    (hcfg : cfg.Evented) (ha : s.host.activated = false)
    {pc : ActPc S Env} (hpc : s.host.activating = some pc)
    (hG : s.host.commitListeners = [] ∨ pc.installs = false)
    (ho : Opens cfg s s') : Delivering P s' := by
  have hdead : ∀ g, (s'.host.workers g).stage.alive = false
      ∨ (s'.host.workers g).idle = true := by
    intro g
    rcases ho.workers g with he | he
    · rw [he]
      exact .inl (hl.not_alive ha g)
    · exact .inr he
  have hnone : ∀ g, (s.host.workers g).batch = none := by
    intro g
    rw [Option.eq_none_iff_forall_ne_some]
    intro events he
    exact absurd (WorkerPc.alive_of_batch he)
      (by rw [show (s.host.workers g).stage.alive = false from hl.not_alive ha g]; simp)
  refine ⟨?_, fun snap r hr => ?_, by rw [ho.deactivating]; exact h.ending,
    fun g => ?_, fun g events he => ?_, fun _ l hm => ?_⟩
  · rcases ho.cls with he | ⟨snap, r, hr, he⟩
    · rw [he]
      exact h.cls
    · rw [he]
      exact h.resolved snap r hr
  · rcases ho.resolved snap r hr with hr | ⟨persisted, ok, hr⟩
    · exact h.resolved snap r hr
    · exact hcfg.resolveCtor hr
  · have hg := hdead g
    revert hg
    cases s'.host.workers g <;>
      simp [WorkerPc.stage, WorkerStage.alive, WorkerPc.idle,
        WorkerPc.Delivers]
  · have hg := hdead g
    revert hg he
    cases s'.host.workers g <;>
      simp [WorkerPc.stage, WorkerStage.alive, WorkerPc.idle, WorkerPc.batch]
  · rw [ho.commitListeners] at hm
    have hi := hG.resolve_left (List.ne_nil_of_mem hm)
    have hcls : s'.host.cls = s.host.cls := by
      rcases ho.cls with he | ⟨snap, r, hr, -⟩
      · exact he
      · obtain rfl := Option.some.inj (hpc.symm.trans hr)
        exact absurd hi (by simp [ActPc.installs])
    have hstate : s'.host.state = s.host.state := by
      unfold Host.state
      rw [ho.objs pc hpc hi]
    rw [hstate]
    exact (h.rest hnone l hm).congr hcls ho.events (by rw [ho.notifs])

/-- **A segment of an activation.** -/
theorem of_actStep {ok : Bool} (h : Delivering P s)
    (hl : Lifecycle s.flow.toLife) (hcfg : cfg.Evented)
    (hG : s.delivers (.activation env ok) = true)
    (hs : s.actStep cfg env ok = some s') : Delivering P s' := by
  rcases Sys.beside_or_opens hl hs with hb | ⟨ha, pc, hpc, -⟩
  · exact h.of_beside hb
  · refine h.early hl hcfg ha hpc ?_ (Sys.opens_actStep hs)
    rw [Sys.delivers, hpc, Bool.or_eq_true, List.isEmpty_iff] at hG
    exact hG.imp_right (by simp)

/-- The deactivation moves on, and the state stays as it is. -/
theorem ended (h : Delivering P s) (hcls : s'.host.cls = s.host.cls)
    (hstate : s'.host.state = s.host.state)
    (hq : s'.host.currentSeq = s.host.currentSeq)
    (he : s'.store.events = s.store.events)
    (hlis : s'.host.commitListeners = s.host.commitListeners)
    (hnot : s'.hist.notifs = s.hist.notifs)
    (hw : s'.host.workers = s.host.workers)
    (hact : s'.host.activating = s.host.activating) {d : Deactivation S}
    (hd : s'.host.deactivating = some d) (hk : d.pc.Keeps) : Delivering P s' := by
  refine h.aside hcls hstate hq he (by rw [hlis]; exact List.Subset.refl _) hnot hw
    (fun d' hd' => ?_) (by rw [hact]; exact h.resolved)
  obtain rfl := Option.some.inj (hd.symm.trans hd')
  exact hk

theorem of_beginOnDeactivate (h : Delivering P s) (idle : Bool) :
    Delivering P (s.beginOnDeactivate env idle) := by
  unfold Sys.beginOnDeactivate
  split
  · next i f hi hf =>
    have hp : (f env s.host.state).Keeps := h.cls.onDeactivate f hf _ _
    refine h.ended rfl ?_ rfl rfl rfl rfl rfl rfl rfl hp.hook
    show (s.runSegment _).host.objs.read = s.host.objs.read
    rw [hp.objs s]
  · exact h.ended rfl rfl rfl rfl rfl rfl rfl rfl rfl trivial

/-- **A segment of a deactivation.** -/
theorem of_deactStep (h : Delivering P s) (hs : s.deactStep env = some s') :
    Delivering P s' := by
  obtain ⟨pc, idle, hd, hseg⟩ := Sys.deactSegment hs
  have hk := h.ending _ hd
  cases hseg with
  | flush =>
    exact h.ended rfl (Host.state_flushSnapshot _) rfl rfl rfl rfl rfl rfl rfl trivial
  | unflushed =>
    have h₁ : Delivering P { s with host := { s.host with snapshotTimer := false } } :=
      h.aside rfl rfl rfl rfl (List.Subset.refl _) rfl rfl h.ending h.resolved
    exact h₁.of_beginOnDeactivate idle
  | flushed =>
    have h₁ : Delivering P s.afterFlush :=
      h.aside rfl rfl rfl rfl (List.Subset.refl _) rfl rfl h.ending h.resolved
    exact h₁.of_beginOnDeactivate idle
  | flushFailed | threw | dropped =>
    exact h.ended rfl rfl rfl rfl rfl rfl rfl rfl rfl trivial
  | @onDeactivate rest =>
    refine h.ended rfl ?_ rfl rfl rfl rfl rfl rfl rfl (Script.Keeps.hook hk)
    show (s.runSegment rest).host.objs.read = s.host.objs.read
    rw [Script.Keeps.objs hk s]
  | settled =>
    exact h.aside rfl rfl rfl rfl (List.Subset.refl _) rfl rfl
      (fun d hd => absurd hd (by simp)) h.resolved

/-- **A subscriber attaches** where the log is in the state, or will be once
the batch that is appended is folded. -/
theorem of_subscribe {l : ℕ} (h : Delivering P s) (hl : Lifecycle s.flow.toLife)
    (hG : s.attachableEs = true) (hmark : P l s.host.currentSeq s.inFlight)
    (hs : s.subscribe l = some s') : Delivering P s' := by
  unfold Sys.subscribe at hs
  split at hs
  · exact absurd hs (by simp)
  next hnew =>
  obtain rfl := Option.some.inj hs
  rw [Sys.attachableEs, Bool.and_eq_true, Bool.and_eq_true] at hG
  obtain ⟨⟨ha, hi⟩, hG⟩ := hG
  obtain ⟨i, hi⟩ := Option.isSome_iff_exists.mp hi
  -- of the log, what is before the batch in flight is in the state it is sent
  have hattach : ∀ old new : List EventRow,
      s.store.events = old ++ new → LoggedAs s.inFlight.flatten new →
      s.host.currentSeq = old.length →
      Sys.Tells P { s with
        hist :=
          { s.hist with
            notifs := update s.hist.notifs l
              [(.snapshot (s.host.inst.map (fun _ => s.host.state))
                s.host.currentSeq : Notification S Op)] } } l s.inFlight
          s.host.state := by
    intro old new hlog hlogged hq
    refine ⟨s.host.currentSeq, [], ?_, hmark⟩
    show Told s.host.cls s.store.events (update s.hist.notifs l _ l) _ _ _ _
    rw [Function.update_self, hi, hq, hlog]
    exact Told.attach hlogged _
  have hold : ∀ l' ∈ s.host.commitListeners,
      update s.hist.notifs l
        [(.snapshot (s.host.inst.map (fun _ => s.host.state))
          s.host.currentSeq : Notification S Op)] l' = s.hist.notifs l' := by
    intro l' hm
    refine Function.update_of_ne ?_ _ _
    rintro rfl
    exact hnew hm
  refine ⟨h.cls, h.resolved, h.ending,
    fun g => delivers_congr (s := s) rfl rfl (h.working g),
    fun g events hb l' hm => ?_, fun hall l' hm => ?_⟩
  · have hp : s.host.workerPromise = some g :=
      (hl.alive g (WorkerPc.alive_of_batch hb)).2
    rcases List.mem_append.mp hm with hm | hm
    · obtain ⟨x, htells, hx⟩ := h.mid g events hb l' hm
      exact ⟨x, htells.congr rfl rfl (hold l' hm), hx⟩
    · obtain rfl := List.mem_singleton.mp hm
      have hdel := h.working g
      have hfly : s.inFlight = [events] := by
        rw [Sys.inFlight, hp]
        show (s.host.workers g).batch.toList = [events]
        rw [show (s.host.workers g).batch = some events from hb]
        rfl
      rw [hp, Option.map_some] at hG
      cases hpc : s.host.workers g with
      | appended item batch seq =>
        rw [hpc] at hb hdel hG
        obtain rfl : batch = events := Option.some.inj hb
        obtain ⟨-, old, new, hlog, hlogged⟩ := hdel
        have hflat : s.inFlight.flatten = batch := by
          rw [hfly, List.flatten_singleton]
        have htells := hattach old new hlog (by rw [hflat]; exact hlogged) (by
          have hq := eq_of_beq hG
          have hlen := hlogged.length
          rw [ActorStore.headEventSeq, hlog, List.length_append] at hq
          omega)
        rw [hfly] at htells
        exact ⟨s.host.state, htells, rfl⟩
      | acking item id after =>
        rw [hpc] at hb hG
        cases after with
        | es batch => exact absurd hG (by simp)
        | swm => exact absurd hb (by simp [WorkerPc.batch])
        | esEmpty => exact absurd hb (by simp [WorkerPc.batch])
      | _ => rw [hpc] at hb; exact absurd hb (by simp [WorkerPc.batch])
  · rcases List.mem_append.mp hm with hm | hm
    · exact (h.rest hall l' hm).congr rfl rfl (hold l' hm)
    · obtain rfl := List.mem_singleton.mp hm
      have hfly : s.inFlight = [] := by
        rw [Sys.inFlight]
        cases s.host.workerPromise with
        | none => rfl
        | some g =>
          show (s.host.workers g).batch.toList = []
          rw [show (s.host.workers g).batch = none from hall g]
          rfl
      have htells := hattach s.store.events [] (List.append_nil _).symm
        (by rw [hfly]; exact .nil) (by
          cases hp : s.host.workerPromise with
          | none =>
            rw [hp] at hG
            exact eq_of_beq hG
          | some g =>
            have hb : (s.host.workers g).batch = none := hall g
            rw [hp, Option.map_some] at hG
            split at hG
            · exact absurd hG (by simp)
            · next hpc =>
              rw [Option.some.inj hpc] at hb
              exact absurd hb (by simp [WorkerPc.batch])
            · exact eq_of_beq hG)
      rw [hfly] at htells
      exact htells

/-- **One step of a host**, under its condition. -/
theorem step {a : Act Env} (h : Delivering P s) (hP : P.Stable)
    (hl : Lifecycle s.flow.toLife) (hcfg : cfg.Evented)
    (hG : s.delivers a = true)
    (hmark : ∀ l, a = .subscribe l → P l s.host.currentSeq s.inFlight)
    (hs : s.step cfg a = some s') : Delivering P s' := by
  cases a with
  | activation env ok => exact h.of_actStep hl hcfg hG hs
  | worker g env ok => exact h.of_workerStep hP hl hG hs
  | deactivation env => exact h.of_deactStep hs
  | snapshotFire =>
    rw [Sys.step] at hs
    unfold Sys.snapshotFire at hs
    split at hs
    · dsimp only at hs
      split at hs <;> obtain rfl := Option.some.inj hs
      · exact h.aside rfl (Host.state_flushSnapshot _) rfl rfl
          (List.Subset.refl _) rfl rfl h.ending h.resolved
      · exact h.aside rfl rfl rfl rfl (List.Subset.refl _) rfl rfl h.ending
          h.resolved
    · exact absurd hs (by simp)
  | save k ok =>
    rw [Sys.step] at hs
    unfold Sys.saveStep at hs
    split at hs
    · split at hs <;> obtain rfl := Option.some.inj hs <;>
        exact h.aside rfl rfl rfl rfl (List.Subset.refl _) rfl rfl h.ending
          h.resolved
    · split at hs <;> obtain rfl := Option.some.inj hs <;>
        exact h.aside rfl rfl rfl rfl (List.Subset.refl _) rfl rfl h.ending
          h.resolved
    · exact absurd hs (by simp)
  | subscribe l => exact h.of_subscribe hl hG (hmark l rfl) hs
  | unsubscribe l =>
    obtain rfl := Option.some.inj hs
    exact h.aside rfl rfl rfl rfl (List.filter_subset_self _) rfl rfl h.ending
      h.resolved
  | notifyTombstone =>
    obtain rfl := Option.some.inj hs
    exact ⟨h.cls, h.resolved, h.ending,
      fun g => delivers_congr (s := s) rfl rfl (h.working g),
      fun _ _ _ l hm => absurd hm List.not_mem_nil,
      fun _ l hm => absurd hm List.not_mem_nil⟩
  | _ => exact h.of_beside (Sys.beside_step hl rfl hs)

end Delivering

/-! ## Runs -/

/-- **A subscriber was sent everything once**, as far as the log goes: the
state, and since then every event of the log in order and in batches that
follow each other up to its head, so that its client has the state. -/
structure DeliveredOnce (applyOp : S → Op → S) (s : Sys S Env Op) (l : ℕ) :
    Prop where
  told : ∃ q batches, Told s.host.cls s.store.events (s.hist.notifs l) q batches
    [] s.host.state
  client : (s.hist.notifs l).foldl
      (SubscriptionRecord.applyReducing s.host.cls applyOp) .new
    = ⟨some s.host.state, false⟩

/-- Nobody is attached to a host that was just constructed. -/
theorem Delivering.init {cfg : HostConfig S Env Op} (hcfg : cfg.Evented)
    (P : Mark) (store : ActorStore S) : Delivering P (Sys.init cfg store) where
  cls := hcfg.ctor
  resolved snap r hr := absurd hr (by simp [Sys.init, Host.init])
  ending d hd := absurd hd (by simp [Sys.init, Host.init])
  working g := trivial
  mid g events hb := absurd hb (by simp [Sys.init, Host.init, WorkerPc.batch])
  rest _ l hm := absurd hm List.not_mem_nil

/-- **Events are delivered once**, in every state reached by a run under the
condition in which no commit is between its append and its end. -/
theorem events_delivered_once (cfg : HostConfig S Env Op) (hcfg : cfg.Evented)
    (applyOp : S → Op → S) (store : ActorStore S) {as : List (Act Env)}
    {s : Sys S Env Op}
    (hG : TransitionSystem.Along (Sys.step cfg)
      (fun s a => s.delivers a = true) (.init cfg store) as)
    (hs : TransitionSystem.run (Sys.step cfg) (.init cfg store) as = some s)
    (hrest : ∀ g, (s.host.workers g).batch = none) :
    ∀ l ∈ s.host.commitListeners, DeliveredOnce applyOp s l := by
  intro l hm
  have h : Lifecycle s.flow.toLife ∧ Delivering (fun _ _ _ => True) s :=
    TransitionSystem.run_invariant (Sys.step cfg)
      (P := fun s => Lifecycle s.flow.toLife ∧ Delivering (fun _ _ _ => True) s)
      (fun _ _ _ h hG hs => ⟨h.1.of_moves (Sys.flow_step hs),
        h.2.step (fun _ _ _ _ _ => trivial) h.1 hcfg hG (fun _ _ => trivial) hs⟩)
      ⟨.init cfg store, .init hcfg _ store⟩ hG hs
  obtain ⟨q, batches, htold, -⟩ := h.2.rest hrest l hm
  exact ⟨⟨q, batches, htold⟩, htold.client applyOp⟩

namespace Ledger

/-- There is one version of the ledger. -/
theorem evented_cfg (reduce : ℤ → Json → Except Json ℤ) :
    (cfg reduce).Evented :=
  ⟨evented reduce, fun _ _ _ _ hload => absurd hload (by simp [cfg])⟩

/-- A deposit is told, and stored in the inbox. -/
def telling : List (Act Unit) :=
  [.tellStart 0 "deposit" .null, .tellLand 0 true, .tellResume 0]

/-- `n` segments of the worker, in all of which everything goes well. -/
def working (n : ℕ) : List (Act Unit) := List.replicate n (.worker 1 () true)

/-- One subscriber attaches before a deposit, and one when its event is
appended and not folded yet. -/
def subscribedMidCommit : List (Act Unit) :=
  activating 8 ++ [.subscribe 0] ++ telling ++ working 3 ++ [.subscribe 1]
    ++ working 4

/-- A subscriber attaches when the deposit is in the balance, and its inbox
entry is being acked. -/
def subscribedBeforeEmit : List (Act Unit) :=
  activating 8 ++ telling ++ working 4 ++ [.subscribe 0] ++ working 2

end Ledger

/-- The theorem applies to a subscriber that attaches between an append and
its fold: both have the balance in the end. -/
theorem events_delivered_once_subscribedMidCommit :
    ∃ s, TransitionSystem.run (Sys.step (Ledger.cfg Ledger.byAmount))
        (.init (Ledger.cfg Ledger.byAmount) .empty) Ledger.subscribedMidCommit
          = some s
      ∧ s.host.state = 1 ∧ s.host.commitListeners = [0, 1]
      ∧ ∀ l ∈ s.host.commitListeners, DeliveredOnce (fun n _ => n) s l := by
  have hrun : (TransitionSystem.run (Sys.step (Ledger.cfg Ledger.byAmount))
      (.init (Ledger.cfg Ledger.byAmount) .empty) Ledger.subscribedMidCommit).any
        (fun s => s.host.state == 1 && s.host.commitListeners == [0, 1]
          && (s.host.workers 1).stage.alive
          && (s.host.workers 1).batch.isNone) = true := by decide
  obtain ⟨s, hs, hr⟩ := (Option.any_eq_true _ _).mp hrun
  simp only [Bool.and_eq_true, beq_iff_eq, Option.isNone_iff_eq_none] at hr
  obtain ⟨⟨⟨hstate, hlis⟩, halive⟩, hb⟩ := hr
  have hl : Lifecycle s.flow.toLife := Sys.lifecycle_run hs
  exact ⟨s, hs, hstate, hlis, events_delivered_once _
    (Ledger.evented_cfg Ledger.byAmount) (fun n _ => n) .empty (by decide) hs
    (hl.no_batch halive hb)⟩

/-- **A subscriber may be sent an event twice**: it attaches while the balance
already counts the deposit, and is sent the deposit as well. -/
theorem not_events_delivered_once :
    ¬∀ (as : List (Act Unit)) (s : Sys ℤ Unit Unit),
      TransitionSystem.run (Sys.step (Ledger.cfg Ledger.byAmount))
        (.init (Ledger.cfg Ledger.byAmount) .empty) as = some s →
      (∀ g, (s.host.workers g).batch = none) →
      ∀ l ∈ s.host.commitListeners, DeliveredOnce (fun n _ => n) s l := by
  intro h
  have hrun : (TransitionSystem.run (Sys.step (Ledger.cfg Ledger.byAmount))
      (.init (Ledger.cfg Ledger.byAmount) .empty) Ledger.subscribedBeforeEmit).any
        (fun s => s.host.state == 1 && s.host.commitListeners.contains 0
          && ((s.hist.notifs 0).foldl (SubscriptionRecord.applyReducing s.host.cls
            (fun n _ => n)) .new).state == some 2
          && (s.host.workers 1).stage.alive
          && (s.host.workers 1).batch.isNone) = true := by decide
  obtain ⟨s, hs, hr⟩ := (Option.any_eq_true _ _).mp hrun
  simp only [Bool.and_eq_true, beq_iff_eq, Option.isNone_iff_eq_none,
    List.contains_iff_mem] at hr
  obtain ⟨⟨⟨⟨hstate, hm⟩, hclient⟩, halive⟩, hb⟩ := hr
  have hl : Lifecycle s.flow.toLife := Sys.lifecycle_run hs
  have hdel := h _ s hs (hl.no_batch halive hb) 0 hm
  have hcopy := congrArg SubscriptionRecord.state hdel.client
  rw [hclient, hstate] at hcopy
  exact absurd hcopy (by decide)
