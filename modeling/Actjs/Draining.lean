import Actjs.Transparency

/-!
# Waiting for the mailboxes to drain

`Runtime.drain` looks up the host of every actor that is live, by way of the class
that is stored with its last snapshot, and has each wait until nothing is buffered in
its mailbox, and one turn of the event loop longer. What it is to wait for are the
messages that those mailboxes had accepted by then.

It does wait for them if it gets to the host that has them: if a snapshot of the actor
is stored, the directory has not put another host in its place meanwhile, and the host
is activated. The last message has left the buffer when the waiting ends, but its turn
may not be over; for that a turn of the event loop is as long as it takes.
-/

open Function (update)

variable {S Env Op : Type}

/-! ## Messages

The messages that a mailbox has accepted and that are not handled: those in
the buffer, and the one that a worker has. -/

/-- `handle` has begun with a message, and its commit has not ended. -/
def WorkerPc.unfinished : WorkerPc S → Bool
  | unhandled _ => true
  | pc => pc.inTurn

namespace HostObject

/-- Where the worker loop of the last activation is. -/
def worker (o : HostObject S Env Op) : WorkerPc S :=
  (o.host.workerPromise.map o.host.workers).getD .absent

/-- How many of the messages that the mailbox has accepted are fully handled: their
commits have completed or failed. -/
def handled (o : HostObject S Env Op) : ℕ :=
  o.hist.taken.length - if o.worker.unfinished = true then 1 else 0

/-- How many of them are not in its buffer any more. -/
def dequeued (o : HostObject S Env Op) : ℕ :=
  match o.worker with
  | .received _ => o.hist.taken.length + 1
  | _ => o.hist.taken.length

/-- The worker has the message at position `i` in hand. -/
def inHand (o : HostObject S Env Op) (i : ℕ) : Bool :=
  decide (o.handled ≤ i) && decide (i < o.dequeued)

end HostObject

/-- **A message that a mailbox has accepted**: the actor it was sent to, the host
object, and at what position of which of its mailboxes it was put. -/
structure Accepted where
  actor : ActorId
  object : ℕ
  mailbox : ℕ
  position : ℕ

namespace Runtime

/-- `liveIds`, in the order in which the hosts were constructed. -/
def liveIds (rt : Runtime S Env Op) : List ActorId :=
  (List.range rt.constructed).filterMap (fun r =>
    (rt.objects r).bind (fun o => if rt.hosts o.id = some r then some o.id else none))

/-- The message is fully handled. -/
def handled (rt : Runtime S Env Op) (m : Accepted) : Bool :=
  (rt.objects m.object).any (fun o =>
    o.host.activation == m.mailbox && decide (m.position < o.handled))

/-- What the mailbox of object `r`, the host of the actor, has accepted. -/
def acceptedBy (rt : Runtime S Env Op) (id : ActorId) (r : ℕ) : List Accepted :=
  match rt.objects r with
  | none => []
  | some o =>
    (List.range o.hist.accepted.length).map (fun i => ⟨id, r, o.host.activation, i⟩)

/-- The messages that the mailboxes of the live hosts have accepted and that are not
handled yet. -/
def unhandled (rt : Runtime S Env Op) : List Accepted :=
  (rt.liveIds.flatMap (fun id =>
    ((rt.hosts id).map (rt.acceptedBy id)).getD [])).filter (fun m => !rt.handled m)

end Runtime

/-! ## `drain` -/

/-- **Where `lookupLive` is suspended**, or what it has returned. -/
inductive LookupPc where
  /-- In `loadSnapshot`. -/
  | loading
  /-- The snapshot is read, of which it uses the class. -/
  | loaded (className : Option ClassName)
  /-- In `resolve`, as request `q`. -/
  | resolving (q : ℕ)
  | returned (host : Option ℕ)

/-- What it has returned, if it has. -/
def LookupPc.result : LookupPc → Option (Option ℕ)
  | returned host => some host
  | _ => none

/-- **Where `ActorHost.drain` is suspended.** -/
inductive HostDrainPc where
  /-- In a `tick()` of the loop. -/
  | polling
  /-- In the `tick()` after the loop. -/
  | lastTick
  | done

namespace Host

/-- The condition of the loop of `drain`. -/
def pollMailbox (h : Host S Env) : HostDrainPc :=
  if 0 < h.mailbox.size then .polling else .lastTick

/-- `ActorHost.drain` up to its first await. -/
def drain (h : Host S Env) : HostDrainPc :=
  if h.activated = true then h.pollMailbox else .done

end Host

/-- **Where `Runtime.drain` is suspended.** -/
inductive RuntimeDrainPc where
  /-- It is not being called. -/
  | idle
  | lookups (ls : List (ActorId × LookupPc))
  | draining (hs : List (ℕ × HostDrainPc))
  | resolved
  | rejected (e : RuntimeError)

/-- It has resolved. -/
def RuntimeDrainPc.isResolved : RuntimeDrainPc → Bool
  | resolved => true
  | _ => false

/-- **A process beside a call of `drain`.** What else calls `drain` meanwhile is among
the requests of the process. -/
structure Draining (S Env Op : Type) where
  rt : Runtime S Env Op
  pc : RuntimeDrainPc
  /-- The messages that mailboxes of live hosts had accepted when `drain` was called,
  and that were not fully handled at any time since. -/
  owed : List Accepted

/-- What can happen next: a step of the process, or of `drain`. -/
inductive DrainAct (Env : Type) where
  | runtime (x : RuntimeAct Env)
  | call
  /-- The next segment of lookup `i`. `q` is the request it makes, `ok` the fate of the
  read it awaits. -/
  | lookup (i q : ℕ) (ok : Bool)
  /-- All lookups have returned. -/
  | gather
  /-- The `tick()` of host `i` is over. -/
  | tick (i : ℕ)
  /-- All hosts have drained. -/
  | finish

namespace Draining

/-- A process that nobody drains. -/
def init (stores : ActorId → ActorStore S) : Draining S Env Op :=
  ⟨.init stores, .idle, []⟩

/-- The process moves on. What is handled by then is owed no more. -/
def advance (d : Draining S Env Op) (rt : Runtime S Env Op) : Draining S Env Op :=
  { d with rt := rt, owed := d.owed.filter (fun m => !rt.handled m) }

/-- `lookupLive` up to its first await. -/
def lookupLive (rt : Runtime S Env Op) (id : ActorId) : LookupPc :=
  if id ∈ rt.liveIds then .loading else .returned none

/-- `drain` up to its first await. -/
def call (d : Draining S Env Op) : Draining S Env Op :=
  { d with
    pc := .lookups (d.rt.liveIds.map (fun id => (id, lookupLive d.rt id)))
    owed := d.rt.unhandled }

/-- The next segment of lookup `i`, which is of actor `id`. -/
def lookup (cfg : RuntimeConfig S Env Op) (d : Draining S Env Op)
    (ls : List (ActorId × LookupPc)) (i : ℕ) (id : ActorId) (q : ℕ) (ok : Bool) :
    LookupPc → Option (Draining S Env Op)
  | .loading =>
    if ok = true then
      let snap := (d.rt.stores id).loadSnapshot
      some { d with pc := .lookups (ls.set i (id, .loaded (snap.map SnapshotRead.cls))) }
    else some { d with pc := .rejected .storage }
  | .loaded none => some { d with pc := .lookups (ls.set i (id, .returned none)) }
  | .loaded (some c) =>
    (d.rt.start cfg q (.getHost c id) true).map (fun rt =>
      { d.advance rt with pc := .lookups (ls.set i (id, .resolving q)) })
  | .resolving q' =>
    match d.rt.requests q' with
    | some ⟨_, .returned r⟩ =>
      some { d with pc := .lookups (ls.set i (id, .returned (some r))) }
    | some ⟨_, .rejected e⟩ => some { d with pc := .rejected e }
    | _ => none
  | .returned _ => none

/-- A host that was looked up, once its `drain` is called. -/
def drainHost (rt : Runtime S Env Op) (l : ActorId × LookupPc) :
    Option (ℕ × HostDrainPc) :=
  l.snd.result.join.bind (fun r => (rt.objects r).map (fun o => (r, o.host.drain)))

/-- Host `i`, which is object `r`, goes on after its `tick()`. -/
def tick (d : Draining S Env Op) (hs : List (ℕ × HostDrainPc)) (i r : ℕ) :
    HostDrainPc → Option (Draining S Env Op)
  | .polling =>
    (d.rt.objects r).map (fun o =>
      { d with pc := .draining (hs.set i (r, o.host.pollMailbox)) })
  | .lastTick => some { d with pc := .draining (hs.set i (r, .done)) }
  | .done => none

/-- Host drains are all done. -/
def allDone (hs : List (ℕ × HostDrainPc)) : Bool :=
  hs.all (fun h => match h.snd with
    | .done => true
    | _ => false)

/-- **One step of a process, or of `drain`.** -/
def step (cfg : RuntimeConfig S Env Op) (d : Draining S Env Op) :
    DrainAct Env → Option (Draining S Env Op)
  | .runtime x => (d.rt.step cfg x).map d.advance
  | .call =>
    match d.pc with
    | .lookups _ => none
    | .draining _ => none
    | _ => some d.call
  | .lookup i q ok =>
    match d.pc with
    | .lookups ls => (ls[i]?).bind (fun l => d.lookup cfg ls i l.fst q ok l.snd)
    | _ => none
  | .gather =>
    match d.pc with
    | .lookups ls =>
      if ls.all (fun l => l.snd.result.isSome) = true then
        some { d with pc := .draining (ls.filterMap (drainHost d.rt)) }
      else none
    | _ => none
  | .tick i =>
    match d.pc with
    | .draining hs => (hs[i]?).bind (fun h => d.tick hs i h.fst h.snd)
    | _ => none
  | .finish =>
    match d.pc with
    | .draining hs => if allDone hs = true then some { d with pc := .resolved } else none
    | _ => none

/-- **`drain` drains**: once it has resolved, every message that a mailbox of
a live host had accepted when it was called is fully handled. A message is
handled when its turn is over, not when it has left the buffer. -/
def Drained (d : Draining S Env Op) : Prop := d.pc.isResolved = true → d.owed = []

/-! ## The condition

At the steps of `drain` itself: the actor has a snapshot, the directory has
the host with the messages, and the host is activated. -/

/-- A message is owed to the actor. -/
def owes (d : Draining S Env Op) (id : ActorId) : Bool :=
  d.owed.any (fun m => m.actor == id)

/-- The directory caches the host that has what is owed to the actor. -/
def caches (d : Draining S Env Op) (id : ActorId) : Bool :=
  d.owed.all (fun m => m.actor != id || d.rt.hosts id == some m.object)

/-- Every host that owes a message is activated, with the mailbox that has it. -/
def serves (d : Draining S Env Op) : Bool :=
  d.owed.all (fun m => (d.rt.objects m.object).any (fun o =>
    o.host.activated && o.host.activation == m.mailbox))

/-- The worker of object `r` has no message in hand that is owed. -/
def idles (d : Draining S Env Op) (r : ℕ) : Bool :=
  d.owed.all (fun m => m.object != r || (d.rt.objects r).all (fun o =>
    !o.inHand m.position))

/-- **What `drain` relies on**, of each of its steps. While a message is owed: its actor
has a snapshot when that is read; the directory caches its host when it is asked
for it; the host is activated when its `drain` is called; and its worker does not have
the message in hand at the end of the last `tick()`. -/
def reaches (d : Draining S Env Op) : DrainAct Env → Bool
  | .lookup i _ ok =>
    match d.pc with
    | .lookups ls =>
      match ls[i]? with
      | some (id, .loading) =>
        !ok || !d.owes id || (d.rt.stores id).loadSnapshot.isSome
      | some (id, .loaded (some _)) => d.caches id
      | _ => true
    | _ => true
  | .gather => d.serves
  | .tick i =>
    match d.pc with
    | .draining hs =>
      match hs[i]? with
      | some (r, .lastTick) => d.idles r
      | _ => true
    | _ => true
  | _ => true

end Draining

/-! ## What a step leaves of a mailbox

What was accepted stays so, and is handled in that order; only a new
activation puts another mailbox in the place of this one. -/

namespace HostFlow

variable {f f' : HostFlow} {g : ℕ}

/-- The mailbox accepts, and hands out, but takes nothing back. -/
structure Grows (f f' : HostFlow) : Prop where
  accepted : f.accepted.length ≤ f'.accepted.length
  dequeued : f.accepted.length + f'.mailbox.buffer.length
    ≤ f'.accepted.length + f.mailbox.buffer.length

theorem Grows.same (ha : f'.accepted = f.accepted)
    (hb : f'.mailbox.buffer.length ≤ f.mailbox.buffer.length) : f.Grows f' := by
  constructor <;> rw [ha]
  exact Nat.add_le_add_left hb _

theorem Grows.trans {f'' : HostFlow} (h : f.Grows f') (h' : f'.Grows f'') :
    f.Grows f'' := by
  obtain ⟨h₁, h₂⟩ := h
  obtain ⟨h₃, h₄⟩ := h'
  constructor <;> omega

theorem grows_enqueue (f : HostFlow) (item : Item) : f.Grows (f.enqueue item) := by
  unfold enqueue
  rcases f.mailbox.enqueue_cases item with ⟨he, -⟩ | ⟨he, -⟩
    | ⟨w, m, he, -, -, hb, -⟩ | ⟨m, he, -, -, -, -, hb, -⟩ <;> rw [he]
  · exact .same rfl (Nat.le_refl _)
  · exact .same rfl (Nat.le_refl _)
  · constructor <;> simp [hb]
  · constructor <;> simp [hb]
    omega

theorem grows_dequeue (f : HostFlow) (g : ℕ) : f.Grows (f.dequeue g) := by
  refine .same rfl ?_
  unfold dequeue
  rcases f.mailbox.dequeue_cases g with ⟨x, m, he, hb, -⟩ | ⟨he, hb, -⟩
    | ⟨m, he, hb, -, hb', -⟩ <;> rw [he]
  · simp [hb]
  · simp [hb']

theorem grows_enqueueAll (f : HostFlow) (rs : List InboxRecord) :
    f.Grows (f.enqueueAll rs) := by
  induction rs generalizing f with
  | nil => exact .same rfl (Nat.le_refl _)
  | cons r rs ih =>
    rw [enqueueAll]
    split
    · exact .same rfl (Nat.le_refl _)
    · exact (f.grows_enqueue _).trans (ih _)

/-- **What a move does to the mailbox**: it puts a new one in its place, which only a
host does that is not activated, or has the old one grow. An activated host stays so,
except at the end of a deactivation. -/
structure Keeps (f f' : HostFlow) : Prop where
  mailbox : (f.activated = false ∧ f.activation < f'.activation)
    ∨ f'.activation = f.activation ∧ f.Grows f'
  activated : f.activated = true → f'.activated = true
    ∨ f.deact = some .dropped ∨ f.deact = some .failed

theorem Keeps.same (ha : f'.activation = f.activation) (hg : f.Grows f')
    (hac : f.activated = true → f'.activated = true) : f.Keeps f' :=
  ⟨.inr ⟨ha, hg⟩, fun h => .inl (hac h)⟩

theorem Opening.keeps (h : f.Opening f') : f.Keeps f' := by
  cases h with
  | none => exact .same rfl (.same rfl (Nat.le_refl _)) (fun h => h)
  | refuse ha hp => exact ⟨.inl ⟨ha, Nat.lt_succ_self _⟩, fun h => .inl h⟩
  | begin capacity hc ha hp => exact ⟨.inl ⟨ha, Nat.lt_succ_self _⟩, fun h => .inl h⟩

theorem Activating.keeps (h : f.Activating f') : f.Keeps f' := by
  cases h with
  | @activated i hi =>
    have hg := grows_dequeue { f with
      inst := i
      activated := true
      workerPromise := some f.activation } f.activation
    exact .same rfl ⟨hg.accepted, hg.dequeued⟩ (fun _ => rfl)
  | @replayed pending hp =>
    have hg := f.grows_enqueueAll pending
    refine .same ?_ ⟨hg.accepted, hg.dequeued⟩ (fun h => ?_)
    · rw [enqueueAll_frame]
    · rw [enqueueAll_frame]
      exact h
  | _ => exact .same rfl (.same rfl (Nat.le_refl _)) (fun h => h)

theorem Working.keeps (h : f.Working g f') : f.Keeps f' := by
  cases h with
  | dequeue hg => exact .same rfl (f.grows_dequeue g) id
  | _ => exact .same rfl (.same rfl (Nat.le_refl _)) (fun h => h)

theorem Deactivating.keeps (h : f.Deactivating f') : f.Keeps f' := by
  cases h with
  | finish hd => exact ⟨.inr ⟨rfl, .same rfl (Nat.le_refl _)⟩,
    fun _ => .inr hd⟩
  | _ => exact .same rfl (.same rfl (Nat.le_refl _)) (fun h => h)

theorem Closing.keeps (h : f.Closing f') (hl : Lifecycle f.toLife) : f.Keeps f' := by
  cases h with
  | unattended f' hd ha hg => exact absurd hg (hl.present ha (by simp [hd])).1
  | _ => exact .same rfl (.same rfl (Nat.le_refl _)) (fun h => h)

theorem Telling.keeps {t : ℕ} (h : f.Telling t f') : f.Keeps f' := by
  cases h with
  | @accept type payload id ht hr =>
    have hg := f.grows_enqueue (.tell type payload id)
    exact .same rfl ⟨hg.accepted, hg.dequeued⟩ (fun h => h)
  | _ => exact .same rfl (.same rfl (Nat.le_refl _)) (fun h => h)

theorem Calling.keeps {c : ℕ} (h : f.Calling c f') : f.Keeps f' := by
  cases h with
  | accept method args hf hr =>
    have hg := f.grows_enqueue (.call method args c)
    exact .same rfl ⟨hg.accepted, hg.dequeued⟩ (fun h => h)
  | _ => exact .same rfl (.same rfl (Nat.le_refl _)) (fun h => h)

theorem Moves.keeps {Env : Type} {a : Act Env} (hs : f.Moves f' a)
    (hl : Lifecycle f.toLife) : f.Keeps f' := by
  cases a with
  | activate => exact Opening.keeps hs
  | tellStart t type payload =>
    obtain ⟨-, f₁, task, ho, -, rfl⟩ := hs
    have h := ho.keeps
    exact ⟨h.mailbox.imp_right (fun ⟨ha, hg⟩ => ⟨ha, hg.accepted, hg.dequeued⟩),
      h.activated⟩
  | tellLand t ok => exact Telling.keeps hs
  | tellResume t => exact Telling.keeps hs
  | callStart c method args =>
    obtain ⟨-, ⟨-, hc⟩ | ⟨f₁, task, ho, -, rfl⟩⟩ := hs
    · exact Calling.keeps hc
    · have h := ho.keeps
      exact ⟨h.mailbox.imp_right (fun ⟨ha, hg⟩ => ⟨ha, hg.accepted, hg.dequeued⟩),
        h.activated⟩
  | callResume c => exact Calling.keeps hs.2
  | activation env ok => exact Activating.keeps hs
  | worker g env ok => exact Working.keeps hs
  | deactivate env => exact Closing.keeps hs hl
  | deactivation env => exact Deactivating.keeps hs
  | destroy env => exact Closing.keeps hs hl
  | idleFire env => exact Closing.keeps hs hl
  | flushResume k =>
    obtain ⟨es, rfl⟩ := hs
    exact .same rfl (.same rfl (Nat.le_refl _)) (fun h => h)
  | _ =>
    obtain rfl := hs
    exact .same rfl (.same rfl (Nat.le_refl _)) (fun h => h)

end HostFlow

/-! ## The messages of a host -/

theorem WorkerPc.alive_of_unfinished {pc : WorkerPc S} (h : pc.unfinished = true) :
    pc.stage.alive = true := by
  cases pc <;> first | rfl | exact absurd h (by simp [unfinished, inTurn])

theorem WorkerPc.eq_received {pc : WorkerPc S} {item : Item}
    (h : pc.stage = .received item) : pc = .received item := by
  cases pc <;> simp_all [stage]

namespace HostObject

variable {rt : Runtime S Env Op} {o : HostObject S Env Op}

/-- What was accepted has left the buffer, or is in it. -/
theorem accepted_length (hl : Lifecycle (rt.sys o).flow.toLife)
    (hf : Fifo (rt.sys o).flow) :
    o.hist.accepted.length = o.dequeued + o.host.mailbox.buffer.length := by
  unfold dequeued worker
  cases hp : o.host.workerPromise with
  | none =>
    have ha : o.hist.accepted = o.hist.taken ++ o.host.mailbox.buffer :=
      hf.accepted_eq hl (fun g item hg => absurd (hp.symm.trans hg) (by simp))
    simp [ha]
  | some g =>
    simp only [Option.map_some, Option.getD_some]
    split
    · next item hw =>
      have ha : o.hist.accepted = o.hist.taken ++ item :: o.host.mailbox.buffer :=
        hf.received g item (congrArg WorkerPc.stage hw)
      simp only [ha, List.length_append, List.length_cons]
      omega
    · next hne =>
      have ha : o.hist.accepted = o.hist.taken ++ o.host.mailbox.buffer :=
        hf.accepted_eq hl (fun g' item hg hw => by
          obtain rfl := Option.some.inj (hp.symm.trans hg)
          exact hne item (WorkerPc.eq_received hw))
      simp [ha]

/-- At the end of a deactivation everything is handled. -/
theorem handled_eq (hl : Lifecycle (rt.sys o).flow.toLife) (hf : Fifo (rt.sys o).flow)
    (hd : (rt.sys o).flow.deact = some .dropped ∨ (rt.sys o).flow.deact = some .failed) :
    o.handled = o.hist.accepted.length := by
  have hdr : (∀ g, (o.host.workers g).stage.alive = false)
      ∧ o.host.mailbox.buffer = [] := by
    rcases hd with hd | hd <;> exact hl.drained _ hd (by simp)
  have hdead : o.worker.stage.alive = false := by
    unfold worker
    cases o.host.workerPromise with
    | none => rfl
    | some g => exact hdr.1 g
  have hidle : o.worker.unfinished = false := by
    by_contra h
    have := WorkerPc.alive_of_unfinished (by simpa using h)
    exact absurd this (by simp [hdead])
  have hout : o.dequeued = o.hist.taken.length := by
    unfold dequeued
    split
    · next item hw =>
      rw [hw] at hdead
      exact absurd hdead (by simp [WorkerPc.stage, WorkerStage.alive])
    · rfl
  rw [accepted_length hl hf, hout, hdr.2, handled, hidle]
  simp

/-- What is neither handled nor in the buffer, the worker has in hand. -/
theorem inHand_of_lt {i : ℕ} (hi : i < o.dequeued) (hn : ¬i < o.handled) :
    o.inHand i = true := by
  simp [inHand, hi, Nat.le_of_not_lt hn]

/-- The message was put into a mailbox of the host. -/
structure Has (o : HostObject S Env Op) (m : Accepted) : Prop where
  actor : o.id = m.actor
  mailbox : m.mailbox ≤ o.host.activation
  position : o.host.activation = m.mailbox → m.position < o.hist.accepted.length

end HostObject

namespace Runtime

variable {cfg : RuntimeConfig S Env Op} {rt rt' : Runtime S Env Op} {q r : ℕ}
  {ask : Ask} {pc : AskPc} {o : HostObject S Env Op} {x : RuntimeAct Env}

/-- Who is live is cached. -/
theorem Sound.mem_liveIds (hrt : rt.Sound) {id : ActorId} :
    id ∈ rt.liveIds ↔ rt.hosts id ≠ none := by
  unfold liveIds
  rw [List.mem_filterMap]
  constructor
  · rintro ⟨r, -, hr⟩ hn
    obtain ⟨o, ho, ho'⟩ := Option.bind_eq_some_iff.mp hr
    split at ho'
    · next hh =>
      rw [Option.some.inj ho', hn] at hh
      exact absurd hh (by simp)
    · exact absurd ho' (by simp)
  · intro hn
    obtain ⟨r, hr⟩ := Option.ne_none_iff_exists'.mp hn
    obtain ⟨o, ho, rfl⟩ := hrt.hosts id r hr
    exact ⟨r, List.mem_range.mpr (hrt.bound r o ho), by simp [ho, hr]⟩

/-- What is unhandled is a message of a live host. -/
theorem Sound.of_unhandled (hrt : rt.Sound) {m : Accepted} (hm : m ∈ rt.unhandled) :
    m.actor ∈ rt.liveIds ∧ rt.handled m = false
      ∧ ∃ o, rt.objects m.object = some o ∧ o.Has m := by
  obtain ⟨hmem, hn⟩ := List.mem_filter.mp hm
  obtain ⟨id, hid, hmem⟩ := List.mem_flatMap.mp hmem
  obtain ⟨r, hr⟩ := Option.ne_none_iff_exists'.mp (hrt.mem_liveIds.mp hid)
  obtain ⟨o, ho, rfl⟩ := hrt.hosts id r hr
  simp only [hr, Option.map_some, Option.getD_some, acceptedBy, ho, List.mem_map,
    List.mem_range] at hmem
  obtain ⟨i, hi, rfl⟩ := hmem
  exact ⟨hid, by simpa using hn, o, ho, rfl, Nat.le_refl _, fun _ => hi⟩

/-- What a step leaves of the mailbox of an object. -/
theorem Moves.keeps (hm : Moves cfg rt x rt') (hrt : rt.Sound)
    (ho : rt.objects r = some o) : ∃ o', rt'.objects r = some o' ∧ o'.id = o.id
      ∧ (rt.sys o).flow.Keeps (rt'.sys o').flow := by
  obtain ⟨o', ho', hcfg⟩ := hm.object_kept (hrt.bound r o ho) ho
  refine ⟨o', ho', congrArg HostConfig.id hcfg, ?_⟩
  rcases hm.does ho' with ho₀ | ⟨o₀, a, s, ho₀, -, hs, rfl⟩ | ⟨rfl, -⟩
  · obtain rfl := Option.some.inj (ho.symm.trans ho₀)
    exact .same rfl (.same rfl (Nat.le_refl _)) (fun h => h)
  · obtain rfl := Option.some.inj (ho.symm.trans ho₀)
    have h := (Sys.flow_step hs).keeps (hrt.lifecycle r o ho)
    exact ⟨h.mailbox.imp_right (fun ⟨ha, hg⟩ => ⟨ha, hg.accepted, hg.dequeued⟩),
      h.activated⟩
  · exact absurd (hrt.bound _ o ho) (Nat.lt_irrefl _)

/-- The request is for object `r`, as far as it is for an object. -/
def Refers (rt : Runtime S Env Op) (q r : ℕ) : Prop :=
  ∃ ask pc, rt.requests q = some ⟨ask, pc⟩ ∧ ∀ r', pc.object = some r' → r' = r

/-- A request keeps to its object. -/
theorem Moves.refers (hm : Moves cfg rt x rt') (h : rt.Refers q r) :
    rt'.Refers q r := by
  obtain ⟨ask, pc, hq, hr⟩ := h
  have hset : ∀ {t : Runtime S Env Op} {q' ask' pc'}, t.requests = rt.requests →
      (q' = q → ∀ r', pc'.object = some r' → pc.object = some r') →
      (t.setRequest q' ask' pc').Refers q r := by
    intro t q' ask' pc' ht hpc
    by_cases he : q = q'
    · subst he
      exact ⟨_, _, requests_setRequest_self, fun r' hr' => hr r' (hpc rfl r' hr')⟩
    · exact ⟨ask, pc, by rw [requests_setRequest_ne he, ht, hq], hr⟩
  have hnew : ∀ {q' : ℕ} {P : Prop}, rt.requests q' = none → q' = q → P := by
    rintro q' P hn rfl
    exact absurd (hn.symm.trans hq) (by simp)
  have hold : ∀ {q' : ℕ} {ask' : Ask} {pc' : AskPc},
      rt.requests q' = some ⟨ask', pc'⟩ → q' = q → pc = pc' := by
    rintro q' ask' pc' hq' rfl
    exact (AskTask.mk.inj (Option.some.inj (hq.symm.trans hq'))).2
  cases hm with
  | answer ha =>
    refine hset rfl (fun he r' hr' => ?_)
    cases ha with
    | waited hq' ho hn ho' => exact hold hq' he ▸ hr'
    | returned hq' => exact hold hq' he ▸ hr'
    | cached hn => exact hnew hn he
    | inflight hn => exact hnew hn he
    | _ => exact absurd hr' (by simp [AskPc.object])
  | materialize hn => exact hset rfl (fun he => hnew hn he)
  | @install q' ask' ok r' o result hq' ho hres =>
    cases result with
    | ok _ => exact hset rfl (fun he r'' hr'' => hold hq' he ▸ hr'')
    | error e => exact hset rfl (fun he r'' hr'' => absurd hr'' (by simp [AskPc.object]))
  | serve ho hserve hs =>
    refine hset rfl (fun he r' hr' => ?_)
    cases hserve with
    | call hq' hp => exact hold hq' he ▸ hr'
    | tell hq' hp => exact hold hq' he ▸ hr'
    | subscribe hq' => exact hold hq' he ▸ hr'
    | hostCall hn hof => exact hnew hn he
    | hostTell hn hof => exact hnew hn he
  | @tombstone q' admitted id p r' o s hn hh ho hs =>
    have he : q ≠ q' := fun he => hnew hn he.symm
    unfold Refers
    rw [requests_setRequest_ne he]
    simp only [detachAll, requests_setSys, hq]
    split
    · next ask' r'' hq' =>
      split
      · exact ⟨_, _, rfl, fun _ h => absurd h (by simp [AskPc.object])⟩
      · obtain ⟨rfl, rfl⟩ := AskTask.mk.inj (Option.some.inj hq')
        exact ⟨_, _, rfl, hr⟩
    · exact ⟨ask, pc, rfl, hr⟩
  | tombstoned hq' =>
    exact hset rfl (fun he r' hr' => absurd hr' (by simp [AskPc.object]))
  | own => exact ⟨ask, pc, hq, hr⟩
  | evict => exact ⟨ask, pc, by rw [requests_evict]; exact hq, hr⟩
  | unsubscribe hq' ho hs =>
    exact hset rfl (fun he r' hr' => absurd hr' (by simp [AskPc.object]))
  | shutdown => exact ⟨ask, pc, hq, hr⟩
  | destroyHosts hd => exact ⟨ask, pc, hq, hr⟩

/-- A request for the host of an actor that is cached is for that host. -/
theorem refers_start {c : ClassName} {id : ActorId} (hh : rt.hosts id = some r)
    (hs : rt.start cfg q (.getHost c id) true = some rt') : rt'.Refers q r := by
  unfold start at hs
  split at hs
  · exact absurd hs (by simp)
  obtain rfl := Option.some.inj hs
  unfold resolve
  split
  · exact ⟨_, _, requests_setRequest_self, fun r' hr' => absurd hr' (by simp [AskPc.object])⟩
  · rw [hh]
    exact ⟨_, _, requests_setRequest_self, fun r' hr' => (Option.some.inj hr').symm⟩

end Runtime

/-! ## What the messages are waited for by

For each message that is owed there is a lookup, a host drain or a tick that
is not over, and that is not over before the message is handled. -/

/-- A lookup is of the host, object `r`, as far as it has got. -/
def LookupPc.Finds (rt : Runtime S Env Op) (r : ℕ) : LookupPc → Prop
  | loading => True
  | loaded className => className.isSome = true
  | resolving q => rt.Refers q r
  | returned host => host = some r

/-- **What a message is waited for by**, which object `o` has: the lookup of its host,
or the drain of the host; and that is activated, with the mailbox that has the message.
After the loop, the message has left the buffer. -/
def RuntimeDrainPc.Awaits (rt : Runtime S Env Op) (o : HostObject S Env Op) (m : Accepted) :
    RuntimeDrainPc → Prop
  | lookups ls => ∃ l, (m.actor, l) ∈ ls ∧ l.Finds rt m.object
  | draining hs => o.host.activated = true ∧ o.host.activation = m.mailbox
    ∧ ((m.object, .polling) ∈ hs ∨ (m.object, .lastTick) ∈ hs ∧ m.position < o.dequeued)
  | rejected _ => True
  | _ => False

/-- What is in a list is in it after a change elsewhere. -/
theorem List.mem_set_or {α : Type} {l : List α} {i : ℕ} {a b : α} (c : α)
    (ha : a ∈ l) (hb : l[i]? = some b) : a = b ∨ a ∈ l.set i c := by
  obtain ⟨j, hj⟩ := List.mem_iff_getElem?.mp ha
  by_cases he : i = j
  · subst he
    exact .inl (Option.some.inj (hj.symm.trans hb))
  · exact .inr (List.mem_of_getElem? (by rw [List.getElem?_set_ne he, hj]))

namespace Draining

variable {cfg : RuntimeConfig S Env Op} {d d' : Draining S Env Op}

/-- **The invariant of a drain**: what is owed is not handled, and waited for. -/
structure Good (d : Draining S Env Op) : Prop where
  sound : d.rt.Sound
  serving : d.rt.Serving
  owed : ∀ m ∈ d.owed, d.rt.handled m = false
  awaits : ∀ m ∈ d.owed, ∃ o, d.rt.objects m.object = some o ∧ o.Has m
    ∧ d.pc.Awaits d.rt o m

namespace Good

theorem init (stores : ActorId → ActorStore S) :
    (Draining.init stores : Draining S Env Op).Good where
  sound := .init stores
  serving := .init stores
  owed m hm := absurd hm (by simp [Draining.init])
  awaits m hm := absurd hm (by simp [Draining.init])

/-- `drain` moves, and the process does not. -/
theorem setPc (h : d.Good) {pc : RuntimeDrainPc}
    (hpc : ∀ m ∈ d.owed, ∀ o, d.rt.objects m.object = some o → o.Has m →
      d.pc.Awaits d.rt o m → pc.Awaits d.rt o m) : Good { d with pc := pc } :=
  ⟨h.sound, h.serving, h.owed, fun m hm => by
    obtain ⟨o, ho, hhas, haw⟩ := h.awaits m hm
    exact ⟨o, ho, hhas, hpc m hm o ho hhas haw⟩⟩

/-- A message that a mailbox has accepted, and that is not handled. -/
theorem not_handled {rt : Runtime S Env Op} {o : HostObject S Env Op} {m : Accepted}
    (ho : rt.objects m.object = some o) (hn : rt.handled m = false)
    (ha : o.host.activation = m.mailbox) : ¬m.position < o.handled := by
  simpa [Runtime.handled, ho, ha] using hn

/-- **The process moves on, and what is owed is still waited for.** -/
theorem advance (h : d.Good) {x : RuntimeAct Env} {rt : Runtime S Env Op}
    (hs : d.rt.step cfg x = some rt) : (d.advance rt).Good := by
  have hm := Runtime.step_moves hs
  have hsound := h.sound.step hs
  have hserving := h.serving.step h.sound hs
  refine ⟨hsound, hserving, fun m hmem => ?_, fun m hmem => ?_⟩
  · show rt.handled m = false
    simpa using (List.mem_filter.mp hmem).2
  obtain ⟨hmem, hn'⟩ := List.mem_filter.mp hmem
  have hn := h.owed m hmem
  obtain ⟨o, ho, hhas, haw⟩ := h.awaits m hmem
  obtain ⟨o', ho', hid, hkeeps⟩ := hm.keeps h.sound ho
  obtain ⟨hmailbox, hact⟩ := hkeeps
  change (o.host.activated = false ∧ o.host.activation < o'.host.activation)
    ∨ o'.host.activation = o.host.activation ∧ _ at hmailbox
  change o.host.activated = true → o'.host.activated = true ∨ _ at hact
  refine ⟨o', ho', ⟨hid.trans hhas.actor, ?_, fun he => ?_⟩, ?_⟩
  · have := hhas.mailbox
    omega
  · -- a mailbox that has been replaced does not come back
    have hmb := hhas.mailbox
    rcases hmailbox with ⟨-, hlt⟩ | ⟨hsame, hgrows⟩
    · omega
    · exact (hhas.position (hsame.symm.trans he)).trans_le hgrows.accepted
  show d.pc.Awaits rt o' m
  cases hpc : d.pc with
  | lookups ls =>
    rw [hpc] at haw
    obtain ⟨l, hl, hfinds⟩ := haw
    refine ⟨l, hl, ?_⟩
    cases l with
    | resolving q => exact hm.refers hfinds
    | _ => exact hfinds
  | draining hs' =>
    rw [hpc] at haw
    obtain ⟨ha, hmb, hin⟩ := haw
    have hl := h.sound.lifecycle _ o ho
    have hf := h.serving.fifo _ o ho
    have hpos := hhas.position hmb
    have hact' : o'.host.activated = true := by
      refine (hact ha).resolve_right (fun hd => ?_)
      rw [← HostObject.handled_eq hl hf hd] at hpos
      exact not_handled ho hn hmb hpos
    obtain ⟨hsame, hgrows⟩ := hmailbox.resolve_left (by simp [ha])
    refine ⟨hact', hsame.trans hmb, hin.imp_right (And.imp_right (fun hlt => ?_))⟩
    have hlen := HostObject.accepted_length hl hf
    have hlen' := HostObject.accepted_length (hsound.lifecycle _ o' ho')
      (hserving.fifo _ o' ho')
    have hgrew : o.hist.accepted.length + o'.host.mailbox.buffer.length
        ≤ o'.hist.accepted.length + o.host.mailbox.buffer.length := hgrows.dequeued
    omega
  | rejected e => trivial
  | idle =>
    rw [hpc] at haw
    exact haw
  | resolved =>
    rw [hpc] at haw
    exact haw

/-- `drain` is called. -/
theorem call (h : d.Good) : d.call.Good := by
  refine ⟨h.sound, h.serving, fun m hm => (h.sound.of_unhandled hm).2.1, fun m hm => ?_⟩
  obtain ⟨hid, -, o, ho, hhas⟩ := h.sound.of_unhandled hm
  refine ⟨o, ho, hhas, lookupLive d.rt m.actor, List.mem_map.mpr ⟨_, hid, rfl⟩, ?_⟩
  rw [lookupLive, if_pos hid]
  trivial

/-- A lookup goes on, and finds what it did. -/
theorem setLookup (h : d.Good) {ls : List (ActorId × LookupPc)} {i : ℕ} {id : ActorId}
    {l l' : LookupPc} (hpc : d.pc = .lookups ls) (hi : ls[i]? = some (id, l))
    (hl : ∀ m ∈ d.owed, m.actor = id → l.Finds d.rt m.object → l'.Finds d.rt m.object) :
    Good { d with pc := .lookups (ls.set i (id, l')) } := by
  refine h.setPc (fun m hm o ho hhas haw => ?_)
  rw [hpc] at haw
  obtain ⟨l₀, hl₀, hfinds⟩ := haw
  rcases List.mem_set_or (id, l') hl₀ hi with he | hmem
  · obtain ⟨hid, rfl⟩ := Prod.mk.inj he
    exact ⟨l', hid ▸ List.mem_set (List.getElem?_eq_some_iff.mp hi).1 _, hl m hm hid hfinds⟩
  · exact ⟨l₀, hmem, hfinds⟩

/-- **A lookup takes a step.** -/
theorem lookup (h : d.Good) {ls : List (ActorId × LookupPc)} {i q : ℕ} {id : ActorId}
    {l : LookupPc} {ok : Bool} (hpc : d.pc = .lookups ls) (hi : ls[i]? = some (id, l))
    (hG : d.reaches (.lookup i q ok : DrainAct Env) = true)
    (hs : d.lookup cfg ls i id q ok l = some d') : d'.Good := by
  simp only [reaches, hpc, hi] at hG
  cases l with
  | loading =>
    simp only [Draining.lookup] at hs
    split at hs
    · next hok =>
      obtain rfl := Option.some.inj hs
      refine h.setLookup hpc hi (fun m hm hid _ => ?_)
      have howes : d.owes id = true :=
        List.any_eq_true.mpr ⟨m, hm, by simp [hid]⟩
      simpa [LookupPc.Finds, hok, howes] using hG
    · obtain rfl := Option.some.inj hs
      exact h.setPc (fun _ _ _ _ _ _ => trivial)
  | loaded className =>
    cases className with
    | none =>
      obtain rfl := Option.some.inj hs
      refine h.setLookup hpc hi (fun m hm hid hfinds => ?_)
      exact absurd hfinds (by simp [LookupPc.Finds])
    | some c =>
      obtain ⟨rt, hrt, rfl⟩ := Option.map_eq_some_iff.mp hs
      have h' : (d.advance rt).Good := h.advance (x := .start q (.getHost c id) true) hrt
      refine h'.setLookup hpc hi (fun m hm hid _ => ?_)
      have hcached := List.all_eq_true.mp hG m (List.mem_filter.mp hm).1
      refine Runtime.refers_start ?_ hrt
      simpa [hid] using hcached
  | resolving q' =>
    simp only [Draining.lookup] at hs
    split at hs
    · next ask r hq =>
      obtain rfl := Option.some.inj hs
      refine h.setLookup hpc hi (fun m hm hid hfinds => ?_)
      obtain ⟨ask', pc, hq', hr⟩ := hfinds
      obtain ⟨-, rfl⟩ := AskTask.mk.inj (Option.some.inj (hq.symm.trans hq'))
      exact congrArg some (hr r rfl)
    · obtain rfl := Option.some.inj hs
      exact h.setPc (fun _ _ _ _ _ _ => trivial)
    · exact absurd hs (by simp)
  | returned host => exact absurd hs (by simp [Draining.lookup])

/-- A host that finds its mailbox empty has dequeued all that it has accepted. -/
theorem polled (h : d.Good) {m : Accepted} {o : HostObject S Env Op}
    (ho : d.rt.objects m.object = some o) (hhas : o.Has m)
    (hmb : o.host.activation = m.mailbox) : o.host.pollMailbox = .polling
      ∨ o.host.pollMailbox = .lastTick ∧ m.position < o.dequeued := by
  unfold Host.pollMailbox
  split
  · exact .inl rfl
  · next hsize =>
    have hlen := HostObject.accepted_length (h.sound.lifecycle _ o ho)
      (h.serving.fifo _ o ho)
    have hpos := hhas.position hmb
    have hbuf : o.host.mailbox.buffer.length = 0 := Nat.eq_zero_of_not_pos hsize
    exact .inr ⟨rfl, by omega⟩

/-- **The hosts are asked to drain.** -/
theorem gather (h : d.Good) {ls : List (ActorId × LookupPc)} (hpc : d.pc = .lookups ls)
    (hall : ls.all (fun l => l.snd.result.isSome) = true) (hG : d.serves = true) :
    Good { d with pc := .draining (ls.filterMap (drainHost d.rt)) } := by
  refine h.setPc (fun m hm o ho hhas haw => ?_)
  rw [hpc] at haw
  obtain ⟨l, hl, hfinds⟩ := haw
  have hserves := List.all_eq_true.mp hG m hm
  simp only [ho, Option.any_some, Bool.and_eq_true, beq_iff_eq] at hserves
  obtain ⟨ha, hmb⟩ := hserves
  have hresult : l.result = some (some m.object) := by
    have hsome := List.all_eq_true.mp hall _ hl
    cases l with
    | returned host => exact congrArg some hfinds
    | _ => exact absurd hsome (by simp [LookupPc.result])
  have hmem : (m.object, o.host.pollMailbox) ∈ ls.filterMap (drainHost d.rt) := by
    refine List.mem_filterMap.mpr ⟨_, hl, ?_⟩
    simp [drainHost, hresult, ho, Host.drain, ha]
  refine ⟨ha, hmb, ?_⟩
  rcases h.polled ho hhas hmb with hp | ⟨hp, hlt⟩
  · exact .inl (hp ▸ hmem)
  · exact .inr ⟨hp ▸ hmem, hlt⟩

/-- **A `tick()` is over.** -/
theorem tick (h : d.Good) {hs : List (ℕ × HostDrainPc)} {i r : ℕ} {pc : HostDrainPc}
    (hpc : d.pc = .draining hs) (hi : hs[i]? = some (r, pc))
    (hG : d.reaches (.tick i : DrainAct Env) = true)
    (ht : d.tick hs i r pc = some d') : d'.Good := by
  simp only [reaches, hpc, hi] at hG
  cases pc with
  | polling =>
    obtain ⟨o₀, ho₀, rfl⟩ := Option.map_eq_some_iff.mp ht
    refine h.setPc (fun m hm o ho hhas haw => ?_)
    rw [hpc] at haw
    obtain ⟨ha, hmb, hin⟩ := haw
    refine ⟨ha, hmb, ?_⟩
    have hset := List.mem_set (List.getElem?_eq_some_iff.mp hi).1 (r, o₀.host.pollMailbox)
    rcases hin with hin | ⟨hin, hlt⟩
    · rcases List.mem_set_or (r, o₀.host.pollMailbox) hin hi with he | hmem
      · obtain rfl := (Prod.mk.inj he).1
        obtain rfl := Option.some.inj (ho.symm.trans ho₀)
        rcases h.polled ho hhas hmb with hp | ⟨hp, hlt⟩
        · exact .inl (hp ▸ hset)
        · exact .inr ⟨hp ▸ hset, hlt⟩
      · exact .inl hmem
    · refine .inr ⟨(List.mem_set_or _ hin hi).resolve_left (fun he => ?_), hlt⟩
      exact absurd (Prod.mk.inj he).2 (by simp)
  | lastTick =>
    obtain rfl := Option.some.inj ht
    refine h.setPc (fun m hm o ho hhas haw => ?_)
    rw [hpc] at haw
    obtain ⟨ha, hmb, hin⟩ := haw
    refine ⟨ha, hmb, ?_⟩
    rcases hin with hin | ⟨hin, hlt⟩
    · refine .inl ((List.mem_set_or _ hin hi).resolve_left (fun he => ?_))
      exact absurd (Prod.mk.inj he).2 (by simp)
    · refine .inr ⟨(List.mem_set_or _ hin hi).resolve_left (fun he => ?_), hlt⟩
      -- the worker would have it in hand
      obtain rfl := (Prod.mk.inj he).1
      have hidle := List.all_eq_true.mp hG m hm
      have hhand := HostObject.inHand_of_lt hlt (not_handled ho (h.owed m hm) hmb)
      exact absurd hidle (by simp [ho, hhand])
  | done => exact absurd ht (by simp [Draining.tick])

/-- **Every step that `drain` can rely on keeps to it.** -/
theorem step (h : d.Good) {a : DrainAct Env} (hG : d.reaches a = true)
    (hs : d.step cfg a = some d') : d'.Good := by
  cases a with
  | runtime x =>
    obtain ⟨rt, hrt, rfl⟩ := Option.map_eq_some_iff.mp hs
    exact h.advance hrt
  | call =>
    simp only [Draining.step] at hs
    split at hs
    · exact absurd hs (by simp)
    · exact absurd hs (by simp)
    · exact Option.some.inj hs ▸ h.call
  | lookup i q ok =>
    simp only [Draining.step] at hs
    split at hs
    · next ls hpc =>
      obtain ⟨⟨id, l⟩, hi, hs⟩ := Option.bind_eq_some_iff.mp hs
      exact h.lookup hpc hi hG hs
    · exact absurd hs (by simp)
  | gather =>
    simp only [Draining.step] at hs
    split at hs
    · next ls hpc =>
      split at hs
      · next hall => exact Option.some.inj hs ▸ h.gather hpc hall hG
      · exact absurd hs (by simp)
    · exact absurd hs (by simp)
  | tick i =>
    simp only [Draining.step] at hs
    split at hs
    · next hs' hpc =>
      obtain ⟨⟨r, pc⟩, hi, hs⟩ := Option.bind_eq_some_iff.mp hs
      exact h.tick hpc hi hG hs
    · exact absurd hs (by simp)
  | finish =>
    simp only [Draining.step] at hs
    split at hs
    · next hs' hpc =>
      split at hs
      · next hdone =>
        obtain rfl := Option.some.inj hs
        refine h.setPc (fun m hm o ho hhas haw => ?_)
        rw [hpc] at haw
        rcases haw.2.2 with hin | ⟨hin, -⟩ <;>
          exact absurd (List.all_eq_true.mp hdone _ hin) (by simp)
      · exact absurd hs (by simp)
    · exact absurd hs (by simp)

/-- Nothing is owed once `drain` has resolved. -/
theorem drained (h : d.Good) : d.Drained := by
  intro hres
  refine List.eq_nil_iff_forall_not_mem.mpr (fun m hm => ?_)
  obtain ⟨o, -, -, haw⟩ := h.awaits m hm
  cases hpc : d.pc with
  | resolved =>
    rw [hpc] at haw
    exact haw
  | _ => exact absurd hres (by simp [hpc, RuntimeDrainPc.isResolved])

end Good

end Draining

/-- **`drain` drains**, in every run in which it finds a snapshot of each actor whose
messages are not handled yet, gets the host that has them and finds it activated, and
outlasts the turn of the last one. -/
theorem drain_waits (cfg : RuntimeConfig S Env Op) {stores : ActorId → ActorStore S}
    {d : Draining S Env Op} {as : List (DrainAct Env)}
    (hG : TransitionSystem.Along (Draining.step cfg) (fun d a => d.reaches a = true)
      (Draining.init stores) as)
    (hrun : TransitionSystem.run (Draining.step cfg) (Draining.init stores) as
      = some d) : d.Drained := by
  have h := TransitionSystem.run_invariant (P := Draining.Good) _
    (fun _ _ _ h hg hs => h.step hg hs) (.init stores) hG hrun
  exact h.drained

namespace Counter

/-- Two calls are made of the counter, which is activated in `n` segments. -/
def callingTwice (n : ℕ) (method : String) : List (RuntimeAct Bool) :=
  .start 0 (.call "Counter" "counter-1" method .null admin) true :: hostActivating 0 n
    ++ [.resume 0 true, .resume 0 true,
      .start 1 (.call "Counter" "counter-1" method .null admin) true, .resume 1 true]

/-- Then `drain` is called, with both to do. -/
def calledTwice (n : ℕ) (method : String) : List (DrainAct Bool) :=
  (callingTwice n method).map .runtime ++ [.call]

/-- The lookup finds the host of the counter, which is asked to drain. -/
def lookedUp : List (DrainAct Bool) :=
  [.lookup 0 2 true, .lookup 0 2 true, .runtime (.resume 2 true), .lookup 0 2 true,
    .gather]

/-- The worker takes `n` steps. -/
def drainWorking (n : ℕ) : List (DrainAct Bool) := (hostWorking 0 1 n).map .runtime

end Counter

open Counter in
/-- The theorem applies to a drain that polls until the second of two calls is taken,
and outlasts its turn. -/
theorem drain_waits_stored : ∃ d d' : Draining ℕ Bool ℕ,
    TransitionSystem.run (Draining.step runtime) (Draining.init (stored 5))
        (calledTwice 7 "inc") = some d
      ∧ d.owed.length = 2
      ∧ TransitionSystem.run (Draining.step runtime) d
        (lookedUp ++ drainWorking 4 ++ .tick 0 :: drainWorking 2
          ++ [.tick 0, .finish]) = some d'
      ∧ d'.pc.isResolved = true ∧ d'.Drained := by
  have hcalled : (TransitionSystem.run (Draining.step runtime) (Draining.init (stored 5))
      (calledTwice 7 "inc")).any (fun d => d.owed.length == 2) = true := by decide +kernel
  obtain ⟨d, hd, howed⟩ := (Option.any_eq_true _ _).mp hcalled
  have hres : (TransitionSystem.run (Draining.step runtime) (Draining.init (stored 5))
      (calledTwice 7 "inc" ++ (lookedUp ++ drainWorking 4 ++ .tick 0 :: drainWorking 2
        ++ [.tick 0, .finish]))).any (fun d => d.pc.isResolved) = true := by decide +kernel
  obtain ⟨d', hd', hres⟩ := (Option.any_eq_true _ _).mp hres
  have hrest := hd'
  rw [TransitionSystem.run_append, hd, Option.bind_some] at hrest
  exact ⟨d, d', hd, beq_iff_eq.mp howed, hrest, hres,
    drain_waits runtime (by decide +kernel) hd'⟩

open Counter in
/-- **`drain` may not drain**: it passes over a host whose actor has no snapshot yet, with
two calls to handle; and a handler that awaits may still be in its turn after the last
`tick()`. -/
theorem not_drain_waits :
    (∃ d : Draining ℕ Bool ℕ,
      TransitionSystem.run (Draining.step runtime) (Draining.init (fun _ => .empty))
          (calledTwice 8 "inc" ++ [.lookup 0 2 true, .lookup 0 2 true, .gather, .finish])
          = some d
        ∧ d.pc.isResolved = true ∧ d.owed.length = 2 ∧ ¬d.Drained)
      ∧ ∃ d : Draining ℕ Bool ℕ,
        TransitionSystem.run (Draining.step runtime) (Draining.init (stored 5))
            (calledTwice 7 "twice" ++ lookedUp ++ drainWorking 5 ++ .tick 0
              :: drainWorking 1 ++ [.tick 0, .finish]) = some d
          ∧ d.pc.isResolved = true ∧ d.owed.length = 1 ∧ ¬d.Drained := by
  have hfails : ∀ {n : ℕ} {d : Draining ℕ Bool ℕ},
      (d.pc.isResolved && d.owed.length == n + 1) = true →
      d.pc.isResolved = true ∧ d.owed.length = n + 1 ∧ ¬d.Drained := by
    intro n d hp
    obtain ⟨hres, howed⟩ := Bool.and_eq_true_iff.mp hp
    refine ⟨hres, beq_iff_eq.mp howed, fun h => ?_⟩
    rw [h hres] at howed
    exact absurd howed (by simp)
  have hskipped : (TransitionSystem.run (Draining.step runtime)
      (Draining.init (fun _ => .empty)) (calledTwice 8 "inc"
        ++ [.lookup 0 2 true, .lookup 0 2 true, .gather, .finish])).any
      (fun d => d.pc.isResolved && d.owed.length == 1 + 1) = true := by decide +kernel
  have hshort : (TransitionSystem.run (Draining.step runtime) (Draining.init (stored 5))
      (calledTwice 7 "twice" ++ lookedUp ++ drainWorking 5 ++ .tick 0
        :: drainWorking 1 ++ [.tick 0, .finish])).any
      (fun d => d.pc.isResolved && d.owed.length == 0 + 1) = true := by decide +kernel
  obtain ⟨d, hd, hp⟩ := (Option.any_eq_true _ _).mp hskipped
  obtain ⟨d', hd', hp'⟩ := (Option.any_eq_true _ _).mp hshort
  exact ⟨⟨d, hd, hfails hp⟩, d', hd', hfails hp'⟩
