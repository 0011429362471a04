import Actjs.EventSourcing
import Actjs.SerialTurns
import Actjs.Upgrades

/-!
# Atomic turns

From what the handler of an event-sourced actor returned, a turn appends
the events to the log, folds them into the state and moves `currentSeq`; or
it fails, and is supposed to leave all three as they were. `Commits` says,
for each await of the commit, what of this is done.

The append comes before the fold. A `reduce` that throws on an event of the
batch leaves the whole batch in the log and nothing of it in the state, and
rejects the call. The turn is atomic exactly if the driver is given no such
batch to append.
-/

open Function (update)

variable {S Env Op : Type}

/-! ## The other steps

While a worker is in the turn, whatever else happens leaves the log, the state
and the seq alone. -/

/-- **A step of anyone but worker `g`**, which is in a turn. -/
structure Bystander (g : ℕ) (s s' : Sys S Env Op) : Prop where
  worker : s'.host.workers g = s.host.workers g
  cls : s'.host.cls = s.host.cls
  state : s'.host.state = s.host.state
  currentSeq : s'.host.currentSeq = s.host.currentSeq
  events : s'.store.events = s.store.events

theorem Beside.bystander {g : ℕ} {s s' : Sys S Env Op} (h : Beside s s')
    (hw : s.host.workers g ≠ .waiting) : Bystander g s s' where
  worker := h.workers_eq hw
  cls := h.cls
  state := congrArg Objects.read h.objs
  currentSeq := h.currentSeq
  events := h.events

namespace Bystander

variable {cfg : HostConfig S Env Op} {s s' : Sys S Env Op} {g : ℕ}

/-- A deactivation awaits the worker. -/
theorem not_deactStep {env : Env} (hl : Lifecycle s.flow.toLife)
    (hg : (s.host.workers g).stage.alive = true) : s.deactStep env = none := by
  by_contra hs
  obtain ⟨s', hs⟩ := Option.ne_none_iff_exists'.mp hs
  obtain ⟨pc, idle, hd, hseg⟩ := Sys.deactSegment hs
  have hdead : (∀ g, (s.host.workers g).stage.alive = false) → False := fun hdead =>
    absurd (hg.symm.trans (hdead g)) (by simp)
  cases hseg with
  | flush hdone | unflushed hdone => exact hdead (hl.dead_of_done hd hdone)
  | _ => exact hdead (hl.dead_of_deact hd (by simp))

/-- No other worker is alive. -/
theorem not_workerStep {g' : ℕ} {env : Env} {ok : Bool} (hl : Lifecycle s.flow.toLife)
    (hg : (s.host.workers g).stage.alive = true) (hne : g' ≠ g) :
    s.workerStep cfg g' env ok = none := by
  have hdead : (s.host.workers g').stage.alive = false := by
    by_contra halive
    exact hne (hl.only hg (by simpa using halive))
  rw [Sys.workerStep]
  cases hpc : s.host.workers g' with
  | absent => rfl
  | done => rfl
  | _ => exact absurd hdead (by simp [hpc, WorkerPc.stage, WorkerStage.alive])

/-- **No other step touches the log, the state or `currentSeq`** while worker
`g` is in a turn. -/
theorem of_step {a : Act Env} (hl : Lifecycle s.flow.toLife)
    (hg : (s.host.workers g).stage.alive = true)
    (hw : s.host.workers g ≠ .waiting) (ha : ∀ env ok, a ≠ .worker g env ok)
    (h : s.step cfg a = some s') : Bystander g s s' := by
  cases a with
  | activation env ok =>
    rcases Sys.beside_or_opens hl h with hb | ⟨ha, -⟩
    · exact hb.bystander hw
    · exact absurd ((hl.alive g hg).1.symm.trans ha) (by simp)
  | worker g' env ok =>
    rw [Sys.step, not_workerStep hl hg (fun he => ha env ok (by rw [he]))] at h
    exact absurd h (by simp)
  | deactivation env =>
    rw [Sys.step, not_deactStep hl hg] at h
    exact absurd h (by simp)
  | snapshotFire =>
    rw [Sys.step] at h
    unfold Sys.snapshotFire at h
    split at h
    · dsimp only at h
      split at h <;> obtain rfl := Option.some.inj h
      · exact ⟨rfl, rfl, Host.state_flushSnapshot _, rfl, rfl⟩
      · exact ⟨rfl, rfl, rfl, rfl, rfl⟩
    · exact absurd h (by simp)
  | save k ok =>
    rw [Sys.step] at h
    unfold Sys.saveStep at h
    split at h
    · split at h <;> obtain rfl := Option.some.inj h <;> exact ⟨rfl, rfl, rfl, rfl, rfl⟩
    · split at h <;> obtain rfl := Option.some.inj h <;> exact ⟨rfl, rfl, rfl, rfl, rfl⟩
    · exact absurd h (by simp)
  | subscribe l =>
    rw [Sys.step] at h
    unfold Sys.subscribe at h
    split at h
    · exact absurd h (by simp)
    · obtain rfl := Option.some.inj h
      exact ⟨rfl, rfl, rfl, rfl, rfl⟩
  | unsubscribe l =>
    obtain rfl := Option.some.inj h
    exact ⟨rfl, rfl, rfl, rfl, rfl⟩
  | notifyTombstone =>
    obtain rfl := Option.some.inj h
    exact ⟨rfl, rfl, rfl, rfl, rfl⟩
  | _ => exact (Sys.beside_step hl rfl h).bystander hw

end Bystander

/-! ## What a turn comes to

Either nothing of it was done, or all; and what the code may come to besides:
the batch is in the log, and the fold has thrown. -/

/-- A turn that begins in `s₀` and whose handler returned in `s` leaves the
log, the state and `currentSeq` as they were. What the handler itself did to
the state is not undone. -/
structure Untouched (s₀ s s' : Sys S Env Op) : Prop where
  events : s'.store.events = s₀.store.events
  state : s'.host.state = s.host.state
  currentSeq : s'.host.currentSeq = s₀.host.currentSeq

/-- **The events are in the log, folded into the state**, and `currentSeq` is
the head of the log. -/
structure Landed (events : List Json) (s₀ s s' : Sys S Env Op) : Prop where
  appended : ∃ writes version, normalizeEvents events = .ok writes
    ∧ s'.store.events = s₀.store.events
      ++ writes.map (fun w => ⟨version, w.type, w.payload⟩)
  folded : foldEvents s.host.cls s.host.state events = .ok s'.host.state
  head : s'.host.currentSeq = s'.store.headEventSeq

/-- The promise of call `c` is pending. -/
def Sys.Pends (s : Sys S Env Op) (c : ℕ) : Prop :=
  ∃ task, s.host.calls c = some task ∧ task.pc = .queued

/-- The promise of call `c` is settled with `r`. -/
def Sys.Settles (s : Sys S Env Op) (c : ℕ) (r : Except HostError Json) : Prop :=
  ∃ task, s.host.calls c = some task ∧ task.pc = .settled r

/-- **The turn is atomic** that begins in `s₀` with `item`, and whose handler
returned `result` in `s`: it leaves in `s'` all that it should, or nothing; and
nothing is in the log if it rejects the call. -/
structure Atomic (item : Item) (result : Except Json Json) (s₀ s s' : Sys S Env Op) :
    Prop where
  outcome : Untouched s₀ s s'
    ∨ ∃ events, result = .ok (.arr events) ∧ Landed events s₀ s s'
  rejected : ∀ c e, item.callId? = some c → s.Pends c → s'.Settles c (.error e) →
    s'.store.events = s₀.store.events

/-- The handler is about to start, or at an await of its own. -/
def WorkerPc.handling : WorkerPc S → Bool
  | received _ => true
  | running _ _ => true
  | _ => false

/-- The worker is about to dequeue. -/
def WorkerPc.isLooping : WorkerPc S → Bool
  | looping => true
  | _ => false

/-- **A turn of worker `g`**, from the item it received in `s₀` over what the
handler returned in `s` to the end of the turn in `s'`. -/
structure Turn (cfg : HostConfig S Env Op) (g : ℕ) (item : Item)
    (result : Except Json Json) (as bs : List (Act Env)) (s₀ s s' : Sys S Env Op) :
    Prop where
  received : s₀.host.workers g = .received item
  handles : TransitionSystem.run (Sys.step cfg) s₀ as = some s
  handling : TransitionSystem.Along (Sys.step cfg)
    (fun t _ => (t.host.workers g).handling = true) s₀ as
  returned : s.host.workers g = .returned item result
  commits : TransitionSystem.run (Sys.step cfg) s bs = some s'
  committing : TransitionSystem.Along (Sys.step cfg)
    (fun t _ => (t.host.workers g).isLooping = false) s bs
  ended : s'.host.workers g = .looping

/-! ## The commit

By await: what of log, state and seq has moved by then, and what the call has
been told. -/

namespace Turn

/-- The promise of the call is as it was. -/
def Unanswered (item : Item) (s s' : Sys S Env Op) : Prop :=
  ∀ c, item.callId? = some c → s.Pends c → s'.Pends c

/-- The call is resolved with the events. -/
def Answered (item : Item) (events : List Json) (s s' : Sys S Env Op) : Prop :=
  ∀ c, item.callId? = some c → s.Pends c → s'.Settles c (.ok (.arr events))

/-- The events are folded, and the call is resolved. -/
def Done (item : Item) (result : Except Json Json) (s s' : Sys S Env Op) : Prop :=
  ∃ events, result = .ok (.arr events) ∧ Landed events s s s' ∧ Answered item events s s'

/-- `reduce` throws on an event of the batch that the handler returned. -/
def Throws (result : Except Json Json) (s : Sys S Env Op) : Prop :=
  ∃ events x, result = .ok (.arr events)
    ∧ foldEvents s.host.cls s.host.state events = .error x

/-- It has thrown: the state and `currentSeq` are as they were. -/
def Thrown (result : Except Json Json) (s s' : Sys S Env Op) : Prop :=
  Throws result s ∧ s'.host.state = s.host.state
    ∧ s'.host.currentSeq = s.host.currentSeq

end Turn

/-- **How far a commit has got** at each await of the worker, since the handler
returned `result` in `s`. -/
def WorkerPc.Commits (item : Item) (result : Except Json Json) (s s' : Sys S Env Op) :
    WorkerPc S → Prop
  | returned i r => i = item ∧ r = result ∧ Untouched s s s' ∧ Turn.Unanswered item s s'
  | appending i events writes => i = item ∧ result = .ok (.arr events)
    ∧ normalizeEvents events = .ok writes ∧ writes ≠ []
    ∧ Untouched s s s' ∧ Turn.Unanswered item s s'
  | appended i events seq => i = item ∧ result = .ok (.arr events)
    ∧ s'.host.state = s.host.state ∧ s'.host.currentSeq = s.host.currentSeq
    ∧ seq = s'.store.headEventSeq
    ∧ (∃ writes version, normalizeEvents events = .ok writes
      ∧ s'.store.events = s.store.events
        ++ writes.map (fun w => ⟨version, w.type, w.payload⟩))
    ∧ Turn.Unanswered item s s'
  | acking i _ .esEmpty => i = item ∧ item.callId? = none ∧ Untouched s s s'
  | acking i _ (.es events) => i = item ∧ item.callId? = none
    ∧ result = .ok (.arr events) ∧ Landed events s s s'
  | flushing i _ => i = item ∧ Turn.Done item result s s'
  | committed i => i = item ∧ (Untouched s s s' ∨ Turn.Done item result s s')
  -- the turn has ended
  | looping => Untouched s s s' ∨ Turn.Done item result s s' ∨ Turn.Thrown result s s'
  | _ => False

section

variable {cfg : HostConfig S Env Op} {s₀ s t t' : Sys S Env Op} {g : ℕ} {item : Item}
  {result : Except Json Json} {events : List Json}

theorem Untouched.refl (s : Sys S Env Op) : Untouched s s s := ⟨rfl, rfl, rfl⟩

/-- What follows leaves the log, the state and `currentSeq` alone. -/
theorem Untouched.frame (h : Untouched s₀ s t) (he : t'.store.events = t.store.events)
    (hx : t'.host.state = t.host.state) (hq : t'.host.currentSeq = t.host.currentSeq) :
    Untouched s₀ s t' :=
  ⟨he.trans h.events, hx.trans h.state, hq.trans h.currentSeq⟩

theorem Landed.frame (h : Landed events s₀ s t) (he : t'.store.events = t.store.events)
    (hx : t'.host.state = t.host.state) (hq : t'.host.currentSeq = t.host.currentSeq) :
    Landed events s₀ s t' where
  appended := by
    rw [he]
    exact h.appended
  folded := by
    rw [hx]
    exact h.folded
  head := by
    rw [hq, h.head, ActorStore.headEventSeq, ActorStore.headEventSeq, he]

/-- A turn that has done all it should, and goes on to leave it alone. -/
theorem Turn.Done.frame (h : Turn.Done item result s t)
    (he : t'.store.events = t.store.events) (hx : t'.host.state = t.host.state)
    (hq : t'.host.currentSeq = t.host.currentSeq)
    (hc : ∀ c r, t.Settles c r → t'.Settles c r) : Turn.Done item result s t' := by
  obtain ⟨events, hr, hl, ha⟩ := h
  exact ⟨events, hr, hl.frame he hx hq, fun c hi hp => hc c _ (ha c hi hp)⟩

/-- A worker whose commit has not ended holds its item. -/
theorem WorkerPc.Commits.alive {pc : WorkerPc S} (h : pc.Commits item result s t) :
    pc.stage.alive = true ∧ pc ≠ .waiting := by
  cases pc with
  | waiting => exact absurd h id
  | absent => exact absurd h id
  | done => exact absurd h id
  | _ => exact ⟨rfl, by simp⟩

/-- **What the others do leaves the commit as far as it has got.** -/
theorem WorkerPc.Commits.bystander {pc : WorkerPc S} (h : pc.Commits item result s t)
    (hb : Bystander g t t') (hp : ∀ c, t.Pends c → t'.Pends c)
    (hc : ∀ c r, t.Settles c r → t'.Settles c r) : pc.Commits item result s t' := by
  have huntouched : Untouched s s t → Untouched s s t' := fun h =>
    h.frame hb.events hb.state hb.currentSeq
  have hdone : Turn.Done item result s t → Turn.Done item result s t' := fun h =>
    h.frame hb.events hb.state hb.currentSeq hc
  have hun : Turn.Unanswered item s t → Turn.Unanswered item s t' := fun h c hi hs =>
    hp c (h c hi hs)
  cases pc with
  | returned i r =>
    obtain ⟨hi, hr, hu, ha⟩ := h
    exact ⟨hi, hr, huntouched hu, hun ha⟩
  | appending i events writes =>
    obtain ⟨hi, hr, hw, hne, hu, ha⟩ := h
    exact ⟨hi, hr, hw, hne, huntouched hu, hun ha⟩
  | appended i events seq =>
    obtain ⟨hi, hr, hx, hq, hseq, hlog, ha⟩ := h
    refine ⟨hi, hr, hb.state.trans hx, hb.currentSeq.trans hq, ?_, ?_, hun ha⟩
    · rw [hseq, ActorStore.headEventSeq, ActorStore.headEventSeq, hb.events]
    · rw [hb.events]
      exact hlog
  | acking i n after =>
    cases after with
    | swm => exact absurd h id
    | esEmpty => exact ⟨h.1, h.2.1, huntouched h.2.2⟩
    | es events =>
      exact ⟨h.1, h.2.1, h.2.2.1, h.2.2.2.frame hb.events hb.state hb.currentSeq⟩
  | flushing i k => exact ⟨h.1, hdone h.2⟩
  | committed i => exact ⟨h.1, h.2.imp huntouched hdone⟩
  | looping =>
    rcases h with h | h | ⟨ht, hx, hq⟩
    · exact .inl (huntouched h)
    · exact .inr (.inl (hdone h))
    · exact .inr (.inr ⟨ht, hb.state.trans hx, hb.currentSeq.trans hq⟩)
  | _ => exact absurd h id

/-- The others do not settle the promise of a call that is pending. -/
theorem Sys.Pends.of_step {c : ℕ} {a : Act Env} (h : t.Pends c)
    (hl : Lifecycle t.flow.toLife) (hg : (t.host.workers g).stage.alive = true)
    (ha : ∀ env ok, a ≠ .worker g env ok) (hs : t.step cfg a = some t') : t'.Pends c := by
  obtain ⟨task, hc, hq⟩ := h
  refine ⟨task, ?_, hq⟩
  by_cases hw : ∃ g' env ok, a = .worker g' env ok
  · obtain ⟨g', env, ok, rfl⟩ := hw
    rw [Sys.step, Bystander.not_workerStep hl hg (fun he => ha env ok (by rw [he]))] at hs
    exact absurd hs (by simp)
  · exact (Sys.flow_step hs).call_of_ne hl (fun g' env ok he => hw ⟨g', env, ok, he⟩) hc
      (by rw [hq]; rfl)

/-- No step settles a promise again. -/
theorem Sys.Settles.of_step {c : ℕ} {r : Except HostError Json} {a : Act Env}
    (h : t.Settles c r) (hl : Lifecycle t.flow.toLife) (hs : t.step cfg a = some t') :
    t'.Settles c r := by
  obtain ⟨task, hc, hr⟩ := h
  exact ⟨task, (Sys.flow_step hs).settled hl hc hr, hr⟩

/-! ### The steps of the worker -/

/-- What follows the acknowledgement of a batch leaves the log, the state,
`currentSeq` and the calls alone. -/
theorem Sys.commitEsTail_frame (cfg : HostConfig S Env Op) (t : Sys S Env Op) (g : ℕ)
    (item : Item) (events : List Json) :
    (t.commitEsTail cfg g item events).store.events = t.store.events
      ∧ (t.commitEsTail cfg g item events).host.state = t.host.state
      ∧ (t.commitEsTail cfg g item events).host.currentSeq = t.host.currentSeq
      ∧ (t.commitEsTail cfg g item events).host.cls = t.host.cls
      ∧ (t.commitEsTail cfg g item events).host.calls = t.host.calls := by
  unfold Sys.commitEsTail
  dsimp only
  split
  · exact ⟨rfl, Host.state_flushSnapshot _, rfl, rfl, rfl⟩
  · exact ⟨rfl, rfl, rfl, rfl, rfl⟩

/-- After it, the worker flushes or has committed. -/
theorem Turn.Done.commitEsTail (h : Turn.Done item result s t) (g : ℕ) (es : List Json) :
    ((t.commitEsTail cfg g item es).host.workers g).Commits item result s
      (t.commitEsTail cfg g item es) := by
  obtain ⟨he, hx, hq, -, hc⟩ := Sys.commitEsTail_frame cfg t g item es
  have hdone : Turn.Done item result s (t.commitEsTail cfg g item es) :=
    h.frame he hx hq (fun c r ⟨task, ht, hr⟩ => ⟨task, hc ▸ ht, hr⟩)
  revert hdone
  unfold Sys.commitEsTail
  dsimp only
  split
  · intro hdone
    show (update t.host.workers g _ g).Commits item result s _
    rw [Function.update_self]
    exact ⟨rfl, hdone⟩
  · intro hdone
    show (update t.host.workers g _ g).Commits item result s _
    rw [Function.update_self]
    exact ⟨rfl, .inr hdone⟩

/-- A worker that is moved is where it was moved to. -/
theorem WorkerPc.Commits.moved {pc : WorkerPc S}
    (h : pc.Commits item result s (t.setWorker g pc)) :
    ((t.setWorker g pc).host.workers g).Commits item result s (t.setWorker g pc) := by
  show (update t.host.workers g pc g).Commits item result s _
  rw [Function.update_self]
  exact h

/-- **The batch is folded**: what the handler returned is in the log and in the state. -/
theorem landed_afterFold {i : Item} {seq : ℤ} {x : S} (hcls : t.host.cls = s.host.cls)
    (h : (WorkerPc.appended i events seq).Commits item result s t)
    (hf : foldEvents t.host.cls t.host.state events = .ok x) :
    Landed events s s (t.afterFold events seq x) := by
  obtain ⟨-, -, hx, -, hseq, hlog, -⟩ := h
  rw [hcls, hx] at hf
  exact
    { appended := hlog
      folded := hf.trans (congrArg Except.ok (Objects.read_assign _ _).symm)
      head := hseq }

/-- **A step of the worker** gets on with the commit. -/
theorem commits_workerStep {env : Env} {ok : Bool} (hcls : t.host.cls = s.host.cls)
    (hes : s.host.cls.isEs = true) (h : (t.host.workers g).Commits item result s t)
    (hne : (t.host.workers g).isLooping = false) (hs : t.workerStep cfg g env ok = some t') :
    t'.host.cls = t.host.cls ∧ (t'.host.workers g).Commits item result s t' := by
  obtain ⟨pc, hpc, hseg⟩ := Sys.workerSegment hs
  have hes' : t.host.cls.isEs = true := hcls ▸ hes
  have hdone : ∀ {i n events} {u : Sys S Env Op},
      (WorkerPc.acking i n (.es events)).Commits item result s t →
      u.store.events = t.store.events → u.host.state = t.host.state →
      u.host.currentSeq = t.host.currentSeq → Turn.Done item result s u :=
    fun ⟨_, hn, hr, hl⟩ he hx hq =>
      ⟨_, hr, hl.frame he hx hq, fun c hc => absurd (hn.symm.trans hc) (by simp)⟩
  rw [hpc] at h hne
  cases hseg with
  | dequeue => exact absurd hne (by simp [WorkerPc.isLooping])
  | @failed _ i e hf =>
    refine ⟨rfl, .moved ?_⟩
    cases pc with
    | returned j r => exact .inl (h.2.2.1.frame rfl rfl rfl)
    | appending j events writes => exact .inl (h.2.2.2.2.1.frame rfl rfl rfl)
    | appended j events seq =>
      obtain ⟨-, hr, hx, hq, -⟩ := h
      cases hfold : foldEvents t.host.cls t.host.state events with
      | error x => exact .inr (.inr ⟨⟨events, x, hr, hcls ▸ hx ▸ hfold⟩, hx, hq⟩)
      | ok x => exact absurd hf.2 (by rw [hfold]; simp [Except.isOk, Except.toBool])
    | acking j n after =>
      cases after with
      | swm => exact absurd h id
      | esEmpty => exact .inl (h.2.2.frame rfl rfl rfl)
      | es events => exact .inr (.inl (hdone h rfl rfl rfl))
    | flushing j k =>
      refine .inr (.inl (h.2.frame rfl rfl rfl (fun c r hc => ?_)))
      obtain ⟨task, ht, hr⟩ := hc
      refine ⟨task, ?_, hr⟩
      have hsettle := settleItem_call ht i (.error e)
      rw [CallTask.settle_settled hr, or_self] at hsettle
      exact hsettle
    | _ => exact hf.elim
  | resolveSwm hn | ackSwm hn => exact absurd (hes'.symm.trans hn) (by simp)
  | swmAcked => exact absurd h id
  | resolveEmpty =>
    obtain ⟨rfl, -, hu, -⟩ := h
    exact ⟨rfl, .moved ⟨rfl, .inl (hu.frame rfl rfl rfl)⟩⟩
  | ackEmpty =>
    obtain ⟨rfl, -, hu, -⟩ := h
    exact ⟨rfl, .moved ⟨rfl, rfl, hu.frame rfl rfl rfl⟩⟩
  | append _ hw =>
    obtain ⟨rfl, hr, hu, hun⟩ := h
    refine ⟨rfl, .moved ⟨rfl, hr.symm, hw, ?_, hu.frame rfl rfl rfl, hun⟩⟩
    rintro rfl
    exact absurd (normalizeEvents_length hw) (by simp)
  | @appended i events writes store seq _ ha =>
    obtain ⟨rfl, hr, hw, hne, hu, hun⟩ := h
    obtain ⟨r, -, hst⟩ := ActorStore.appendEvents_rows ha hne
    refine ⟨rfl, .moved ⟨rfl, hr, hu.state, hu.currentSeq,
      (ActorStore.appendEvents_spec ha).2.1, ⟨writes, r.version, hw, ?_⟩, hun⟩⟩
    show store.events = _
    rw [hst, hu.events]
  | @resolveEs method args c events seq x hf =>
    have hlanded := landed_afterFold hcls h hf
    obtain ⟨rfl, hr, hx, hq, hseq, hlog, hun⟩ := h
    have hdone : Turn.Done (.call method args c) result s
        ((t.afterFold events seq x).resolveCall (.call method args c) c (.arr events)) := by
      refine ⟨events, hr, hlanded.frame rfl rfl rfl, fun c' hc' hp => ?_⟩
      obtain rfl := Option.some.inj hc'
      obtain ⟨task, ht, hq⟩ := hun c rfl hp
      refine ⟨task.settle (.ok (.arr events)), ?_, ?_⟩
      · show update t.host.calls c ((t.host.calls c).map _) c = _
        rw [Function.update_self, ht]
        rfl
      · rw [CallTask.settle, hq]
    exact ⟨(Sys.commitEsTail_frame _ _ g _ events).2.2.2.1, hdone.commitEsTail g events⟩
  | ackEs hf =>
    have hlanded := landed_afterFold hcls h hf
    obtain ⟨rfl, hr, -⟩ := h
    exact ⟨rfl, .moved ⟨rfl, rfl, hr, hlanded.frame rfl rfl rfl⟩⟩
  | emptyAcked =>
    obtain ⟨rfl, -, hu⟩ := h
    exact ⟨rfl, .moved ⟨rfl, .inl (hu.frame rfl rfl rfl)⟩⟩
  | @esAcked i n events =>
    have hacked : Turn.Done item result s (t.afterAck n) := hdone h rfl rfl rfl
    obtain ⟨rfl, -⟩ := h
    exact ⟨(Sys.commitEsTail_frame _ _ g _ events).2.2.2.1, hacked.commitEsTail g events⟩
  | flushed =>
    obtain ⟨rfl, hd⟩ := h
    exact ⟨rfl, .moved ⟨rfl, .inr (hd.frame rfl rfl rfl (fun c r hc => hc))⟩⟩
  | finish =>
    obtain ⟨rfl, hd⟩ := h
    exact ⟨rfl, .moved (hd.imp (fun hu => hu.frame rfl rfl rfl)
      (fun hd => .inl (hd.frame rfl rfl rfl (fun c r hc => hc))))⟩
  | _ => exact absurd h id

/-! ### A run of it -/

/-- **A commit in progress**, since the handler returned `result` in `s`. -/
structure Turn.Committing (g : ℕ) (item : Item) (result : Except Json Json)
    (s t : Sys S Env Op) : Prop where
  life : Lifecycle t.flow.toLife
  cls : t.host.cls = s.host.cls
  commits : (t.host.workers g).Commits item result s t

/-- **Every step gets on with the commit**, or leaves it as far as it has got. -/
theorem Turn.Committing.step {a : Act Env} (h : Turn.Committing g item result s t)
    (hes : s.host.cls.isEs = true) (hne : (t.host.workers g).isLooping = false)
    (hs : t.step cfg a = some t') : Turn.Committing g item result s t' := by
  obtain ⟨hg, hw⟩ := h.commits.alive
  suffices hboth : t'.host.cls = s.host.cls
      ∧ (t'.host.workers g).Commits item result s t' from
    ⟨h.life.of_moves (Sys.flow_step hs), hboth.1, hboth.2⟩
  by_cases ha : ∃ env ok, a = .worker g env ok
  · obtain ⟨env, ok, rfl⟩ := ha
    obtain ⟨hc, hcommits⟩ := commits_workerStep h.cls hes h.commits hne hs
    exact ⟨hc.trans h.cls, hcommits⟩
  · have ha : ∀ env ok, a ≠ .worker g env ok := fun env ok he => ha ⟨env, ok, he⟩
    have hb := Bystander.of_step h.life hg hw ha hs
    refine ⟨hb.cls.trans h.cls, ?_⟩
    rw [hb.worker]
    exact h.commits.bystander hb (fun c hp => hp.of_step h.life hg ha hs)
      (fun c r hc => hc.of_step h.life hs)

/-- **The handler** leaves the log and `currentSeq` alone. -/
theorem Turn.handled {as bs : List (Act Env)} (ht : Turn cfg g item result as bs s₀ s t')
    (hl : Lifecycle s₀.flow.toLife) :
    Lifecycle s.flow.toLife ∧ s.host.cls = s₀.host.cls
      ∧ s.store.events = s₀.store.events ∧ s.host.currentSeq = s₀.host.currentSeq := by
  refine TransitionSystem.run_invariant (Sys.step cfg)
    (P := fun t => Lifecycle t.flow.toLife ∧ t.host.cls = s₀.host.cls
      ∧ t.store.events = s₀.store.events ∧ t.host.currentSeq = s₀.host.currentSeq)
    (fun t a t' ⟨hl, hc, he, hq⟩ hG hs => ⟨hl.of_moves (Sys.flow_step hs), ?_⟩)
    ⟨hl, rfl, rfl, rfl⟩ ht.handling ht.handles
  by_cases ha : ∃ env ok, a = .worker g env ok
  · obtain ⟨env, ok, rfl⟩ := ha
    obtain ⟨pc, hpc, hseg⟩ := Sys.workerSegment hs
    rw [hpc] at hG
    cases hseg with
    | refuse | ignore | start | run => exact ⟨hc, he, hq⟩
    | failed e hf =>
      cases pc <;> first | exact hf.elim | exact absurd hG (by simp [WorkerPc.handling])
    | _ => exact absurd hG (by simp [WorkerPc.handling])
  · have hg : (t.host.workers g).stage.alive = true ∧ t.host.workers g ≠ .waiting := by
      cases hpc : t.host.workers g with
      | received i => exact ⟨rfl, by simp⟩
      | running i rest => exact ⟨rfl, by simp⟩
      | _ => exact absurd hG (by simp [hpc, WorkerPc.handling])
    have hb := Bystander.of_step hl hg.1 hg.2 (fun env ok he => ha ⟨env, ok, he⟩) hs
    exact ⟨hb.cls.trans hc, hb.events.trans he, hb.currentSeq.trans hq⟩

/-- The log never loses an event. -/
theorem length_events_le {as : List (Act Env)} (hl : Lifecycle t.flow.toLife)
    (hs : TransitionSystem.run (Sys.step cfg) t as = some t') :
    t.store.events.length ≤ t'.store.events.length := by
  refine (TransitionSystem.run_invariant' (Sys.step cfg)
    (P := fun u => Lifecycle u.flow.toLife
      ∧ t.store.events.length ≤ u.store.events.length)
    (fun u a u' ⟨hl, hle⟩ hs => ⟨hl.of_moves (Sys.flow_step hs), hle.trans ?_⟩)
    ⟨hl, Nat.le_refl _⟩ hs).2
  obtain he | ⟨g, env, writes, seq, -, -, ha⟩ := Sys.events_step hl hs
  · exact Nat.le_of_eq (by rw [he])
  · obtain ⟨-, -, -, new, he, -⟩ := ActorStore.appendEvents_spec ha
    rw [he, List.length_append]
    exact Nat.le_add_right _ _

end

/-! ## The condition

What the driver is given to append folds. It is a condition on the state in
which the append is made, and the theorem is an equivalence. -/

/-- **The driver appends a batch only if `reduce` folds it.** -/
def Sys.appendFolds (s : Sys S Env Op) : Act Env → Bool
  | .worker g _ true =>
    match s.host.workers g with
    | .appending _ events writes =>
      (s.store.appendEvents writes).isNone
        || (foldEvents s.host.cls s.host.state events).isOk
    | _ => true
  | _ => true

section

variable {cfg : HostConfig S Env Op} {s₀ s t t' : Sys S Env Op} {g : ℕ} {item : Item}
  {result : Except Json Json} {as bs : List (Act Env)}

/-- The batch that is about to be appended is the one the handler returned. -/
theorem Turn.Committing.appending {g' : ℕ} {i : Item} {events : List Json}
    {writes : List EventWrite} (h : Turn.Committing g item result s t)
    (hpc : t.host.workers g' = .appending i events writes) :
    result = .ok (.arr events) ∧ writes ≠ [] ∧ t.host.state = s.host.state := by
  have hg' : g' = g := h.life.only h.commits.alive.1 (by rw [hpc]; rfl)
  have hc := h.commits
  rw [← hg', hpc] at hc
  obtain ⟨-, hr, -, hne, hu, -⟩ := hc
  exact ⟨hr, hne, hu.state⟩

/-- **A batch that cannot be folded grows the log** when the driver appends it. -/
theorem Turn.Committing.grows {a : Act Env} (h : Turn.Committing g item result s t)
    (hG : ¬t.appendFolds a = true) (hs : t.step cfg a = some t') :
    t.store.events.length < t'.store.events.length := by
  unfold Sys.appendFolds at hG
  split at hG
  · split at hG
    · next i events writes hpc =>
      obtain ⟨-, hne, -⟩ := h.appending hpc
      simp only [Sys.step, Sys.workerStep, hpc, if_true] at hs
      cases ha : t.store.appendEvents writes with
      | none => exact absurd hG (by simp [ha])
      | some p =>
        obtain ⟨store, seq⟩ := p
        rw [ha] at hs
        obtain rfl := Option.some.inj hs
        obtain ⟨r, -, he⟩ := ActorStore.appendEvents_rows ha hne
        show t.store.events.length < store.events.length
        rw [he, List.length_append, List.length_map]
        exact Nat.lt_add_of_pos_right (List.length_pos_iff.mpr hne)
    · exact absurd rfl hG
  · exact absurd rfl hG

/-- Where `reduce` throws on the batch, the condition keeps it out of the log. -/
theorem Turn.Committing.events_eq {a : Act Env} (h : Turn.Committing g item result s t)
    (hth : Turn.Throws result s) (hG : t.appendFolds a = true)
    (hs : t.step cfg a = some t') : t'.store.events = t.store.events := by
  obtain he | ⟨g', env, writes, seq, rfl, happ, ha⟩ := Sys.events_step h.life hs
  · exact he
  cases hpc : t.host.workers g' with
  | appending i events writes' =>
    obtain ⟨hr, -, hx⟩ := h.appending hpc
    obtain ⟨events', x, hr', hf⟩ := hth
    obtain rfl : events = events' := by simpa [hr] using hr'
    simp only [Sys.step, Sys.workerStep, hpc, if_true] at hs
    cases ha' : t.store.appendEvents writes' with
    | none =>
      rw [ha'] at hs
      obtain rfl := Option.some.inj hs
      rfl
    | some p =>
      exact absurd hG
        (by simp [Sys.appendFolds, hpc, ha', h.cls, hx, hf, Except.isOk, Except.toBool])
  | _ => exact absurd happ (by simp [hpc, WorkerPc.isAppending])

/-- Where `reduce` throws on nothing that the handler returned, nothing else is
appended. -/
theorem Turn.Committing.appendFolds {a : Act Env} (h : Turn.Committing g item result s t)
    (hth : ¬Turn.Throws result s) : t.appendFolds a = true := by
  unfold Sys.appendFolds
  split
  · split
    · next i events writes hpc =>
      obtain ⟨hr, -, hx⟩ := h.appending hpc
      rw [h.cls, hx, Bool.or_eq_true]
      refine .inr ?_
      cases hf : foldEvents s.host.cls s.host.state events with
      | error x => exact absurd ⟨events, x, hr, hf⟩ hth
      | ok x => rfl
    · rfl
  · rfl

/-- What is done is in the log, and the call is not rejected. -/
theorem Turn.Done.atomic (h : Turn.Done item result s t)
    (he : s.store.events = s₀.store.events) : Atomic item result s₀ s t := by
  obtain ⟨events, hr, hl, ha⟩ := h
  refine ⟨.inr ⟨events, hr, he ▸ hl.appended, hl.folded, hl.head⟩, ?_⟩
  rintro c e hc hp ⟨task, ht, hpc⟩
  obtain ⟨task', ht', hpc'⟩ := ha c hc hp
  obtain rfl := Option.some.inj (ht.symm.trans ht')
  exact absurd (hpc.symm.trans hpc') (by simp)

/-- Nothing is in the log. -/
theorem Untouched.atomic (h : Untouched s s t) (he : s.store.events = s₀.store.events)
    (hq : s.host.currentSeq = s₀.host.currentSeq) : Atomic item result s₀ s t :=
  ⟨.inl ⟨h.events.trans he, h.state, h.currentSeq.trans hq⟩,
    fun _ _ _ _ _ => h.events.trans he⟩

/-- A batch that `reduce` throws on is not in the log of an atomic turn. -/
theorem Atomic.events_eq (h : Atomic item result s₀ s t) (hth : Turn.Throws result s) :
    t.store.events = s₀.store.events := by
  obtain hu | ⟨events, hr, hl⟩ := h.outcome
  · exact hu.events
  · obtain ⟨events', x, hr', hf⟩ := hth
    obtain rfl : events = events' := by simpa [hr] using hr'
    exact absurd (hl.folded.symm.trans hf) (by simp)

end

/-- **A turn of an event-sourced actor is atomic** if and only if the driver is
given no batch to append that `reduce` throws on. -/
theorem turn_atomic_iff (cfg : HostConfig S Env Op) (store : ActorStore S)
    {xs as bs : List (Act Env)} {g : ℕ} {item : Item} {result : Except Json Json}
    {s₀ s s' : Sys S Env Op}
    (h₀ : TransitionSystem.run (Sys.step cfg) (.init cfg store) xs = some s₀)
    (hes : s₀.host.cls.isEs = true) (ht : Turn cfg g item result as bs s₀ s s') :
    Atomic item result s₀ s s'
      ↔ TransitionSystem.Along (Sys.step cfg) (fun t a => t.appendFolds a = true) s bs := by
  obtain ⟨hl, hc, he, hq⟩ := ht.handled (Sys.lifecycle_run h₀)
  have hes : s.host.cls.isEs = true := by rw [hc]; exact hes
  have hstart : Turn.Committing g item result s s := by
    refine ⟨hl, rfl, ?_⟩
    rw [ht.returned]
    exact ⟨rfl, rfl, .refl s, fun c _ hp => hp⟩
  have hend := (TransitionSystem.run_invariant (Sys.step cfg)
    (fun t a t' h hne hs => h.step hes hne hs) hstart ht.committing ht.commits).commits
  rw [ht.ended] at hend
  by_cases hth : Turn.Throws result s
  · constructor
    · -- had the batch been appended, the log would have grown
      intro hatomic
      by_contra hG
      obtain ⟨ys, a, zs, t, t', rfl, hys, hGt, ha, hzs⟩ :=
        TransitionSystem.exists_of_not_along (Sys.step cfg) ht.commits hG
      have hlog := hatomic.events_eq hth
      have hcommitting := TransitionSystem.run_invariant (Sys.step cfg)
        (fun t a t' h hne hs => Turn.Committing.step h hes hne hs) hstart
        (ht.committing.left (Sys.step cfg)) hys
      have hgrows := hcommitting.grows hGt ha
      have hbefore := length_events_le hl hys
      have hafter := length_events_le (hcommitting.life.of_moves (Sys.flow_step ha)) hzs
      rw [he] at hbefore
      rw [hlog] at hafter
      omega
    · intro hG
      obtain ⟨-, hevents⟩ := TransitionSystem.run_invariant (Sys.step cfg)
        (P := fun t => Turn.Committing g item result s t ∧ t.store.events = s.store.events)
        (fun t a t' h hG hs => ⟨h.1.step hes hG.1 hs, (h.1.events_eq hth hG.2 hs).trans h.2⟩)
        ⟨hstart, rfl⟩ (ht.committing.and (Sys.step cfg) hG) ht.commits
      obtain hu | hd | ⟨-, hx, hcur⟩ := hend
      · exact hu.atomic he hq
      · exact hd.atomic he
      · exact Untouched.atomic ⟨hevents, hx, hcur⟩ he hq
  · refine ⟨fun _ => ?_, fun _ => ?_⟩
    · exact TransitionSystem.along_invariant (Sys.step cfg)
        (fun t a t' h hne hs => Turn.Committing.step h hes hne hs)
        (fun t a h _ => h.appendFolds hth) hstart ht.committing
    · obtain hu | hd | hd := hend
      · exact hu.atomic he hq
      · exact hd.atomic he
      · exact absurd hd.1 hth

/-! ## A limit -/

namespace Ledger

/-- A `reduce` that throws if the balance would be more than one. -/
def capped (balance : ℤ) (e : Json) : Except Json ℤ :=
  if balance + amount e ≤ 1 then .ok (balance + amount e)
  else .error (.str "over the limit")

/-- The event of a deposit. -/
def depositEvent : Json := .obj [("type", .str "Deposited"), ("amount", .num 1)]

/-- An activation, and a call to deposit. -/
def asked : List (Act Unit) := activating 8 ++ [.callStart 0 "deposit" .null]

/-- Another call, once the first is settled. -/
def askedAgain : List (Act Unit) :=
  asked ++ List.replicate 6 (.worker 1 () true)
    ++ [.callStart 1 "deposit" .null]

/-- Where a run leads. -/
def after (xs : List (Act Unit)) : Sys ℤ Unit Unit :=
  (TransitionSystem.run (Sys.step (cfg capped)) (.init (cfg capped) .empty) xs).getD
    (.init (cfg capped) .empty)

/-- The steps of a turn of the worker. -/
def turning (n : ℕ) : List (Act Unit) := List.replicate n (.worker 1 () true)

/-- The first deposit is a turn. -/
theorem turn_asked :
    Turn (cfg capped) 1 (.call "deposit" .null 0) (.ok (.arr [depositEvent])) (turning 1)
      (turning 4) (after asked) (after (asked ++ turning 1)) (after (asked ++ turning 5)) :=
  ⟨rfl, rfl, by decide, rfl, rfl, by decide, rfl⟩

/-- So is the second. -/
theorem turn_askedAgain :
    Turn (cfg capped) 1 (.call "deposit" .null 1) (.ok (.arr [depositEvent])) (turning 1)
      (turning 3) (after askedAgain) (after (askedAgain ++ turning 1))
      (after (askedAgain ++ turning 4)) :=
  ⟨rfl, rfl, by decide, rfl, rfl, by decide, rfl⟩

end Ledger

/-- The theorem applies to the first deposit, which is folded. -/
theorem turn_atomic_iff_deposit :
    Atomic (.call "deposit" .null 0) (.ok (.arr [Ledger.depositEvent])) (Ledger.after Ledger.asked)
        (Ledger.after (Ledger.asked ++ Ledger.turning 1))
        (Ledger.after (Ledger.asked ++ Ledger.turning 5))
      ∧ (Ledger.after (Ledger.asked ++ Ledger.turning 5)).host.state = 1 := by
  have hasked : TransitionSystem.run (Sys.step (Ledger.cfg Ledger.capped))
      (.init (Ledger.cfg Ledger.capped) .empty) Ledger.asked
        = some (Ledger.after Ledger.asked) := rfl
  exact ⟨(turn_atomic_iff _ _ hasked rfl Ledger.turn_asked).mpr (by decide), rfl⟩

/-- **A `reduce` that throws** leaves the second deposit in the log, the balance
and `currentSeq` without it, and the call rejected. -/
theorem not_turn_atomic :
    ¬∀ (xs as bs : List (Act Unit)) (item : Item) (result : Except Json Json)
      (s₀ s s' : Sys ℤ Unit Unit),
      TransitionSystem.run (Sys.step (Ledger.cfg Ledger.capped))
        (.init (Ledger.cfg Ledger.capped) .empty) xs = some s₀ →
      Turn (Ledger.cfg Ledger.capped) 1 item result as bs s₀ s s' →
      Atomic item result s₀ s s' := by
  intro h
  have hatomic := h Ledger.askedAgain _ _ _ _ _ _ _ rfl Ledger.turn_askedAgain
  have hlog := hatomic.events_eq ⟨[Ledger.depositEvent], .str "over the limit", rfl, rfl⟩
  exact absurd (congrArg List.length hlog) (by decide)
