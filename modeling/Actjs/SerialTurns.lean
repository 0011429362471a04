import Actjs.InFlight
import Actjs.MailboxOrder

/-!
# Serial turns

A host handles one message at a time, in the order its mailbox accepted
them, between the end of its activation and the beginning of its
`onDeactivate`. The life of a host and the order of its mailbox say most of
this, of every reachable host. Settling calls takes more: a call that waits
for an activation goes on, once it has succeeded, without looking whether
the host is still activated. If by then the host was deactivated and another
activation begun, the call enters a mailbox that no worker may ever read.
`Accounted` is what holds as long as that does not happen.
-/

open Function (update)

/-! ## Calls

A call is pending from the moment its item is in the mailbox until its promise
is settled, and a pending call is in flight: the invariant that fails when a
call enters a mailbox that no worker will read. -/

/-- The call whose promise the worker has yet to settle. -/
def WorkerStage.unsettled : WorkerStage → Option ℕ
  | received item => item.callId?
  | turn item => item.callId?
  | _ => none

/-- Calls, in flight until they are settled. -/
def Reading.call : Reading where
  key := Item.callId?
  hand := WorkerStage.unsettled
  received _ := rfl
  looping := rfl
  waiting := rfl
  exiting := rfl
  dead w h := by
    cases w <;> first | rfl | exact absurd h (by simp [WorkerStage.alive])

/-- A call is pending after a settlement only if it was before, and is not
the one settled. -/
theorem queued_settleItem {calls : ℕ → Option CallTask} {item : Item}
    {r : Except HostError Json} {c : ℕ} {task : CallTask}
    (h : settleItem calls item r c = some task) (hq : task.pc = .queued) :
    calls c = some task ∧ item.callId? ≠ some c := by
  cases item with
  | tell type payload id => exact ⟨h, by simp [Item.callId?]⟩
  | call method args c' =>
    rw [settleItem, Function.update_apply] at h
    split at h
    · obtain ⟨old, -, rfl⟩ := Option.map_eq_some_iff.mp h
      unfold CallTask.settle at hq
      split at hq
      · exact absurd hq (by simp)
      · next hne => exact absurd hq hne
    · next hne => exact ⟨h, fun he => hne (Option.some.inj he).symm⟩

/-- **Every pending call is in flight**, and a host that is not activated has
none. This is what fails when a call enters the mailbox of a host that was
deactivated while the call awaited its activation. -/
structure Accounted (f : HostFlow) : Prop where
  held : ∀ c task, f.calls c = some task → task.pc = .queued → f.Has .call c
  down : f.activated = false →
    ∀ c task, f.calls c = some task → task.pc ≠ .queued

namespace Accounted

variable {f f' : HostFlow} {g : ℕ}

/-- What keeps every call in flight, and settles none of them, keeps the
calls accounted for. -/
theorem keep (h : Accounted f) (hc : f'.calls = f.calls)
    (ha : f'.activated = false → f.activated = false)
    (hk : ∀ c, f.Has .call c → f'.Has .call c) : Accounted f' where
  held c task ht hq := by
    rw [hc] at ht
    exact hk c (h.held c task ht hq)
  down hd c task ht := by
    rw [hc] at ht
    exact h.down (ha hd) c task ht

/-- The calls do not depend on the rest of the flow. -/
theorem frame (h : Accounted f) (hw : f'.workers = f.workers)
    (hc : f'.calls = f.calls) (ha : f'.activated = f.activated)
    (hb : f'.mailbox.buffer = f.mailbox.buffer) : Accounted f' :=
  h.keep hc (fun hd => ha.symm.trans hd) (fun _ hh => hh.frame hw hb)

/-- Worker `g` moves, and lets go of no unsettled call. -/
theorem move (h : Accounted f) {w : WorkerStage}
    (hw : f'.workers = update f.workers g w) (hm : f'.mailbox = f.mailbox)
    (ha : f'.activated = f.activated) (hc : f'.calls = f.calls)
    (hg : (f.workers g).unsettled = none ∨ (f.workers g).unsettled = w.unsettled) :
    Accounted f' := by
  refine h.keep hc (fun hd => ha.symm.trans hd) (fun c hh => hh.move hw hm ?_)
  intro hk
  rcases hg with hg | hg
  · exact absurd (hg.symm.trans hk) (by simp)
  · exact hg.symm.trans hk

/-- Worker `g` moves, and settles the call it may have in its hands. -/
theorem settle (h : Accounted f) (item : Item) {w : WorkerStage}
    {r : Except HostError Json} (hw : f'.workers = update f.workers g w)
    (hm : f'.mailbox = f.mailbox) (ha : f'.activated = f.activated)
    (hc : f'.calls = settleItem f.calls item r)
    (hu : (f.workers g).unsettled = none
      ∨ (f.workers g).unsettled = item.callId?) : Accounted f' where
  held c task ht hq := by
    rw [hc] at ht
    obtain ⟨ht', hne⟩ := queued_settleItem ht hq
    refine (h.held c task ht' hq).move hw hm (fun hk => ?_)
    have hk' : (f.workers g).unsettled = some c := hk
    rcases hu with hu | hu
    · exact absurd (hu.symm.trans hk') (by simp)
    · exact absurd (hu.symm.trans hk') hne
  down hd c task ht hq := by
    rw [hc] at ht
    exact h.down (ha ▸ hd) c task (queued_settleItem ht hq).1 hq

/-! ### The steps -/

/-- A new mailbox replaces one that no pending call is in. -/
theorem of_opening (h : Accounted f) (hs : f.Opening f') : Accounted f' := by
  cases hs with
  | none => exact h
  | refuse ha hp => exact h.frame rfl rfl rfl rfl
  | begin capacity hc ha hp =>
    exact ⟨fun c task ht hq => absurd hq (h.down ha c task ht), h.down⟩

theorem of_activating (h : Accounted f) (hl : Lifecycle f.toLife)
    (hs : f.Activating f') : Accounted f' := by
  have hk : ∀ c, f.Has .call c → f'.Has .call c :=
    fun c hh => hh.of_activating hl hs
  cases hs with
  | activated hi => exact h.keep rfl (fun hd => absurd hd (by simp [HostFlow.dequeue])) hk
  | replayed hp =>
    rw [HostFlow.enqueueAll_frame] at hk ⊢
    exact h.keep rfl id hk
  | _ => exact h.keep rfl id hk

theorem of_working (h : Accounted f) (hs : f.Working g f') :
    Accounted f' := by
  cases hs with
  | dequeue hg => exact h.keep rfl id (fun c hh => hh.dequeue (by rw [hg]; rfl))
  | exit hg => exact h.move rfl rfl rfl rfl (.inl (by rw [hg]; rfl))
  | @refuse m x c e hg =>
    exact h.settle (.call m x c) rfl rfl rfl rfl (.inr (by rw [hg]; rfl))
  | ignore hg => exact h.move rfl rfl rfl rfl (.inl (by rw [hg]; rfl))
  | start hg => exact h.move rfl rfl rfl rfl (.inr (by rw [hg]; rfl))
  | @resolve m x c r hg =>
    exact h.settle (.call m x c) rfl rfl rfl rfl (.inr (by rw [hg]; rfl))
  | commit hg => exact h.move rfl rfl rfl rfl (.inl (by rw [hg]; rfl))
  | ack hg => exact h.move rfl rfl rfl rfl (.inl (by rw [hg]; rfl))
  | turn hg => rw [HostFlow.setWorker_self hg]; exact h
  | flush hg => rw [HostFlow.setWorker_self hg]; exact h
  | @fail item e hg =>
    refine h.settle item rfl rfl rfl rfl ?_
    rcases hg with hg | ⟨id, hg⟩ | hg
    · exact .inr (by rw [hg]; rfl)
    · exact .inl (by rw [hg]; rfl)
    · exact .inl (by rw [hg]; rfl)
  | unhandled ok hg => exact h.move rfl rfl rfl rfl (.inl (by rw [hg]; rfl))
  | finish hg => exact h.move rfl rfl rfl rfl (.inl (by rw [hg]; rfl))

/-- A deactivation whose worker has returned leaves no call pending. -/
theorem none_queued (h : Accounted f) (hb : f.mailbox.buffer = [])
    (hdead : ∀ g, (f.workers g).alive = false) {c : ℕ} {task : CallTask}
    (ht : f.calls c = some task) : task.pc ≠ .queued :=
  fun hq => HostFlow.Has.not_of_dead hb hdead (h.held c task ht hq)

theorem of_deactivating (h : Accounted f) (hl : Lifecycle f.toLife)
    (hs : f.Deactivating f') : Accounted f' := by
  cases hs with
  | finish hd =>
    have hdr : (∀ g, (f.workers g).alive = false) ∧ f.mailbox.buffer = [] := by
      rcases hd with hd | hd <;> exact hl.drained _ hd (by simp)
    exact ⟨h.held, fun _ c task ht => h.none_queued hdr.2 hdr.1 ht⟩
  | _ => exact h.frame rfl rfl rfl rfl

theorem of_closing (h : Accounted f) (hl : Lifecycle f.toLife)
    (hs : f.Closing f') : Accounted f' := by
  have hk : ∀ c, f.Has .call c → f'.Has .call c :=
    fun c hh => hh.of_closing hl hs
  cases hs with
  | unattended _ hd ha hg => exact absurd hg (hl.present ha (by simp [hd])).1
  | _ => exact h.keep rfl id hk

theorem of_telling {t : ℕ} (h : Accounted f) (hl : Lifecycle f.toLife)
    (hs : f.Telling t f') : Accounted f' := by
  have hk : ∀ c, f.Has .call c → f'.Has .call c :=
    fun c hh => hh.of_telling hl hs
  cases hs <;> exact h.keep rfl id hk

/-- A call that has not entered the mailbox moves. -/
theorem setCall (h : Accounted f) {c : ℕ} {task : CallTask}
    (hp : task.pc.entered = false) :
    Accounted { f with calls := update f.calls c (some task) } := by
  have hold : ∀ c' task', update f.calls c (some task) c' = some task' →
      task'.pc = .queued → f.calls c' = some task' := by
    intro c' task' ht hq
    rw [Function.update_apply] at ht
    split at ht
    · obtain rfl := Option.some.inj ht
      rw [hq] at hp
      exact absurd hp (by simp [CallPc.entered])
    · exact ht
  exact ⟨fun c' task' ht hq => h.held c' task' (hold c' task' ht hq) hq,
    fun ha c' task' ht hq => h.down ha c' task' (hold c' task' ht hq) hq⟩

/-- A call enters the mailbox of an activated host. -/
theorem of_calling {c : ℕ} (h : Accounted f) (hl : Lifecycle f.toLife)
    (ha : f.activated = true ∨ f.mailbox.isFull = true
      ∨ f.mailbox.closed = true)
    (hs : f.Calling c f') : Accounted f' := by
  cases hs with
  | move hp => exact h.setCall hp
  | accept method args hf hr =>
    have hact : f.activated = true := by
      rcases ha with ha | ha | ha
      · exact ha
      · exact absurd hf (by simp [ha])
      · rw [Mailbox.enqueue, if_pos ha] at hr
        exact absurd hr (by simp)
    refine ⟨fun c' task ht hq => ?_, fun hd => absurd hact (by
      rw [show f.activated = false from hd]; simp)⟩
    by_cases hc : c' = c
    · subst hc
      have hin : (f.enqueue (.call method args c')).Has .call c' :=
        .of_accepted hr rfl
      exact hin.frame rfl rfl
    · have ht' : f.calls c' = some task := by
        change update f.calls c _ c' = some task at ht
        rwa [Function.update_of_ne hc] at ht
      exact ((h.held c' task ht' hq).enqueue hl _).frame rfl rfl

end Accounted

/-! ### Calls that have entered

A call enters a mailbox at most once, by a move that is its own, and what
settles it afterwards is the worker that has it in hand. -/

/-- A call whose promise is settled is not settled again. -/
theorem CallTask.settle_settled {task : CallTask} {r r' : Except HostError Json}
    (h : task.pc = .settled r') : task.settle r = task := by
  rw [CallTask.settle, h]

/-- A call that a mailbox has accepted is still such a call. -/
theorem CallTask.settle_entered {task : CallTask} {r : Except HostError Json}
    (h : task.pc.entered = true) : (task.settle r).pc.entered = true := by
  unfold CallTask.settle
  split
  · rfl
  · exact h

/-- What an item settles is its own call. -/
theorem settleItem_call {calls : ℕ → Option CallTask} {c : ℕ} {task : CallTask}
    (h : calls c = some task) (item : Item) (r : Except HostError Json) :
    settleItem calls item r c = some task
      ∨ settleItem calls item r c = some (task.settle r) := by
  cases item with
  | tell type payload id => exact .inl h
  | call method args c' =>
    rw [settleItem, Function.update_apply]
    split
    · next he =>
      rw [← he, h]
      exact .inr rfl
    · exact .inl h

/-- **Only a worker moves a call that has entered.** -/
theorem HostFlow.Moves.call_of_ne {Env : Type} {f f' : HostFlow} {a : Act Env}
    (hl : Lifecycle f.toLife) (hs : f.Moves f' a)
    (ha : ∀ g env ok, a ≠ .worker g env ok) {c : ℕ} {task : CallTask}
    (h : f.calls c = some task) (he : task.pc.entered = true) :
    f'.calls c = some task := by
  have opening : ∀ {f₁}, f.Opening f₁ → f₁.calls c = some task := by
    intro f₁ ho
    cases ho <;> exact h
  have calling : ∀ {c'}, (∀ t, f.calls c' = some t → t.pc.entered = false) →
      f.Calling c' f' → f'.calls c = some task := by
    intro c' hc' hcall
    have hne : c ≠ c' := by
      rintro rfl
      exact absurd he (by simp [hc' task h])
    cases hcall with
    | move hp => exact (Function.update_of_ne hne _ _).trans h
    | accept method args hf hr => exact (Function.update_of_ne hne _ _).trans h
  have closing : f.Closing f' → f'.calls c = some task := by
    intro hc
    cases hc with
    | unattended _ hd ha hg => exact absurd hg (hl.present ha (by simp [hd])).1
    | _ => exact h
  cases a with
  | activate => exact opening hs
  | tellStart t type payload =>
    obtain ⟨-, f₁, t', ho, -, rfl⟩ := hs
    have h₁ := opening ho
    exact h₁
  | tellLand t ok => cases hs <;> exact h
  | tellResume t => cases hs <;> exact h
  | callStart c' method args =>
    obtain ⟨hn, ⟨-, hc⟩ | ⟨f₁, t', ho, -, rfl⟩⟩ := hs
    · exact calling (fun t ht => by rw [hn] at ht; exact absurd ht (by simp)) hc
    · have hne : c ≠ c' := by
        rintro rfl
        rw [h] at hn
        exact absurd hn (by simp)
      exact (Function.update_of_ne hne _ _).trans (opening ho)
  | callResume c' =>
    obtain ⟨⟨t, ht, hp⟩, hc⟩ := hs
    refine calling (fun t' ht' => ?_) hc
    obtain rfl := Option.some.inj (ht.symm.trans ht')
    exact hp
  | activation env ok =>
    cases hs with
    | replayed hp =>
      rw [HostFlow.enqueueAll_frame]
      exact h
    | _ => exact h
  | worker g env ok => exact absurd rfl (ha g env ok)
  | deactivate env => exact closing hs
  | deactivation env => cases hs <;> exact h
  | destroy env => exact closing hs
  | idleFire env => exact closing hs
  | flushResume k =>
    obtain ⟨es, rfl⟩ := hs
    exact h
  | _ =>
    obtain rfl := hs
    exact h

/-- **No move of the flow takes back a call that has entered**: it leaves it as
it is, or settles it. -/
theorem HostFlow.Moves.call {Env : Type} {f f' : HostFlow} {a : Act Env}
    (hl : Lifecycle f.toLife) (hs : f.Moves f' a) {c : ℕ} {task : CallTask}
    (h : f.calls c = some task) (he : task.pc.entered = true) :
    f'.calls c = some task ∨ ∃ r, f'.calls c = some (task.settle r) := by
  cases a with
  | worker g env ok =>
    have settles : ∀ item r, settleItem f.calls item r c = some task
        ∨ ∃ r', settleItem f.calls item r c = some (task.settle r') :=
      fun item r => (settleItem_call h item r).imp_right (fun h => ⟨r, h⟩)
    cases hs with
    | @refuse m x c' e hg => exact settles (.call m x c') (.error e)
    | @resolve m x c' r' hg => exact settles (.call m x c') (.ok r')
    | @fail item e hg => exact settles item (.error e)
    | _ => exact .inl h
  | _ => exact .inl (hs.call_of_ne hl (by simp) h he)

/-- **No move of the flow changes a settled call.** -/
theorem HostFlow.Moves.settled {Env : Type} {f f' : HostFlow} {a : Act Env}
    (hl : Lifecycle f.toLife) (hs : f.Moves f' a) {c : ℕ} {task : CallTask}
    {r : Except HostError Json} (h : f.calls c = some task)
    (hr : task.pc = .settled r) : f'.calls c = some task := by
  rcases hs.call hl h (by rw [hr]; rfl) with h' | ⟨r', h'⟩
  · exact h'
  · rw [h', CallTask.settle_settled hr]

/-! ## Turns

That turns come one at a time, in order and between the hooks is read off the
life of the host and the order of its mailbox; the rest of `Serial` is
`Accounted`. -/

variable {S Env Op : Type}

/-- A turn is in progress: the handler has started, and its commit not
ended. -/
def WorkerPc.inTurn : WorkerPc S → Bool
  | running _ _ => true
  | returned _ _ => true
  | appending _ _ _ => true
  | appended _ _ _ => true
  | acking _ _ _ => true
  | flushing _ _ => true
  | _ => false

theorem WorkerPc.alive_of_inTurn {pc : WorkerPc S} (h : pc.inTurn = true) :
    pc.stage.alive = true := by
  cases pc <;> first | rfl | exact absurd h (by simp [inTurn])

/-- The worker loop goes on. -/
def WorkerPc.loops : WorkerPc S → Bool
  | absent => false
  | exiting => false
  | done => false
  | _ => true

theorem WorkerPc.serving_stage (pc : WorkerPc S) :
    pc.stage.serving = pc.loops := by
  cases pc <;> rfl

/-- `onInit`, migration, event replay and `onActivate` are behind. -/
def ActPc.pastHooks : ActPc S Env → Bool
  | readInbox => true
  | replayInbox _ => true
  | finishing _ => true
  | _ => false

theorem ActPc.pastHooks_of_phase {pc : ActPc S Env}
    (h₁ : pc.phase ≠ .loading) (h₂ : pc.phase ≠ .opening) :
    pc.pastHooks = true := by
  cases pc <;> first
    | rfl
    | exact absurd rfl h₁
    | exact absurd rfl h₂

/-- `deactivate()` resolves now, or would if it were called: the host is not
activated, or `doDeactivate` has gone through. -/
def Host.atRest (h : Host S Env) : Bool :=
  match h.deactivating with
  | none => !h.activated
  | some ⟨.finishing (.ok _), _⟩ => true
  | some _ => false

/-- **Serial turns**, of one state of a host. -/
structure Serial (s : Sys S Env Op) : Prop where
  /-- At most one turn is in progress. -/
  single : ∀ g g', (s.host.workers g).inTurn = true →
    (s.host.workers g').inTurn = true → g = g'
  /-- Items are handled in the order the mailbox accepted them. -/
  order : s.hist.taken <+: s.hist.accepted
  /-- A turn runs on the instance of its own activation, once that is past
  its hooks. -/
  opened : ∀ g, (s.host.workers g).inTurn = true →
    s.host.activated = true ∧ s.host.inst = some g
      ∧ ∀ pc, s.host.activating = some pc → pc.pastHooks = true
  /-- From `onDeactivate` on, no turn is in progress and everything accepted
  was handled. -/
  closing : ∀ d, s.host.deactivating = some d →
    (∀ g, d.pc ≠ .awaitWorker g) →
    (∀ g, (s.host.workers g).inTurn = false)
      ∧ s.hist.taken = s.hist.accepted
  /-- Whatever its turns came to, the worker loop of an activated host goes
  on until the mailbox is closed and empty. -/
  serves : s.host.activated = true → ∀ g, s.host.workerPromise = some g →
    (s.host.workers g).loops = true
      ∨ s.host.mailbox.closed = true ∧ s.host.mailbox.buffer = []
  /-- When `deactivate()` resolves, every accepted call is settled. -/
  settled : s.host.atRest = true → ∀ c task, s.host.calls c = some task →
    task.pc ≠ .queued

/-- What the invariants of the flow come to. -/
theorem Serial.of_flow {s : Sys S Env Op} (hl : Lifecycle s.flow.toLife)
    (hf : Fifo s.flow) (hc : Accounted s.flow) : Serial s where
  single g g' hg hg' := by
    have h := (hl.alive g (WorkerPc.alive_of_inTurn hg)).2
    have h' := (hl.alive g' (WorkerPc.alive_of_inTurn hg')).2
    exact Option.some.inj (h.symm.trans h')
  order := by
    by_cases h : ∃ g item, s.flow.workers g = .received item
    · obtain ⟨g, item, h⟩ := h
      exact ⟨_, (hf.received g item h).symm⟩
    · exact ⟨_, (hf.between (by simpa using h)).symm⟩
  opened g hg := by
    have h := hl.alive g (WorkerPc.alive_of_inTurn hg)
    have hnd : s.flow.deact ≠ some .dropped := by
      intro hd
      have := (hl.drained _ hd (by simp)).1 g
      exact absurd (WorkerPc.alive_of_inTurn hg) (by
        rw [show (s.host.workers g).stage.alive = false from this]; simp)
    refine ⟨h.1, (hl.present h.1 hnd).2.trans h.2, fun pc hpc => ?_⟩
    have hphase := Sys.flow_phase hpc
    have hearly : ¬(s.flow.phase = .loading ∨ s.flow.phase = .opening) :=
      fun he => absurd (hl.early he).1 (by rw [h.1]; simp)
    rw [hphase] at hearly
    exact ActPc.pastHooks_of_phase (fun he => hearly (.inl he))
      (fun he => hearly (.inr he))
  closing d hd hne := by
    have hstage : s.flow.deact = some d.pc.stage := by
      simp only [Sys.flow, hd, Option.map_some]
    have hdr := hl.drained _ hstage (fun g he => by
      obtain ⟨pc, idle⟩ := d
      cases pc with
      | awaitWorker g' => exact hne g' rfl
      | finishing o => cases o <;> exact absurd he (by simp [DeactPc.stage])
      | _ => exact absurd he (by simp [DeactPc.stage]))
    refine ⟨fun g => ?_, ?_⟩
    · by_contra hg
      have := hdr.1 g
      exact absurd (WorkerPc.alive_of_inTurn (by simpa using hg)) (by
        rw [show (s.host.workers g).stage.alive = false from this]; simp)
    · have := hf.between (fun g item he => by
        have := hdr.1 g
        rw [he] at this
        exact absurd this (by simp [WorkerStage.alive]))
      rw [hdr.2, List.append_nil] at this
      exact this.symm
  serves ha g hg := by
    cases hs : (s.host.workers g).loops with
    | true => exact .inl rfl
    | false =>
      exact .inr (hl.spent g ha hg ((WorkerPc.serving_stage _).trans hs))
  settled hr := by
    unfold Host.atRest at hr
    split at hr
    · have ha : s.host.activated = false := by simpa using hr
      exact hc.down ha
    · next u idle hd =>
      have hstage : s.flow.deact = some .dropped := by
        simp only [Sys.flow, hd, Option.map_some, DeactPc.stage]
      have hdr := hl.drained _ hstage (by simp)
      exact fun c task ht => hc.none_queued hdr.2 hdr.1 ht
    · exact absurd hr (by simp)

/-- A `call()` that goes on after the activation it awaited finds the host
activated, or a mailbox that turns it away. -/
def Sys.callsFindActivated (s : Sys S Env Op) : Act Env → Bool
  | .callResume c =>
    match s.host.calls c with
    | some ⟨_, _, .awaitActivate a⟩ =>
      match s.host.outcome a with
      | some (.ok _) =>
        s.host.activated || s.host.mailbox.isFull || s.host.mailbox.closed
      | _ => true
    | _ => true
  | _ => true

/-- What the invariants of a host's turns come to, together. -/
structure Turns (s : Sys S Env Op) : Prop where
  life : Lifecycle s.flow.toLife
  fifo : Fifo s.flow
  calls : Accounted s.flow

namespace Turns

variable {cfg : HostConfig S Env Op}

theorem init (cfg : HostConfig S Env Op) (store : ActorStore S) :
    Turns (Sys.init cfg store) where
  life := .init cfg store
  fifo := .init cfg store
  calls := ⟨fun c task h => absurd h (by simp [Sys.init, Sys.flow, Host.init]),
    fun _ c task h => absurd h (by simp [Sys.init, Sys.flow, Host.init])⟩

/-- The calls stay accounted for when one goes on. -/
theorem callResume {s s' : Sys S Env Op} {c : ℕ} (h : Turns s)
    (hG : s.callsFindActivated (.callResume c) = true)
    (hs : s.callResume c = some s') : Accounted s'.flow := by
  unfold Sys.callResume at hs
  split at hs
  · next method args a hc =>
    split at hs
    · exact absurd hs (by simp)
    · next ho =>
      obtain rfl := Option.some.inj hs
      refine h.calls.of_calling h.life ?_ (Sys.flow_callEnqueue method args)
      simpa [Sys.callsFindActivated, hc, ho, Sys.flow, or_assoc] using hG
    · obtain rfl := Option.some.inj hs
      exact h.calls.setCall rfl
  · exact absurd hs (by simp)

/-- **One step preserves the invariants**, unless a call enters the mailbox
of a host that is not activated. -/
theorem step {s : Sys S Env Op} {a : Act Env} {s' : Sys S Env Op}
    (h : Turns s) (hG : s.callsFindActivated a = true)
    (hs : s.step cfg a = some s') : Turns s' := by
  have hm := Sys.flow_step hs
  refine ⟨h.life.of_moves hm, h.fifo.of_moves h.life hm, ?_⟩
  cases a with
  | activate => exact h.calls.of_opening hm
  | tellStart t type payload =>
    obtain ⟨-, f₁, task, ho, -, he⟩ := hm
    rw [he]
    exact (h.calls.of_opening ho).frame rfl rfl rfl rfl
  | tellLand t ok => exact h.calls.of_telling h.life hm
  | tellResume t => exact h.calls.of_telling h.life hm
  | callStart c method args =>
    obtain ⟨-, ⟨ha, hc⟩ | ⟨f₁, task, ho, hp, he⟩⟩ := hm
    · exact h.calls.of_calling h.life (.inl ha) hc
    · rw [he]
      exact (h.calls.of_opening ho).setCall hp
  | callResume c => exact h.callResume hG hs
  | activation env ok => exact h.calls.of_activating h.life hm
  | worker g env ok => exact h.calls.of_working hm
  | deactivate env => exact h.calls.of_closing h.life hm
  | deactivation env => exact h.calls.of_deactivating h.life hm
  | destroy env => exact h.calls.of_closing h.life hm
  | idleFire env => exact h.calls.of_closing h.life hm
  | flushResume k =>
    obtain ⟨es, he⟩ := hm
    rw [he]
    exact h.calls.frame rfl rfl rfl rfl
  | _ =>
    have he : s'.flow = s.flow := hm
    rw [he]
    exact h.calls

end Turns

/-- **Turns are serial.** In every run along which each `call()` that goes
on after an activation finds the host still activated, or a mailbox that
turns it away, the turns are serial in every state reached, and a call that
was settled stays as it was settled. -/
theorem serial_turns (cfg : HostConfig S Env Op) (store : ActorStore S)
    {as bs : List (Act Env)} {s s' : Sys S Env Op}
    (hG : TransitionSystem.Along (Sys.step cfg)
      (fun s a => s.callsFindActivated a = true) (.init cfg store) as)
    (hs : TransitionSystem.run (Sys.step cfg) (.init cfg store) as = some s)
    (hs' : TransitionSystem.run (Sys.step cfg) s bs = some s') :
    Serial s ∧ ∀ c task r, s.host.calls c = some task →
      task.pc = .settled r → s'.host.calls c = some task := by
  have ht : Turns s := TransitionSystem.run_invariant (Sys.step cfg)
    (fun _ _ _ h hG hs => h.step hG hs) (.init cfg store) hG hs
  refine ⟨.of_flow ht.life ht.fifo ht.calls, fun c task r hc hr => ?_⟩
  have hkeep : Lifecycle s'.flow.toLife ∧ s'.host.calls c = some task :=
    TransitionSystem.run_invariant' (Sys.step cfg)
      (P := fun s => Lifecycle s.flow.toLife ∧ s.host.calls c = some task)
      (fun _ _ _ h hs => ⟨h.1.of_moves (Sys.flow_step hs),
        (Sys.flow_step hs).settled h.1 h.2 hr⟩) ⟨ht.life, hc⟩ hs'
  exact hkeep.2

/-- **The condition is exact**: a call that enters the mailbox of a host that
is not activated is pending although `deactivate()` would resolve. -/
theorem not_serial_of_stale_call {cfg : HostConfig S Env Op}
    {s s' : Sys S Env Op} {a : Act Env} (hl : Lifecycle s.flow.toLife)
    (hG : s.callsFindActivated a = false) (hs : s.step cfg a = some s') :
    ¬Serial s' := by
  unfold Sys.callsFindActivated at hG
  split at hG
  · next c =>
    split at hG
    · next method args n hc =>
      split at hG
      · next u ho =>
        simp only [Bool.or_eq_false_iff] at hG
        obtain ⟨⟨ha, hf⟩, hcl⟩ := hG
        have hacc : s.enqueueResult (.call method args c) = .accepted :=
          Mailbox.accepts hf hcl _
        simp only [Sys.step, Sys.callResume, hc, ho, Sys.callEnqueue, hf,
          hacc, Bool.false_eq_true, if_false, Option.some.injEq] at hs
        subst hs
        intro hser
        have hd : s.host.deactivating = none := by
          by_contra hne
          have hne' : s.flow.deact ≠ none := by
            simpa [Sys.flow] using hne
          exact absurd (hl.closed hne').1 (by simp [Sys.flow, ha])
        refine hser.settled ?_ c ⟨method, args, .queued⟩ ?_ rfl
        · show (match s.host.deactivating with
            | none => !s.host.activated
            | some ⟨.finishing (.ok _), _⟩ => true
            | some _ => false) = true
          rw [hd]
          simp [ha]
        · exact Function.update_self _ _ _
      · exact absurd hG (by simp)
    · exact absurd hG (by simp)
  · exact absurd hG (by simp)

/-- A call is handled by the activation it began, and the host, once idle,
is deactivated. -/
def servedCall : List (Act Bool) :=
  [.callStart 0 "inc" .null] ++ Counter.activating 8 ++ [.callResume 0]
    ++ Counter.working 1 4
    ++ [.idleFire true, .worker 1 true true, .deactivation true,
      .save 0 true, .save 0 true, .deactivation true]

/-- The theorem applies to that run, at whose end the call is settled. -/
theorem serial_turns_servedCall :
    ∃ s, TransitionSystem.run (Sys.step Counter.cfg)
        (.init Counter.cfg .empty) servedCall = some s
      ∧ s.host.atRest = true ∧ Serial s := by
  have hrun : (TransitionSystem.run (Sys.step Counter.cfg)
      (.init Counter.cfg .empty) servedCall).any (fun s => s.host.atRest)
        = true := by decide +kernel
  obtain ⟨s, hs, hr⟩ := (Option.any_eq_true _ _).mp hrun
  exact ⟨s, hs, hr,
    (serial_turns Counter.cfg .empty (by decide) hs
      (TransitionSystem.run_nil _ s)).1⟩

/-- The run on which a call is lost: it waits for an activation during which
the host is deactivated, enters the mailbox of the next one, which fails,
and is still pending when the host has been activated and deactivated once
more. -/
def lostCall : List (Act Bool) :=
  [.callStart 0 "inc" .null] ++ Counter.activating 5
    -- the idle timer fires while the inbox is read
    ++ [.idleFire true, .worker 1 true true, .deactivation true,
      .deactivation true, .idleEvict]
    ++ Counter.activating 3
    -- a second call begins an activation, whose mailbox the first one enters
    ++ [.callStart 1 "inc" .null, .callResume 0] ++ Counter.activating 3
    ++ [.activation false true, .activation true true, .activation true true]
    -- a third call begins another
    ++ [.callResume 1, .callStart 2 "inc" .null] ++ Counter.activating 8
    ++ [.callResume 2] ++ Counter.working 3 4
    ++ [.idleFire true, .worker 3 true true, .deactivation true,
      .save 0 true, .save 0 true, .deactivation true]

/-- A call is pending. -/
def Host.pending (h : Host S Env) (c : ℕ) : Bool :=
  match h.calls c with
  | some ⟨_, _, .queued⟩ => true
  | _ => false

/-- **A call may be lost**: turns are not serial in every run. -/
theorem not_serial_turns :
    ¬∀ (as : List (Act Bool)) (s : Sys ℕ Bool ℕ),
      TransitionSystem.run (Sys.step Counter.cfg) (.init Counter.cfg .empty) as
        = some s → Serial s := by
  intro h
  have hrun : (TransitionSystem.run (Sys.step Counter.cfg)
      (.init Counter.cfg .empty) lostCall).any
        (fun s => s.host.atRest && s.host.pending 0) = true := by decide +kernel
  obtain ⟨s, hs, hr⟩ := (Option.any_eq_true _ _).mp hrun
  obtain ⟨hrest, hp⟩ := Bool.and_eq_true_iff.mp hr
  unfold Host.pending at hp
  split at hp
  · next hc => exact (h lostCall s hs).settled hrest 0 _ hc rfl
  · exact absurd hp (by simp)
