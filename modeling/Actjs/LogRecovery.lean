import Actjs.CrashRecovery
import Actjs.Opening

/-!
# Tells across crashes, of an event-sourced actor

The log takes the place of the snapshot: what a new host starts from is what the log
folds to, whatever snapshots there are. So no effect of a tell is lost, whenever a crash
comes: `logged_tells_at_least_once`. But the events of a tell are in the log before its
entry is acked, and a crash between the two applies the tell again. If none comes there,
each is applied once, `Lives.Retold.appliedOnce`.

`Recorded` is the invariant of a host, over the one of its log, and `Lives.Retold` that of
all lives of an actor. What is asked of a run for it, `Lives.retells`, has nothing to do with
crashes: tells go through the host in inbox order, and what `reduce` makes of the events of
a turn is what it makes of their payloads when they are read again.
-/

open Function (update)

variable {S Env Op : Type}

/-- The events of a tell are in the log, and its entry is not acked. -/
def WorkerPc.ahead : WorkerPc S → Bool
  | appended _ _ _ => true
  | acking _ _ (.es _) => true
  | _ => false

/-- Nothing is asked of the worker. -/
def WorkerPc.quiet : WorkerPc S → Bool
  | running _ _ => false
  | returned _ _ => false
  | appending _ _ _ => false
  | appended _ _ _ => false
  | acking _ _ _ => false
  | unhandled _ => false
  | _ => true

theorem WorkerPc.quiet_of_dead {pc : WorkerPc S} (h : pc.stage.alive = false) :
    pc.quiet = true := by
  cases pc <;> first | rfl | exact absurd h (by simp [stage, WorkerStage.alive])

theorem WorkerPc.quiet_of_idle {pc : WorkerPc S} (h : pc.idle = true) : pc.quiet = true := by
  cases pc <;> first | rfl | exact absurd h (by simp [idle])

theorem WorkerPc.ahead_of_quiet {pc : WorkerPc S} (h : pc.quiet = true) :
    pc.ahead = false := by
  cases pc <;> first | rfl | exact absurd h (by simp [quiet])

/-- The tell an item carries makes of `x` what these events are folded to. -/
def ActorClass.Folds (cls : ActorClass S Env) (env : Env) (x : S) (item : Item)
    (events : List Json) : Prop :=
  cls.tell env x item.name item.input = (foldEvents cls x events).toOption.getD x

/-- What a handler that has settled, or will have, returns. -/
def ActorClass.Yields (cls : ActorClass S Env) (env : Env) (x : S) (item : Item)
    (result : Except Json Json) : Prop :=
  ∃ events writes, result = .ok (.arr events) ∧ normalizeEvents events = .ok writes
    ∧ cls.Folds env x item events

/-- What holds at each await of a worker, where the tells applied so far have made `x`: what
the handler returns, or has returned, is what the tell makes of `x`, and once it is in
the log that is what the log folds to. -/
def WorkerPc.Notes (cls : ActorClass S Env) (env : Env) (x : S) (s : Sys S Env Op) :
    WorkerPc S → Prop
  | running item rest => cls.Yields env x item rest.result
  | returned item result => cls.Yields env x item result
  | appending item events _ => cls.Folds env x item events
  | appended item _ _ =>
    foldLog cls s.store.events = .ok (cls.tell env x item.name item.input)
  | acking item _ .esEmpty => cls.tell env x item.name item.input = x
  | acking item _ (.es _) =>
    foldLog cls s.store.events = .ok (cls.tell env x item.name item.input)
  | acking _ _ .swm => False
  | unhandled id => ∃ e, s.store.inbox[id]? = some e ∧ cls.handlers e.type = none
  | _ => True

/-- **The log is what the tells applied so far have made**, except while the events of a
tell are in it whose entry is not acked. -/
structure Recorded (cfg : HostConfig S Env Op) (env : Env) (x : S) (s : Sys S Env Op) :
    Prop where
  sourcing : EventSourcing cfg s
  sound : ∀ sv ∈ s.host.saves, sv.pc ≠ .ended false
  working : ∀ g, (s.host.workers g).Notes cfg.registration.ctor env x s
  log : (∀ g, (s.host.workers g).ahead = false) →
    foldLog cfg.registration.ctor s.store.events = .ok x

namespace WorkerPc.Notes

variable {cls : ActorClass S Env} {env : Env} {x : S} {s s' : Sys S Env Op}
  {pc : WorkerPc S}

theorem of_quiet (h : pc.quiet = true) : pc.Notes cls env x s := by
  cases pc <;> simp_all [quiet, Notes]

/-- What is asked of a worker is of the log, and of the inbox. -/
theorem congr (h : pc.Notes cls env x s) (he : s'.store.events = s.store.events)
    (hi : s.store.inbox <+: s'.store.inbox) : pc.Notes cls env x s' := by
  cases pc with
  | unhandled id =>
    obtain ⟨e, hid, hn⟩ := h
    obtain ⟨es, hes⟩ := hi
    refine ⟨e, ?_, hn⟩
    rw [← hes, List.getElem?_append_left (List.getElem?_eq_some_iff.mp hid).1]
    exact hid
  | acking item id after =>
    revert h
    cases after <;> simp only [Notes, he, imp_self]
  | _ =>
    revert h
    simp only [Notes, he, imp_self]

end WorkerPc.Notes

/-- An append leaves the inbox alone. -/
theorem ActorStore.inbox_appendEvents {st st' : ActorStore S} {ws : List EventWrite}
    {seq : ℤ} (h : st.appendEvents ws = some (st', seq)) :
    st'.inbox = st.inbox ∧ st'.acked = st.acked := by
  unfold appendEvents at h
  split at h
  · cases h
    exact ⟨rfl, rfl⟩
  · exact absurd h (by simp)
  · cases h
    exact ⟨rfl, rfl⟩

/-- An actor that storage knows of can be appended to. -/
theorem ActorStore.appendEvents_ne_none {st : ActorStore S} (h : st.row ≠ none)
    (ws : List EventWrite) : st.appendEvents ws ≠ none := by
  unfold appendEvents
  split
  · simp
  · next hr => exact absurd hr h
  · simp

/-- The write that has ended so. -/
theorem Host.mem_of_saveResult {h : Host S Env} {k : ℕ} {ok : Bool}
    (hr : h.saveResult k = some ok) : ∃ sv ∈ h.saves, sv.pc = .ended ok := by
  unfold saveResult at hr
  split at hr
  · next seq version ok' hk =>
    obtain rfl := Option.some.inj hr
    exact ⟨_, List.mem_of_getElem? hk, rfl⟩
  · exact absurd hr (by simp)

/-- What is handed to the driver has not failed. -/
theorem Hands.sound {s s' : Sys S Env Op} (h : Hands s s')
    (hs : ∀ sv ∈ s.host.saves, sv.pc ≠ .ended false) :
    ∀ sv ∈ s'.host.saves, sv.pc ≠ .ended false := by
  cases h with
  | marked _ he => exact he ▸ hs
  | still _ he => exact he ▸ hs
  | handed _ he _ =>
    intro sv hsv
    rw [he] at hsv
    rcases List.mem_append.mp hsv with hsv | hsv
    · exact hs sv hsv
    · obtain rfl := List.mem_singleton.mp hsv
      simp

namespace Recorded

variable {cfg : HostConfig S Env Op} {env : Env} {x : S} {s s' : Sys S Env Op} {g : ℕ}

/-- The state is what the tells have made while no events are ahead of it. -/
theorem state_eq (h : Recorded cfg env x s) (ha : s.host.activated = true)
    (hn : ∀ g, (s.host.workers g).ahead = false) : s.host.state = x := by
  have hS := h.sourcing.settled ha (fun g => by
    have := hn g
    revert this
    cases s.host.workers g <;> simp [WorkerPc.ahead, WorkerPc.isAppended])
  exact Except.ok.inj (hS.fold.symm.trans (h.log hn))

/-- Nothing is ahead while the worker that is alive is not. -/
theorem not_ahead (hl : Lifecycle s.flow.toLife)
    (hlive : (s.host.workers g).stage.alive = true)
    (hg : (s.host.workers g).ahead = false) (g' : ℕ) :
    (s.host.workers g').ahead = false := by
  by_cases hg' : (s.host.workers g').stage.alive = true
  · rw [hl.only hlive hg']
    exact hg
  · exact WorkerPc.ahead_of_quiet (WorkerPc.quiet_of_dead (by simpa using hg'))

/-- While a worker is alive, nothing is asked of the others. -/
theorem attended (hl : Lifecycle s.flow.toLife)
    (hlive : (s.host.workers g).stage.alive = true) (hsrc : EventSourcing cfg s)
    (hsound : ∀ sv ∈ s.host.saves, sv.pc ≠ .ended false)
    (hw : (s.host.workers g).Notes cfg.registration.ctor env x s)
    (hlog : (s.host.workers g).ahead = false →
      foldLog cfg.registration.ctor s.store.events = .ok x) : Recorded cfg env x s where
  sourcing := hsrc
  sound := hsound
  working g' := by
    by_cases hg' : (s.host.workers g').stage.alive = true
    · rw [hl.only hlive hg']
      exact hw
    · exact .of_quiet (WorkerPc.quiet_of_dead (by simpa using hg'))
  log hn := hlog (hn g)

/-- A step that leaves the log alone, and of the workers moves only those of which nothing
is asked. -/
theorem frame (h : Recorded cfg env x s) (hsrc : EventSourcing cfg s')
    (hsound : ∀ sv ∈ s'.host.saves, sv.pc ≠ .ended false)
    (he : s'.store.events = s.store.events) (hi : s.store.inbox <+: s'.store.inbox)
    (hw : ∀ g, s'.host.workers g = s.host.workers g
      ∨ (s.host.workers g).quiet = true ∧ (s'.host.workers g).quiet = true) :
    Recorded cfg env x s' where
  sourcing := hsrc
  sound := hsound
  working g := by
    rcases hw g with hg | ⟨-, hg⟩
    · rw [hg]
      exact (h.working g).congr he hi
    · exact .of_quiet hg
  log hn := by
    rw [he]
    refine h.log (fun g => ?_)
    rcases hw g with hg | ⟨hg, -⟩
    · rw [← hg]
      exact hn g
    · exact WorkerPc.ahead_of_quiet hg

/-! ### A worker -/

/-- The handler runs up to its next await. -/
theorem of_runHandler {item : Item} {p : Script S Json}
    (hsrc : EventSourcing cfg (s.runHandler g item p))
    (hl : Lifecycle (s.runHandler g item p).flow.toLife)
    (hsound : ∀ sv ∈ s.host.saves, sv.pc ≠ .ended false)
    (hlog : foldLog cfg.registration.ctor s.store.events = .ok x)
    (hp : cfg.registration.ctor.Yields env x item p.result) :
    Recorded cfg env x (s.runHandler g item p) := by
  have hw : (s.runHandler g item p).host.workers g = .after item p :=
    Function.update_self _ _ _
  refine attended (g := g) hl ?_ hsrc hsound ?_ (fun _ => hlog) <;> rw [hw]
  · rw [WorkerPc.stage_after]
    rfl
  · unfold WorkerPc.after
    rcases p.next_cases with ⟨rest, hn, -, hres⟩ | ⟨hn, -⟩ <;> rw [hn]
    · show cfg.registration.ctor.Yields env x item rest.result
      rw [hres]
      exact hp
    · exact hp

/-- **A segment of a worker** applies the tell it has in hand, or none. -/
theorem of_workerStep [DecidableEq S] {env' : Env} (h : Recorded cfg env x s)
    (hl : Lifecycle s.flow.toLife) (hl' : Lifecycle s'.flow.toLife) (hent : Entries s.flow)
    (hf' : Flushable s) (hcls : cfg.registration.ctor.Steady)
    (hes : cfg.registration.ctor.isEs = true)
    (hG : s.keepsLog (.worker g env' true) = true)
    (hs : s.workerStep cfg g env' true = some s') :
    s.AppliesOne cfg.registration.ctor env g s' (fun x => Recorded cfg env x s') x := by
  have hsrc := h.sourcing.of_workerStep hl hl' (hcls.evented hes) hG hs
  have hsound := (Sys.turnPart_workerStep hs).hands.sound h.sound
  have hothers := (Sys.turnPart_workerStep hs).workers
  have hlive := Sys.alive_of_workerStep hs
  have hc := h.sourcing.sourced.cls
  have hes' : s.host.cls.isEs = true := by rw [hc]; exact hes
  obtain ⟨pc, hpc, hseg⟩ := Sys.workerSegment hs
  have hnotes : pc.Notes cfg.registration.ctor env x s := hpc ▸ h.working g
  have hfits : pc.Fits cfg s := hpc ▸ h.sourcing.working g
  -- while the events of the tell in hand are not in the log
  have hbefore : pc.ahead = false →
      s.host.state = x ∧ foldLog cfg.registration.ctor s.store.events = .ok x := fun hg =>
    have hn := not_ahead hl hlive (hpc ▸ hg)
    ⟨h.state_eq (hl.alive g hlive).1 hn, h.log hn⟩
  have hgenuine : ∀ {item}, pc.stage.holding = some item →
      ∃ id e, s.store.inbox[id]? = some e ∧ item = .tell e.type e.payload id :=
    fun hi => hent.held g _ ((congrArg (fun pc => pc.stage.holding) hpc).trans hi)
  have hack : ∀ {id}, pc.stage.toAck = some id → (s.host.workers g).stage.toAck = some id :=
    fun hi => (congrArg (fun pc => pc.stage.toAck) hpc).trans hi
  -- a step after which something is asked of the worker, or it is alive
  have hmove : ∀ (pc' : WorkerPc S) {x' : S}, s'.host.workers g = pc' →
      pc'.stage.alive = true → pc'.Notes cfg.registration.ctor env x' s' →
      (pc'.ahead = false → foldLog cfg.registration.ctor s'.store.events = .ok x') →
      Recorded cfg env x' s' := by
    rintro pc' x' hw hlive hpc' hlog
    exact attended hl' (by rw [hw]; exact hlive) hsrc hsound (by rw [hw]; exact hpc')
      (by rw [hw]; exact hlog)
  -- a step before and after which nothing is asked of it
  have hquiet : ∀ {pc' : WorkerPc S}, s'.host.workers g = pc' → pc.quiet = true →
      pc'.quiet = true → s'.store = s.store → Recorded cfg env x s' := by
    intro pc' hw hq hq' hst
    refine h.frame hsrc hsound (by rw [hst]) (hst ▸ List.prefix_refl _) (fun g' => ?_)
    by_cases hg' : g' = g
    · exact .inr (hg' ▸ ⟨hpc ▸ hq, hw ▸ hq'⟩)
    · exact .inl (hothers g' hg')
  cases hseg with
  | dequeue =>
    exact .still (.of_errors rfl rfl rfl rfl) (hquiet (Function.update_self _ _ _) rfl
      (WorkerPc.quiet_of_idle (WorkerPc.idle_dequeuedPc _)) rfl)
  | exit | finish | flushed =>
    exact .still (.of_errors rfl rfl rfl rfl)
      (hquiet (Function.update_self _ _ _) rfl rfl rfl)
  | refuse | resolveSwm | resolveEmpty | resolveEs =>
    obtain ⟨id, e, he, hi⟩ := hgenuine rfl
    exact absurd hi (by simp)
  | ignore hh =>
    obtain ⟨id, e, he, hi⟩ := hgenuine rfl
    obtain ⟨rfl, rfl, rfl⟩ := Item.tell.inj hi
    exact .still (.of_errors rfl rfl rfl rfl)
      (hmove (.unhandled _) (Function.update_self _ _ _) rfl ⟨e, he, hc ▸ hh⟩
        (fun _ => (hbefore rfl).2))
  | @start item handler hh =>
    obtain ⟨id, e, he, rfl⟩ := hgenuine rfl
    obtain ⟨hx, hlog⟩ := hbefore rfl
    rw [hc] at hh
    obtain ⟨events, writes, hr, hw⟩ := hcls.events hes _ handler hh env' s.host.state e.payload
    refine .still (.of_errors rfl rfl rfl rfl)
      (of_runHandler hsrc hl' h.sound hlog ⟨events, writes, hr, hw, ?_⟩)
    rw [hx] at hr
    exact hcls.tell_of_events hes hh env hr
  | run =>
    exact .still (.of_errors rfl rfl rfl rfl)
      (of_runHandler hsrc hl' h.sound (hbefore rfl).2 hnotes)
  | failed e hf =>
    -- no handler throws, no fold fails, and no storage operation does
    cases pc with
    | returned item result =>
      obtain ⟨events, writes, hr, hw, -⟩ := hnotes
      exact absurd hw ((hf.2 _ hr).2 events writes rfl)
    | appending item events writes =>
      have hrow := hf'.row (.inl (hl.alive g hlive).1)
      exact absurd (hf.2 rfl) (ActorStore.appendEvents_ne_none hrow writes)
    | appended item events seq =>
      have hfold : foldEvents s.host.cls s.host.state events = .ok _ :=
        hc ▸ hfits.2.trans hnotes
      exact absurd hf.2 (by rw [hfold]; simp [Except.isOk, Except.toBool])
    | acking item id after => exact absurd hf.2 (by simp)
    | flushing item k =>
      obtain ⟨sv, hsv, hend⟩ := Host.mem_of_saveResult hf.2
      exact absurd hend (h.sound sv hsv)
    | _ => exact hf.elim
  | ackSwm hn => exact absurd (hes'.symm.trans hn) (by simp)
  | @ackEmpty type payload id =>
    obtain ⟨events, writes, hr, -, hfolds⟩ := hnotes
    obtain rfl := Json.arr.inj (Except.ok.inj hr)
    exact .still (.of_errors rfl rfl rfl rfl)
      (hmove (.acking _ id .esEmpty) (Function.update_self _ _ _) rfl hfolds
        (fun _ => (hbefore rfl).2))
  | @append item event events writes =>
    obtain ⟨events', writes', hr, -, hfolds⟩ := hnotes
    obtain rfl := Json.arr.inj (Except.ok.inj hr)
    exact .still (.of_errors rfl rfl rfl rfl)
      (hmove (.appending _ _ writes) (Function.update_self _ _ _) rfl hfolds
        (fun _ => (hbefore rfl).2))
  | @appended item events writes store seq _ ha =>
    obtain ⟨hx, hlog⟩ := hbefore rfl
    obtain ⟨y, hraw, hpay⟩ := Sys.keepsLog_append hpc hG
    rw [hc, hx] at hraw hpay
    have hfold := (h.sourcing.sourced.logged.append ha hlog hpay).2.2.2
    have htell : cfg.registration.ctor.tell env x item.name item.input = y :=
      hnotes.trans (by rw [hraw]; rfl)
    have hst := ActorStore.inbox_appendEvents ha
    refine .still (.of_errors hst.1 hst.2 rfl rfl)
      (hmove (.appended item events seq) (Function.update_self _ _ _) rfl ?_
        (fun hn => absurd hn (by simp [WorkerPc.ahead])))
    show foldLog _ store.events = _
    rw [htell]
    exact hfold
  | @ackEs type payload id events =>
    exact .still (.of_errors rfl rfl rfl rfl)
      (hmove (.acking _ id (.es events)) (Function.update_self _ _ _) rfl hnotes
        (fun hn => absurd hn (by simp [WorkerPc.ahead])))
  | swmAcked => exact hnotes.elim
  | @emptyAcked item id =>
    have hid : item.inboxId? = some id := hent.acking g item id (congrArg WorkerPc.stage hpc)
    obtain ⟨id', e, he, rfl⟩ := hgenuine rfl
    obtain rfl : id' = id := Option.some.inj hid
    have hnotes : cfg.registration.ctor.tell env x e.type e.payload = x := hnotes
    refine .ack he (hack rfl) (.of_errors rfl rfl rfl rfl) ?_
    rw [hnotes]
    exact hmove (.committed _) (Function.update_self _ _ _) rfl trivial
      (fun _ => (hbefore rfl).2)
  | @esAcked item id events =>
    have hid : item.inboxId? = some id := hent.acking g item id (congrArg WorkerPc.stage hpc)
    obtain ⟨id', e, he, rfl⟩ := hgenuine rfl
    obtain rfl : id' = id := Option.some.inj hid
    have hnotes : foldLog cfg.registration.ctor s.store.events
      = .ok (cfg.registration.ctor.tell env x e.type e.payload) := hnotes
    generalize htail : (s.afterAck id').commitEsTail cfg g _ events = s' at *
    unfold Sys.commitEsTail at htail
    dsimp only at htail
    split at htail <;> subst htail
    · exact .ack he (hack rfl) (.of_errors rfl rfl rfl rfl)
        (hmove (.flushing _ _) (Function.update_self _ _ _) rfl trivial (fun _ => hnotes))
    · exact .ack he (hack rfl) (.of_errors rfl rfl rfl rfl)
        (hmove (.committed _) (Function.update_self _ _ _) rfl trivial (fun _ => hnotes))
  | ignored =>
    obtain ⟨e, he, hn⟩ := hnotes
    refine .ack he (hack rfl) ⟨rfl, rfl, rfl, fun item hc => ?_⟩ ?_
    · exact absurd (List.cons.inj hc).1 (by simp)
    · rw [ActorClass.tell_of_none hn]
      exact hmove .looping (Function.update_self _ _ _) rfl trivial
        (fun _ => (hbefore rfl).2)

/-! ### The others -/

/-- A step beside the state. -/
theorem of_beside (h : Recorded cfg env x s) (hb : Beside s s')
    (hi : s.store.inbox <+: s'.store.inbox) : Recorded cfg env x s' := by
  refine h.frame (h.sourcing.of_beside hb) (hb.saves ▸ h.sound) hb.events hi (fun g => ?_)
  rcases hb.workers g with he | ⟨hw, hi⟩
  · exact .inl he
  · refine .inr ⟨by rw [hw]; rfl, ?_⟩
    rcases hi with ⟨item, he⟩ | he <;> rw [he] <;> rfl

/-- **A segment of an activation.** -/
theorem of_actStep {env' : Env} (h : Recorded cfg env x s) (hl : Lifecycle s.flow.toLife)
    (hsrc : EventSourcing cfg s') (hi : s.store.inbox <+: s'.store.inbox)
    (hs : s.actStep cfg env' true = some s') : Recorded cfg env x s' := by
  rcases Sys.beside_or_opens hl hs with hb | ⟨ha, -⟩
  · exact h.of_beside hb hi
  · have hopens := Sys.opens_actStep hs
    refine h.frame hsrc (fun sv hsv => ?_) hopens.events hi (fun g => ?_)
    · rcases (Sys.proceeds_actStep hl hs).awaits with ⟨he, -⟩ | ⟨sv', hn, he, -⟩ <;>
        rw [he] at hsv
      · exact h.sound sv hsv
      · rcases List.mem_append.mp hsv with hsv | hsv
        · exact h.sound sv hsv
        · obtain rfl := List.mem_singleton.mp hsv
          rintro hend
          rw [hend] at hn
          exact absurd hn (by simp [SavePc.isEnded])
    · refine (hopens.workers g).imp_right (fun hw => ?_)
      exact ⟨WorkerPc.quiet_of_dead (hl.not_alive ha g), WorkerPc.quiet_of_idle hw⟩

/-- The driver moves on with a snapshot write. -/
theorem of_saveStep {k : ℕ} (h : Recorded cfg env x s) (hsrc : EventSourcing cfg s')
    (hs : s.saveStep k true = some s') : Recorded cfg env x s' := by
  unfold Sys.saveStep at hs
  split at hs
  · rw [if_pos rfl] at hs
    obtain rfl := Option.some.inj hs
    refine h.frame hsrc (fun sv hsv => ?_) rfl (List.prefix_refl _) (fun _ => .inl rfl)
    rcases List.mem_or_eq_of_mem_set hsv with hsv | rfl
    · exact h.sound sv hsv
    · simp
  · rw [if_pos rfl] at hs
    obtain rfl := Option.some.inj hs
    refine h.frame hsrc (fun sv hsv => ?_) rfl (List.prefix_refl _) (fun _ => .inl rfl)
    rcases List.mem_or_eq_of_mem_set hsv with hsv | rfl
    · exact h.sound sv hsv
    · simp
  · exact absurd hs (by simp)

/-- **One step of anyone but a worker** leaves what the tells have made what it is. -/
theorem step [DecidableEq S] {a : Act Env} (h : Recorded cfg env x s)
    (hl : Lifecycle s.flow.toLife) (hev : cfg.registration.ctor.Evented)
    (hu : a.undisturbed = true) (hG : s.keepsLog a = true)
    (hi : s.store.inbox <+: s'.store.inbox) (ha : ∀ g env ok, a ≠ .worker g env ok)
    (hs : s.step cfg a = some s') : Recorded cfg env x s' := by
  have hsrc := h.sourcing.step hl hev hG hs
  -- a step that touches only what is sent to subscribers
  have hsub : s'.host.saves = s.host.saves → s'.store = s.store →
      s'.host.workers = s.host.workers → Recorded cfg env x s' := fun hsv hst hw =>
    h.frame hsrc (hsv ▸ h.sound) (by rw [hst]) hi (fun g => .inl (by rw [hw]))
  cases a with
  | worker g env' ok => exact absurd rfl (ha g env' ok)
  | activation env' ok =>
    obtain rfl : ok = true := hu
    exact h.of_actStep hl hsrc hi hs
  | deactivation env' =>
    have he := Sys.ends_deactStep hs
    refine h.frame hsrc (he.hands.sound h.sound) ?_ hi (fun g => .inl (by rw [he.workers]))
    rw [Sys.store_deactStep hs]
  | snapshotFire =>
    -- the debounce timer is never armed
    rw [Sys.step, Sys.snapshotFire, h.sourcing.sourced.timer] at hs
    exact absurd hs (by simp)
  | save k ok =>
    obtain rfl : ok = true := hu
    exact h.of_saveStep hsrc hs
  | subscribe l =>
    rw [Sys.step, Sys.subscribe] at hs
    split at hs
    · exact absurd hs (by simp)
    · obtain rfl := Option.some.inj hs
      exact hsub rfl rfl rfl
  | unsubscribe l =>
    obtain rfl := Option.some.inj hs
    exact hsub rfl rfl rfl
  | notifyTombstone =>
    obtain rfl := Option.some.inj hs
    exact hsub rfl rfl rfl
  | _ => exact h.of_beside (Sys.beside_step hl rfl hs) hi

/-- A new host over storage whose log folds to `x`. -/
theorem init {store : ActorStore S} (h : Logged cfg.registration store)
    (hx : foldLog cfg.registration.ctor store.events = .ok x) :
    Recorded cfg env x (.init cfg store : Sys S Env Op) where
  sourcing := .init cfg h
  sound sv hsv := absurd hsv (by simp [Sys.init, Host.init])
  working _ := trivial
  log _ := hx

end Recorded

/-! ## In all lives of an actor

Across crashes the log only grows; the one tell whose events are logged and
whose entry is not acked may be applied again. -/

/-- **The events of a tell are in the log, and its entry is not acked.** -/
def Host.ahead (h : Host S Env) : Bool := h.workerPromise.any (fun g => (h.workers g).ahead)

theorem Sys.not_ahead_of_host {s : Sys S Env Op} (hl : Lifecycle s.flow.toLife)
    (h : s.host.ahead = false) (g : ℕ) : (s.host.workers g).ahead = false := by
  by_contra hg
  have hg : (s.host.workers g).ahead = true := by simpa using hg
  have hlive : (s.host.workers g).stage.alive = true := by
    by_contra hdead
    have hq := WorkerPc.quiet_of_dead (by simpa using hdead)
    exact absurd (WorkerPc.ahead_of_quiet hq) (by simp [hg])
  have hp : s.host.workerPromise = some g := (hl.alive g hlive).2
  unfold Host.ahead at h
  rw [hp] at h
  exact absurd (hg.symm.trans h) (by simp)

/-- The tell whose events are in the log is in hand, and the log is what it has made. -/
theorem Recorded.of_ahead {cfg : HostConfig S Env Op} {env : Env} {x : S}
    {s : Sys S Env Op} (h : Recorded cfg env x s) (hent : Entries s.flow)
    (ha : s.host.ahead = true) : ∃ g id e, (s.flow.workers g).toAck = some id
      ∧ s.store.inbox[id]? = some e ∧ foldLog cfg.registration.ctor s.store.events
        = .ok (cfg.registration.ctor.tell env x e.type e.payload) := by
  obtain ⟨g, -, hg⟩ := (Option.any_eq_true _ _).mp ha
  have hnotes := h.working g
  -- the tell in hand
  have hhand : ∀ item, (s.host.workers g).stage.holding = some item →
      (s.host.workers g).stage.toAck = item.inboxId? →
      foldLog cfg.registration.ctor s.store.events
        = .ok (cfg.registration.ctor.tell env x item.name item.input) →
      ∃ g id e, (s.flow.workers g).toAck = some id ∧ s.store.inbox[id]? = some e
        ∧ foldLog cfg.registration.ctor s.store.events
          = .ok (cfg.registration.ctor.tell env x e.type e.payload) := by
    intro item hi hk hfold
    obtain ⟨id, e, he, rfl⟩ := hent.held g item hi
    exact ⟨g, id, e, hk, he, hfold⟩
  cases hpc : s.host.workers g with
  | appended item events seq =>
    rw [hpc] at hnotes
    exact hhand item (by rw [hpc]; rfl) (by rw [hpc]; rfl) hnotes
  | acking item id after =>
    rw [hpc] at hg hnotes
    cases after with
    | es events => exact hhand item (by rw [hpc]; rfl) (by rw [hpc]; rfl) hnotes
    | _ => exact absurd hg (by simp [WorkerPc.ahead])
  | _ => exact absurd (hpc ▸ hg) (by simp [WorkerPc.ahead])

namespace Lives

/-- **The next tell to be applied, which has been already**: its events are in the log,
and the host that has appended them crashed before it acked the entry. -/
structure Redone (l : Lives S Env Op) (id : ℕ) : Prop where
  early : id < l.first
  pending : id ∉ l.sys.flow.applied l.dropped
  kept : id ∉ l.dropped
  next : ∀ j < id, j ∈ l.sys.flow.applied l.dropped ∨ j ∈ l.dropped

/-- **The log is what these tells have made**: all that are acked, and the next one as
often as a crash came before its ack. -/
structure Retold (cfg : HostConfig S Env Op) (env : Env) (ids : List ℕ)
    (l : Lives S Env Op) : Prop where
  annals : Annals l
  flushable : Flushable l.sys
  sorted : ids.Pairwise (· ≤ ·)
  applied : ∀ id ∈ l.sys.flow.applied l.dropped, id ∈ ids
  others : ∀ id ∈ ids, id ∈ l.sys.flow.applied l.dropped ∨ l.Redone id
  recorded : Recorded cfg env (cfg.registration.ctor.told env l.sys.store.inbox ids) l.sys

/-- **When tells are applied**: they go through the host in inbox order, and `reduce` makes
the same of events and of payloads. -/
def retells [DecidableEq S] (l : Lives S Env Op) : Fate Env → Bool
  | .crash => true
  | .act a => l.sys.flow.keepsOrder l.dropped a && l.sys.keepsLog a

/-- **When each is applied once**: no crash comes between the append of its events and its
ack. -/
def unmade (l : Lives S Env Op) : Fate Env → Bool
  | .crash => !l.sys.host.ahead
  | .act _ => true

end Lives

namespace Annals

variable {l : Lives S Env Op} {g k id : ℕ}

/-- What is in hand comes before all that waits. -/
theorem le_of_queued (h : Annals l) (hg : (l.sys.flow.workers g).toAck = some k)
    (hid : id ∈ l.sys.flow.queued) : k ≤ id := by
  have hsorted := h.order.inOrder.sorted
  have hlive : (l.sys.flow.workers g).alive = true := by
    by_contra hdead
    rw [WorkerStage.toAck_of_dead (by simpa using hdead)] at hg
    exact absurd hg (by simp)
  unfold HostFlow.queued at hsorted hid
  rw [HostFlow.inHand_of_alive h.order.life hlive, hg] at hsorted hid
  rcases List.mem_cons.mp hid with rfl | hid
  · exact le_rfl
  · exact ((List.pairwise_cons.mp hsorted).1 id hid).le

/-- All that is before it is past. -/
theorem past_of_lt (h : Annals l) (hg : (l.sys.flow.workers g).toAck = some k)
    (hid : id < k) : l.sys.flow.Past l.dropped id := by
  have hk := HostFlow.mem_queued_of_toAck h.order.life hg
  refine (h.order.inOrder.before k hk id hid).resolve_right (fun hm => ?_)
  exact absurd (h.le_of_queued hg hm) (by omega)

/-- **What a host that crashed has appended the events of is what its successor applies
next.** -/
theorem eq_of_redone (h : Annals l) (hg : (l.sys.flow.workers g).toAck = some k)
    (hr : l.Redone id) : id = k := by
  obtain ⟨hlt, hpast⟩ := h.order.inOrder.waiting k (HostFlow.mem_queued_of_toAck h.order.life hg)
  have hlen : id < l.sys.flow.inbox.length := lt_of_lt_of_le hr.early h.order.backlog.bound
  rcases lt_trichotomy id k with hid | hid | hid
  · -- it would be acked, or dropped by a host that came later
    rcases h.past_of_lt hg hid with hack | hd | hd
    · refine absurd (HostFlow.mem_applied.mpr ⟨hlen, hack, ?_⟩) hr.pending
      rintro (hd | hd)
      · exact absurd (h.issued.dropped id hd) (by have := hr.early; omega)
      · exact hr.kept hd
    · exact absurd (h.issued.dropped id hd) (by have := hr.early; omega)
    · exact absurd hd hr.kept
  · exact hid
  · rcases hr.next k hid with happ | hd
    · exact absurd (.inl (HostFlow.mem_applied.mp happ).2.1) hpast
    · exact absurd (.inr (.inr hd)) hpast

/-- **The tell in hand is the next one**, if a crash leaves it so. -/
theorem redone_crash {cfg : HostConfig S Env Op} (h : Annals l)
    (hg : (l.sys.flow.workers g).toAck = some k) :
    (⟨.init cfg l.sys.store, l.sys :: l.crashed⟩ : Lives S Env Op).Redone k := by
  obtain ⟨hlt, hpast⟩ := h.order.inOrder.waiting k (HostFlow.mem_queued_of_toAck h.order.life hg)
  refine ⟨hlt, ?_, ?_, fun j hj => ?_⟩
  · rw [Lives.applied_crash, HostFlow.mem_applied]
    exact fun hm => hpast (.inl hm.2.1)
  · unfold Lives.dropped
    rw [List.flatMap_cons, List.mem_append]
    exact fun hd => hpast (.inr hd)
  · rw [Lives.applied_crash]
    have hgone : j ∈ (⟨.init cfg l.sys.store, l.sys :: l.crashed⟩ : Lives S Env Op).dropped
        ↔ l.sys.flow.Gone l.dropped j := by
      unfold Lives.dropped HostFlow.Gone
      rw [List.flatMap_cons, List.mem_append]
      exact Iff.rfl
    rw [hgone, HostFlow.mem_applied]
    by_cases hn : l.sys.flow.Gone l.dropped j
    · exact .inr hn
    · exact .inl ⟨lt_trans hj hlt, (h.past_of_lt hg hj).resolve_right hn, hn⟩

end Annals

namespace Lives.Retold

variable {cfg : HostConfig S Env Op} {env : Env} {l l' : Lives S Env Op} {ids : List ℕ}
  {g k : ℕ}

/-- What is applied is in the inbox, and was not dropped. -/
theorem entry (h : Retold cfg env ids l) {id : ℕ} (hid : id ∈ ids) :
    id < l.sys.store.inbox.length ∧ ¬l.sys.flow.Gone l.dropped id := by
  rcases h.others id hid with happ | hr
  · obtain ⟨hlt, -, hn⟩ := HostFlow.mem_applied.mp happ
    exact ⟨hlt, hn⟩
  · refine ⟨lt_of_lt_of_le hr.early h.annals.order.backlog.bound, ?_⟩
    rintro (hd | hd)
    · exact absurd (h.annals.issued.dropped id hd) (by have := hr.early; omega)
    · exact hr.kept hd

/-- What is in hand comes after all that is applied, or is applied again. -/
theorem le (h : Retold cfg env ids l) (hg : (l.sys.flow.workers g).toAck = some k) {id : ℕ}
    (hid : id ∈ ids) : id ≤ k := by
  rcases h.others id hid with happ | hr
  · obtain ⟨-, hack, hn⟩ := HostFlow.mem_applied.mp happ
    have hk := HostFlow.mem_queued_of_toAck h.annals.order.life hg
    by_contra hlt
    exact (h.annals.order.inOrder.waiting k hk).2
      ((h.annals.order.inOrder.settled id hack).2 hn k (by omega))
  · exact (h.annals.eq_of_redone hg hr).le

/-- So it comes last. -/
theorem sorted_concat (h : Retold cfg env ids l)
    (hg : (l.sys.flow.workers g).toAck = some k) : (ids ++ [k]).Pairwise (· ≤ ·) :=
  List.pairwise_append.mpr ⟨h.sorted, List.pairwise_singleton _ _,
    fun _ hid _ hk => List.mem_singleton.mp hk ▸ h.le hg hid⟩

/-- An actor that storage has never heard of. -/
theorem init (cfg : HostConfig S Env Op) (env : Env)
    (hes : cfg.registration.ctor.isEs = true) : Retold cfg env [] (.init cfg) where
  annals := .init cfg
  flushable := .init cfg .empty
  sorted := .nil
  applied id hid := by
    have hlt : id < 0 := (HostFlow.mem_applied.mp hid).1
    omega
  others id hid := absurd hid List.not_mem_nil
  recorded := by
    refine .init (.empty _) ?_
    have hfresh : cfg.registration.ctor.fresh env = cfg.registration.ctor.initialState :=
      if_pos hes
    show Except.ok _ = Except.ok (cfg.registration.ctor.fresh env)
    rw [hfresh]

/-- **A crash**: the next host finds the log as it is, and replays what is not acked. -/
theorem crash (h : Retold cfg env ids l) :
    ∃ ids', Retold cfg env ids' ⟨.init cfg l.sys.store, l.sys :: l.crashed⟩
      ∧ (l.sys.host.ahead = false → ids' = ids) := by
  have hlogged := h.recorded.sourcing.sourced.logged
  -- the tells that were applied, or are applied again, still are
  have hothers : ∀ id ∈ ids,
      id ∈ (Sys.init cfg l.sys.store : Sys S Env Op).flow.applied
          (⟨.init cfg l.sys.store, l.sys :: l.crashed⟩ : Lives S Env Op).dropped
        ∨ (⟨.init cfg l.sys.store, l.sys :: l.crashed⟩ : Lives S Env Op).Redone id := by
    intro id hid
    rw [applied_crash]
    refine (h.others id hid).imp_right (fun hr => ⟨(h.entry hid).1, ?_, ?_, fun j hj => ?_⟩)
    · rw [applied_crash]
      exact hr.pending
    · unfold dropped
      rw [List.flatMap_cons, List.mem_append]
      exact (h.entry hid).2
    · rw [applied_crash]
      unfold dropped
      rw [List.flatMap_cons, List.mem_append]
      exact (hr.next j hj).imp_right .inr
  cases ha : l.sys.host.ahead with
  | false =>
    have hfold := h.recorded.log (Sys.not_ahead_of_host h.annals.order.life ha)
    exact ⟨ids, ⟨h.annals.crash, .init cfg _, h.sorted,
      fun id hid => h.applied id (applied_crash ▸ hid), hothers, .init hlogged hfold⟩,
      fun _ => rfl⟩
  | true =>
    obtain ⟨g, k, e, hg, he, hfold⟩ := h.recorded.of_ahead h.annals.order.entries ha
    refine ⟨ids ++ [k], ⟨h.annals.crash, .init cfg _, h.sorted_concat hg,
      fun id hid => List.mem_append_left _ (h.applied id (applied_crash ▸ hid)),
      fun id hid => ?_, .init hlogged ?_⟩, fun hn => absurd hn (by simp)⟩
    · rcases List.mem_append.mp hid with hid | hid
      · exact hothers id hid
      · rw [List.mem_singleton.mp hid]
        exact .inr (h.annals.redone_crash hg)
    · rw [hfold]
      exact congrArg Except.ok (ActorClass.told_concat he ids).symm

/-- A step of the host that applies nothing. -/
theorem still {s' : Sys S Env Op} (h : Retold cfg env ids l)
    (hstill : l.sys.flow.Still l.dropped s'.flow) (hann : Annals { l with sys := s' })
    (hf : Flushable s')
    (hrec : Recorded cfg env (cfg.registration.ctor.told env l.sys.store.inbox ids) s') :
    Retold cfg env ids { l with sys := s' } where
  annals := hann
  flushable := hf
  sorted := h.sorted
  applied id hid := h.applied id (hstill.applied ▸ hid)
  others id hid := by
    refine (h.others id hid).imp (fun happ => ?_)
      (fun hr => ⟨hr.early, ?_, hr.kept, fun j hj => ?_⟩)
    · exact hstill.applied.symm ▸ happ
    · exact hstill.applied.symm ▸ hr.pending
    · exact (hr.next j hj).imp_left (fun happ => hstill.applied.symm ▸ happ)
  recorded := by
    have htold : cfg.registration.ctor.told env s'.store.inbox ids
        = cfg.registration.ctor.told env l.sys.store.inbox ids :=
      ActorClass.told_prefix hstill.inbox (fun id hid => (h.entry hid).1)
    show Recorded cfg env (cfg.registration.ctor.told env s'.store.inbox ids) s'
    rw [htold]
    exact hrec

/-- **A step of the host** applies one tell more, or none. -/
theorem act [DecidableEq S] {a : Act Env} {s' : Sys S Env Op} (h : Retold cfg env ids l)
    (hcls : cfg.registration.ctor.Steady) (hes : cfg.registration.ctor.isEs = true)
    (hu : a.undisturbed = true) (hG : l.retells (.act a) = true)
    (hs : l.sys.step cfg a = some s') :
    ∃ ids', Retold cfg env ids' { l with sys := s' }
      ∧ (ids = l.sys.flow.applied l.dropped → ids' = s'.flow.applied l.dropped) := by
  simp only [retells, Bool.and_eq_true] at hG
  have hlife := h.annals.order.life
  have hl' : Lifecycle s'.flow.toLife := hlife.of_moves (Sys.flow_step hs)
  have hf := h.flushable.step hlife hs
  by_cases hw : ∃ g env' ok, a = .worker g env' ok
  · obtain ⟨g, env', ok, rfl⟩ := hw
    obtain rfl : ok = true := hu
    cases h.recorded.of_workerStep hlife hl' h.annals.order.entries h.flushable hcls hes
        hG.2 hs with
    | still ha hrec =>
      have hann := h.annals.act rfl hG.1 (fun _ _ _ _ => ha.errors) hs
      have hstill : l.sys.flow.Still l.dropped s'.flow := .of_eq ha.inbox ha.acked ha.dropped
      exact ⟨ids, h.still hstill hann hf hrec, fun he => he.trans hstill.applied.symm⟩
    | @ack k e he hg ha hrec =>
      have hann := h.annals.act rfl hG.1 (fun _ _ _ _ => ha.errors) hs
      have happ : s'.flow.applied l.dropped = l.sys.flow.applied l.dropped ++ [k] :=
        h.annals.order.inOrder.applied_ack (HostFlow.mem_queued_of_toAck hlife hg) ha.inbox
          ha.acked ha.dropped
      have hinbox : s'.store.inbox = l.sys.store.inbox := ha.inbox
      refine ⟨ids ++ [k], ⟨hann, hf, h.sorted_concat hg, fun id hid => ?_, fun id hid => ?_,
        ?_⟩, fun hids => by rw [hids, happ]⟩
      · have hid : id ∈ s'.flow.applied l.dropped := hid
        rw [happ, List.mem_append] at hid
        exact List.mem_append.mpr (hid.imp_left (h.applied id))
      · refine .inl ?_
        show id ∈ s'.flow.applied l.dropped
        rw [happ, List.mem_append, List.mem_singleton]
        rcases List.mem_append.mp hid with hid | hid
        · exact (h.others id hid).imp_right (h.annals.eq_of_redone hg)
        · exact .inr (List.mem_singleton.mp hid)
      · show Recorded cfg env (cfg.registration.ctor.told env s'.store.inbox (ids ++ [k])) s'
        rw [hinbox, ActorClass.told_concat he]
        exact hrec
  · have hne : ∀ g env' ok, a ≠ .worker g env' ok :=
      fun g env' ok he => hw ⟨g, env', ok, he⟩
    have hstill := h.annals.order.still hG.1 hne hs
    have hann := h.annals.act hu hG.1 (fun g env' ok he => absurd he (hne g env' ok)) hs
    have hrec := h.recorded.step hlife (hcls.evented hes) hu hG.2 hstill.inbox hne hs
    exact ⟨ids, h.still hstill hann hf hrec, fun he => he.trans hstill.applied.symm⟩

/-- **One step in the lives of the actor.** -/
theorem step [DecidableEq S] {x : Fate Env} (h : Retold cfg env ids l)
    (hcls : cfg.registration.ctor.Steady) (hes : cfg.registration.ctor.isEs = true)
    (hu : x.undisturbed = true) (hG : l.retells x = true) (hs : l.step cfg x = some l') :
    ∃ ids', Retold cfg env ids' l' ∧ (l.unmade x = true →
      ids = l.sys.flow.applied l.dropped → ids' = l'.sys.flow.applied l'.dropped) := by
  cases x with
  | crash =>
    obtain rfl := Option.some.inj hs
    obtain ⟨ids', h', he⟩ := h.crash
    refine ⟨ids', h', fun hn hids => ?_⟩
    rw [he (by simpa [unmade] using hn), hids, applied_crash]
  | act a =>
    obtain ⟨s', hs', rfl⟩ := Option.map_eq_some_iff.mp hs
    obtain ⟨ids', h', he⟩ := h.act hcls hes hu hG hs'
    exact ⟨ids', h', fun _ => he⟩

/-- The state is what the tells have made, while no events are ahead of it. -/
theorem state_eq (h : Retold cfg env ids l) (ha : l.sys.host.activated = true)
    (hn : l.sys.host.ahead = false) :
    l.sys.host.state = cfg.registration.ctor.told env l.sys.store.inbox ids :=
  h.recorded.state_eq ha (Sys.not_ahead_of_host h.annals.order.life hn)

end Lives.Retold

/-- **Every run keeps it, and no tell is applied twice** if no crash comes between the append
of its events and its ack. -/
theorem Lives.Retold.appliedOnce [DecidableEq S] {cfg : HostConfig S Env Op} {env : Env}
    (hcls : cfg.registration.ctor.Steady) (hes : cfg.registration.ctor.isEs = true)
    {xs : List (Fate Env)} {l : Lives S Env Op} (hu : ∀ x ∈ xs, x.undisturbed = true)
    (hG : TransitionSystem.Along (Lives.step cfg)
      (fun l x => (l.retells x && l.unmade x) = true) (.init cfg) xs)
    (hs : TransitionSystem.run (Lives.step cfg) (.init cfg) xs = some l)
    (ha : l.sys.host.activated = true) (ht : l.sys.host.ahead = false)
    (hr : ∀ id ∈ l.sys.hist.replayable, id ∈ l.sys.store.acked) :
    AppliedOnce cfg.registration.ctor env l (l.sys.flow.applied l.dropped) := by
  have hinit : Lives.Retold cfg env
      ((Lives.init cfg).sys.flow.applied (Lives.init cfg).dropped) (.init cfg) :=
    .init cfg env hes
  have h : Lives.Retold cfg env (l.sys.flow.applied l.dropped) l :=
    TransitionSystem.run_invariant (Lives.step cfg)
      (P := fun l => Lives.Retold cfg env (l.sys.flow.applied l.dropped) l)
      (fun _ _ _ h hG hs => by
        obtain ⟨hG', hn⟩ := Bool.and_eq_true_iff.mp hG.2
        obtain ⟨ids', h', he⟩ := h.step hcls hes hG.1 hG' hs
        exact he hn rfl ▸ h')
      hinit
      ((TransitionSystem.along_of_mem (Lives.step cfg) hu _).and (Lives.step cfg) hG) hs
  exact h.annals.appliedOnce (h.state_eq ha ht) ha hr

/-- **No tell of an event-sourced actor is lost in a crash.**

In all lives of an actor whose handlers always do the same, which nobody calls and whose
storage does not fail, whenever the crashes come, as long as tells go through in inbox order
and `reduce` makes the same of events and of payloads: in every state reached in which no
events are ahead of the state, and the host has dealt with all that its activation found
pending. -/
theorem logged_tells_at_least_once [DecidableEq S] (cfg : HostConfig S Env Op) (env : Env)
    (hcls : cfg.registration.ctor.Steady) (hes : cfg.registration.ctor.isEs = true)
    {xs : List (Fate Env)} {l : Lives S Env Op} (hu : ∀ x ∈ xs, x.undisturbed = true)
    (hG : TransitionSystem.Along (Lives.step cfg) (fun l x => l.retells x = true)
      (.init cfg) xs)
    (hs : TransitionSystem.run (Lives.step cfg) (.init cfg) xs = some l)
    (ha : l.sys.host.activated = true) (ht : l.sys.host.ahead = false)
    (hr : ∀ id ∈ l.sys.hist.replayable, id ∈ l.sys.store.acked) :
    ∃ ids, AppliedAll cfg.registration.ctor env l ids := by
  obtain ⟨ids, h⟩ : ∃ ids, Lives.Retold cfg env ids l :=
    TransitionSystem.run_invariant (Lives.step cfg)
      (P := fun l => ∃ ids, Lives.Retold cfg env ids l)
      (fun _ _ _ ⟨_, h⟩ hG hs => (h.step hcls hes hG.1 hG.2 hs).imp (fun _ h => h.1))
      ⟨[], .init cfg env hes⟩
      ((TransitionSystem.along_of_mem (Lives.step cfg) hu _).and (Lives.step cfg) hG) hs
  exact ⟨ids, h.annals.appliedAll h.sorted h.applied (fun _ hid => h.entry hid)
    (h.state_eq ha ht) ha hr⟩

/-! ### The ledger -/

namespace Ledger

theorem steady : (cfg byAmount).registration.ctor.Steady where
  same name handler h env env' x input := by
    change (if name = "deposit" then _ else _) = some handler at h
    split at h
    · obtain rfl := Option.some.inj h
      rfl
    · exact absurd h (by simp)
  returns name handler h env x input := by
    change (if name = "deposit" then _ else _) = some handler at h
    split at h
    · obtain rfl := Option.some.inj h
      exact ⟨_, rfl⟩
    · exact absurd h (by simp)
  onInit _ h := absurd h (by simp [cfg, cls])
  onActivate _ h := absurd h (by simp [cfg, cls])
  onDeactivate _ h := absurd h (by simp [cfg, cls])
  snapshot _ h := absurd h (by simp [cfg, cls])
  evented _ := evented byAmount
  events _ name handler h env x input := by
    change (if name = "deposit" then _ else _) = some handler at h
    split at h
    · obtain rfl := Option.some.inj h
      exact ⟨_, _, rfl, rfl⟩
    · exact absurd h (by simp)

/-- The `tell()` number `t`, up to its append. -/
def tellDeposit (t : ℕ) : List (Act Unit) := [.tellStart t "deposit" .null, .tellLand t true]

/-- The worker gets `n` segments into the first deposit. -/
def turned (n : ℕ) : List (Act Unit) :=
  activating 8 ++ tellDeposit 0 ++ [.tellResume 0] ++ List.replicate n (.worker 1 () true)

/-- After these steps a crash comes, and the next host replays what is not acked. -/
def restarted (as : List (Act Unit)) : List (Fate Unit) :=
  as.map .act ++ [.crash]
    ++ (activating 8 ++ List.replicate 6 (Act.worker 1 () true)).map .act

end Ledger

/-- The theorem applies to a deposit whose events are in the log at the crash, and its
entry not acked. It is made again. -/
theorem logged_tells_at_least_once_redone :
    ∃ l, TransitionSystem.run (Lives.step (Ledger.cfg Ledger.byAmount))
        (.init (Ledger.cfg Ledger.byAmount)) (Ledger.restarted (Ledger.turned 3)) = some l
      ∧ l.sys.host.state = 2 ∧ l.sys.store.inbox.length = 1
      ∧ ∃ ids, AppliedAll (Ledger.cls Ledger.byAmount) () l ids := by
  have hrun : (TransitionSystem.run (Lives.step (Ledger.cfg Ledger.byAmount))
      (.init (Ledger.cfg Ledger.byAmount)) (Ledger.restarted (Ledger.turned 3))).any
        (fun l => l.sys.host.activated && !l.sys.host.ahead
          && l.sys.hist.replayable.all (fun id => l.sys.store.acked.contains id)
          && l.sys.host.state == 2 && l.sys.store.inbox.length == 1) = true := by decide
  obtain ⟨l, hl, hr⟩ := (Option.any_eq_true _ _).mp hrun
  simp only [Bool.and_eq_true, Bool.not_eq_true', beq_iff_eq, List.all_eq_true,
    List.contains_iff_mem] at hr
  obtain ⟨⟨⟨⟨ha, ht⟩, hrep⟩, hx⟩, hlen⟩ := hr
  exact ⟨l, hl, hx, hlen, logged_tells_at_least_once _ () Ledger.steady rfl (by decide)
    (by decide) hl ha ht hrep⟩
