import Actjs.Directory
import Actjs.Flushing
import Actjs.Listeners

/-!
# Subscriptions and the hosts they hang on

`SubscriptionRegistry.subscribe` puts its listener on one `ActorHost` object. An
idle eviction takes the object out of the directory and not the listener off the
object; the next request for the actor constructs another object, and what that
one commits the subscription is not told of. `Audience` is a process beside what
each turn began with, and `Informs` says that a step that makes a commit tells
every subscription of the actor of it.

It does as long as a commit is made by the object that all the listeners of its
actor are on. A turn of a state-with-messages actor that begins with nobody
listening does not capture the state, so who subscribes in the middle of it is
not told of its commit either.
-/

open Function (update)

variable {S Env Op : Type}

/-! ## Commits

A commit is made by the worker of one object; what it has to tell are the
state before and after, or the events. -/

/-- **What a turn begins with**: the state, and whether it was captured for
whoever listens. -/
structure TurnStart (S : Type) where
  state : S
  captured : Bool

/-- What a commit that leads from `prev` to `now` tells; there is no empty
patch. -/
def HostConfig.patch (cfg : HostConfig S Env Op) (prev now : S) :
    List (Notification S Op) :=
  match cfg.compare prev now with
  | [] => []
  | op :: ops => [.patch (op :: ops)]

/-- **What there is to tell of a commit**, if the next segment of worker `g`
completes one: the events, or the patch from the state the turn began with. -/
def Host.news (cfg : HostConfig S Env Op) (h : Host S Env)
    (turn : Option (TurnStart S)) (g : ℕ) (ok : Bool) : List (Notification S Op) :=
  match h.workers g with
  | .returned (.call _ _ _) (.ok _) =>
    if h.cls.isEs = true then []
    else (turn.map (fun t => cfg.patch t.state h.state)).getD []
  | .acking _ _ .swm =>
    if ok = true then (turn.map (fun t => cfg.patch t.state h.state)).getD [] else []
  | .appended (.call _ _ _) events seq =>
    match foldEvents h.cls h.state events with
    | .error _ => []
    | .ok _ => [.event events seq]
  | .acking _ _ (.es events) =>
    if ok = true then [.event events h.currentSeq] else []
  | _ => []

/-- The turn of a worker, from the capture to the patch. -/
def WorkerPc.turning : WorkerPc S → Bool
  | running _ _ => true
  | returned _ _ => true
  | acking _ _ .swm => true
  | _ => false

/-! ## A process and its audience -/

/-- **A process, beside what the last turn of each object began with.** -/
structure Audience (S Env Op : Type) where
  rt : Runtime S Env Op
  turns : ℕ → Option (TurnStart S)

namespace Runtime

/-- Subscription `q` to the actor is in place: it was not unsubscribed, closed or
tombstoned. -/
def Subscribed (rt : Runtime S Env Op) (id : ActorId) (q : ℕ) : Prop :=
  ∃ c r, rt.requests q = some ⟨.subscribe c id, .attached r⟩

/-- The same, decided. -/
def subscribed (rt : Runtime S Env Op) (id : ActorId) (q : ℕ) : Bool :=
  match rt.requests q with
  | some ⟨.subscribe _ id', .attached _⟩ => id' == id
  | _ => false

theorem Subscribed.of_subscribed {rt : Runtime S Env Op} {id : ActorId} {q : ℕ}
    (h : rt.subscribed id q = true) : rt.Subscribed id q := by
  unfold subscribed at h
  split at h
  · next c id' r hq => exact ⟨c, r, beq_iff_eq.mp h ▸ hq⟩
  · exact absurd h (by simp)

/-- What subscription `q` was sent. -/
def sent (rt : Runtime S Env Op) (q : ℕ) : List (Notification S Op) :=
  match rt.requests q with
  | some ⟨_, .attached r⟩ => ((rt.objects r).map (fun o => o.hist.notifs q)).getD []
  | _ => []

/-- Nobody listens to another object of the actor of `o`, which is object `r`. -/
def holdsListeners (rt : Runtime S Env Op) (r : ℕ) (o : HostObject S Env Op) : Bool :=
  (List.range rt.constructed).all (fun r' => (rt.objects r').all (fun o' =>
    r' == r || o'.id != o.id || o'.host.commitListeners.isEmpty))

end Runtime

namespace Audience

/-- A new process. -/
def init (stores : ActorId → ActorStore S) : Audience S Env Op :=
  ⟨.init stores, fun _ => none⟩

/-- The turn that a step begins, and of which object. -/
def begun (u : Audience S Env Op) : RuntimeAct Env → Option (ℕ × TurnStart S)
  | .host r (.worker g _ _) =>
    match u.rt.objects r with
    | none => none
    | some o =>
      match o.host.workers g with
      | .received _ =>
        some (r, ⟨o.host.state,
          !o.host.cls.isEs && !o.host.commitListeners.isEmpty⟩)
      | _ => none
  | _ => none

/-- The turns, with the one that a step begins. -/
def begins (u : Audience S Env Op) (x : RuntimeAct Env) : ℕ → Option (TurnStart S) :=
  match u.begun x with
  | none => u.turns
  | some (r, t) => update u.turns r (some t)

/-- **One step of a process and its audience.** -/
def step (cfg : RuntimeConfig S Env Op) (u : Audience S Env Op)
    (x : RuntimeAct Env) : Option (Audience S Env Op) :=
  (u.rt.step cfg x).map (fun rt => ⟨rt, u.begins x⟩)

/-- What object `r`, which is `o`, has to tell of the commit that the next segment
of its worker `g` completes. -/
def news (u : Audience S Env Op) (r : ℕ) (o : HostObject S Env Op) (g : ℕ)
    (ok : Bool) : List (Notification S Op) :=
  o.host.news o.cfg (u.turns r) g ok

/-- **Every subscription of the actor is told** of the commit that step `x`
makes, if it makes one. -/
def Informs (u : Audience S Env Op) (x : RuntimeAct Env) (u' : Audience S Env Op) :
    Prop :=
  ∀ r g env ok o, x = .host r (.worker g env ok) → u.rt.objects r = some o →
    u.news r o g ok ≠ [] → ∀ q, u.rt.Subscribed o.id q →
      u'.rt.sent q = u.rt.sent q ++ u.news r o g ok

/-- **The commit is made by the object that has the listeners**, and its turn, of
a state-with-messages actor, began with the state captured if anybody listens
now. -/
def attended (u : Audience S Env Op) : RuntimeAct Env → Bool
  | .host r (.worker g _ ok) =>
    (u.rt.objects r).all (fun o => (u.news r o g ok).isEmpty
      || u.rt.holdsListeners r o
        && (!(o.host.workers g).turning || o.host.commitListeners.isEmpty
          || (u.turns r).any TurnStart.captured))
  | _ => true

end Audience

/-! ## The capture of a turn

Whether a turn has captured the state is decided when it begins, by whether
somebody listens then. -/

/-- Who is in a turn is alive. -/
theorem WorkerPc.alive_of_turning {pc : WorkerPc S} (h : pc.turning = true) :
    pc.stage.alive = true := by
  cases pc <;> first | rfl | exact absurd h (by simp [turning])

/-- No turn begins with the dequeueing of its item. -/
@[simp] theorem WorkerPc.turning_dequeuedPc (d : DequeueResult Item) :
    (Sys.dequeuedPc d : WorkerPc S).turning = false := by
  cases d <;> rfl

theorem WorkerPc.not_turning_of_idle {pc : WorkerPc S} (h : pc.idle = true) :
    pc.turning = false := by
  cases pc <;> first | rfl | exact absurd h (by simp [idle])

/-- The turn captured the state it began with, if it captured any. -/
def Host.Captured (h : Host S Env) (turn : Option (TurnStart S)) : Prop :=
  ∀ g, (h.workers g).turning = true → ∀ t, turn = some t → t.captured = true →
    h.prevStateCapture = some t.state

section Turn

variable {cfg : HostConfig S Env Op} {s s' : Sys S Env Op} {g : ℕ} {env : Env}
  {ok : Bool}

/-- **A worker in a turn has just begun it, or keeps what it has captured.** -/
theorem Sys.turning_workerStep (hs : s.workerStep cfg g env ok = some s')
    (ht : (s'.host.workers g).turning = true) :
    (∃ item, s.host.workers g = .received item
        ∧ s'.host.prevStateCapture = Sys.capture s.host)
      ∨ (s.host.workers g).turning = true
        ∧ s'.host.prevStateCapture = s.host.prevStateCapture := by
  obtain ⟨pc, hpc, hseg⟩ := Sys.workerSegment hs
  rw [hpc]
  -- a segment that is not in a turn, or ends it
  have hends : ∀ {pc' : WorkerPc S}, s'.host.workers g = pc' → pc'.turning = true :=
    fun hw => hw ▸ ht
  have htail : ∀ {t : Sys S Env Op} {item events}, s' = t.commitEsTail cfg g item events →
      False := by
    rintro t item events rfl
    unfold commitEsTail at ht
    dsimp only at ht
    split at ht <;> exact absurd ht (by simp [setWorker, WorkerPc.turning])
  cases hseg with
  | start => exact .inl ⟨_, rfl, rfl⟩
  | run => exact .inr ⟨rfl, rfl⟩
  | ackSwm | ackEmpty => exact .inr ⟨rfl, rfl⟩
  | resolveEs | esAcked => exact (htail rfl).elim
  | dequeue => exact absurd ht (by simp [dequeue])
  | _ => exact absurd (hends (Function.update_self _ _ _)) (by simp [WorkerPc.turning])

/-- The other workers are in no turn. -/
theorem Lifecycle.not_turning (hl : Lifecycle s.flow.toLife)
    (hg : (s.host.workers g).stage.alive = true) {g' : ℕ} (hne : g' ≠ g) :
    (s.host.workers g').turning = false := by
  by_contra ht
  exact hne (hl.only hg (WorkerPc.alive_of_turning (by simpa using ht)))

/-- **No other step begins a turn, or touches what one has captured.** -/
theorem Sys.turning_step {a : Act Env} (hl : Lifecycle s.flow.toLife)
    (ha : ∀ g env ok, a ≠ .worker g env ok) (hs : s.step cfg a = some s')
    (ht : (s'.host.workers g).turning = true) :
    (s.host.workers g).turning = true
      ∧ s'.host.prevStateCapture = s.host.prevStateCapture := by
  have hbeside : Beside s s' → (s.host.workers g).turning = true
      ∧ s'.host.prevStateCapture = s.host.prevStateCapture := by
    intro hb
    refine ⟨?_, hb.prevStateCapture⟩
    exact (hb.workers_iff (P := fun pc => pc.turning = true) (by simp [WorkerPc.turning])
      (by simp [WorkerPc.turning]) (by simp [WorkerPc.turning]) g).mp ht
  cases a with
  | activation env ok =>
    have hopens : Opens cfg s s' := Sys.opens_actStep hs
    have ht₀ : (s.host.workers g).turning = true := by
      rcases hopens.workers g with he | hidle
      · exact he ▸ ht
      · exact absurd ht (by simp [WorkerPc.not_turning_of_idle hidle])
    -- the activation is through, for a worker of it is in a turn
    have hact := (hl.alive g (WorkerPc.alive_of_turning ht₀)).1
    rcases Sys.beside_or_opens hl hs with hb | ⟨ha, -⟩
    · exact hbeside hb
    · exact absurd (hact.symm.trans ha) (by simp)
  | worker g env ok => exact absurd rfl (ha g env ok)
  | deactivation env =>
    have hends : Ends s s' := Sys.ends_deactStep hs
    rw [hends.workers] at ht
    have halive := WorkerPc.alive_of_turning ht
    obtain ⟨pc, idle, hd, hseg⟩ := Sys.deactSegment hs
    cases hseg with
    | flush hdone | unflushed hdone =>
      exact absurd halive (by simp [hl.dead_of_done hd hdone g])
    | _ => exact absurd halive (by simp [hl.dead_of_deact hd (by simp) g])
  | snapshotFire =>
    rw [Sys.step, Sys.snapshotFire] at hs
    split at hs
    · dsimp only at hs
      split at hs <;> obtain rfl := Option.some.inj hs <;> exact ⟨ht, rfl⟩
    · exact absurd hs (by simp)
  | save k ok =>
    rw [Sys.step, Sys.saveStep] at hs
    split at hs
    · split at hs <;> obtain rfl := Option.some.inj hs <;> exact ⟨ht, rfl⟩
    · split at hs <;> obtain rfl := Option.some.inj hs <;> exact ⟨ht, rfl⟩
    · exact absurd hs (by simp)
  | subscribe l =>
    rw [Sys.step, Sys.subscribe] at hs
    split at hs
    · exact absurd hs (by simp)
    · obtain rfl := Option.some.inj hs
      exact ⟨ht, rfl⟩
  | unsubscribe l =>
    obtain rfl := Option.some.inj hs
    exact ⟨ht, rfl⟩
  | notifyTombstone =>
    obtain rfl := Option.some.inj hs
    exact ⟨ht, rfl⟩
  | _ => exact hbeside (Sys.beside_step hl rfl hs)

/-- The segments that complete a commit. -/
theorem Host.news_cases {h : Host S Env} {turn : Option (TurnStart S)}
    (hn : h.news cfg turn g ok ≠ []) :
    (∃ method args c r, h.workers g = .returned (.call method args c) (.ok r)
        ∧ h.cls.isEs = false)
      ∨ (∃ item id, h.workers g = .acking item id .swm ∧ ok = true)
      ∨ (∃ method args c events seq state,
        h.workers g = .appended (.call method args c) events seq
          ∧ foldEvents h.cls h.state events = .ok state)
      ∨ ∃ item id events, h.workers g = .acking item id (.es events) ∧ ok = true := by
  unfold Host.news at hn
  split at hn
  · next method args c r hpc =>
    split at hn
    · exact absurd rfl hn
    · next hes => exact .inl ⟨method, args, c, r, hpc, by simpa using hes⟩
  · next item id hpc =>
    split at hn
    · next hok => exact .inr (.inl ⟨item, id, hpc, hok⟩)
    · exact absurd rfl hn
  · next method args c events seq hpc =>
    split at hn
    · exact absurd rfl hn
    · next state hf =>
      exact .inr (.inr (.inl ⟨method, args, c, events, seq, state, hpc, hf⟩))
  · next item id events hpc =>
    split at hn
    · next hok => exact .inr (.inr (.inr ⟨item, id, events, hpc, hok⟩))
    · exact absurd rfl hn
  · exact absurd rfl hn

/-- **A commit tells the listeners** what there is to tell of it. -/
theorem Sys.tells_news {turn : Option (TurnStart S)} {l : ℕ}
    (hs : s.workerStep cfg g env ok = some s') (hcap : s.host.Captured turn)
    (hturn : (s.host.workers g).turning = true → turn.any TurnStart.captured = true)
    (hl : l ∈ s.host.commitListeners) (hn : s.host.news cfg turn g ok ≠ []) :
    s'.hist.notifs l = s.hist.notifs l ++ s.host.news cfg turn g ok := by
  have hemit : ∀ {t : Sys S Env Op} (ns : List (Notification S Op)),
      t.hist.notifs = s.hist.notifs → t.host.commitListeners = s.host.commitListeners →
      (t.emit ns).hist.notifs l = s.hist.notifs l ++ ns := by
    intro t ns htn htl
    rw [← htn]
    exact if_pos (htl ▸ hl)
  -- the patch is from what the turn has captured
  have htail : ∀ {t : Sys S Env Op}, (s.host.workers g).turning = true →
      t.hist.notifs = s.hist.notifs → t.host.commitListeners = s.host.commitListeners →
      t.host.prevStateCapture = s.host.prevStateCapture → t.host.state = s.host.state →
      (t.commitSwmTail cfg).hist.notifs l = s.hist.notifs l
        ++ (turn.map (fun t => cfg.patch t.state s.host.state)).getD [] := by
    intro t hw htn htl htc hts
    obtain ⟨start, rfl, hstart⟩ := Option.any_eq_true _ _ |>.mp (hturn hw)
    have hprev : t.host.prevStateCapture = some start.state :=
      htc.trans (hcap g hw start rfl hstart)
    have he := hemit (t := { t with
      host := { t.host.scheduleSnapshot with prevStateCapture := none } })
      (cfg.patch start.state s.host.state) htn htl
    unfold commitSwmTail
    rw [hprev, hts]
    exact he
  have htailEs : ∀ {t : Sys S Env Op} {item : Item} {events : List Json},
      t.hist.notifs = s.hist.notifs → t.host.commitListeners = s.host.commitListeners →
      (t.commitEsTail cfg g item events).hist.notifs l
        = s.hist.notifs l ++ [.event events t.host.currentSeq] := by
    intro t item events htn htl
    have he := hemit [.event events t.host.currentSeq] htn htl
    unfold commitEsTail
    dsimp only
    split <;> exact he
  obtain ⟨method, args, c, r, hpc, hes⟩ | ⟨item, id, hpc, rfl⟩
    | ⟨method, args, c, events, seq, state, hpc, hf⟩ | ⟨item, id, events, hpc, rfl⟩ :=
      Host.news_cases hn
  · simp only [workerStep, hpc, hes] at hs
    obtain rfl := Option.some.inj hs
    simp only [Host.news, hpc, hes]
    exact htail (t := s.resolveCall (.call method args c) c r) (by rw [hpc]; rfl)
      rfl rfl rfl rfl
  · simp only [workerStep, hpc] at hs
    obtain rfl := Option.some.inj hs
    simp only [Host.news, hpc]
    exact htail (t := { s with store := s.store.ackInbox id }) (by rw [hpc]; rfl)
      rfl rfl rfl rfl
  · simp only [workerStep, hpc, commitEsFold, hf] at hs
    obtain rfl := Option.some.inj hs
    simp only [Host.news, hpc, hf]
    exact htailEs rfl rfl
  · simp only [workerStep, hpc] at hs
    obtain rfl := Option.some.inj hs
    simp only [Host.news, hpc]
    exact htailEs (t := { s with store := s.store.ackInbox id }) rfl rfl

end Turn

/-! ## Subscriptions and listeners

A subscription that is in place has its listener on the object that `getHost`
returned, whatever has become of that object. -/

namespace Runtime

variable {cfg : RuntimeConfig S Env Op} {rt rt' : Runtime S Env Op} {q r : ℕ}
  {ask : Ask} {pc : AskPc} {o : HostObject S Env Op} {s : Sys S Env Op}

/-- **A subscription that is in place is a listener** of the object it hangs on. -/
def Listed (rt : Runtime S Env Op) : Prop :=
  ∀ q ask r o, rt.requests q = some ⟨ask, .attached r⟩ → rt.objects r = some o →
    q ∈ o.host.commitListeners

namespace Listed

/-- A request that does not attach moves. -/
theorem setRequest (h : rt.Listed) (hpc : ∀ r, pc ≠ .attached r) :
    (rt.setRequest q ask pc).Listed := by
  intro q' ask' r' o' hq' ho'
  by_cases he : q' = q
  · rw [he, requests_setRequest_self] at hq'
    exact absurd (AskTask.mk.inj (Option.some.inj hq')).2 (hpc r')
  · rw [requests_setRequest_ne he] at hq'
    exact h q' ask' r' o' hq' ho'

/-- An object makes a step, with the listeners of those that stay attached. -/
theorem setSys (h : rt.Listed)
    (hs : ∀ q ask, rt.requests q = some ⟨ask, .attached r⟩ →
      q ∈ s.host.commitListeners) : (rt.setSys r o s).Listed := by
  intro q' ask' r' o' hq' ho'
  by_cases he : r' = r
  · subst he
    rw [objects_setSys_self] at ho'
    obtain rfl := Option.some.inj ho'
    exact hs q' ask' hq'
  · rw [objects_setSys_ne he] at ho'
    exact h q' ask' r' o' hq' ho'

/-- The objects are what they were, or have the same listeners. -/
theorem of_objects (h : rt.Listed) (hreq : rt'.requests = rt.requests)
    (hobj : ∀ r o', rt'.objects r = some o' → ∃ o, rt.objects r = some o
      ∧ o'.host.commitListeners = o.host.commitListeners) : rt'.Listed := by
  intro q' ask' r' o' hq' ho'
  obtain ⟨o, ho, he⟩ := hobj r' o' ho'
  rw [he]
  exact h q' ask' r' o (hreq ▸ hq') ho

theorem step {x : RuntimeAct Env} (h : rt.Listed) (hrt : rt.Sound)
    (hs : rt.step cfg x = some rt') : rt'.Listed := by
  have hm := step_moves hs
  clear hs
  -- a step of an object that attaches and detaches nobody
  have hstep : ∀ {r o a s}, rt.objects r = some o → a.attaches = false →
      (rt.sys o).step o.cfg a = some s → (rt.setSys r o s).Listed := by
    intro r o a s ho ha hs
    refine h.setSys (fun q' ask' hq' => ?_)
    have ht := Sys.tells_step (hrt.lifecycle r o ho) ha hs
    rw [ht.listeners]
    exact h q' ask' r o hq' ho
  cases hm with
  | answer ha =>
    refine h.setRequest (fun r he => ?_)
    subst he
    cases ha
  | @materialize q ask admitted c id registration =>
    intro q' ask' r' o' hq' ho'
    have hq₀ : rt.requests q' = some ⟨ask', .attached r'⟩ := by
      by_cases he : q' = q
      · subst he
        exact absurd (requests_setRequest_self.symm.trans hq') (by simp)
      · exact (requests_setRequest_ne he).symm.trans hq'
    obtain ⟨o₀, ho₀, -⟩ := hrt.requests q' ask' _ r' hq₀ rfl
    refine h q' ask' r' o' hq₀ ?_
    exact (objects_materialize_ne (hrt.bound r' o₀ ho₀).ne).symm.trans ho'
  | @install q ask ok r o result hq ho hr =>
    have hrt₀ : ∀ {t : Runtime S Env Op}, t.requests = rt.requests →
        t.objects = rt.objects → t.Listed :=
      fun hreq hobj => h.of_objects hreq (fun r o' ho' => ⟨o', hobj ▸ ho', rfl⟩)
    cases result with
    | ok _ => exact (hrt₀ rfl rfl).setRequest (by simp)
    | error e => exact (hrt₀ rfl rfl).setRequest (by simp)
  | @serve x q r ask o a pc s ho hserve hs =>
    cases hserve with
    | call => exact (hstep ho rfl hs).setRequest (by simp)
    | tell => exact (hstep ho rfl hs).setRequest (by simp)
    | hostCall => exact (hstep ho rfl hs).setRequest (by simp)
    | hostTell => exact (hstep ho rfl hs).setRequest (by simp)
    | @subscribe c id ok hq =>
      obtain ⟨hlis, -⟩ := Sys.subscribe_eq hs
      have hlis : s.host.commitListeners = o.host.commitListeners ++ [q] := hlis
      have hsys : (rt.setSys r o s).Listed := h.setSys (fun q' ask' hq' => by
        rw [hlis]
        exact List.mem_append_left _ (h q' ask' r o hq' ho))
      intro q' ask' r' o' hq' ho'
      by_cases he : q' = q
      · subst he
        rw [requests_setRequest_self] at hq'
        obtain rfl := AskPc.attached.inj (AskTask.mk.inj (Option.some.inj hq')).2
        obtain rfl := Option.some.inj (objects_setSys_self.symm.trans ho')
        exact hlis ▸ List.mem_append_right _ (List.mem_singleton_self q')
      · rw [requests_setRequest_ne he] at hq'
        exact hsys q' ask' r' o' hq' ho'
  | @tombstone q admitted id p r o s hq hh ho hs =>
    refine setRequest (fun q' ask' r' o' hq' ho' => ?_) (by simp)
    simp only [detachAll, requests_setSys] at hq'
    split at hq'
    · next ask₀ r₀ hq₀ =>
      split at hq'
      · exact absurd (AskTask.mk.inj (Option.some.inj hq')).2 (by simp)
      · next hne =>
        obtain rfl := AskPc.attached.inj (AskTask.mk.inj (Option.some.inj hq')).2
        exact h q' ask₀ r₀ o' hq₀ ((objects_setSys_ne hne).symm.trans ho')
    · next hno => exact absurd hq' (hno ask' r')
  | @tombstoned q id p hq =>
    have hstores : { rt with
        stores := update rt.stores id (rt.stores id).tombstoneActor }.Listed := h
    exact hstores.setRequest (by simp)
  | @own r o a s ho ha hne hs =>
    refine hstep ho ?_ hs
    cases a <;> first | rfl | exact absurd ha (by simp [Act.own])
  | evict ho hs =>
    exact (hstep ho rfl hs).of_objects requests_evict
      (fun r' o' ho' => ⟨o', objects_evict ▸ ho', rfl⟩)
  | @unsubscribe q ask r o s hq ho hs =>
    obtain rfl := Option.some.inj hs
    intro q' ask' r' o' hq' ho'
    by_cases he : q' = q
    · subst he
      rw [requests_setRequest_self] at hq'
      exact absurd (AskTask.mk.inj (Option.some.inj hq')).2 (by simp)
    rw [requests_setRequest_ne he, requests_setSys] at hq'
    by_cases hr : r' = r
    · subst hr
      obtain rfl := Option.some.inj (objects_setSys_self.symm.trans ho')
      have hmem := h q' ask' r' o hq' ho
      exact List.mem_filter.mpr ⟨hmem, by simpa using he⟩
    · exact h q' ask' r' o' hq' ((objects_setSys_ne hr).symm.trans ho')
  | shutdown => exact h
  | @destroyHosts env hd =>
    refine h.of_objects rfl (fun r o' ho' => ?_)
    obtain ⟨o, ho, rfl⟩ := Option.map_eq_some_iff.mp ho'
    refine ⟨o, ho, ?_⟩
    split
    · have hs : (rt.sys o).step o.cfg (.destroy env) = some ((rt.sys o).destroy env) := rfl
      exact (Sys.tells_step (hrt.lifecycle r o ho) rfl hs).listeners
    · rfl

end Listed

end Runtime

/-! ## The subscriptions of a process are told of its commits -/

namespace Audience

variable {cfg : RuntimeConfig S Env Op} {u u' : Audience S Env Op}

/-- **The invariant**: the subscriptions in place are listeners, and each turn
holds what it has captured. -/
structure Kept (u : Audience S Env Op) : Prop where
  sound : u.rt.Sound
  listed : u.rt.Listed
  captured : ∀ r o, u.rt.objects r = some o → o.host.Captured (u.turns r)

theorem step_eq {x : RuntimeAct Env} (hs : u.step cfg x = some u') :
    u.rt.step cfg x = some u'.rt ∧ u'.turns = u.begins x := by
  obtain ⟨rt, hrt, rfl⟩ := Option.map_eq_some_iff.mp hs
  exact ⟨hrt, rfl⟩

/-- Only a worker begins a turn. -/
theorem begins_of_ne {x : RuntimeAct Env} {r : ℕ}
    (hx : ∀ g env ok, x ≠ .host r (.worker g env ok)) : u.begins x r = u.turns r := by
  cases hb : u.begun x with
  | none => simp only [begins, hb]
  | some p =>
    obtain ⟨r', t⟩ := p
    simp only [begins, hb]
    refine Function.update_of_ne (fun he => ?_) _ _
    subst he
    unfold begun at hb
    split at hb
    · next r' g env ok =>
      split at hb
      · exact absurd hb (by simp)
      split at hb
      · obtain ⟨rfl, -⟩ := Prod.mk.inj (Option.some.inj hb)
        exact hx g env ok rfl
      · exact absurd hb (by simp)
    · exact absurd hb (by simp)

/-- The step of an object whose worker moves. -/
theorem worker_eq {r g : ℕ} {env : Env} {ok : Bool} {o : HostObject S Env Op}
    (ho : u.rt.objects r = some o)
    (hs : u.rt.step cfg (.host r (.worker g env ok)) = some u'.rt) :
    ∃ s, (u.rt.sys o).workerStep o.cfg g env ok = some s
      ∧ u'.rt = u.rt.setSys r o s := by
  have hs : u.rt.hostStep r (.worker g env ok) = some u'.rt := by
    simp only [Runtime.step, Runtime.hostAct, ho] at hs
    exact hs
  obtain ⟨o', s, ho', hw, he⟩ := Runtime.hostStep_eq hs
  obtain rfl := Option.some.inj (ho.symm.trans ho')
  exact ⟨s, hw, he⟩

theorem Kept.init (stores : ActorId → ActorStore S) :
    (Audience.init stores : Audience S Env Op).Kept where
  sound := .init stores
  listed q ask r o hq := absurd hq (by simp [Audience.init, Runtime.init])
  captured r o ho := absurd ho (by simp [Audience.init, Runtime.init])

/-- A worker moves, and begins a turn or goes on with one. -/
theorem Kept.of_worker (h : u.Kept) {r g : ℕ} {env : Env} {ok : Bool}
    {o : HostObject S Env Op} {s : Sys S Env Op} (ho : u.rt.objects r = some o)
    (hs : (u.rt.sys o).workerStep o.cfg g env ok = some s) :
    s.host.Captured (u.begins (.host r (.worker g env ok)) r) := by
  have hl := h.sound.lifecycle r o ho
  have halive : (o.host.workers g).stage.alive = true := Sys.alive_of_workerStep hs
  intro g' ht t he hcap
  by_cases hne : g' = g
  · subst hne
    obtain ⟨item, hpc, hc⟩ | ⟨ht₀, hc⟩ := Sys.turning_workerStep hs ht
    · have hpc : o.host.workers g' = .received item := hpc
      simp only [begins, begun, ho, hpc, Function.update_self, Option.some.injEq] at he
      subst he
      have hcap : o.host.cls.isEs = false ∧ o.host.commitListeners ≠ [] := by
        simpa using hcap
      rw [hc]
      exact if_pos hcap
    · have ht₀ : (o.host.workers g').turning = true := ht₀
      have hb : u.begins (.host r (.worker g' env ok)) r = u.turns r := by
        have hnone : u.begun (.host r (.worker g' env ok)) = none := by
          simp only [begun, ho]
          split
          · next item hpc => exact absurd ht₀ (by simp [hpc, WorkerPc.turning])
          · rfl
        simp only [begins, hnone]
      rw [hc]
      exact h.captured r o ho g' ht₀ t (hb ▸ he) hcap
  · have hw : s.host.workers g' = o.host.workers g' :=
      (Sys.turnPart_workerStep hs).workers g' hne
    have hf : (o.host.workers g').turning = false := hl.not_turning halive hne
    exact absurd (hw ▸ ht) (by simp [hf])

/-- **Every step keeps to it.** -/
theorem Kept.step {x : RuntimeAct Env} (h : u.Kept) (hs : u.step cfg x = some u') :
    u'.Kept := by
  obtain ⟨hrt, hturns⟩ := step_eq hs
  refine ⟨h.sound.step hrt, h.listed.step h.sound hrt, fun r o' ho' => ?_⟩
  rw [hturns]
  by_cases hx : ∃ g env ok, x = .host r (.worker g env ok)
  · obtain ⟨g, env, ok, rfl⟩ := hx
    have ho : ∃ o, u.rt.objects r = some o := by
      cases ho : u.rt.objects r with
      | none =>
        simp only [Runtime.step, Runtime.hostAct, ho] at hrt
        exact absurd hrt (by simp)
      | some o => exact ⟨o, rfl⟩
    obtain ⟨o, ho⟩ := ho
    obtain ⟨s, hw, he⟩ := worker_eq ho hrt
    rw [he, Runtime.objects_setSys_self] at ho'
    obtain rfl := Option.some.inj ho'
    exact h.of_worker ho hw
  rw [begins_of_ne (fun g env ok he => hx ⟨g, env, ok, he⟩)]
  obtain ho | ⟨o, a, s, ho, -, hown, hstep, rfl⟩ | ⟨-, id, registration, rfl⟩ :=
    (Runtime.step_moves hrt).object ho'
  · exact h.captured r o' ho
  · intro g ht t he hcap
    have ha : ∀ g env ok, a ≠ .worker g env ok := by
      rintro g env ok rfl
      exact hx ⟨g, env, ok, hown rfl⟩
    obtain ⟨ht₀, hc⟩ := Sys.turning_step (h.sound.lifecycle r o ho) ha hstep ht
    exact hc.trans (h.captured r o ho g ht₀ t he hcap)
  · intro g ht
    have hb : Beside (Sys.init (cfg.hostConfig id registration) (u.rt.stores id))
        ((Sys.init (cfg.hostConfig id registration) (u.rt.stores id)).activate
          (cfg.hostConfig id registration)) := .activate _
    exact absurd ((hb.workers_iff (P := fun pc => pc.turning = true)
      (by simp [WorkerPc.turning]) (by simp [WorkerPc.turning])
      (by simp [WorkerPc.turning]) g).mp ht) (by simp [Sys.init, Host.init, WorkerPc.turning])

/-- What is sent to a subscription of object `r` is what the object sends it. -/
theorem sent_setSys {r q : ℕ} {rt : Runtime S Env Op} {o : HostObject S Env Op}
    {s : Sys S Env Op} {ask : Ask} (hq : rt.requests q = some ⟨ask, .attached r⟩) :
    (rt.setSys r o s).sent q = s.hist.notifs q := by
  simp only [Runtime.sent, Runtime.requests_setSys, hq, Runtime.objects_setSys_self]
  rfl

/-- **A commit is told to every subscription of its actor**, if it is made by the
object they hang on. -/
theorem Kept.informs {x : RuntimeAct Env} (h : u.Kept) (hG : u.attended x = true)
    (hs : u.step cfg x = some u') : u.Informs x u' := by
  rintro r g env ok o rfl ho hn q ⟨c, r', hq⟩
  obtain ⟨hrt, -⟩ := step_eq hs
  obtain ⟨s, hw, he⟩ := worker_eq ho hrt
  have hG : u.rt.holdsListeners r o = true
      ∧ ((o.host.workers g).turning = false ∨ o.host.commitListeners = []
        ∨ (u.turns r).any TurnStart.captured = true) := by
    simpa [attended, ho, hn, or_assoc] using hG
  -- the subscription hangs on the object that makes the commit
  obtain ⟨o', ho', hid⟩ := h.sound.requests q _ _ r' hq rfl
  have hmem := h.listed q _ r' o' hq ho'
  obtain rfl : r' = r := by
    have hall := List.all_eq_true.mp hG.1 r' (List.mem_range.mpr (h.sound.bound r' o' ho'))
    rw [ho'] at hall
    have hne : o'.host.commitListeners ≠ [] := List.ne_nil_of_mem hmem
    simpa [hid c o.id rfl, hne] using hall
  obtain rfl := Option.some.inj (ho'.symm.trans ho)
  have hsent : u.rt.sent q = o'.hist.notifs q := by
    simp only [Runtime.sent, hq, ho']
    rfl
  rw [he, sent_setSys hq, hsent]
  refine Sys.tells_news hw (h.captured r' o' ho') (fun ht => ?_) hmem hn
  have ht : (o'.host.workers g).turning = true := ht
  rcases hG.2 with hf | hnil | hcap
  · exact absurd ht (by simp [hf])
  · exact absurd hmem (by simp [hnil])
  · exact hcap

/-- **Subscriptions outlive idle eviction**, and every other way that the host of
an actor is replaced, in the runs in which each commit is made by the object that
all the listeners of its actor are on: every subscription in place is told of
every commit. -/
theorem subscriptions_outlive_eviction (cfg : RuntimeConfig S Env Op)
    (stores : ActorId → ActorStore S) (xs : List (RuntimeAct Env))
    (hG : TransitionSystem.Along (step cfg) (fun u x => u.attended x = true)
      (init stores) xs) :
    TransitionSystem.Along (step cfg)
      (fun u x => ∀ u', u.step cfg x = some u' → u.Informs x u') (init stores) xs :=
  TransitionSystem.along_invariant (step cfg) (P := Kept)
    (fun _ _ _ h _ hs => h.step hs) (fun _ _ h hG _ hs => h.informs hG hs)
    (.init stores) hG

/-! ### A counter somebody subscribes to -/

/-- Somebody subscribes to the counter. -/
def subscribing : List (RuntimeAct Bool) :=
  .start 0 (.subscribe "Counter" "counter-1") true :: Counter.hostActivating 0 7
    ++ [.resume 0 true, .resume 0 true]

/-- It is called, up to the commit. -/
def called : List (RuntimeAct Bool) :=
  .start 1 (.call "Counter" "counter-1" "inc" .null Counter.admin) true
    :: .resume 1 true :: Counter.hostWorking 0 1 1

/-- Its host goes idle, and is evicted. -/
def evicted : List (RuntimeAct Bool) :=
  .host 0 (.idleFire true) :: Counter.hostWorking 0 1 1
    ++ [.host 0 (.deactivation true), .host 0 (.deactivation true), .host 0 .idleEvict]

/-- It is called again, and materialized for that, up to the commit. -/
def calledAgain : List (RuntimeAct Bool) :=
  .start 1 (.call "Counter" "counter-1" "inc" .null Counter.admin) true
    :: Counter.hostActivating 1 7 ++ [.resume 1 true, .resume 1 true]
    ++ Counter.hostWorking 1 1 1

/-- The theorem applies while the counter keeps its host: the call makes a commit,
and the subscription is told of it. -/
theorem subscriptions_outlive_eviction_called :
    ∃ u u' : Audience ℕ Bool ℕ, ∃ o,
      TransitionSystem.run (step Counter.runtime) (init (Counter.stored 5))
        (subscribing ++ called) = some u
      ∧ u.step Counter.runtime (.host 0 (.worker 1 true true)) = some u'
      ∧ u.rt.objects 0 = some o ∧ u.news 0 o 1 true ≠ [] ∧ u.rt.Subscribed o.id 0
      ∧ u'.rt.sent 0 = u.rt.sent 0 ++ u.news 0 o 1 true := by
  have hrun : (TransitionSystem.run (step Counter.runtime) (init (Counter.stored 5))
      (subscribing ++ called)).any (fun u =>
        (u.step Counter.runtime (.host 0 (.worker 1 true true))).isSome
        && (u.rt.objects 0).any (fun o => !(u.news 0 o 1 true).isEmpty
          && o.id == "counter-1")
        && u.rt.subscribed "counter-1" 0) = true := by decide +kernel
  obtain ⟨u, hu, h⟩ := (Option.any_eq_true _ _).mp hrun
  obtain ⟨h, hsub⟩ := Bool.and_eq_true_iff.mp h
  obtain ⟨hstep, h⟩ := Bool.and_eq_true_iff.mp h
  obtain ⟨u', hs⟩ := Option.isSome_iff_exists.mp hstep
  obtain ⟨o, ho, h⟩ := (Option.any_eq_true _ _).mp h
  obtain ⟨hn, hid⟩ := Bool.and_eq_true_iff.mp h
  have hn : u.news 0 o 1 true ≠ [] := by simpa using hn
  have hsub : u.rt.Subscribed o.id 0 := by
    rw [beq_iff_eq.mp hid]
    exact .of_subscribed hsub
  have halong := subscriptions_outlive_eviction Counter.runtime (Counter.stored 5)
    ((subscribing ++ called) ++ [.host 0 (.worker 1 true true)]) (by decide)
  exact ⟨u, u', o, hu, hs, ho, hn, hsub,
    (halong.of_append _ hu).1 u' hs 0 1 true true o rfl ho hn 0 hsub⟩

/-- **After an idle eviction the subscription is told of nothing**: it was not
unsubscribed or closed, the actor is not tombstoned, and the commit is made by the
object that was constructed since. -/
theorem not_subscriptions_outlive_eviction :
    ¬∀ xs : List (RuntimeAct Bool), TransitionSystem.Along (step Counter.runtime)
      (fun u x => ∀ u', u.step Counter.runtime x = some u' → u.Informs x u')
      (init (Counter.stored 5)) xs := by
  intro h
  have hrun : (TransitionSystem.run (step Counter.runtime) (init (Counter.stored 5))
      (subscribing ++ evicted ++ calledAgain)).any (fun u =>
        (u.step Counter.runtime (.host 1 (.worker 1 true true))).any (fun u' =>
          (u'.rt.sent 0).length == (u.rt.sent 0).length)
        && (u.rt.objects 1).any (fun o => !(u.news 1 o 1 true).isEmpty
          && o.id == "counter-1")
        && u.rt.subscribed "counter-1" 0) = true := by decide +kernel
  obtain ⟨u, hu, hf⟩ := (Option.any_eq_true _ _).mp hrun
  obtain ⟨hf, hsub⟩ := Bool.and_eq_true_iff.mp hf
  obtain ⟨hstep, hf⟩ := Bool.and_eq_true_iff.mp hf
  obtain ⟨u', hs, hlen⟩ := (Option.any_eq_true _ _).mp hstep
  obtain ⟨o, ho, hf⟩ := (Option.any_eq_true _ _).mp hf
  obtain ⟨hn, hid⟩ := Bool.and_eq_true_iff.mp hf
  have hn : u.news 1 o 1 true ≠ [] := by simpa using hn
  have hsub : u.rt.Subscribed o.id 0 := by
    rw [beq_iff_eq.mp hid]
    exact .of_subscribed hsub
  have halong := h (subscribing ++ evicted ++ calledAgain
    ++ [.host 1 (.worker 1 true true)])
  have hsent := (halong.of_append _ hu).1 u' hs 1 1 true true o rfl ho hn 0 hsub
  have hlen : (u'.rt.sent 0).length = (u.rt.sent 0).length := beq_iff_eq.mp hlen
  rw [hsent, List.length_append] at hlen
  exact hn (List.length_eq_zero_iff.mp (by omega))

end Audience
