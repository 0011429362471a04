import Actjs.Directory
import Actjs.Listeners
import Actjs.SseResume

/-!
# Who gets to read an actor

There are four ways to read an actor over a connection: to subscribe to it over a
WebSocket, to open a stream of its events, to have such a stream begin with what
the log has after some event, and to get its snapshot. `Gateway` is a process
with the connections that do, each for a principal.

The handler of the last one asks `checkRead` before it answers. The others get
the host through `getHost`, which asks nothing, and so does
`SubscriptionRegistry.subscribe`. What they send is allowed exactly as far as
the policy happens to allow it when they have their host.
-/

open Function (update)

variable {S Env Op : Type}

/-- The way a connection reads an actor. -/
inductive ReadPath where
  /-- `actor.subscribe` over a WebSocket. -/
  | ws
  /-- A stream of events, with the `Last-Event-ID` of its request. -/
  | sse (lastEventId : Option ℕ)
  /-- The snapshot of the actor. -/
  | rest

/-- Where the handler of a read is suspended. -/
inductive ReadPc (S : Type) where
  /-- In the `getHost` of `replayFromSeq`, for the request of that number. -/
  | locating (q lastEventId : ℕ)
  /-- In the `readEvents` of `replayFromSeq`, of a host of the class. -/
  | reading (className : ClassName) (lastEventId : ℕ)
  /-- About to call `registry.subscribe`. -/
  | subscribing (replayedSeq : Option ℤ)
  /-- In `registry.subscribe`, or attached. -/
  | attaching (replayedSeq : Option ℤ)
  /-- In `loadSnapshot`. -/
  | loading
  /-- In `checkRead`, about the snapshot it has loaded. -/
  | checking (snap : SnapshotRead S)
  | answered
  | failed

/-- **A read of an actor.** -/
structure ReadTask (S Op : Type) where
  principal : Principal
  className : ClassName
  id : ActorId
  pc : ReadPc S
  /-- What its handler has written, and of which class. -/
  written : List (ClassName × Notification S Op)
  /-- The classes whose read policy has said that the principal may read the
  actor, whether it was asked or not: a history. -/
  allowed : List ClassName

/-- **A process, and the reads of its actors**, each by the number of its
subscription or of its `checkRead`. -/
structure Gateway (S Env Op : Type) where
  rt : Runtime S Env Op
  reads : ℕ → Option (ReadTask S Op)

/-- What can happen next: anything else in the process, or to a read. `q` is the
number of its `getHost`, if it has one. -/
inductive GatewayAct (Env : Type) where
  | runtime (x : RuntimeAct Env)
  | request (t q : ℕ) (principal : Principal) (path : ReadPath)
    (className : ClassName) (id : ActorId)
  | handler (t : ℕ) (ok : Bool)

/-- The read policy of the class allows the principal. -/
def RuntimeConfig.allowsRead (cfg : RuntimeConfig S Env Op) (className : ClassName)
    (p : Principal) (id : ActorId) (o : HostObject S Env Op) : Bool :=
  (cfg.checkPolicy className p (.read (Runtime.policyActor cfg className id o))).isOk

namespace ReadTask

/-- What the read policy of the class says now, recorded. -/
def judge (cfg : RuntimeConfig S Env Op) (task : ReadTask S Op) (c : ClassName)
    (o : HostObject S Env Op) : ReadTask S Op :=
  if cfg.allowsRead c task.principal task.id o = true then
    { task with allowed := c :: task.allowed }
  else task

/-- `replayFromSeq` after its `readEvents`: write the payloads as one batch,
unless there is none. -/
def replayed (task : ReadTask S Op) (c : ClassName) (records : List (ℤ × EventRow)) :
    ReadTask S Op :=
  match records.getLast? with
  | none => { task with pc := .subscribing none }
  | some (lastSeq, _) =>
    { task with
      written := [(c, .event (records.map (fun p => p.2.payload)) lastSeq)]
      pc := .subscribing (some lastSeq) }

/-- What the subscription sends is written to the connection through this sink. -/
def sink (task : ReadTask S Op) (ns : List (Notification S Op)) :
    List (Notification S Op) :=
  match task.pc with
  | .attaching (some seq) => wrapSinkForResume seq false ns
  | .attaching none => ns
  | _ => []

end ReadTask

namespace Gateway

/-- A process with no connections. -/
def init (stores : ActorId → ActorStore S) : Gateway S Env Op :=
  ⟨.init stores, fun _ => none⟩

/-- Move read `t`. -/
def setRead (g : Gateway S Env Op) (t : ℕ) (task : ReadTask S Op) :
    Gateway S Env Op :=
  { g with reads := update g.reads t (some task) }

/-- The step is one that only the handler of a read takes. -/
def reserved (g : Gateway S Env Op) : RuntimeAct Env → Bool
  | .start _ (.subscribe _ _) _ => true
  | .start _ (.checkRead _ _ _) _ => true
  | .start q _ _ => (g.reads q).isSome
  | .resume q _ =>
    match g.rt.requests q with
    | some ⟨.subscribe _ _, _⟩ => true
    | some ⟨.checkRead _ _ _, _⟩ => true
    | _ => false
  | _ => false

/-- A connection asks to read an actor. -/
def request (cfg : RuntimeConfig S Env Op) (g : Gateway S Env Op) (t q : ℕ)
    (principal : Principal) (path : ReadPath) (className : ClassName)
    (id : ActorId) : Option (Gateway S Env Op) :=
  if (g.reads t).isSome = true ∨ (g.rt.requests t).isSome = true ∨ q = t then none
  else
    let task : ReadPc S → ReadTask S Op :=
      fun pc => ⟨principal, className, id, pc, [], []⟩
    match path with
    | .ws => some (g.setRead t (task (.subscribing none)))
    | .sse none => some (g.setRead t (task (.subscribing none)))
    | .sse (some lastEventId) =>
      (g.rt.start cfg q (.getHost className id) true).map (fun rt =>
        { g with rt := rt }.setRead t (task (.locating q lastEventId)))
    | .rest => some (g.setRead t (task .loading))

/-- `replayFromSeq` once `getHost` has returned object `o`: there is nothing to
replay, or the log is to be read. -/
def located (cfg : RuntimeConfig S Env Op) (g : Gateway S Env Op) (t : ℕ)
    (task : ReadTask S Op) (lastEventId : ℕ) (o : HostObject S Env Op) :
    Gateway S Env Op :=
  if o.host.currentSeq ≤ lastEventId then
    g.setRead t { task with pc := .subscribing none }
  else
    g.setRead t { task.judge cfg o.className o with
      pc := .reading o.className lastEventId }

/-- The class a request is judged by, once it has its host: the one it names to
`checkRead`, or that of the host. -/
def judged (ask : Ask) (o : HostObject S Env Op) : ClassName :=
  match ask with
  | .checkRead c _ _ => c
  | _ => o.className

/-- The read, with what the policy says if the request it awaits has its host. -/
def judging (cfg : RuntimeConfig S Env Op) (g : Gateway S Env Op) (t : ℕ)
    (task : ReadTask S Op) : ReadTask S Op :=
  match g.rt.requests t with
  | some ⟨ask, .resolved r⟩ =>
    match g.rt.objects r with
    | none => task
    | some o => task.judge cfg (judged ask o) o
  | _ => task

/-- The handler of the snapshot route after `checkRead`. -/
def answer (g : Gateway S Env Op) (t : ℕ) (task : ReadTask S Op)
    (snap : SnapshotRead S) : Gateway S Env Op :=
  match g.rt.requests t with
  | some ⟨_, .done⟩ =>
    g.setRead t { task with
      written := [(snap.cls, .snapshot (some snap.state) snap.seq)]
      pc := .answered }
  | some ⟨_, .rejected _⟩ => g.setRead t { task with pc := .failed }
  | _ => g.setRead t task

/-- One segment of the handler of read `t`. `ok` is the fate of the storage
operation it awaits, or what the limit on subscribers says. -/
def handlerStep (cfg : RuntimeConfig S Env Op) (g : Gateway S Env Op) (t : ℕ)
    (task : ReadTask S Op) (ok : Bool) : Option (Gateway S Env Op) :=
  match task.pc with
  | .locating q lastEventId =>
    match g.rt.requests q with
    | some ⟨_, .returned r⟩ => (g.rt.objects r).map (g.located cfg t task lastEventId)
    | some ⟨_, .rejected _⟩ => some (g.setRead t { task with pc := .failed })
    | _ => none
  | .reading c lastEventId =>
    if ok = true then
      some (g.setRead t
        (task.replayed c ((g.rt.stores task.id).readEvents (lastEventId + 1))))
    else some (g.setRead t { task with pc := .failed })
  | .subscribing replayedSeq =>
    if ok = true then
      (g.rt.start cfg t (.subscribe task.className task.id) true).map (fun rt =>
        { g with rt := rt }.setRead t { task with pc := .attaching replayedSeq })
    else some (g.setRead t { task with pc := .failed })
  | .attaching _ =>
    (g.rt.resume cfg t ok).map (fun rt =>
      { g with rt := rt }.setRead t (g.judging cfg t task))
  | .loading =>
    if ok = true then
      match (g.rt.stores task.id).loadSnapshot with
      | none => some (g.setRead t { task with pc := .failed })
      | some snap =>
        if snap.cls = task.className then
          (g.rt.start cfg t (.checkRead snap.cls task.id task.principal) true).map
            (fun rt => { g with rt := rt }.answer t { task with pc := .checking snap }
              snap)
        else some (g.setRead t { task with pc := .failed })
    else some (g.setRead t { task with pc := .failed })
  | .checking snap =>
    (g.rt.resume cfg t ok).map (fun rt =>
      { g with rt := rt }.answer t (g.judging cfg t task) snap)
  | _ => none

/-- **One step of a process and the reads of its actors.** -/
def step (cfg : RuntimeConfig S Env Op) (g : Gateway S Env Op) :
    GatewayAct Env → Option (Gateway S Env Op)
  | .runtime x =>
    if g.reserved x = true then none
    else (g.rt.step cfg x).map (fun rt => { g with rt := rt })
  | .request t q principal path c id => g.request cfg t q principal path c id
  | .handler t ok =>
    match g.reads t with
    | none => none
    | some task => g.handlerStep cfg t task ok

end Gateway

/-! ## What is to hold

`Gated` is about what has left the process: what a handler has written, and
what a listener was sent. -/

namespace Gateway

/-- **Whoever reads was allowed to**: what a handler has written to a connection,
and what its subscription has sent it, are of an actor that the read policy of
its class has allowed the principal to read; and nobody else is sent
anything. -/
structure Gated (g : Gateway S Env Op) : Prop where
  written : ∀ t task, g.reads t = some task → ∀ p ∈ task.written, p.fst ∈ task.allowed
  sent : ∀ r o t task n, g.rt.objects r = some o → g.reads t = some task →
    n ∈ task.sink (o.hist.notifs t) → task.id = o.id ∧ o.className ∈ task.allowed
  others : ∀ r o t, g.rt.objects r = some o → g.reads t = none → o.hist.notifs t = []

/-- **The policy would have allowed what the handlers do not ask it**: when a
stream has its host, to replay the log after an event or to attach to it, the read
policy of the class of the host allows the principal. -/
def wouldAllow (cfg : RuntimeConfig S Env Op) (g : Gateway S Env Op) :
    GatewayAct Env → Bool
  | .handler t _ =>
    match g.reads t with
    | none => true
    | some task =>
      match task.pc with
      | .locating q lastEventId =>
        match g.rt.requests q with
        | some ⟨_, .returned r⟩ =>
          (g.rt.objects r).all (fun o => decide (o.host.currentSeq ≤ (lastEventId : ℤ))
            || cfg.allowsRead o.className task.principal task.id o)
        | _ => true
      | .attaching _ =>
        match g.rt.requests t with
        | some ⟨_, .resolved r⟩ =>
          (g.rt.objects r).all (fun o => task.allowed.contains o.className
            || cfg.allowsRead o.className task.principal task.id o)
        | _ => true
      | _ => true
  | _ => true

/-! ## What keeps it so

A read is allowed when its handler has asked, or would have been allowed had
it asked: that is the condition, at the step where the host arrives. -/

/-- The read of that number is of the actor of the object, and was allowed. -/
def Allowed (g : Gateway S Env Op) (t : ℕ) (o : HostObject S Env Op) : Prop :=
  ∃ task, g.reads t = some task ∧ task.id = o.id ∧ o.className ∈ task.allowed

end Gateway

/-- A read is where its request is, and has been allowed what it has written, or
is about to. -/
structure ReadTask.Proper (task : ReadTask S Op) (rt : Runtime S Env Op) (t : ℕ) :
    Prop where
  written : ∀ p ∈ task.written, p.fst ∈ task.allowed
  reading : ∀ c lastEventId, task.pc = .reading c lastEventId → c ∈ task.allowed
  attaching : ∀ seq, task.pc = .attaching seq →
    ∃ pc, rt.requests t = some ⟨.subscribe task.className task.id, pc⟩
  checking : ∀ snap, task.pc = .checking snap →
    ∃ pc, rt.requests t = some ⟨.checkRead snap.cls task.id task.principal, pc⟩

/-- **The invariant of a process under the condition.** -/
structure Gateway.Guarded (g : Gateway S Env Op) : Prop where
  sound : g.rt.Sound
  listeners : ∀ r o t, g.rt.objects r = some o →
    t ∈ o.host.commitListeners ∨ o.hist.notifs t ≠ [] → g.Allowed t o
  reads : ∀ t task, g.reads t = some task → task.Proper g.rt t

theorem mem_of_mem_wrapSinkForResume {seq : ℤ} {b : Bool}
    {ns : List (Notification S Op)} {n : Notification S Op}
    (h : n ∈ wrapSinkForResume seq b ns) : n ∈ ns := by
  fun_induction wrapSinkForResume seq b ns with
  | case1 => exact h
  | case2 data q ns ih => exact List.mem_cons_of_mem _ (ih h)
  | case3 b events q ns hle ih => exact List.mem_cons_of_mem _ (ih h)
  | case4 b events q ns hle ih =>
    rcases List.mem_cons.mp h with rfl | h
    · exact List.mem_cons_self
    · exact List.mem_cons_of_mem _ (ih h)
  | case5 b n' ns h₁ h₂ ih =>
    rcases List.mem_cons.mp h with rfl | h
    · exact List.mem_cons_self
    · exact List.mem_cons_of_mem _ (ih h)

@[simp] theorem Gateway.reads_setRead_self (g : Gateway S Env Op) (t : ℕ)
    (task : ReadTask S Op) : (g.setRead t task).reads t = some task :=
  Function.update_self _ _ _
theorem Gateway.reads_setRead_ne (g : Gateway S Env Op) {t t' : ℕ} (h : t' ≠ t)
    (task : ReadTask S Op) : (g.setRead t task).reads t' = g.reads t' :=
  Function.update_of_ne h _ _

/-- A new host has no listeners, and has told nobody anything. -/
theorem HostObject.new_quiet (cfg : HostConfig S Env Op) (store : ActorStore S) :
    (HostObject.new cfg store).host.commitListeners = []
      ∧ (HostObject.new cfg store).hist.notifs = fun _ => [] := by
  have hb : Beside (Sys.init cfg store) ((Sys.init cfg store).activate cfg) :=
    .activate _
  exact ⟨hb.commitListeners, hb.notifs⟩

namespace Gateway.Guarded

variable {cfg : RuntimeConfig S Env Op} {g g' : Gateway S Env Op}
  {rt' : Runtime S Env Op} {t : ℕ} {task task' : ReadTask S Op}

theorem init (stores : ActorId → ActorStore S) :
    (Gateway.init stores : Gateway S Env Op).Guarded where
  sound := .init stores
  listeners r o t ho := absurd ho (by simp [Gateway.init, Runtime.init])
  reads t task h := absurd h (by simp [Gateway.init])

/-- A step of the process. Who subscribes in it has been allowed to. -/
theorem runtime {x : RuntimeAct Env} (h : g.Guarded)
    (hs : g.rt.step cfg x = some rt')
    (hatt : ∀ r o l c id ok, x = .resume l ok →
      g.rt.requests l = some ⟨.subscribe c id, .resolved r⟩ → g.rt.objects r = some o →
      g.Allowed l o) : { g with rt := rt' }.Guarded where
  sound := h.sound.step hs
  reads t task ht := by
    obtain ⟨hw, hr, ha, hc⟩ := h.reads t task ht
    have hm := Runtime.step_moves hs
    refine ⟨hw, hr, fun seq hpc => ?_, fun snap hpc => ?_⟩
    · obtain ⟨pc, hq⟩ := ha seq hpc
      exact hm.asked hq
    · obtain ⟨pc, hq⟩ := hc snap hpc
      exact hm.asked hq
  listeners r o' t ho' hor := by
    obtain ho | ⟨o, a, s, ho, hwho, -, hstep, rfl⟩ | ⟨-, id, registration, rfl⟩ :=
      (Runtime.step_moves hs).object ho'
    · exact h.listeners r o' t ho hor
    · have hold : t ∈ o.host.commitListeners ∨ o.hist.notifs t ≠ [] → g.Allowed t o :=
        h.listeners r o t ho
      by_cases hsub : ∃ l, a = .subscribe l
      · obtain ⟨l, rfl⟩ := hsub
        obtain ⟨c, id, ok, hx, hq⟩ := hwho l rfl
        obtain ⟨hlis, hnot⟩ := Sys.subscribe_eq hstep
        by_cases he : t = l
        · subst he
          exact hatt r o t c id ok hx hq ho
        · refine hold (hor.imp (fun hm => ?_) (fun hne hnil => hne ?_))
          · have hm' : t ∈ o.host.commitListeners ++ [l] := hlis ▸ hm
            simpa [he] using hm'
          · exact (hnot t he).trans hnil
      · have hh : Hears (g.rt.sys o) s :=
          Sys.hears_step (h.sound.lifecycle r o ho) (fun l hl => hsub ⟨l, hl⟩) hstep
        by_cases hm : t ∈ o.host.commitListeners
        · exact hold (.inl hm)
        · refine hold (.inr ?_)
          rcases hor with hl | hne
          · exact absurd (hh.listeners hl) hm
          · exact fun hnil => hne ((hh.notifs t hm).trans hnil)
    · obtain ⟨hlis, hnot⟩ := HostObject.new_quiet (cfg.hostConfig id registration)
        (g.rt.stores id)
      rcases hor with hm | hne
      · exact absurd (hlis ▸ hm) List.not_mem_nil
      · exact absurd (congrFun hnot t) hne

/-- A read goes on, with what it was allowed before. -/
theorem setRead (h : g.Guarded) (hp : task'.Proper g.rt t)
    (hkeep : ∀ task, g.reads t = some task →
      task'.id = task.id ∧ task.allowed ⊆ task'.allowed) : (g.setRead t task').Guarded where
  sound := h.sound
  reads t' task ht := by
    by_cases he : t' = t
    · subst he
      rw [reads_setRead_self] at ht
      exact Option.some.inj ht ▸ hp
    · rw [reads_setRead_ne g he] at ht
      exact h.reads t' task ht
  listeners r o t' ho hor := by
    obtain ⟨task, ht, hid, hcls⟩ := h.listeners r o t' ho hor
    by_cases he : t' = t
    · subst he
      obtain ⟨hid', hsub⟩ := hkeep task ht
      exact ⟨task', reads_setRead_self g t' task', hid'.trans hid, hsub hcls⟩
    · exact ⟨task, (reads_setRead_ne g he task').trans ht, hid, hcls⟩

/-- Only what its handler has to do next changes. -/
theorem setPc (h : g.Guarded) (ht : g.reads t = some task) {pc : ReadPc S}
    (hr : ∀ c lastEventId, pc = .reading c lastEventId → c ∈ task.allowed)
    (ha : ∀ seq, pc = .attaching seq →
      ∃ pc, g.rt.requests t = some ⟨.subscribe task.className task.id, pc⟩)
    (hc : ∀ snap, pc = .checking snap →
      ∃ pc, g.rt.requests t = some ⟨.checkRead snap.cls task.id task.principal, pc⟩) :
    (g.setRead t { task with pc := pc }).Guarded := by
  refine h.setRead ⟨(h.reads t task ht).written, hr, ha, hc⟩ (fun task₀ ht₀ => ?_)
  obtain rfl := Option.some.inj (ht.symm.trans ht₀)
  exact ⟨rfl, List.Subset.refl _⟩

/-- A request of the process is made. -/
theorem start {q : ℕ} {ask : Ask} {admitted : Bool} (h : g.Guarded)
    (hs : g.rt.start cfg q ask admitted = some rt') : { g with rt := rt' }.Guarded :=
  h.runtime (x := .start q ask admitted) hs
    (fun _ _ _ _ _ _ he => absurd he (by simp))

/-- What the policy says is recorded, and nothing is forgotten. -/
theorem judge_keeps (cfg : RuntimeConfig S Env Op) (task : ReadTask S Op)
    (c : ClassName) (o : HostObject S Env Op) :
    (task.judge cfg c o).id = task.id ∧ task.allowed ⊆ (task.judge cfg c o).allowed := by
  unfold ReadTask.judge
  split
  · exact ⟨rfl, List.subset_cons_self _ _⟩
  · exact ⟨rfl, List.Subset.refl _⟩

theorem mem_judge {c : ClassName} {o : HostObject S Env Op}
    (h : cfg.allowsRead c task.principal task.id o = true) :
    c ∈ (task.judge cfg c o).allowed := by
  rw [ReadTask.judge, if_pos h]
  exact List.mem_cons_self

/-- A read whose policy is recorded is still where its request is. -/
theorem judging_proper (cfg : RuntimeConfig S Env Op) (h : g.Guarded) (ht : g.reads t = some task) :
    (g.judging cfg t task).Proper g.rt t ∧ (g.judging cfg t task).id = task.id
      ∧ task.allowed ⊆ (g.judging cfg t task).allowed := by
  have hp := h.reads t task ht
  have hjudge : ∀ c o, (task.judge cfg c o).Proper g.rt t := by
    intro c o
    obtain ⟨hid, hsub⟩ := judge_keeps cfg task c o
    unfold ReadTask.judge at hid hsub ⊢
    split
    · exact ⟨fun p hw => List.mem_cons_of_mem _ (hp.written p hw),
        fun c' e hpc => List.mem_cons_of_mem _ (hp.reading c' e hpc), hp.attaching,
        hp.checking⟩
    · exact hp
  unfold judging
  split
  · split
    · exact ⟨hp, rfl, List.Subset.refl _⟩
    · exact ⟨hjudge _ _, judge_keeps cfg task _ _⟩
  · exact ⟨hp, rfl, List.Subset.refl _⟩

/-- `getHost` of a replay returns. -/
theorem located (h : g.Guarded) (ht : g.reads t = some task) {lastEventId : ℕ}
    {o : HostObject S Env Op}
    (hG : o.host.currentSeq ≤ lastEventId
      ∨ cfg.allowsRead o.className task.principal task.id o = true) :
    (g.located cfg t task lastEventId o).Guarded := by
  unfold Gateway.located
  split
  · exact h.setPc ht (by simp) (by simp) (by simp)
  · next hseq =>
    have hmem : o.className ∈ (task.judge cfg o.className o).allowed :=
      mem_judge (hG.resolve_left hseq)
    obtain ⟨hid, hsub⟩ := judge_keeps cfg task o.className o
    refine h.setRead ⟨?_, ?_, by simp, by simp⟩ (fun task₀ ht₀ => ?_)
    · intro p hw
      refine hsub ((h.reads t task ht).written p ?_)
      have hwritten : (task.judge cfg o.className o).written = task.written := by
        unfold ReadTask.judge
        split <;> rfl
      exact hwritten ▸ hw
    · intro c e he
      obtain ⟨rfl, -⟩ := ReadPc.reading.inj he
      exact hmem
    · obtain rfl := Option.some.inj (ht.symm.trans ht₀)
      exact ⟨hid, hsub⟩

/-- The log is read. -/
theorem replayed (h : g.Guarded) (ht : g.reads t = some task) {c : ClassName}
    {lastEventId : ℕ} (hpc : task.pc = .reading c lastEventId)
    (records : List (ℤ × EventRow)) :
    (g.setRead t (task.replayed c records)).Guarded := by
  unfold ReadTask.replayed
  split
  · exact h.setPc ht (by simp) (by simp) (by simp)
  · refine h.setRead ⟨?_, by simp, by simp, by simp⟩ (fun task₀ ht₀ => ?_)
    · intro p hp
      rw [List.mem_singleton.mp hp]
      exact (h.reads t task ht).reading c lastEventId hpc
    · obtain rfl := Option.some.inj (ht.symm.trans ht₀)
      exact ⟨rfl, List.Subset.refl _⟩

/-- A subscription goes on; if it attaches, the policy has said that it may. -/
theorem attaching (h : g.Guarded) (ht : g.reads t = some task) {seq : Option ℤ}
    {ok : Bool} (hpc : task.pc = .attaching seq)
    (hG : ∀ ask r o, g.rt.requests t = some ⟨ask, .resolved r⟩ →
      g.rt.objects r = some o → o.className ∈ task.allowed
        ∨ cfg.allowsRead o.className task.principal task.id o = true)
    (hs : g.rt.resume cfg t ok = some rt') :
    ({ g with rt := rt' }.setRead t (g.judging cfg t task)).Guarded := by
  obtain ⟨hp, hid, hsub⟩ := h.judging_proper cfg ht
  have h₁ : (g.setRead t (g.judging cfg t task)).Guarded := by
    refine h.setRead hp (fun task₀ ht₀ => ?_)
    obtain rfl := Option.some.inj (ht.symm.trans ht₀)
    exact ⟨hid, hsub⟩
  refine h₁.runtime (x := .resume t ok) hs (fun r o l c id ok' hx hq ho => ?_)
  obtain ⟨rfl, -⟩ := RuntimeAct.resume.inj hx
  obtain ⟨pc, hq'⟩ := (h.reads t task ht).attaching seq hpc
  obtain ⟨hask, -⟩ := AskTask.mk.inj (Option.some.inj (hq'.symm.trans hq))
  obtain ⟨o', ho', hoid⟩ := h.sound.requests t _ _ r hq rfl
  obtain rfl := Option.some.inj (ho'.symm.trans ho)
  refine ⟨_, reads_setRead_self g t _, ?_, ?_⟩
  · obtain ⟨-, rfl⟩ := Ask.subscribe.inj hask
    rw [hid]
    exact (hoid _ _ rfl).symm
  · rcases hG _ r o' hq ho with hm | ha
    · exact hsub hm
    · have hj : g.judging cfg t task = task.judge cfg o'.className o' := by
        unfold judging
        rw [show g.rt.requests t = _ from hq]
        dsimp only
        rw [ho']
        rfl
      rw [hj]
      exact mem_judge ha

end Gateway.Guarded

/-- A request that has just been made is not through. -/
theorem Runtime.requests_start {cfg : RuntimeConfig S Env Op}
    {rt rt' : Runtime S Env Op} {t : ℕ} {ask : Ask} {c : ClassName} {id : ActorId}
    (hask : ask = .subscribe c id ∨ ∃ p, ask = .checkRead c id p)
    (hs : rt.start cfg t ask true = some rt') :
    ∃ pc, rt'.requests t = some ⟨ask, pc⟩ ∧ pc ≠ .done := by
  have hresolve : ∃ pc, (rt.resolve cfg t ask c id).requests t = some ⟨ask, pc⟩
      ∧ pc ≠ .done := by
    unfold resolve
    split
    · exact ⟨_, requests_setRequest_self, by simp⟩
    split
    · exact ⟨_, requests_setRequest_self, by simp⟩
    split
    · exact ⟨_, requests_setRequest_self, by simp⟩
    split
    · exact ⟨_, requests_setRequest_self, by simp⟩
    split
    · exact ⟨_, requests_setRequest_self, by simp⟩
    · exact ⟨_, requests_setRequest_self, by simp⟩
  unfold start at hs
  split at hs
  · exact absurd hs (by simp)
  obtain rfl | ⟨p, rfl⟩ := hask
  · exact Option.some.inj hs ▸ hresolve
  · exact Option.some.inj hs ▸ hresolve

/-- A `checkRead` resolves only if the policy that it names allows the
principal. -/
theorem Runtime.resume_done {cfg : RuntimeConfig S Env Op} {rt rt' : Runtime S Env Op}
    {t : ℕ} {ok : Bool} {c : ClassName} {id : ActorId} {p : Principal} {pc : AskPc}
    {ask : Ask} (hq : rt.requests t = some ⟨.checkRead c id p, pc⟩)
    (hs : rt.resume cfg t ok = some rt') (hd : rt'.requests t = some ⟨ask, .done⟩) :
    ∃ r o, pc = .resolved r ∧ rt.objects r = some o ∧ cfg.allowsRead c p id o = true := by
  -- what the request has become
  have hset : ∀ {t' : Runtime S Env Op} {pc'},
      rt' = t'.setRequest t (.checkRead c id p) pc' → pc' = .done := by
    rintro t' pc' rfl
    rw [requests_setRequest_self] at hd
    exact (AskTask.mk.inj (Option.some.inj hd)).2
  rw [resume, hq] at hs
  cases pc with
  | creating r =>
    dsimp only at hs
    split at hs
    · exact absurd hs (by simp)
    · obtain ⟨result, -, rfl⟩ := Option.map_eq_some_iff.mp hs
      cases result with
      | ok _ => exact absurd (hset rfl) (by simp)
      | error e => exact absurd (hset rfl) (by simp)
  | waiting r =>
    dsimp only at hs
    split at hs
    · exact absurd hs (by simp)
    split at hs
    · exact absurd hs (by simp)
    split at hs
    · exact absurd hs (by simp)
    · exact absurd (hset (Option.some.inj hs).symm) (by simp)
    · exact absurd (hset (Option.some.inj hs).symm) (by simp)
  | resolved r =>
    dsimp only at hs
    split at hs
    · exact absurd hs (by simp)
    next o ho =>
    simp only [serve, permitted] at hs
    split at hs
    · next hp => exact ⟨r, o, rfl, ho, by rw [RuntimeConfig.allowsRead, hp]; rfl⟩
    · exact absurd (hset (Option.some.inj hs).symm) (by simp)
  | _ => exact absurd hs (by simp)

namespace Gateway.Guarded

variable {cfg : RuntimeConfig S Env Op} {g g' : Gateway S Env Op}
  {rt' : Runtime S Env Op} {t : ℕ} {task task' : ReadTask S Op}

/-- The snapshot route answers, if its check was passed. -/
theorem answer (h : g.Guarded) {snap : SnapshotRead S}
    (hp : task.Proper g.rt t)
    (hkeep : ∀ task₀, g.reads t = some task₀ →
      task.id = task₀.id ∧ task₀.allowed ⊆ task.allowed)
    (hdone : ∀ ask, g.rt.requests t = some ⟨ask, .done⟩ → snap.cls ∈ task.allowed) :
    (g.answer t task snap).Guarded := by
  unfold Gateway.answer
  split
  · next ask hq =>
    refine h.setRead ⟨?_, by simp, by simp, by simp⟩ hkeep
    intro p hw
    rw [List.mem_singleton.mp hw]
    exact hdone ask hq
  · exact h.setRead ⟨hp.written, by simp, by simp, by simp⟩ hkeep
  · exact h.setRead hp hkeep

/-- `checkRead` goes on. -/
theorem checking (h : g.Guarded) (ht : g.reads t = some task) {snap : SnapshotRead S}
    {ok : Bool} (hpc : task.pc = .checking snap)
    (hs : g.rt.resume cfg t ok = some rt') :
    ({ g with rt := rt' }.answer t (g.judging cfg t task) snap).Guarded := by
  obtain ⟨hp, hid, hsub⟩ := h.judging_proper cfg ht
  obtain ⟨pc, hq⟩ := (h.reads t task ht).checking snap hpc
  -- the request is not one for a subscription
  have h₁ : { g with rt := rt' }.Guarded := by
    refine h.runtime (x := .resume t ok) hs (fun r o l c id ok' hx hq' _ => ?_)
    obtain ⟨rfl, -⟩ := RuntimeAct.resume.inj hx
    exact absurd (hq.symm.trans hq') (by simp)
  refine h₁.answer ?_ (fun task₀ ht₀ => ?_) (fun ask hd => ?_)
  · exact { hp with
      attaching := fun seq hpc' => by
        obtain ⟨pc', hq'⟩ := hp.attaching seq hpc'
        exact (Runtime.step_moves (x := .resume t ok) hs).asked hq'
      checking := fun snap' hpc' => by
        obtain ⟨pc', hq'⟩ := hp.checking snap' hpc'
        exact (Runtime.step_moves (x := .resume t ok) hs).asked hq' }
  · obtain rfl := Option.some.inj (ht.symm.trans ht₀)
    exact ⟨hid, hsub⟩
  · obtain ⟨r, o, rfl, ho, ha⟩ := Runtime.resume_done hq hs hd
    have hj : g.judging cfg t task = task.judge cfg snap.cls o := by
      unfold judging
      rw [hq]
      dsimp only
      rw [ho]
      rfl
    rw [hj]
    exact mem_judge ha

/-- **One segment of the handler of a read.** -/
theorem handlerStep {ok : Bool} (h : g.Guarded) (ht : g.reads t = some task)
    (hG : g.wouldAllow cfg (.handler t ok) = true)
    (hs : g.handlerStep cfg t task ok = some g') : g'.Guarded := by
  have hfail : g.setRead t { task with pc := .failed } = g' → g'.Guarded := by
    rintro rfl
    exact h.setPc ht (by simp) (by simp) (by simp)
  unfold Gateway.handlerStep at hs
  simp only [wouldAllow, ht] at hG
  split at hs
  · next q lastEventId hpc =>
    rw [hpc] at hG
    split at hs
    · next ask r hq =>
      obtain ⟨o, ho, rfl⟩ := Option.map_eq_some_iff.mp hs
      refine h.located ht ?_
      simpa [hq, ho] using hG
    · exact hfail (Option.some.inj hs)
    · exact absurd hs (by simp)
  · next c lastEventId hpc =>
    split at hs
    · exact Option.some.inj hs ▸ h.replayed ht hpc _
    · exact hfail (Option.some.inj hs)
  · next seq hpc =>
    split at hs
    · obtain ⟨rt', hrt, rfl⟩ := Option.map_eq_some_iff.mp hs
      refine (h.start hrt).setPc ht (by simp) (fun seq' _ => ?_) (by simp)
      obtain ⟨pc, hq, -⟩ := Runtime.requests_start (.inl rfl) hrt
      exact ⟨pc, hq⟩
    · exact hfail (Option.some.inj hs)
  · next seq hpc =>
    obtain ⟨rt', hrt, rfl⟩ := Option.map_eq_some_iff.mp hs
    refine h.attaching ht hpc (fun ask r o hq ho => ?_) hrt
    rw [hpc] at hG
    simpa [hq, ho] using hG
  · split at hs
    · split at hs
      · exact hfail (Option.some.inj hs)
      · next snap _ =>
        split at hs
        · next hcls =>
          obtain ⟨rt', hrt, rfl⟩ := Option.map_eq_some_iff.mp hs
          obtain ⟨pc, hq, hne⟩ := Runtime.requests_start (.inr ⟨_, rfl⟩) hrt
          refine (h.start hrt).answer ⟨(h.reads t task ht).written, by simp, by simp, ?_⟩
            (fun task₀ ht₀ => ?_) (fun ask hd => ?_)
          · intro snap' he
            obtain rfl := ReadPc.checking.inj he
            exact ⟨pc, hq⟩
          · obtain rfl := Option.some.inj (ht.symm.trans ht₀)
            exact ⟨rfl, List.Subset.refl _⟩
          · exact absurd (AskTask.mk.inj (Option.some.inj (hq.symm.trans hd))).2 hne
        · exact hfail (Option.some.inj hs)
    · exact hfail (Option.some.inj hs)
  · next snap hpc =>
    obtain ⟨rt', hrt, rfl⟩ := Option.map_eq_some_iff.mp hs
    exact h.checking ht hpc hrt
  · exact absurd hs (by simp)

/-- A read is begun. -/
theorem request {q : ℕ} {principal : Principal} {path : ReadPath}
    {className : ClassName} {id : ActorId} (h : g.Guarded)
    (hs : g.request cfg t q principal path className id = some g') : g'.Guarded := by
  unfold Gateway.request at hs
  split at hs
  · exact absurd hs (by simp)
  next hn =>
  have hnone : g.reads t = none := by
    simp only [not_or, Option.not_isSome_iff_eq_none] at hn
    exact hn.1
  have hnew : ∀ {u : Gateway S Env Op} {pc : ReadPc S}, u.Guarded → u.reads = g.reads →
      (∀ c e, pc ≠ .reading c e) → (∀ seq, pc ≠ .attaching seq) →
      (∀ snap, pc ≠ .checking snap) →
      (u.setRead t ⟨principal, className, id, pc, [], []⟩).Guarded :=
    fun h hu hr ha hc => h.setRead
      ⟨fun _ hp => absurd hp List.not_mem_nil, fun c e he => absurd he (hr c e),
        fun seq he => absurd he (ha seq), fun snap he => absurd he (hc snap)⟩
      (fun task ht => absurd ht (by simp [hu, hnone]))
  split at hs
  · exact Option.some.inj hs ▸ hnew h rfl (by simp) (by simp) (by simp)
  · exact Option.some.inj hs ▸ hnew h rfl (by simp) (by simp) (by simp)
  · obtain ⟨rt', hrt, rfl⟩ := Option.map_eq_some_iff.mp hs
    exact hnew (h.start hrt) rfl (by simp) (by simp) (by simp)
  · exact Option.some.inj hs ▸ hnew h rfl (by simp) (by simp) (by simp)

/-- **Every step taken under the condition keeps to it.** -/
theorem step {x : GatewayAct Env} (h : g.Guarded) (hG : g.wouldAllow cfg x = true)
    (hs : g.step cfg x = some g') : g'.Guarded := by
  cases x with
  | runtime x =>
    rw [Gateway.step] at hs
    split at hs
    · exact absurd hs (by simp)
    next hres =>
    obtain ⟨rt', hrt, rfl⟩ := Option.map_eq_some_iff.mp hs
    -- a subscription does not go on by itself
    refine h.runtime hrt (fun r o l c id ok hx hq _ => absurd ?_ hres)
    simp only [hx, reserved, hq]
  | request t q principal path c id => exact h.request hs
  | handler t ok =>
    rw [Gateway.step] at hs
    split at hs
    · exact absurd hs (by simp)
    · next task ht => exact h.handlerStep ht hG hs

/-- The guard says what follows from it: everything sent was allowed. -/
theorem gated (h : g.Guarded) : g.Gated where
  written t task ht := (h.reads t task ht).written
  sent r o t task n ho ht hn := by
    have hne : o.hist.notifs t ≠ [] := by
      intro hnil
      rw [hnil] at hn
      unfold ReadTask.sink at hn
      split at hn
      · exact absurd (mem_of_mem_wrapSinkForResume hn) List.not_mem_nil
      · exact absurd hn List.not_mem_nil
      · exact absurd hn List.not_mem_nil
    obtain ⟨task', ht', hid, hcls⟩ := h.listeners r o t ho (.inr hne)
    obtain rfl := Option.some.inj (ht.symm.trans ht')
    exact ⟨hid, hcls⟩
  others r o t ho ht := by
    by_contra hne
    obtain ⟨task, ht', -⟩ := h.listeners r o t ho (.inr hne)
    exact absurd ht' (by simp [ht])

end Gateway.Guarded

/-- **Read gating.** In every run in which the policies would have allowed what
the streams do not ask them, no state, patch or event has been written or sent to
a connection whose principal the read policy of the actor has not allowed; the
snapshot route takes no condition, for it asks. -/
theorem Gateway.read_gating (cfg : RuntimeConfig S Env Op)
    (stores : ActorId → ActorStore S) {xs : List (GatewayAct Env)}
    {g : Gateway S Env Op}
    (hG : TransitionSystem.Along (step cfg) (fun g x => g.wouldAllow cfg x = true)
      (init stores) xs)
    (hrun : TransitionSystem.run (step cfg) (init stores) xs = some g) : g.Gated :=
  (TransitionSystem.run_invariant (step cfg) (P := Guarded)
    (fun _ _ _ h hG hs => h.step hG hs) (.init stores) hG hrun).gated

/-! ## Reads of a counter -/

namespace Gateway

/-- Somebody subscribes to the counter over a WebSocket, and it is called. -/
def watched (principal : Principal) : List (GatewayAct Bool) :=
  [.request 0 7 principal .ws "Counter" "counter-1", .handler 0 true]
    ++ (Counter.hostActivating 0 7).map .runtime
    ++ [.handler 0 true, .handler 0 true,
      .runtime (.start 5 (.call "Counter" "counter-1" "inc" .null anonymousPrincipal) true),
      .runtime (.resume 5 true)]
    ++ (Counter.hostWorking 0 1 2).map .runtime

/-- An admin gets the snapshot of the counter, and someone else does not. -/
def fetched : List (GatewayAct Bool) :=
  [.request 1 7 Counter.admin .rest "Counter" "counter-1", .handler 1 true,
    .handler 1 true,
    .request 2 7 anonymousPrincipal .rest "Counter" "counter-1", .handler 2 true,
    .handler 2 true]

/-- The theorem applies to an admin who subscribes: the snapshot and a patch are
sent, and the route answers the one who may read. -/
theorem read_gating_admin :
    ∃ g : Gateway ℕ Bool ℕ,
      TransitionSystem.run (step Counter.runtime) (init (Counter.stored 5))
        (watched Counter.admin ++ fetched) = some g
      ∧ ((g.rt.objects 0).map (fun o => (o.hist.notifs 0).length)) = some 2
      ∧ ((g.reads 1).map (fun task => task.written.length)) = some 1
      ∧ ((g.reads 2).map (fun task => task.written.length)) = some 0
      ∧ g.Gated := by
  have hrun : (TransitionSystem.run (step Counter.runtime) (init (Counter.stored 5))
      (watched Counter.admin ++ fetched)).any (fun g =>
        ((g.rt.objects 0).map (fun o => (o.hist.notifs 0).length)) == some 2
        && ((g.reads 1).map (fun task => task.written.length)) == some 1
        && ((g.reads 2).map (fun task => task.written.length)) == some 0) = true := by
    decide +kernel
  obtain ⟨g, hg, h⟩ := (Option.any_eq_true _ _).mp hrun
  obtain ⟨h, h₂⟩ := Bool.and_eq_true_iff.mp h
  obtain ⟨h₀, h₁⟩ := Bool.and_eq_true_iff.mp h
  exact ⟨g, hg, beq_iff_eq.mp h₀, beq_iff_eq.mp h₁, beq_iff_eq.mp h₂,
    read_gating Counter.runtime (Counter.stored 5) (by decide) hg⟩

/-- **Anyone gets to read the counter over a WebSocket**, state and patches, though
its policy lets only an admin. -/
theorem not_read_gating :
    ¬∀ (xs : List (GatewayAct Bool)) (g : Gateway ℕ Bool ℕ),
      TransitionSystem.run (step Counter.runtime) (init (Counter.stored 5)) xs = some g →
      g.Gated := by
  intro h
  have hrun : (TransitionSystem.run (step Counter.runtime) (init (Counter.stored 5))
      (watched anonymousPrincipal)).any (fun g =>
        (g.rt.objects 0).any (fun o => (g.reads 0).any (fun task =>
          !(task.sink (o.hist.notifs 0)).isEmpty && task.allowed.isEmpty))) = true := by
    decide +kernel
  obtain ⟨g, hg, hf⟩ := (Option.any_eq_true _ _).mp hrun
  obtain ⟨o, ho, hf⟩ := (Option.any_eq_true _ _).mp hf
  obtain ⟨task, ht, hf⟩ := (Option.any_eq_true _ _).mp hf
  obtain ⟨hsent, hnone⟩ := Bool.and_eq_true_iff.mp hf
  have hne : task.sink (o.hist.notifs 0) ≠ [] := by simpa using hsent
  obtain ⟨n, hn⟩ := List.exists_mem_of_ne_nil _ hne
  have hmem := ((h _ g hg).sent 0 o 0 task n ho ht hn).2
  rw [List.isEmpty_iff.mp hnone] at hmem
  exact absurd hmem List.not_mem_nil

end Gateway
